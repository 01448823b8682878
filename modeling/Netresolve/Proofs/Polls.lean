/-
The watches that Avahi has the backend add.

Each watch of the backend is the one that a watch or timeout of the library points to, and no two
point to the same.  The library changes one at a time, so the invariant is about that one and the
rest.  A watch or timeout that is freed stays so as long as the library asks for no new one, so when
the client is freed, and all that are left with it, there is nothing that points to a watch.
-/
import Netresolve.Backends.Avahi
import Netresolve.Proofs.Watching

namespace Netresolve.Avahi

open Outcome Watching

/-! ### Pointers to watches -/

/-- The watches that watches and timeouts of the library point to. -/
def pointers (polls : List (Option Poll)) : List Nat := polls.filterMap (·.bind Poll.watch)

/-- The watches of the backend are those, each once. -/
structure Pointed (R : List Nat) (polls : List (Option Poll)) (s : St) : Prop where
  holding : Holding R s
  pointed : ((own s).map (·.id)).Perm (pointers polls)

section

variable {env : Env} {R : List Nat} {s : St} {polls : List (Option Poll)}

theorem pointers_set {h : Nat} (hh : h < polls.length) (poll : Option Poll) :
    (pointers (polls.set h poll)).Perm
      ((poll.bind Poll.watch).toList ++ pointers (polls.eraseIdx h)) := by
  unfold pointers
  rw [List.set_eq_take_append_cons_drop, if_pos hh, List.eraseIdx_eq_take_drop_succ,
    List.filterMap_append, List.filterMap_append, List.filterMap_cons]
  cases poll.bind Poll.watch with
  | none => exact .refl _
  | some n => exact List.perm_middle

theorem pointers_get {h : Nat} {poll : Poll} (hpoll : polls[h]?.join = some poll) :
    h < polls.length ∧ (pointers polls).Perm (poll.watch.toList ++ pointers (polls.eraseIdx h)) := by
  have hget : polls[h]? = some (some poll) := by
    cases hp : polls[h]? with
    | none =>
        rw [hp] at hpoll
        cases hpoll
    | some o =>
        rw [hp] at hpoll
        exact congrArg some hpoll
  obtain ⟨hh, heq⟩ := List.getElem?_eq_some_iff.mp hget
  refine ⟨hh, ?_⟩
  have hset := pointers_set hh (some poll)
  rwa [← heq, List.set_getElem_self, heq] at hset

theorem pointers_append (poll : Option Poll) :
    (pointers (polls ++ [poll])).Perm ((poll.bind Poll.watch).toList ++ pointers polls) := by
  unfold pointers
  rw [List.filterMap_append]
  refine List.perm_append_comm.trans ?_
  cases h : poll.bind Poll.watch with
  | none => simp [h]
  | some n => simp [h]

/-! ### Changes -/

theorem Pointed.congr {s' : St} (h : Pointed R polls s) (hholding : Holding R s')
    (hown : own s' = own s) : Pointed R polls s' :=
  ⟨hholding, by rw [hown]; exact h.pointed⟩

/-- The watches of the backend are the one of this pointer, if it is set, and the rest. -/
def Beside (R : List Nat) (rest : List Nat) (watch : Option Nat) (s : St) : Prop :=
  Holding R s ∧ ((own s).map (·.id)).Perm (watch.toList ++ rest)

variable {rest : List Nat}

theorem remove_ok (hdel : ∀ w, env.epollDel w = true) {n : Nat} (h : Beside R rest (some n) s)
    (doClose : Bool) :
    Sat (removeAt env (some n) doClose) s (fun _ => Beside R rest none) (fun _ _ => False) := by
  have hmem : n ∈ (own s).map (·.id) := h.2.mem_iff.mpr (List.mem_cons_self ..)
  obtain ⟨s', hrun, hholding, hown, -⟩ := removeAt_ok hdel h.1 hmem doClose
  rw [sat_of_eq hrun]
  refine ⟨hholding, ?_⟩
  rw [hown, map_id_eraseP]
  have herase := h.2.erase n
  rwa [show (some n).toList ++ rest = n :: rest from rfl, List.erase_cons_head] at herase

theorem add_ok (hadd : ∀ w, env.epollAdd w = true) (h : Beside R rest none s) (fd : Nat) :
    Sat (addFor env fd) s (fun n => Beside R rest (some n)) (fun _ _ => False) := by
  obtain ⟨n, s', hrun, hholding, hown, -⟩ := addFor_ok hadd h.1 fd
  rw [sat_of_eq hrun]
  refine ⟨hholding, ?_⟩
  rw [hown, List.map_append]
  exact List.perm_append_comm.trans (h.2.cons n)

variable (hadd : ∀ w, env.epollAdd w = true) (hdel : ∀ w, env.epollDel w = true)
include hadd hdel

theorem update_ok {poll : Poll} (h : Beside R rest poll.watch s) (doClose : Bool)
    (fd : Option Nat) :
    Sat (update (addFor env) (fun n => removeAt env (some n)) poll doClose fd) s
      (fun poll' s' => Beside R rest poll'.watch s' ∧ (fd = none → poll'.watch = none))
      (fun _ _ => False) := by
  unfold update
  rw [sat_bind]
  refine Sat.mono (Q := fun _ s' => Beside R rest none s') ?_ (fun _ s' h' => ?_)
    (fun _ _ he => he)
  · cases hwatch : poll.watch with
    | none =>
        rw [hwatch] at h
        exact h
    | some n =>
        rw [hwatch] at h
        exact remove_ok hdel h doClose
  · cases fd with
    | none => exact ⟨h', fun _ => rfl⟩
    | some fd =>
        rw [sat_bind]
        exact (add_ok hadd h' fd).mono (fun _ _ hn => ⟨hn, nofun⟩) (fun _ _ he => he)

omit hadd hdel in
theorem change_ok (h : Pointed R polls s) (k : Nat) {f : Poll → M (Option Poll)}
    (hf : ∀ poll rest, Beside R rest poll.watch s → Sat (f poll) s
      (fun poll' => Beside R rest (poll'.bind Poll.watch)) (fun _ _ => False)) :
    Sat (change polls k f) s (fun polls' => Pointed R polls') (fun _ _ => False) := by
  unfold change
  cases hpoll : polls[k]?.join with
  | none => exact h
  | some poll =>
      obtain ⟨hk, hpointers⟩ := pointers_get hpoll
      rw [sat_bind]
      refine (hf poll _ ⟨h.holding, h.pointed.trans hpointers⟩).mono (fun poll' s' h' => ?_)
        (fun _ _ he => he)
      exact ⟨h'.1, h'.2.trans (pointers_set hk poll').symm⟩

theorem pollEvent_ok (h : Pointed R polls s) (event : PollEvent) :
    Sat (pollEvent (addFor env) (fun n => removeAt env (some n)) polls event) s
      (fun polls' => Pointed R polls') (fun _ _ => False) := by
  have hnew {poll : Poll} (hpoll : poll.watch = none) (doClose : Bool) (fd : Option Nat) :
      Sat (do
        let w ← update (addFor env) (fun n => removeAt env (some n)) poll doClose fd
        pure (polls ++ [some w])) s (fun polls' => Pointed R polls') (fun _ _ => False) := by
    rw [sat_bind]
    have hbeside : Beside R (pointers polls) poll.watch s := by
      rw [hpoll]
      exact ⟨h.holding, h.pointed⟩
    refine (update_ok hadd hdel hbeside doClose fd).mono (fun w s' h' => ?_) (fun _ _ he => he)
    exact ⟨h'.1.1, h'.1.2.trans (pointers_append (some w)).symm⟩
  have hkeep (doClose : Bool) (fd : Poll → Option Nat) (poll : Poll) (rest : List Nat)
      (hb : Beside R rest poll.watch s) : Sat (do
        let w ← update (addFor env) (fun n => removeAt env (some n)) poll doClose (fd poll)
        pure (some w)) s (fun poll' => Beside R rest (poll'.bind Poll.watch))
        (fun _ _ => False) := by
    rw [sat_bind]
    exact (update_ok hadd hdel hb doClose (fd poll)).mono (fun _ _ h' => h'.1) (fun _ _ he => he)
  have hfree (doClose : Bool) (poll : Poll) (rest : List Nat) (hb : Beside R rest poll.watch s) :
      Sat (do
        let _ ← update (addFor env) (fun n => removeAt env (some n)) poll doClose none
        pure none) s (fun poll' => Beside R rest (Option.bind poll' Poll.watch))
        (fun _ _ => False) := by
    rw [sat_bind]
    refine (update_ok hadd hdel hb doClose none).mono (fun w s' h' => ?_) (fun _ _ he => he)
    have hbeside := h'.1
    rw [h'.2 rfl] at hbeside
    exact hbeside
  cases event with
  | watchNew fd event => exact hnew rfl _ _
  | watchUpdate w event =>
      exact change_ok h w (hkeep false fun poll => if event then poll.fd else none)
  | watchFree w => exact change_ok h w (hfree false)
  | timeoutNew timer => exact hnew rfl _ _
  | timeoutUpdate t timer => exact change_ok h t (hkeep true fun _ => timer)
  | timeoutFree t => exact change_ok h t (hfree true)

theorem pollEvents_ok (events : List PollEvent) : ∀ {polls : List (Option Poll)} {s : St},
    Pointed R polls s →
    Sat (events.foldlM (pollEvent (addFor env) fun n => removeAt env (some n)) polls) s
      (fun polls' => Pointed R polls') (fun _ _ => False) := by
  induction events with
  | nil => exact fun h => h
  | cons event rest ih =>
      intro polls s h
      rw [List.foldlM_cons, sat_bind]
      exact (pollEvent_ok hadd hdel h event).mono (fun _ _ h' => ih h') (fun _ _ he => he)

end

/-! ### The end of the client -/

section

variable {env : Env} {R : List Nat} {polls : List (Option Poll)}

/-- The event frees the watch or timeout with the number. -/
def PollEvent.Frees (event : PollEvent) (k : Nat) : Prop :=
  event = .watchFree k ∨ event = .timeoutFree k

/-- What is freed already or by these events is so afterwards. -/
def Spent (events : List PollEvent) (polls polls' : List (Option Poll)) : Prop :=
  ∀ k : Nat, polls[k]?.join = none ∨ (∃ event ∈ events, event.Frees k) → polls'[k]?.join = none

theorem change_spent {k : Nat} {f : Poll → M (Option Poll)} (freed : Bool)
    (hf : freed = true → ∀ poll s, Sat (f poll) s (fun poll' _ => poll' = none) (fun _ _ => True))
    (s : St) :
    Sat (change polls k f) s
      (fun polls' _ => ∀ j : Nat, polls[j]?.join = none ∨ (freed = true ∧ j = k) → polls'[j]?.join = none)
      (fun _ _ => True) := by
  unfold change
  cases hpoll : polls[k]?.join with
  | none =>
      rintro j (hj | ⟨-, rfl⟩)
      · exact hj
      · exact hpoll
  | some poll =>
      have hset {poll' : Option Poll} (hfreed : freed = true → poll' = none) :
          ∀ j : Nat, polls[j]?.join = none ∨ (freed = true ∧ j = k) → (polls.set k poll')[j]?.join = none := by
        intro j hj
        by_cases hjk : k = j
        · subst hjk
          rcases hj with hj | ⟨htrue, -⟩
          · rw [hpoll] at hj
            cases hj
          · rw [hfreed htrue, List.getElem?_set_self']
            cases polls[k]? <;> rfl
        · rw [List.getElem?_set_ne hjk]
          exact hj.resolve_right fun hc => hjk hc.2.symm
      rw [sat_bind]
      cases freed with
      | true => exact (hf rfl poll s).mono (fun _ _ hp => hset fun _ => hp) (fun _ _ he => he)
      | false => exact (sat_trivial _ s).mono (fun _ _ _ => hset nofun) (fun _ _ he => he)

theorem pollEvent_spent {event : PollEvent} (hold : event.creates = false) (s : St) :
    Sat (pollEvent (addFor env) (fun n => removeAt env (some n)) polls event) s
      (fun polls' _ => Spent [event] polls polls') (fun _ _ => True) := by
  have hfree (x : M Poll) (s : St) : Sat (do
      let _ ← x
      pure (none : Option Poll)) s (fun poll' _ => poll' = none) (fun _ _ => True) := by
    rw [sat_bind]
    exact (sat_trivial x s).mono (fun _ _ _ => rfl) (fun _ _ he => he)
  cases event with
  | watchNew fd event => cases hold
  | timeoutNew timer => cases hold
  | watchUpdate w event =>
      refine (change_spent false nofun s).mono (fun polls' _ h k hk => h k ?_) (fun _ _ he => he)
      simpa [PollEvent.Frees] using hk
  | timeoutUpdate t timer =>
      refine (change_spent false nofun s).mono (fun polls' _ h k hk => h k ?_) (fun _ _ he => he)
      simpa [PollEvent.Frees] using hk
  | watchFree w =>
      refine (change_spent true (fun _ _ => hfree _) s).mono (fun polls' _ h k hk => h k ?_)
        (fun _ _ he => he)
      simpa [PollEvent.Frees, eq_comm] using hk
  | timeoutFree t =>
      refine (change_spent true (fun _ _ => hfree _) s).mono (fun polls' _ h k hk => h k ?_)
        (fun _ _ he => he)
      simpa [PollEvent.Frees, eq_comm] using hk

theorem pollEvents_spent (events : List PollEvent) : ∀ {polls : List (Option Poll)},
    (∀ event ∈ events, event.creates = false) → ∀ s : St,
    Sat (events.foldlM (pollEvent (addFor env) fun n => removeAt env (some n)) polls) s
      (fun polls' _ => Spent events polls polls') (fun _ _ => True) := by
  induction events with
  | nil => exact fun _ _ k hk => hk.resolve_right (by simp)
  | cons event rest ih =>
      intro polls hold s
      rw [List.foldlM_cons, sat_bind]
      refine (pollEvent_spent (hold event List.mem_cons_self) s).mono (fun polls₁ s₁ h₁ => ?_)
        (fun _ _ he => he)
      refine (ih (fun e he => hold e (List.mem_cons_of_mem _ he)) s₁).mono (fun polls' _ h' => ?_)
        (fun _ _ he => he)
      rintro k (hk | ⟨e, he, hfrees⟩)
      · exact h' k (Or.inl (h₁ k (Or.inl hk)))
      · rcases List.mem_cons.mp he with rfl | he
        · exact h' k (Or.inl (h₁ k (Or.inr ⟨e, List.mem_singleton.mpr rfl, hfrees⟩)))
        · exact h' k (Or.inr ⟨e, he, hfrees⟩)

/-- Nothing points to a watch when all watches and timeouts are freed. -/
theorem pointers_eq_nil (h : ∀ k : Nat, polls[k]?.join = none) : pointers polls = [] := by
  refine List.filterMap_eq_nil_iff.mpr fun poll hpoll => ?_
  obtain ⟨k, hk⟩ := List.getElem?_of_mem hpoll
  have hnone := h k
  rw [hk] at hnone
  rw [show poll = none from hnone]
  rfl

variable {closing : List (Option Poll) → List PollEvent} (hcloses : Closes closing)
  (hadd : ∀ w, env.epollAdd w = true) (hdel : ∀ w, env.epollDel w = true)
include hcloses hadd hdel

/-- Freeing the client removes all that is left, and nothing that is not there. -/
theorem clientFree_ok {s : St} (h : Pointed R polls s) :
    Cleaned (clientFree (addFor env) (fun n => removeAt env (some n)) closing) polls s := by
  unfold Cleaned clientFree
  rw [sat_bind]
  have hpointed := pollEvents_ok hadd hdel (closing polls) h
  have hspent := @pollEvents_spent env (closing polls) polls (hcloses.old polls) s
  refine (hpointed.and hspent).mono (fun polls' s' h' => ?_) (fun _ _ he => he.1)
  have hall : ∀ k : Nat, polls'[k]?.join = none := by
    intro k
    refine h'.2 k ?_
    cases hpoll : polls[k]?.join with
    | none => exact Or.inl rfl
    | some poll =>
        refine Or.inr ⟨_, hcloses.all polls k poll hpoll, ?_⟩
        unfold PollEvent.Frees Poll.free
        by_cases hfd : poll.fd.isSome
        · exact Or.inl (if_pos hfd)
        · exact Or.inr (if_neg hfd)
  have hnil := h'.1.pointed
  rw [pointers_eq_nil hall] at hnil
  exact List.map_eq_nil_iff.mp (List.perm_nil.mp hnil)

/-! ### Runs -/

omit hcloses hadd hdel in
variable (env closing) in
/-- What is right at every point: the watches are pointed to, and freeing the client removes them. -/
def Right (polls : List (Option Poll)) (s : St) : Prop :=
  ((own s).map (·.id)).Perm (pointers polls) ∧
    Cleaned (clientFree (addFor env) (fun n => removeAt env (some n)) closing) polls s

theorem sustained {opening : List PollEvent} {reported : Bool}
    (moments : List (Watching.Moment (List PollEvent × Bool))) :
    ∀ {polls : List (Option Poll)} {s : St}, Pointed R polls s →
    Sustained (hooks env closing opening reported) env (Right env closing) OnlyAbort polls s
      moments := by
  induction moments with
  | nil =>
      intro polls s h
      rw [sustained_nil]
      exact ⟨h.pointed, clientFree_ok hcloses hadd hdel h⟩
  | cons moment rest ih =>
      intro polls s h
      have hright : Right env closing polls s := ⟨h.pointed, clientFree_ok hcloses hadd hdel h⟩
      cases moment with
      | arm t =>
          obtain ⟨s', hrun, hholding, hown⟩ := arm_ok hadd h.holding t
          rw [sustained_arm, sat_of_eq hrun]
          exact ⟨hright, ih (h.congr hholding hown)⟩
      | clear t =>
          obtain ⟨s', hrun, hholding, hown⟩ := clearTimeout_ok hdel h.holding t
          rw [sustained_clear, sat_of_eq hrun]
          exact ⟨hright, ih (h.congr hholding hown)⟩
      | event e =>
          rw [sustained_event]
          refine ⟨hright, ?_⟩
          simp only [hooks, sat_bind, sat_get, sat_ite, sat_pure]
          refine ⟨fun _ => ih h, fun _ => ?_⟩
          refine (pollEvents_ok hadd hdel e.1 h).mono (fun polls' s' h' => ?_) (fun _ _ he => he.elim)
          split
          · exact ⟨h'.pointed, clientFree_ok hcloses hadd hdel h'⟩
          · exact ih h'

/--
**Avahi leaves no watch behind.**  At every point of every run the watches of the backend are the
ones that watches and timeouts of the library point to, each pointed to once, and `cleanup` removes
all of them and none that was removed before, if the library frees what it has when its client is
freed.
-/
theorem avahi_watches_removed {s : St} (hclean : Clean R s) (opening : List PollEvent)
    (reported : Bool) (moments : List (Watching.Moment (List PollEvent × Bool))) (n : Nat) :
    Sat (start (hooks env closing opening reported) env (moments.take n)) s (Right env closing)
      OnlyAbort := by
  obtain ⟨hholding, hown⟩ := Holding.of_clean hclean
  have hstart : Pointed R [] s := ⟨hholding, by rw [hown]; exact .refl _⟩
  refine start_iff.mpr ?_ n
  simp only [hooks, sat_bind, sat_pure]
  refine (pollEvents_ok hadd hdel opening hstart).mono (fun polls' s' h => ?_) (fun _ _ he => he.elim)
  split
  · exact ⟨h.pointed, clientFree_ok hcloses hadd hdel h⟩
  · exact sustained hcloses hadd hdel moments h

end

/-- A library that frees what it has, in the order in which it asked for it. -/
def closeAll (polls : List (Option Poll)) : List PollEvent :=
  (List.range polls.length).filterMap fun k => polls[k]?.join.map (·.free k)

theorem closeAll_closes : Closes closeAll where
  old polls event hevent := by
    obtain ⟨k, -, hk⟩ := List.mem_filterMap.mp hevent
    obtain ⟨poll, -, rfl⟩ := Option.map_eq_some_iff.mp hk
    unfold Poll.free
    split <;> rfl
  all polls k poll hpoll := by
    refine List.mem_filterMap.mpr ⟨k, List.mem_range.mpr ?_, by rw [hpoll]; rfl⟩
    by_contra hlt
    rw [List.getElem?_eq_none (Nat.not_lt.mp hlt)] at hpoll
    cases hpoll

/-- A watch and a timeout, of which the library frees one while the query waits. -/
theorem avahi_watches_removed_freed : Sat (start (hooks {} closeAll
    [.watchNew 5 true, .timeoutNew (some 6)] false) {}
    ([.arm .requestTimeout, .event ([.watchUpdate 0 false, .watchFree 0], false)].take 2))
    ready (Right {} closeAll) OnlyAbort :=
  avahi_watches_removed closeAll_closes (fun _ => rfl) (fun _ => rfl) ready_clean _ _ _ 2

end Netresolve.Avahi
