/-
The descriptors of a c-ares channel.

`unwatch_file_descriptors` removes one watch for each descriptor to read from.  That is every
watch there is, and each of them once, exactly if no descriptor was to be written to: the loop
adds the watches for both in order, and as long as there is one watch for a descriptor the array
has it in the place of that descriptor.
-/
import Netresolve.Proofs.Watching

namespace Netresolve.Watching

open Outcome Dns

/-! ### What is asked for -/

/-- The watches for one descriptor. -/
def wanted (fds : Fds) (fd : Nat) : List Nat :=
  (if fd ∈ fds.rfds then [fd] else []) ++ (if fd ∈ fds.wfds then [fd] else [])

/-- The descriptors of the watches `watch_file_descriptors` adds, in order. -/
def asked (fds : Fds) : List Nat := (List.range fds.nfds).flatMap (wanted fds)

/-- No descriptor is to be written to. -/
def WriteFree (fds : Fds) : Prop := ∀ fd < fds.nfds, fd ∉ fds.wfds

theorem wanted_eq {fds : Fds} {fd : Nat} (h : fd ∉ fds.wfds) :
    wanted fds fd = if fd ∈ fds.rfds then [fd] else [] := by
  rw [wanted, if_neg h, List.append_nil]

theorem flatMap_wanted {fds : Fds} (l : List Nat) (h : ∀ fd ∈ l, fd ∉ fds.wfds) :
    l.flatMap (wanted fds) = l.filter (· ∈ fds.rfds) := by
  induction l with
  | nil => rfl
  | cons fd rest ih =>
      rw [List.flatMap_cons, wanted_eq (h fd List.mem_cons_self),
        ih fun fd' hfd' => h fd' (List.mem_cons_of_mem _ hfd')]
      by_cases hr : fd ∈ fds.rfds
      · rw [if_pos hr, List.filter_cons_of_pos (by simpa using hr)]
        rfl
      · rw [if_neg hr, List.filter_cons_of_neg (by simpa using hr)]
        rfl

theorem asked_of_writeFree {fds : Fds} (h : WriteFree fds) :
    asked fds = (List.range fds.nfds).filter (· ∈ fds.rfds) :=
  flatMap_wanted _ fun fd hfd => h fd (List.mem_range.mp hfd)

theorem length_wanted (fds : Fds) (l : List Nat) : (l.flatMap (wanted fds)).length =
    (l.filter (· ∈ fds.rfds)).length + (l.filter (· ∈ fds.wfds)).length := by
  induction l with
  | nil => rfl
  | cons fd rest ih =>
      rw [List.flatMap_cons, List.length_append, ih, wanted]
      by_cases hr : fd ∈ fds.rfds <;> by_cases hw : fd ∈ fds.wfds <;>
        simp [hr, hw] <;> omega

/-- There are as many watches as descriptors to read from only if there are none to write to. -/
theorem writeFree_of_length {fds : Fds}
    (h : (asked fds).length ≤ ((List.range fds.nfds).filter (· ∈ fds.rfds)).length) :
    WriteFree fds := by
  rw [asked, length_wanted] at h
  intro fd hfd hw
  have hmem : fd ∈ (List.range fds.nfds).filter (· ∈ fds.wfds) :=
    List.mem_filter.mpr ⟨List.mem_range.mpr hfd, decide_eq_true hw⟩
  have hpos := List.length_pos_of_mem hmem
  omega

/-- The list of descriptors that the backend is modelled with otherwise. -/
theorem watched_asked (fds : Fds) {p : PrivDns} (hzero : p.fds.nfds = 0) :
    Sat (Dns.watchFileDescriptors fds) p (fun _ p' => p'.watched = p.watched ++ asked fds)
      fun _ _ => False := by
  unfold Dns.watchFileDescriptors
  rw [sat_bind, sat_get, if_neg (not_not.mpr hzero), sat_bind, sat_modify]
  refine (sat_forM (fun rest p' => p'.watched ++ rest.flatMap (wanted fds) =
    p.watched ++ asked fds) (fun fd rest p' h => ?_) _ _ rfl).mono (fun _ p' h => ?_)
      fun _ _ h => h
  · rw [List.flatMap_cons, ← List.append_assoc] at h
    rw [wanted] at h
    by_cases hr : fd ∈ fds.rfds <;> by_cases hw : fd ∈ fds.wfds <;>
      simpa [hr, hw, watchFd, emit] using h
  · simpa using h

/-! ### Adding the watches -/

/-- A watch with its descriptor, and a descriptor with what the array has for it. -/
def slot (p : PrivAres) (fd : Nat) : Fd × Option (Option Nat) := (.backend fd, p.watches[fd]?)

/-- The watches for some of the descriptors were added. -/
structure Watched (R : List Nat) (p : PrivAres) (s : St) (fds : List Nat) : Prop where
  holding : Holding R s
  added : (own s).map (·.fd) = (fds.flatMap (wanted p.fds)).map Fd.backend
  slots : (∀ fd ∈ fds, fd ∉ p.fds.wfds) →
    (own s).map (fun x => (x.fd, some (some x.id))) = (fds.flatMap (wanted p.fds)).map (slot p)

theorem mem_flatMap_wanted {fds : Fds} {l : List Nat} {fd : Nat} (h : fd ∈ l.flatMap (wanted fds)) :
    fd ∈ l := by
  obtain ⟨fd', hfd', hmem⟩ := List.mem_flatMap.mp h
  have heq : fd = fd' := by
    unfold wanted at hmem
    rcases List.mem_append.mp hmem with hr | hw
    · split at hr
      · exact List.mem_singleton.mp hr
      · cases hr
    · split at hw
      · exact List.mem_singleton.mp hw
      · cases hw
  rw [heq]
  exact hfd'

/-- One descriptor more, in a place of its own. -/
theorem Watched.snoc {R : List Nat} {p p' : PrivAres} {s s' : St} {fds : List Nat} {fd : Nat}
    (h : Watched R p s fds) (hholding : Holding R s') (hfds : p'.fds = p.fds)
    (hadded : (own s').map (·.fd) = (own s).map (·.fd) ++ (wanted p.fds fd).map Fd.backend)
    (hslots : fd ∉ p.fds.wfds → (own s').map (fun x => (x.fd, some (some x.id))) =
      (own s).map (fun x => (x.fd, some (some x.id))) ++ (wanted p.fds fd).map (slot p'))
    (hkept : ∀ fd' ∈ fds, p'.watches[fd']? = p.watches[fd']?) :
    Watched R p' s' (fds ++ [fd]) := by
  refine ⟨hholding, ?_, ?_⟩
  · rw [hadded, h.added, hfds, List.flatMap_append, List.map_append, List.flatMap_singleton]
  · rw [hfds]
    intro hfree
    have hsame : (fds.flatMap (wanted p.fds)).map (slot p') =
        (fds.flatMap (wanted p.fds)).map (slot p) := by
      refine List.map_congr_left fun fd' hfd' => ?_
      unfold slot
      rw [hkept fd' (mem_flatMap_wanted hfd')]
    rw [hslots (hfree fd List.mem_concat_self),
      h.slots fun fd' hfd' => hfree fd' (List.mem_append_left _ hfd'), List.flatMap_append,
      List.map_append, List.flatMap_singleton, hsame]

section

variable {env : Env} {R : List Nat} (hadd : ∀ w, env.epollAdd w = true)
include hadd

theorem watchAt_ok {p : PrivAres} {s : St} (h : Holding R s) (fd : Nat) : ∃ w s',
    watchAt env fd p s = .ok { p with watches := p.watches.set fd (some w) } s' ∧ Holding R s' ∧
      own s' = own s ++ [⟨w, .backend fd, .backend s.query.cursor⟩] := by
  obtain ⟨w, s', hrun, hholding, hown, _⟩ := addFor_ok hadd h fd
  refine ⟨w, s', ?_, hholding, hown⟩
  unfold watchAt
  rw [bind_of_ok hrun]
  rfl

theorem watchTurn_ok {p : PrivAres} {s : St} {fds : List Nat} (h : Watched R p s fds) {fd : Nat}
    (hnew : fd ∉ fds) (hlt : fd < p.watches.length) : ∃ p' s',
    watchTurn env p fd s = .ok p' s' ∧ Watched R p' s' (fds ++ [fd]) ∧ p'.fds = p.fds ∧
      p'.watches.length = p.watches.length := by
  have hkept : ∀ (watches : List (Option Nat)) (w : Nat), ∀ fd' ∈ fds,
      (watches.set fd (some w))[fd']? = watches[fd']? := by
    intro watches w fd' hfd'
    refine List.getElem?_set_ne fun heq => hnew ?_
    rw [heq]
    exact hfd'
  by_cases hr : fd ∈ p.fds.rfds
  · obtain ⟨w₁, s₁, hrun₁, hholding₁, hown₁⟩ := watchAt_ok hadd h.holding fd
    by_cases hw : fd ∈ p.fds.wfds
    · -- The second watch takes the place of the first in the array.
      obtain ⟨w₂, s₂, hrun₂, hholding₂, hown₂⟩ :=
        watchAt_ok hadd (p := { p with watches := p.watches.set fd (some w₁) }) hholding₁ fd
      have hrun : watchTurn env p fd s =
          .ok { p with watches := (p.watches.set fd (some w₁)).set fd (some w₂) } s₂ := by
        unfold watchTurn
        rw [if_pos hr, bind_of_ok hrun₁]
        exact (congrFun (if_pos hw) s₁).trans hrun₂
      refine ⟨_, s₂, hrun, h.snoc hholding₂ rfl ?_ (fun hnot => absurd hw hnot) (fun fd' hfd' => ?_),
        rfl, ?_⟩
      · rw [hown₂, hown₁, wanted, if_pos hr, if_pos hw]
        simp
      · exact (hkept _ _ fd' hfd').trans (hkept _ _ fd' hfd')
      · exact (List.length_set ..).trans (List.length_set ..)
    · have hrun : watchTurn env p fd s =
          .ok { p with watches := p.watches.set fd (some w₁) } s₁ := by
        unfold watchTurn
        rw [if_pos hr, bind_of_ok hrun₁]
        exact congrFun (if_neg hw) s₁
      refine ⟨_, s₁, hrun, h.snoc hholding₁ rfl ?_ (fun _ => ?_) (hkept _ _), rfl,
        List.length_set ..⟩
      · rw [hown₁, wanted_eq hw, if_pos hr]
        simp
      · rw [hown₁, wanted_eq hw, if_pos hr, List.map_append]
        simp [slot, hlt]
  · by_cases hw : fd ∈ p.fds.wfds
    · obtain ⟨w₁, s₁, hrun₁, hholding₁, hown₁⟩ := watchAt_ok hadd h.holding fd
      have hrun : watchTurn env p fd s =
          .ok { p with watches := p.watches.set fd (some w₁) } s₁ := by
        unfold watchTurn
        rw [if_neg hr, pure_bind]
        exact (congrFun (if_pos hw) s).trans hrun₁
      refine ⟨_, s₁, hrun, h.snoc hholding₁ rfl ?_ (fun hnot => absurd hw hnot) (hkept _ _), rfl,
        List.length_set ..⟩
      rw [hown₁, wanted, if_neg hr, if_pos hw]
      simp
    · have hrun : watchTurn env p fd s = .ok p s := by
        unfold watchTurn
        rw [if_neg hr, pure_bind]
        exact congrFun (if_neg hw) s
      refine ⟨p, s, hrun, h.snoc h.holding rfl ?_ (fun _ => ?_) (fun _ _ => rfl), rfl, rfl⟩
      · rw [wanted_eq hw, if_neg hr, List.map_nil, List.append_nil]
      · rw [wanted_eq hw, if_neg hr, List.map_nil, List.append_nil]

theorem watchTurns_ok (l : List Nat) : ∀ {p : PrivAres} {s : St} {fds : List Nat},
    Watched R p s fds → (fds ++ l).Nodup → (∀ fd ∈ l, fd < p.watches.length) → ∃ p' s',
      l.foldlM (watchTurn env) p s = .ok p' s' ∧ Watched R p' s' (fds ++ l) ∧ p'.fds = p.fds := by
  induction l with
  | nil =>
      intro p s fds h _ _
      rw [List.append_nil]
      exact ⟨p, s, rfl, h, rfl⟩
  | cons fd rest ih =>
      intro p s fds h hnodup hlt
      have hnew : fd ∉ fds := fun hmem =>
        (List.nodup_append.mp hnodup).2.2 fd hmem fd List.mem_cons_self rfl
      obtain ⟨p₁, s₁, hrun₁, h₁, hfds₁, hlength₁⟩ :=
        watchTurn_ok hadd h hnew (hlt fd List.mem_cons_self)
      obtain ⟨p₂, s₂, hrun₂, h₂, hfds₂⟩ := ih h₁ (by rw [List.append_assoc]; exact hnodup)
        fun fd' hfd' => by rw [hlength₁]; exact hlt fd' (List.mem_cons_of_mem _ hfd')
      rw [List.append_assoc] at h₂
      refine ⟨p₂, s₂, ?_, h₂, hfds₂.trans hfds₁⟩
      rw [List.foldlM_cons, bind_of_ok hrun₁]
      exact hrun₂

variable (env) in
theorem watchFileDescriptors_ok {p : PrivAres} {s : St} (h : Holding R s) (hown : own s = [])
    (hzero : p.fds.nfds = 0) (fds : Fds) : ∃ p' s',
      watchFileDescriptors env fds p s = .ok p' s' ∧ p'.fds = fds ∧
        Watched R p' s' (List.range fds.nfds) := by
  have hstart : Watched R { fds, watches := resize p.watches fds.nfds } s [] := by
    refine ⟨h, ?_, fun _ => ?_⟩
    · rw [hown]
      rfl
    · rw [hown]
      rfl
  obtain ⟨p', s', hrun, hwatched, hfds⟩ := watchTurns_ok hadd (List.range fds.nfds) hstart
    List.nodup_range fun fd hfd => by
      rw [List.mem_range] at hfd
      simp only [resize, List.length_append, List.length_take, List.length_replicate]
      omega
  refine ⟨p', s', ?_, hfds, hwatched⟩
  unfold watchFileDescriptors
  rw [if_neg (not_not.mpr hzero)]
  exact hrun

/-- Both models of `watch_file_descriptors` add the same watches. -/
theorem watchFileDescriptors_agree {s : St} (h : Holding R s) (hown : own s = []) (fds : Fds)
    {p : PrivDns} (hzero : p.fds.nfds = 0) (hwatched : p.watched = []) :
    ∃ p' q s', Dns.watchFileDescriptors fds p = .ok () p' ∧
      watchFileDescriptors env fds {} s = .ok q s' ∧
      (own s').map (·.fd) = p'.watched.map Fd.backend := by
  obtain ⟨_, p', hdns, hasked⟩ := (watched_asked fds hzero).exists_ok
  obtain ⟨q, s', hrun, hfds, hw⟩ := watchFileDescriptors_ok env hadd (p := {}) h hown rfl fds
  refine ⟨p', q, s', hdns, hrun, ?_⟩
  rw [hw.added, hasked, hwatched, hfds, List.nil_append, asked]

end

/-! ### Removing the watches -/

section

variable {env : Env} {R : List Nat} (hdel : ∀ w, env.epollDel w = true)
include hdel

/-- The watches in their places are removed one after the other. -/
theorem unwatchTurns_ok (p : PrivAres) (l : List Nat) : ∀ {s : St}, Holding R s →
    (∀ fd ∈ l, fd ∉ p.fds.wfds) →
    (own s).map (fun x => (x.fd, some (some x.id))) = (l.flatMap (wanted p.fds)).map (slot p) →
    ∃ s', forM l (unwatchTurn env p) s = .ok () s' ∧ Holding R s' ∧ own s' = [] := by
  induction l with
  | nil =>
      intro s h _ hslots
      exact ⟨s, rfl, h, List.map_eq_nil_iff.mp hslots⟩
  | cons fd rest ih =>
      intro s h hfree hslots
      have hfree' : ∀ fd ∈ rest, fd ∉ p.fds.wfds := fun fd' hfd' =>
        hfree fd' (List.mem_cons_of_mem _ hfd')
      rw [List.flatMap_cons, wanted_eq (hfree fd List.mem_cons_self)] at hslots
      by_cases hr : fd ∈ p.fds.rfds
      · rw [if_pos hr, List.singleton_append, List.map_cons] at hslots
        obtain ⟨x, others, hown, hx, hothers⟩ := List.map_eq_cons_iff.mp hslots
        have hplace : p.watches[fd]? = some (some x.id) := (congrArg Prod.snd hx).symm
        obtain ⟨s₁, hrun₁, hholding₁, hown₁, _⟩ := removeAt_ok hdel h (w := x.id)
          (by rw [hown]; exact List.mem_cons_self) false
        rw [hown, eraseP_head] at hown₁
        obtain ⟨s₂, hrun₂, hdone⟩ := ih hholding₁ hfree' (by rw [hown₁]; exact hothers)
        refine ⟨s₂, ?_, hdone⟩
        have hturn : unwatchTurn env p fd s = .ok () s₁ := by
          unfold unwatchTurn
          rw [if_pos hr, hplace]
          exact hrun₁
        rw [List.forM_cons, bind_of_ok hturn]
        exact hrun₂
      · rw [if_neg hr, List.nil_append] at hslots
        obtain ⟨s₂, hrun₂, hdone⟩ := ih h hfree' hslots
        refine ⟨s₂, ?_, hdone⟩
        have hturn : unwatchTurn env p fd s = .ok () s := by
          unfold unwatchTurn
          rw [if_neg hr]
          rfl
        rw [List.forM_cons, bind_of_ok hturn]
        exact hrun₂

theorem unwatchFileDescriptors_ok {p : PrivAres} {s : St}
    (h : Watched R p s (List.range p.fds.nfds)) (hfree : WriteFree p.fds) (hne : p.fds.nfds ≠ 0) :
    ∃ s', unwatchFileDescriptors env p s = .ok { p with fds := {} } s' ∧ Holding R s' ∧
      own s' = [] := by
  have hfree' : ∀ fd ∈ List.range p.fds.nfds, fd ∉ p.fds.wfds := fun fd hfd =>
    hfree fd (List.mem_range.mp hfd)
  obtain ⟨s', hrun, hholding, hown⟩ := unwatchTurns_ok hdel p _ h.holding hfree' (h.slots hfree')
  refine ⟨s', ?_, hholding, hown⟩
  unfold unwatchFileDescriptors
  rw [if_neg hne, bind_of_ok hrun]
  rfl

end

section

variable {env : Env}

theorem length_filter_le_eraseP {α : Type} (p q : α → Bool) (l : List α) :
    (l.filter p).length ≤ ((l.eraseP q).filter p).length + 1 := by
  induction l with
  | nil => exact Nat.zero_le _
  | cons x rest ih =>
      by_cases hq : q x = true
      · rw [List.eraseP_cons_of_pos hq, List.filter_cons]
        split
        · exact Nat.le_refl _
        · exact Nat.le_succ _
      · rw [List.eraseP_cons_of_neg hq, List.filter_cons, List.filter_cons]
        split
        · exact Nat.succ_le_succ ih
        · exact ih

/-- Whatever is removed, it is no more than one watch. -/
theorem removeAt_length (watch : Option Nat) (doClose : Bool) (s : St) :
    Sat (removeAt env watch doClose) s (fun _ s' => (own s).length ≤ (own s').length + 1)
      (fun _ _ => True) := by
  cases watch with
  | none => trivial
  | some w =>
      simp only [removeAt, watchRemove, sat_bind, sat_get, sat_ite]
      refine ⟨fun _ => trivial, fun _ => ?_⟩
      cases s.query.watches.find? (·.id = w) with
      | none => trivial
      | some watch =>
          simp only [epollRemoveWatch, modifyQuery, modifyContext, sat_bind, sat_modify, sat_ite,
            sat_throw, sat_pure]
          have hlength := length_filter_le_eraseP isBackend (fun x => decide (x.id = w))
            s.query.watches
          exact ⟨fun _ => ⟨fun _ => hlength, fun _ => hlength⟩, fun _ => trivial⟩

/-- A run of `unwatch_file_descriptors` removes at most the watches for reading. -/
theorem unwatchTurns_length (p : PrivAres) (l : List Nat) (s : St) :
    Sat (forM l (unwatchTurn env p)) s
      (fun _ s' => (own s).length ≤ (own s').length + (l.filter (· ∈ p.fds.rfds)).length)
      (fun _ _ => True) := by
  induction l generalizing s with
  | nil => exact Nat.le_refl _
  | cons fd rest ih =>
      rw [List.forM_cons, sat_bind, unwatchTurn, List.filter_cons]
      by_cases hr : fd ∈ p.fds.rfds
      · rw [if_pos hr]
        refine (removeAt_length _ false s).mono (fun _ s₁ h₁ => ?_) fun _ _ he => he
        refine (ih s₁).mono (fun _ s₂ h₂ => ?_) fun _ _ he => he
        simp only [hr, decide_true, if_true, List.length_cons]
        omega
      · rw [if_neg hr]
        refine (ih s).mono (fun _ s₂ h₂ => ?_) fun _ _ he => he
        simp only [hr, decide_false, Bool.false_eq_true, if_false]
        exact h₂

end

/-! ### Whole runs -/

/--
What is expected at every point: the query has the watches of the last `watch_file_descriptors` and
no two for one descriptor, and cleaning up removes each of them once.
-/
structure Exact (env : Env) (p : PrivAres) (s : St) : Prop where
  added : (own s).map (·.fd) = (asked p.fds).map Fd.backend
  single : ((own s).map (·.fd)).Nodup
  cleaned : Cleaned (aresCleanup env) p s

/--
No descriptor is to be written to, in any of the sets the run gets to, and the query does not come
to its end in the middle of an event.  The run gets to the next event if it has a watch.
-/
def Readable (fds : Fds) : List (Moment AresEvent) → Prop
  | [] => WriteFree fds
  | .arm _ :: rest | .clear _ :: rest => Readable fds rest
  | .event e :: rest =>
      WriteFree fds ∧ (asked fds = [] → Readable fds rest) ∧
        (asked fds ≠ [] → e.ended = false ∧
          if e.reported then WriteFree e.fds else Readable e.fds rest)

theorem readable_writeFree {fds : Fds} (moments : List (Moment AresEvent)) :
    Readable fds moments → WriteFree fds := by
  induction moments with
  | nil => exact id
  | cons m rest ih =>
      cases m with
      | event e => exact And.left
      | arm t => exact ih
      | clear t => exact ih

section

variable {env : Env} {R : List Nat} (hadd : ∀ w, env.epollAdd w = true)
  (hdel : ∀ w, env.epollDel w = true)

theorem Watched.congr {p : PrivAres} {s s' : St} {fds : List Nat} (h : Watched R p s fds)
    (hholding : Holding R s') (hown : own s' = own s) : Watched R p s' fds := by
  refine ⟨hholding, ?_, ?_⟩
  · rw [hown]
    exact h.added
  · rw [hown]
    exact h.slots

include hdel in
theorem exact_iff {p : PrivAres} {s : St} (h : Watched R p s (List.range p.fds.nfds)) :
    Exact env p s ↔ WriteFree p.fds := by
  constructor
  · intro hexact
    by_cases hzero : p.fds.nfds = 0
    · intro fd hfd
      rw [hzero] at hfd
      exact absurd hfd (Nat.not_lt_zero _)
    · refine writeFree_of_length ?_
      have hcleaned := hexact.cleaned
      unfold Cleaned aresCleanup unwatchFileDescriptors at hcleaned
      simp only [if_pos hzero, if_neg hzero, sat_bind, sat_pure] at hcleaned
      obtain ⟨_, s', hrun, hown⟩ := hcleaned.exists_ok
      have hlength := (unwatchTurns_length p (List.range p.fds.nfds) s).of_ok hrun
      rw [hown, List.length_nil, Nat.zero_add] at hlength
      have hasked := congrArg List.length hexact.added
      rw [List.length_map, List.length_map] at hasked
      omega
  · intro hfree
    refine ⟨h.added, ?_, ?_⟩
    · rw [h.added]
      refine List.Nodup.map (fun a b => Fd.backend.inj) ?_
      rw [show (List.range p.fds.nfds).flatMap (wanted p.fds) = asked p.fds from rfl,
        asked_of_writeFree hfree]
      exact List.nodup_range.filter _
    · unfold Cleaned aresCleanup
      by_cases hzero : p.fds.nfds = 0
      · rw [if_neg (not_not.mpr hzero), sat_pure]
        have hadded := h.added
        rw [hzero] at hadded
        exact List.map_eq_nil_iff.mp hadded
      · obtain ⟨s', hrun, _, hown⟩ := unwatchFileDescriptors_ok hdel h hfree hzero
        rw [if_pos hzero, sat_bind, sat_of_eq hrun]
        exact hown

include hadd hdel

/-- An event, on a channel that has watches and no descriptor to write to. -/
theorem aresDispatch_ok {p : PrivAres} {s : St} (h : Watched R p s (List.range p.fds.nfds))
    (hfree : WriteFree p.fds) (hsome : own s ≠ []) (e : AresEvent) (hended : e.ended = false) :
    ∃ p' s', aresDispatch env p e s = .ok (p', e.reported) s' ∧ p'.fds = e.fds ∧
      Watched R p' s' (List.range e.fds.nfds) := by
  have hne : p.fds.nfds ≠ 0 := by
    intro hzero
    have hadded := h.added
    rw [hzero] at hadded
    exact hsome (List.map_eq_nil_iff.mp hadded)
  obtain ⟨s₁, hrun₁, hholding₁, hown₁⟩ := unwatchFileDescriptors_ok hdel h hfree hne
  obtain ⟨p₂, s₂, hrun₂, hfds₂, h₂⟩ := watchFileDescriptors_ok env hadd
    (p := { p with fds := {} }) hholding₁ hown₁ rfl e.fds
  refine ⟨p₂, s₂, ?_, hfds₂, h₂⟩
  have hsat : Sat (aresDispatch env p e) s (fun r s' => r = (p₂, e.reported) ∧ s' = s₂)
      (fun _ _ => False) := by
    simp only [aresDispatch, sat_bind, sat_get, sat_ite, List.isEmpty_iff]
    refine ⟨fun hnil => absurd hnil hsome, fun _ => ?_⟩
    rw [sat_of_eq hrun₁]
    refine ⟨fun htrue => ?_, fun _ => ?_⟩
    · rw [hended] at htrue
      cases htrue
    · rw [sat_of_eq hrun₂, sat_pure]
      exact ⟨rfl, rfl⟩
  obtain ⟨r, s', hrun, rfl, rfl⟩ := hsat.exists_ok
  exact hrun

omit hadd hdel in
/-- A watch that is not there is not dispatched. -/
theorem aresDispatch_idle {s : St} (hnone : own s = []) (p : PrivAres) (e : AresEvent) :
    aresDispatch env p e s = .ok (p, false) s := by
  have hsat : Sat (aresDispatch env p e) s (fun r s' => r = (p, false) ∧ s' = s)
      (fun _ _ => False) := by
    simp only [aresDispatch, sat_bind, sat_get, sat_ite, List.isEmpty_iff]
    exact ⟨fun _ => ⟨rfl, rfl⟩, fun hne => absurd hnone hne⟩
  obtain ⟨r, s', hrun, rfl, rfl⟩ := hsat.exists_ok
  exact hrun

omit hadd hdel in
/-- The private data is gone when the query comes to its end in the middle of an event. -/
theorem aresDispatch_ended {p : PrivAres} {s : St} (hsome : own s ≠ []) {e : AresEvent}
    (hended : e.ended = true) {Q : PrivAres × Bool → St → Prop} :
    ¬ Sat (aresDispatch env p e) s Q (fun _ _ => False) := by
  intro hsat
  simp only [aresDispatch, sat_bind, sat_get, sat_ite, List.isEmpty_iff] at hsat
  obtain ⟨p₁, s₁, _, hsat₁⟩ := (hsat.2 hsome).exists_ok
  obtain ⟨_, s₂, _, hsat₂⟩ := (hsat₁.1 hended).exists_ok
  exact hsat₂

theorem ares_sustained_iff (first : Fds) (moments : List (Moment AresEvent)) :
    ∀ {p : PrivAres} {s : St}, Watched R p s (List.range p.fds.nfds) →
      (Sustained (ares env first) env (Exact env) (fun _ _ => False) p s moments ↔
        Readable p.fds moments) := by
  induction moments with
  | nil =>
      intro p s h
      rw [sustained_nil]
      exact exact_iff hdel h
  | cons m rest ih =>
      intro p s h
      cases m with
      | arm t =>
          obtain ⟨s', hrun, hholding, hown⟩ := arm_ok hadd h.holding t
          rw [sustained_arm, sat_of_eq hrun, ih (h.congr hholding hown), exact_iff hdel h]
          exact and_iff_right_of_imp fun hread => readable_writeFree rest hread
      | clear t =>
          obtain ⟨s', hrun, hholding, hown⟩ := clearTimeout_ok hdel h.holding t
          rw [sustained_clear, sat_of_eq hrun, ih (h.congr hholding hown), exact_iff hdel h]
          exact and_iff_right_of_imp fun hread => readable_writeFree rest hread
      | event e =>
          rw [sustained_event, exact_iff hdel h]
          refine and_congr_right fun hfree => ?_
          show Sat (aresDispatch env p e) s _ _ ↔ _
          have hasked : asked p.fds = [] ↔ own s = [] := by
            have hlength := congrArg List.length h.added
            rw [List.length_map, List.length_map] at hlength
            rw [← List.length_eq_zero_iff, ← List.length_eq_zero_iff, hlength]
            rfl
          by_cases hnone : own s = []
          · rw [sat_of_eq (aresDispatch_idle hnone p e), if_neg Bool.false_ne_true, ih h]
            exact ⟨fun hread => ⟨fun _ => hread, fun hne => absurd (hasked.mpr hnone) hne⟩,
              fun hread => hread.1 (hasked.mpr hnone)⟩
          · have hne : asked p.fds ≠ [] := fun hnil => hnone (hasked.mp hnil)
            refine Iff.trans ?_ (and_iff_right fun hnil => absurd hnil hne).symm
            refine Iff.trans ?_ (forall_prop_of_true hne).symm
            cases hended : e.ended with
            | true =>
                exact iff_of_false (aresDispatch_ended hnone hended)
                  fun hread => Bool.noConfusion hread.1
            | false =>
                obtain ⟨p', s', hrun, hfds, h'⟩ := aresDispatch_ok hadd hdel h hfree hnone e hended
                rw [← hfds] at h'
                rw [sat_of_eq hrun, and_iff_right rfl, ← hfds]
                cases e.reported with
                | true => exact exact_iff hdel h'
                | false => exact ih h'

end

/--
**A watch for writing is never removed.**  Every `unwatch_file_descriptors` removes the watches
that were added before it, each of them once and no two for one descriptor, wherever the query comes
to its end, if and only if no set of the run has a descriptor to write to and the query does not end
while an event is processed.
-/
theorem channel_watches_iff {env : Env} (hadd : ∀ w, env.epollAdd w = true)
    (hdel : ∀ w, env.epollDel w = true) {R : List Nat} {s : St} (hclean : Clean R s) (fds : Fds)
    (moments : List (Moment AresEvent)) :
    (∀ n, Sat (start (ares env fds) env (moments.take n)) s (Exact env) (fun _ _ => False)) ↔
      Readable fds moments := by
  obtain ⟨hholding, hown⟩ := Holding.of_clean hclean
  obtain ⟨p, s', hrun, hfds, h⟩ := watchFileDescriptors_ok env hadd (p := {}) hholding hown rfl fds
  rw [start_iff]
  have hsetup : (ares env fds).setup s = .ok (p, false) s' := bind_of_ok hrun
  rw [sat_of_eq hsetup, if_neg Bool.false_ne_true]
  rw [← hfds] at h
  rw [ares_sustained_iff hadd hdel fds moments h, hfds]

/-- A query over UDP whose descriptor changes. -/
def changedChannel : List (Moment AresEvent) :=
  [.arm .requestTimeout, .event ⟨⟨8, [7], []⟩, false, false⟩]

theorem changedChannel_readable : Readable ⟨6, [5], []⟩ changedChannel := by
  refine ⟨fun fd _ => List.not_mem_nil, fun h => ?_, fun _ => ⟨rfl, fun fd _ => List.not_mem_nil⟩⟩
  exact absurd h (by decide)

theorem channel_watches_udp : Readable ⟨6, [5], []⟩ changedChannel ∧
    ∀ n, Sat (start (ares {} ⟨6, [5], []⟩) {} (changedChannel.take n)) ready (Exact {})
      (fun _ _ => False) :=
  ⟨changedChannel_readable, (channel_watches_iff (fun _ => rfl) (fun _ => rfl) ready_clean _ _).mpr
    changedChannel_readable⟩

/-- A connection over TCP that is being set up. -/
theorem connecting_descriptor_stays : ¬ ∀ n, Sat (start (ares {} ⟨6, [], [5]⟩) {}
    (([] : List (Moment AresEvent)).take n)) ready (Exact {}) (fun _ _ => False) := by
  intro h
  obtain ⟨hholding, hown⟩ := Holding.of_clean ready_clean
  obtain ⟨p, s', hrun, hfds, hwatched⟩ := watchFileDescriptors_ok {} (fun _ => rfl)
    (p := {}) hholding hown rfl ⟨6, [], [5]⟩
  have hsetup : (ares {} ⟨6, [], [5]⟩).setup ready = .ok (p, false) s' := bind_of_ok hrun
  have hexact := (start_iff.mp h).of_ok hsetup 0
  rw [← hfds] at hwatched
  have hfree := (exact_iff (fun _ => rfl) hwatched).mp hexact
  rw [hfds] at hfree
  exact hfree 5 (by decide) List.mem_cons_self

end Netresolve.Watching
