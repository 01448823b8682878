/-
Connections that wait to be handed over.

A READY socket is handed over by `pickup_connected_socket`.  When this finds a SCHEDULED one
before it, the priority timeout is armed and will call it again; so after every change that it
is told about, a READY socket either goes to the application or has something that will bring it
there.  `connect_timeout` and `netresolve_connect_next` do not call it.  The first takes the
scheduled sockets and the priority timeout away from under a READY one, the second leaves a
READY one alone that had been second when the last callback was made.  They call
`enable_sockets`, and only an attempt that ends immediately leads from there back to
`pickup_connected_socket`.

In sequential mode there is never a second socket, which is `Lined`.
-/
import Netresolve.Proofs.Families
import Netresolve.Proofs.Preference

namespace Netresolve.Connect

open Outcome

/-! ### The statement -/

/-- Every READY path is behind a SCHEDULED one and the priority timeout is armed. -/
def Backed (s : Socket) : Prop :=
  ∀ i, (s.path i).state = .ready →
    (∃ j < i, (s.path j).state = .scheduled) ∧ s.priorityTimeout = true

/--
The loop of `enable_sockets`, with the paths that are left, the next attempt and the counters,
makes an attempt that is not in progress afterwards.
-/
def atOnce (world : World) (s : Socket) : List Nat → Nat → Nat → Nat → Bool
  | [], _, _, _ => false
  | i :: rest, n, ip4, ip6 =>
      let p := s.path i
      if p.state = .done then atOnce world s rest n ip4 ip6
      else if p.counted ip4 ip6 then atOnce world s rest n (p.up4 ip4) (p.up6 ip6)
      else if p.state = .none ∧ hasSockaddr p.family = true then
        world.attempt n ≠ some .inProgress || atOnce world s rest (n + 1) (p.up4 ip4) (p.up6 ip6)
      else atOnce world s rest n (p.up4 ip4) (p.up6 ip6)

def Socket.atOnce (world : World) (s : Socket) : Bool :=
  Connect.atOnce world s (List.range s.paths.length) s.attempts 0 0

/--
Where `netresolve_connect_next` or, with a request waiting, `connect_timeout` calls
`enable_sockets`: no READY path needs to be picked up, or an attempt ends immediately.
-/
def Prompt (world : World) (o : Note × Socket) : Prop :=
  o.1 = .asked ∨ o.1 = .expired ∧ o.2.waiting = true → Backed o.2 ∨ o.2.atOnce world = true

/-! ### Paths that are alike -/

theorem reached_rest (world : World) (r : Run) (i : Nat) :
    (r.reached world i).now.waiting = r.now.waiting ∧
      (r.reached world i).now.priorityTimeout = r.now.priorityTimeout := by
  unfold Run.reached Run.timed
  split <;> exact ⟨rfl, rfl⟩

theorem Alike.refl (s : Socket) : Alike s s := fun _ => ⟨rfl, rfl⟩

theorem Alike.trans {s t u : Socket} (h : Alike s t) (h' : Alike t u) : Alike s u :=
  fun j => ⟨(h' j).1.trans (h j).1, (h' j).2.trans (h j).2⟩

theorem alike_modifyPath {s : Socket} {i : Nat} {f : Path → Path}
    (hf : ∀ p : Path, (f p).family = p.family ∧ (f p).state = p.state) :
    Alike s (s.modifyPath i f) := by
  intro j
  rw [path_modifyPath]
  split
  · exact hf _
  · exact ⟨rfl, rfl⟩

theorem alike_reached (world : World) (r : Run) (i : Nat) : Alike r.now (r.reached world i).now := by
  intro j
  rw [reached_path]
  exact ⟨rfl, rfl⟩

theorem alike_attempt (world : World) (r : Run) (i : Nat) (fd : Option Nat) :
    Alike r.now ((r.reached world i).attempted i fd).now := by
  intro j
  rw [attempted_path, reached_path]
  split <;> exact ⟨rfl, rfl⟩

theorem alike_watched (r : Run) (i : Nat) (watch : Bool) : Alike r.now (r.watched i watch).now :=
  alike_modifyPath fun _ => ⟨rfl, rfl⟩

theorem Backed.alike {s s' : Socket} (h : Backed s) (hsame : Alike s s')
    (harmed : s'.priorityTimeout = s.priorityTimeout) : Backed s' := by
  intro i hi
  rw [(hsame i).2] at hi
  obtain ⟨⟨j, hj, hscheduled⟩, htimer⟩ := h i hi
  exact ⟨⟨j, hj, (hsame j).2.trans hscheduled⟩, harmed.trans htimer⟩

theorem backed_of_none {s : Socket} (h : ∀ i, (s.path i).state ≠ .ready) : Backed s :=
  fun i hi => absurd hi (h i)

/-- The prediction depends only on the paths that are left. -/
theorem atOnce_congr (world : World) {s s' : Socket} (rest : List Nat) :
    ∀ (n a b : Nat), (∀ j ∈ rest, (s'.path j).family = (s.path j).family ∧
      (s'.path j).state = (s.path j).state) →
    atOnce world s' rest n a b = atOnce world s rest n a b := by
  induction rest with
  | nil => exact fun _ _ _ _ => rfl
  | cons i rest ih =>
      intro n a b hsame
      obtain ⟨hfamily, hstate⟩ := hsame i List.mem_cons_self
      have ih' := fun n a b => ih n a b fun j hj => hsame j (List.mem_cons_of_mem _ hj)
      have hcounted : (s'.path i).counted a b ↔ (s.path i).counted a b := by
        unfold Path.counted
        rw [hfamily]
      have hup : (s'.path i).up4 a = (s.path i).up4 a ∧ (s'.path i).up6 b = (s.path i).up6 b := by
        unfold Path.up4 Path.up6
        rw [hfamily]
        exact ⟨rfl, rfl⟩
      simp only [atOnce, hstate, hcounted, hup.1, hup.2, hfamily, ih']

theorem atOnce_alike (world : World) {s s' : Socket} (hsame : Alike s s')
    (hlength : s'.paths.length = s.paths.length) (hattempts : s'.attempts = s.attempts) :
    s'.atOnce world = s.atOnce world := by
  unfold Socket.atOnce
  rw [hlength, hattempts]
  exact atOnce_congr world _ _ _ _ fun j _ => hsame j

/-! ### One after the other -/

/-- Only paths with an address are active, and in sequential mode no two at a time. -/
structure Lined (s : Socket) : Prop where
  family : ∀ i, s.active i → hasSockaddr (s.path i).family = true
  line : s.sequentialConnect = true → ∀ i j, i < j → s.active j → (s.path i).state = .done

/-- The path may become active. -/
structure Next (s : Socket) (i : Nat) : Prop where
  undone : (s.path i).state ≠ .done
  family : hasSockaddr (s.path i).family = true
  line : s.sequentialConnect = true → ∀ j < i, (s.path j).state = .done

namespace Lined

variable {s s' : Socket} {r : Run} {i : Nat}

theorem alike (h : Lined s) (hsame : Alike s s')
    (hsequential : s'.sequentialConnect = s.sequentialConnect) : Lined s' := by
  have hactive : ∀ j, s'.active j → s.active j := by
    intro j hj
    unfold Socket.active at *
    rw [(hsame j).2] at hj
    exact hj
  refine ⟨fun j hj => ?_, fun hseq j l hjl hl => ?_⟩
  · rw [(hsame j).1]
    exact h.family j (hactive j hj)
  · rw [(hsame j).2]
    exact h.line (hsequential ▸ hseq) j l hjl (hactive l hl)

theorem moved (h : Lined s) (hfamily : ∀ j, (s'.path j).family = (s.path j).family)
    (hother : ∀ j, j ≠ i → (s'.path j).state = (s.path j).state)
    (hsequential : s'.sequentialConnect = s.sequentialConnect)
    (hi : (s'.path i).state = .done ∨ Next s i) : Lined s' := by
  refine ⟨fun j hj => ?_, fun hseq j l hjl hl => ?_⟩
  · rw [hfamily]
    by_cases hji : j = i
    · subst hji
      rcases hi with hi | hi
      · exact absurd hi (not_active_done hj)
      · exact hi.family
    · refine h.family j ?_
      unfold Socket.active at *
      rwa [hother j hji] at hj
  · rw [hsequential] at hseq
    by_cases hli : l = i
    · subst hli
      rw [hother j (Nat.ne_of_lt hjl)]
      rcases hi with hi | hi
      · exact absurd hi (not_active_done hl)
      · exact hi.line hseq j hjl
    · have hj : (s.path j).state = .done := by
        refine h.line hseq j l hjl ?_
        unfold Socket.active at *
        rwa [hother l hli] at hl
      by_cases hji : j = i
      · subst hji
        exact hi.resolve_right fun hnext => hnext.undone hj
      · rw [hother j hji]
        exact hj

theorem activated {state : SocketState} (h : Lined r.now) (hi : Next r.now i) :
    Lined (r.moved i state).now := by
  refine h.moved (fun j => ?_) (fun j hj => ?_) rfl (Or.inr hi)
  · rw [moved_path]
    split <;> rfl
  · rw [moved_path, if_neg fun hc => hj hc.1.symm]

theorem cleaned (h : Lined r.now) (i : Nat) : Lined (r.cleaned i).now := by
  by_cases hlt : i < r.now.paths.length
  · refine h.moved (i := i) (fun j => ?_) (fun j hj => ?_) (onward_cleaned r i).sequential
      (Or.inl ?_)
    · rw [cleaned_path]
      split <;> rfl
    · rw [cleaned_path, if_neg fun hc => hj hc.1.symm]
    · rw [cleaned_path, if_pos ⟨rfl, hlt⟩]
  · refine h.alike (fun j => ?_) (onward_cleaned r i).sequential
    rw [cleaned_path, if_neg fun hc => hlt (by rw [hc.1]; exact hc.2)]
    exact ⟨rfl, rfl⟩

theorem passed (h : Lined r.now) (hi : (r.now.path i).state = .ready) : Lined (r.passed i).now := by
  have hlt : i < r.now.paths.length := lt_of_state (by rw [hi]; exact SocketState.noConfusion)
  refine h.moved (i := i) (fun j => ?_) (fun j hj => ?_) (onward_passed r i).sequential (Or.inl ?_)
  · exact (onward_passed r i).family j
  · rw [passed_path, paused_state, picked_path, if_neg fun hc => hj hc.1.symm]
  · rw [passed_path, paused_state, picked_path, if_pos ⟨rfl, hlt⟩]

/-- In sequential mode two paths that are active are one. -/
theorem single (h : Lined s) (hseq : s.sequentialConnect = true) {j : Nat} (hi : s.active i)
    (hj : s.active j) : i = j := by
  rcases Nat.lt_trichotomy i j with hij | rfl | hji
  · exact absurd (h.line hseq i j hij hj) (not_active_done hi)
  · rfl
  · exact absurd (h.line hseq j i hji hi) (not_active_done hj)

end Lined

/-- The loop, which in sequential mode has skipped all paths so far. -/
structure Linear (rest : List Nat) (a b : Nat) (r : Run) : Prop where
  sweep : Sweep rest a b r
  lined : Lined r.now
  fresh : r.now.sequentialConnect = true → a = 0 ∧ b = 0 ∧
    ∀ j < r.now.paths.length, j ∉ rest → (r.now.path j).state = .done

namespace Linear

variable {r : Run} {i a b : Nat} {rest : List Nat}

theorem start (h : Lined r.now) : Linear (List.range r.now.paths.length) 0 0 r :=
  ⟨Sweep.start r 0 0, h,
    fun _ => ⟨rfl, rfl, fun _ hj hrest => absurd (List.mem_range.mpr hj) hrest⟩⟩

theorem skip (h : Linear (i :: rest) a b r) (hdone : (r.now.path i).state = .done) :
    Linear rest a b r := by
  refine ⟨h.sweep.skip hdone, h.lined, fun hseq => ?_⟩
  obtain ⟨ha, hb, hbehind⟩ := h.fresh hseq
  refine ⟨ha, hb, fun j hj hrest => ?_⟩
  by_cases hji : j = i
  · rw [hji]
    exact hdone
  · exact hbehind j hj fun hmem => (List.mem_cons.mp hmem).elim hji hrest

theorem count (h : Linear (i :: rest) a b r) (hcounted : (r.now.path i).counted a b) :
    Linear rest ((r.now.path i).up4 a) ((r.now.path i).up6 b) r := by
  refine ⟨h.sweep.next (refl_of Onward r), h.lined, fun hseq => ?_⟩
  obtain ⟨rfl, rfl, -⟩ := h.fresh hseq
  rcases hcounted with ⟨-, hne⟩ | ⟨-, hne⟩
  · exact absurd rfl hne
  · exact absurd rfl hne

theorem next (h : Linear (i :: rest) a b r) (hturns : Turns r i a b) (hstarts : Starts r i) :
    Next r.now i := by
  refine ⟨hturns.undone, hstarts.family, fun hseq j hj => ?_⟩
  obtain ⟨m, hrest, -⟩ := h.sweep
  obtain ⟨rfl, hlt, hrest'⟩ := Sweep.cons hrest
  refine (h.fresh hseq).2.2 j (hj.trans hlt) fun hmem => ?_
  rw [hrest] at hmem
  obtain ⟨l, hl, rfl⟩ := List.mem_iff_getElem.mp hmem
  rw [List.getElem_drop, List.getElem_range] at hj
  omega

end Linear

/-- The statements that are kept. -/
def lining : Stages where
  enter _ r := Lined r.now
  pick _ r := Lined r.now
  answer _ r := Lined r.now
  loop _ := Linear
  turned _ rest a b r := Sweep rest a b r ∧ Lined r.now
  kill r := Lined r.now
  rest r := Lined r.now
  stop _ _ := True

/-- A path that is attempted at its turn. -/
theorem Linear.moved {world : World} {r : Run} {i a b n : Nat} {rest : List Nat}
    (h : Linear (i :: rest) a b r) (hturns : Turns r i a b) (hstarts : Starts r i)
    (state : SocketState) :
    Lined (((r.reached world i).attempted i (some n)).moved i state).now := by
  have hon := onward_schedule (n := n) hstarts world state
  refine h.lined.moved (i := i) hon.family (fun j hj => ?_) hon.sequential
    (Or.inr (h.next hturns hstarts))
  rw [moved_path, if_neg fun hc => hj hc.1.symm]
  exact (alike_attempt world r i _ j).2

theorem Lined.ready {r : Run} {i : Nat} (h : Lined r.now)
    (hstate : (r.now.path i).state = .scheduled) :
    Lined ((r.watched i false).moved i .ready).now := by
  have hwatched : Lined (r.watched i false).now :=
    h.alike (alike_watched r i false) (onward_watched r i false).sequential
  have hscheduled : ((r.watched i false).now.path i).state = .scheduled :=
    (alike_watched r i false i).2.trans hstate
  refine hwatched.activated ⟨?_, hwatched.family i (Or.inl hscheduled), fun hseq j hj => ?_⟩
  · rw [hscheduled]
    exact SocketState.noConfusion
  · exact hwatched.line hseq j i hj (Or.inl hscheduled)

theorem initial_lined (families : List Int) (sequential : Bool) :
    Lined (initial families sequential).prepared.now :=
  ⟨fun i hi => absurd hi (initial_inactive families sequential i),
    fun _ _ j _ hj => absurd hj (initial_inactive families sequential j)⟩

theorem lining_rule (world : World) : Rule world lining where
  fuel _ := trivial
  stuck _ _ _ _ := trivial
  unready _ _ _ := trivial
  unpaused _ _ _ _ := trivial
  start h := Linear.start h
  skip h hdone := Linear.skip h hdone
  count h _ hcounted := Linear.count h hcounted
  idle {_ i _ _ _ r} h _ _ _ := ⟨h.sweep.next (onward_reached world r i),
    h.lined.alike (alike_reached world r i) (onward_reached world r i).sequential⟩
  resume {_ i _ _ _ r} h _ _ := by
    have hon := trans_of Onward (onward_reached world r i) (onward_watched _ i true)
    exact ⟨h.sweep.next hon,
      h.lined.alike ((alike_reached world r i).trans (alike_watched _ i true)) hon.sequential⟩
  schedule {_ i _ _ _ r} h hturns hstarts _ := by
    refine ⟨h.sweep.next ?_, ?_⟩
    · exact trans_of Onward (onward_schedule hstarts world _) (onward_watched _ i true)
    · exact (h.moved hturns hstarts .scheduled).alike (alike_watched _ i true)
        (onward_watched _ i true).sequential
  connected h hturns hstarts _ := h.moved hturns hstarts .ready
  refused {_ i _ _ _ r} fd h _ _ _ :=
    Lined.cleaned (h.lined.alike (alike_attempt world r i fd) (onward_attempt world r i fd).sequential)
      i
  back h _ _ hrest hon := ⟨h.sweep.next hon, hrest⟩
  on h hparallel := ⟨h.1, h.2, fun hseq => by rw [hparallel] at hseq; cases hseq⟩
  leave h _ := kept_if (fun hr => hr.alike (Alike.refl _) rfl) h.2
  finish h := kept_if (fun hr => hr.alike (Alike.refl _) rfl) h.lined
  lost h _ := h
  wait h _ _ := kept_if (fun hr => Lined.alike hr (Alike.refl _) rfl) h
  pass h _ hready _ := Lined.passed h hready
  ask h := Lined.alike h (Alike.refl _) rfl
  again _ hrest _ := hrest
  done h := h
  ready h hstate _ := Lined.ready h hstate
  failed h _ _ := Lined.cleaned h _
  next h := Lined.alike h (Alike.refl _) rfl
  expire h _ := Lined.alike h (Alike.refl _) rfl
  clean h _ := Lined.cleaned h _
  expired h := h
  skipping h _ := Lined.alike h (Alike.refl _) rfl
  handled h := Lined.alike h (Alike.refl _) rfl

/-! ### What the steps keep -/

/-- In sequential mode no path is READY. -/
def Lone (s : Socket) : Prop := s.sequentialConnect = true → ∀ i, (s.path i).state ≠ .ready

theorem Lone.alike {s s' : Socket} (h : Lone s) (hsame : Alike s s')
    (hsequential : s'.sequentialConnect = s.sequentialConnect) : Lone s' := by
  intro hseq i
  rw [(hsame i).2]
  exact h (hsequential ▸ hseq) i

/-- The log meets the condition. -/
def Prompts (world : World) (log : List (Note × Socket)) : Prop := ∀ o ∈ log, Prompt world o

theorem Prompts.older {world : World} {log log' : List (Note × Socket)} (h : Prompts world log')
    (hlog : log <:+ log') : Prompts world log := fun o ho => h o (hlog.subset ho)

/-- Whenever a function returns. -/
structure Resting (world : World) (r : Run) : Prop where
  lined : Lined r.now
  lone : Lone r.now
  backed : Prompts world r.log → r.now.waiting = true → Backed r.now

/-- Whenever `enable_sockets` is called. -/
structure Entering (world : World) (r : Run) : Prop where
  lined : Lined r.now
  lone : Lone r.now
  backed : Prompts world r.log → r.now.waiting = true → Backed r.now ∨ r.now.atOnce world = true

/-- After a turn of the loop. -/
structure Turning (world : World) (rest : List Nat) (a b : Nat) (r : Run) : Prop where
  sweep : Sweep rest a b r
  lined : Lined r.now
  lone : Lone r.now
  backed : Prompts world r.log → r.now.waiting = true →
    Backed r.now ∨ atOnce world r.now rest r.now.attempts a b = true

/-- Before a round of the loop, which in sequential mode has skipped all paths so far. -/
structure Looping (world : World) (rest : List Nat) (a b : Nat) (r : Run) : Prop
    extends Turning world rest a b r where
  fresh : r.now.sequentialConnect = true → a = 0 ∧ b = 0 ∧
    ∀ j < r.now.paths.length, j ∉ rest → (r.now.path j).state = .done

namespace Looping

variable {world : World} {r : Run} {i a b : Nat} {rest : List Nat}

theorem linear (h : Looping world rest a b r) : Linear rest a b r := ⟨h.sweep, h.lined, h.fresh⟩

theorem notMem (h : Looping world (i :: rest) a b r) : i ∉ rest := by
  obtain ⟨m, hrest, -⟩ := h.sweep
  have hnodup : (i :: rest).Nodup := by
    rw [hrest]
    exact (List.nodup_range).sublist (List.drop_sublist _ _)
  exact (List.nodup_cons.mp hnodup).1

theorem start (h : Entering world r) : Looping world (List.range r.now.paths.length) 0 0 r where
  sweep := Sweep.start r 0 0
  lined := h.lined
  lone := h.lone
  backed := h.backed
  fresh := (Linear.start h.lined).fresh

theorem skip (h : Looping world (i :: rest) a b r) (hdone : (r.now.path i).state = .done) :
    Looping world rest a b r where
  sweep := h.sweep.skip hdone
  lined := h.lined
  lone := h.lone
  backed hprompts hwaiting := by
    have hbacked := h.backed hprompts hwaiting
    rwa [atOnce, if_pos hdone] at hbacked
  fresh := (h.linear.skip hdone).fresh

theorem count (h : Looping world (i :: rest) a b r) (hundone : (r.now.path i).state ≠ .done)
    (hcounted : (r.now.path i).counted a b) :
    Looping world rest ((r.now.path i).up4 a) ((r.now.path i).up6 b) r where
  sweep := h.sweep.next (refl_of Onward r)
  lined := h.lined
  lone := h.lone
  backed hprompts hwaiting := by
    have hbacked := h.backed hprompts hwaiting
    rwa [atOnce, if_neg hundone, if_pos hcounted] at hbacked
  fresh := (h.linear.count hcounted).fresh

/-- A turn that attempts nothing. -/
theorem idle (h : Looping world (i :: rest) a b r) (hturns : Turns r i a b)
    (hstarts : ¬ Starts r i) {r' : Run} (hon : Onward r r') (hsame : Alike r.now r'.now)
    (hattempts : r'.now.attempts = r.now.attempts)
    (harmed : r'.now.priorityTimeout = r.now.priorityTimeout)
    (hwaiting : r'.now.waiting = r.now.waiting) :
    Turning world rest ((r.now.path i).up4 a) ((r.now.path i).up6 b) r' where
  sweep := h.sweep.next hon
  lined := h.lined.alike hsame hon.sequential
  lone := h.lone.alike hsame hon.sequential
  backed hprompts hwaits := by
    have hbacked := h.backed (hprompts.older hon.log) (hwaiting ▸ hwaits)
    rw [atOnce, if_neg hturns.undone, if_neg hturns.fresh,
      if_neg fun hc => hstarts ⟨hc.1, hc.2⟩] at hbacked
    rw [hattempts, atOnce_congr world rest _ _ _ fun j _ => hsame j]
    exact hbacked.imp_left fun hb => hb.alike hsame harmed

/-- A turn that starts a connection. -/
theorem schedule (h : Looping world (i :: rest) a b r) (hturns : Turns r i a b)
    (hstarts : Starts r i) (hattempt : world.attempt r.now.attempts = some .inProgress) :
    Turning world rest ((r.now.path i).up4 a) ((r.now.path i).up6 b)
      ((((r.reached world i).attempted i (some r.now.attempts)).moved i .scheduled).watched i
        true) := by
  have hon := trans_of Onward (onward_schedule (n := r.now.attempts) hstarts world .scheduled)
    (onward_watched _ i true)
  have hother : ∀ j, j ≠ i → (((((r.reached world i).attempted i (some r.now.attempts)).moved i
      .scheduled).watched i true).now.path j).state = (r.now.path j).state := by
    intro j hj
    rw [watched_path, if_neg fun hc => hj hc.1.symm, moved_path, if_neg fun hc => hj hc.1.symm]
    exact (alike_attempt world r i _ j).2
  have hself : (((((r.reached world i).attempted i (some r.now.attempts)).moved i
      .scheduled).watched i true).now.path i).state = .scheduled := by
    rw [(alike_watched _ i true i).2, moved_path,
      if_pos ⟨rfl, by rw [(onward_attempt world r i _).length]; exact hstarts.lt⟩]
  refine ⟨h.sweep.next hon, h.lined.moved (i := i) hon.family hother hon.sequential
    (Or.inr (h.linear.next hturns hstarts)), fun hseq j hj => ?_, fun hprompts hwaits => ?_⟩
  · by_cases hji : j = i
    · rw [hji, hself] at hj
      cases hj
    · rw [hother j hji] at hj
      exact h.lone (hon.sequential ▸ hseq) j hj
  · have hbacked := h.backed (hprompts.older hon.log) ((reached_rest world r i).1 ▸ hwaits)
    rw [atOnce, if_neg hturns.undone, if_neg hturns.fresh, if_pos ⟨hstarts.state, hstarts.family⟩,
      hattempt] at hbacked
    rcases hbacked with hbacked | honce
    · refine Or.inl fun j hj => ?_
      have hji : j ≠ i := by
        rintro rfl
        rw [hself] at hj
        cases hj
      rw [hother j hji] at hj
      obtain ⟨⟨l, hl, hscheduled⟩, harmed⟩ := hbacked j hj
      refine ⟨⟨l, hl, ?_⟩, (reached_rest world r i).2 ▸ harmed⟩
      by_cases hli : l = i
      · rw [hli]
        exact hself
      · rw [hother l hli]
        exact hscheduled
    · refine Or.inr ?_
      have hattempts : ((((r.reached world i).attempted i (some r.now.attempts)).moved i
          .scheduled).watched i true).now.attempts = r.now.attempts + 1 :=
        congrArg (· + 1) (reached_attempts world r i)
      rw [hattempts, atOnce_congr world (s := r.now) rest _ _ _ fun j hj => ?_]
      · simpa using honce
      · exact ⟨hon.family j, hother j fun hji => h.notMem (hji ▸ hj)⟩

/-- All paths have been visited. -/
theorem finish (h : Looping world [] a b r) :
    Resting world (if a = 0 ∧ b = 0 then r.cleared else r) := by
  have hbacked : Prompts world r.log → r.now.waiting = true → Backed r.now :=
    fun hprompts hwaiting => (h.backed hprompts hwaiting).resolve_right (by simp [atOnce])
  split
  · next hzero =>
      refine ⟨h.lined.alike (Alike.refl _) rfl, h.lone, fun _ _ => backed_of_none fun i hi => ?_⟩
      have hready : (r.now.path i).state = .ready := hi
      have hlt : i < r.now.paths.length :=
        lt_of_state (by rw [hready]; exact SocketState.noConfusion)
      obtain ⟨m, hrest, hbehind⟩ := h.sweep
      have hm : r.now.paths.length ≤ m := by
        have hnil := List.drop_eq_nil_iff.mp hrest.symm
        rwa [List.length_range] at hnil
      have hdone := hbehind i (hlt.trans_le hm) (h.lined.family i (Or.inr hready)) (by
        rw [hzero.1, hzero.2]
        rintro (⟨-, hne⟩ | ⟨-, hne⟩) <;> exact hne rfl)
      rw [hdone] at hready
      cases hready
  · exact ⟨h.lined, h.lone, hbacked⟩

end Looping

/-- In sequential mode the loop leaves nothing READY behind. -/
theorem Turning.leave {world : World} {r : Run} {a b : Nat} {rest : List Nat}
    (h : Turning world rest a b r) (hseq : r.now.sequentialConnect = true) :
    Resting world (if a = 0 ∧ b = 0 then r.cleared else r) := by
  split
  · exact ⟨h.lined.alike (Alike.refl _) rfl, h.lone, fun _ _ => backed_of_none (h.lone hseq)⟩
  · exact ⟨h.lined, h.lone, fun _ _ => backed_of_none (h.lone hseq)⟩

theorem entering_lost {world : World} {r : Run} (h : Lined r.now) (hfound : r.now.found = none) :
    Entering world r where
  lined := h
  lone _ := found_none hfound
  backed _ _ := Or.inl (backed_of_none (found_none hfound))

/-- `pickup_connected_socket` leaves a READY path only behind a SCHEDULED one. -/
theorem entering_wait {world : World} (htimers : ∀ n, world.timerfd n = true) {r : Run} {i : Nat}
    (h : Lined r.now) (hfound : r.now.found = some i) (hi : (r.now.path i).state = .scheduled) :
    Entering world (if r.now.paths.any (·.state = .ready) ∧ r.now.priorityTimeout = false then
      r.armed world else r) := by
  have hbehind : ∀ j, (r.now.path j).state = .ready → i < j := by
    intro j hj
    rcases Nat.lt_trichotomy i j with hij | rfl | hji
    · exact hij
    · rw [hi] at hj
      cases hj
    · exact absurd hj (found_first hfound hji).1
  have hlone : Lone r.now := by
    intro hseq j hj
    have hdone := h.line hseq i j (hbehind j hj) (Or.inr hj)
    rw [hi] at hdone
    cases hdone
  split
  · refine ⟨h.alike (Alike.refl _) rfl, hlone, fun _ _ => Or.inl fun j hj => ?_⟩
    exact ⟨⟨i, hbehind j hj, hi⟩, htimers _⟩
  · next harm =>
      refine ⟨h, hlone, fun _ _ => Or.inl fun j hj => ⟨⟨i, hbehind j hj, hi⟩, ?_⟩⟩
      by_contra hunarmed
      exact harm ⟨any_ready_iff.mpr ⟨j, hj⟩, by simpa using hunarmed⟩

theorem resting_passed {world : World} {r : Run} {i : Nat} (h : Lined r.now)
    (hi : (r.now.path i).state = .ready) : Resting world (r.passed i) where
  lined := h.passed hi
  lone hseq j hj := by
    have hlt : i < r.now.paths.length := lt_of_state (by rw [hi]; exact SocketState.noConfusion)
    rw [passed_path, paused_state, picked_path] at hj
    split at hj
    · cases hj
    · next hij =>
        have hji : i = j := h.single ((onward_passed r i).sequential ▸ hseq) (Or.inr hi) (Or.inr hj)
        exact hij ⟨hji, hji ▸ hlt⟩
  backed _ hwaiting := by cases hwaiting

theorem Resting.asked {world : World} {r : Run} (h : Resting world r) : Entering world r.asked where
  lined := h.lined.alike (Alike.refl _) rfl
  lone := h.lone
  backed hprompts _ := by
    have hsame : Alike r.now r.asked.now := Alike.refl r.now
    rw [atOnce_alike world hsame rfl rfl]
    exact (hprompts (.asked, r.now) List.mem_cons_self (Or.inl rfl)).imp_left
      fun hbacked => hbacked.alike hsame rfl


def ushering (world : World) : Stages where
  enter _ := Entering world
  pick _ r := Lined r.now
  answer _ := Resting world
  loop _ := Looping world
  turned _ := Turning world
  kill r := Lined r.now ∧ Lone r.now
  rest := Resting world
  stop _ _ := True

theorem ushering_rule {world : World} (htimers : ∀ n, world.timerfd n = true) :
    Rule world (ushering world) where
  fuel _ := trivial
  stuck _ _ _ _ := trivial
  unready _ _ _ := trivial
  unpaused _ _ _ _ := trivial
  start h := Looping.start h
  skip h hdone := Looping.skip h hdone
  count h hundone hcounted := Looping.count h hundone hcounted
  idle {_ i _ _ _ r} h hturns hstarts _ :=
    Looping.idle h hturns hstarts (onward_reached world r i) (alike_reached world r i)
      (reached_attempts world r i) (reached_rest world r i).2 (reached_rest world r i).1
  resume {_ i _ _ _ r} h hturns hpaused := by
    refine Looping.idle h hturns (fun hstarts => ?_)
      (trans_of Onward (onward_reached world r i) (onward_watched _ i true))
      ((alike_reached world r i).trans (alike_watched _ i true)) (reached_attempts world r i)
      (reached_rest world r i).2 (reached_rest world r i).1
    have hstate := hpaused.1
    rw [hstarts.state] at hstate
    cases hstate
  schedule h hturns hstarts hattempt := Looping.schedule h hturns hstarts hattempt
  connected h hturns hstarts _ := (Looping.linear h).moved hturns hstarts .ready
  refused {_ i _ _ _ r} fd h _ _ _ :=
    Lined.cleaned (h.lined.alike (alike_attempt world r i fd) (onward_attempt world r i fd).sequential)
      i
  back h _ _ hrest hon := ⟨h.sweep.next hon, hrest.lined, hrest.lone,
    fun hprompts hwaiting => Or.inl (hrest.backed hprompts hwaiting)⟩
  on h hparallel := ⟨h, fun hseq => by rw [hparallel] at hseq; cases hseq⟩
  leave h hseq := Turning.leave h hseq
  finish h := Looping.finish h
  lost h hfound := entering_lost h hfound
  wait h hfound hi := entering_wait htimers h hfound hi
  pass h _ hready _ := resting_passed h hready
  ask h := Resting.asked h
  again _ hrest _ := hrest
  done h := h
  ready h hstate _ := h.lined.ready hstate
  failed h _ _ := h.lined.cleaned _
  next h := Resting.asked h
  expire h _ := ⟨h.lined.alike (Alike.refl _) rfl, h.lone⟩
  clean {r i} h _ := by
    refine ⟨h.1.cleaned i, fun hseq j hj => ?_⟩
    rw [cleaned_path] at hj
    split at hj
    · cases hj
    · exact h.2 ((onward_cleaned r i).sequential ▸ hseq) j hj
  expired {r} h := ⟨h.1, h.2, fun hprompts hwaiting =>
    hprompts (.expired, r.now) List.mem_cons_self (Or.inr ⟨rfl, hwaiting⟩)⟩
  skipping h _ := h.lined.alike (Alike.refl _) rfl
  handled h := ⟨h.lined.alike (Alike.refl _) rfl, h.lone,
    fun hprompts hwaiting => (h.backed hprompts hwaiting).alike (Alike.refl _) rfl⟩

/--
**Where the condition is met whenever `enable_sockets` is called without looking for a READY
path first, none is left waiting: after every event with a request to answer, a READY path is
behind a SCHEDULED one and the priority timeout is armed.**
-/
theorem ready_never_stranded (world : World) (htimers : ∀ n, world.timerfd n = true)
    (families : List Int) (sequential : Bool) (events : List Event) :
    Sat (connect world events) (initial families sequential)
      (fun _ r => Prompts world r.log → r.now.waiting = true → Backed r.now)
      (fun e _ => ∃ x, e = .assertion x) := by
  have hnone := fun i => (initial_path families sequential i).1
  have hinitial : Entering world (initial families sequential).prepared := by
    refine ⟨initial_lined families sequential, fun _ i hi => ?_,
      fun _ _ => Or.inl (backed_of_none fun i hi => ?_)⟩
    · rw [hnone] at hi
      cases hi
    · rw [hnone] at hi
      cases hi
  exact ((connect_stops world _ events).and ((ushering_rule htimers).connect events
    (fun _ _ _ _ _ => trivial) hinitial)).mono
    (fun _ _ h => h.2.backed) (fun _ _ h => h.1)

/-- An IPv4 path is READY while the IPv6 path before it is in progress. -/
theorem ready_never_stranded_one :
    let world : World := { attempt := fun n => if n = 0 then some .inProgress else some .ok }
    let r := final (connect world []) (initial [AF_INET6, AF_INET] false)
    Prompts world r.log ∧ r.now.waiting = true ∧ (r.now.path 1).state = .ready ∧ Backed r.now := by
  intro world r
  have hplain : ∀ o ∈ r.log, o.1 ≠ .asked ∧ o.1 ≠ .expired := by decide +kernel
  have hprompts : Prompts world r.log := by
    rintro o ho (hasked | ⟨hexpired, -⟩)
    · exact absurd hasked (hplain o ho).1
    · exact absurd hexpired (hplain o ho).2
  have hwaiting : r.now.waiting = true := by decide +kernel
  have hreturns : returns (connect world []) (initial [AF_INET6, AF_INET] false) = true := by
    decide +kernel
  refine ⟨hprompts, hwaiting, by decide +kernel, ?_⟩
  exact (ready_never_stranded world (fun _ => rfl) _ _ _).of_ok (ok_of_returns hreturns) hprompts
    hwaiting

/-- The connection timeout kills the IPv6 attempt and leaves the IPv4 socket where it is. -/
theorem timeout_strands_ready : ¬ ∀ (world : World) (families : List Int) (sequential : Bool)
    (events : List Event) (r : Run), (∀ n, world.timerfd n = true) →
    connect world events (initial families sequential) = .ok () r → r.now.waiting = true →
      Backed r.now := by
  intro h
  let world : World := { attempt := fun n => if n = 0 then some .inProgress else some .ok }
  have hreturns : returns (connect world [.timeout]) (initial [AF_INET6, AF_INET] false) = true := by
    decide +kernel
  have hbacked := h world _ _ _ _ (fun _ => rfl) (ok_of_returns hreturns) (by decide +kernel) 1
    (by decide +kernel)
  revert hbacked
  decide +kernel

end Netresolve.Connect
