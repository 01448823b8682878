/-
The assertions of the connection machine.

A SCHEDULED path has a watch or is paused, and `socket_pause` insists on the first.  It is
called for every SCHEDULED path when a socket is handed over, and the paths that were paused
then are resumed by the next loop of `enable_sockets`, each at its turn.  A connection that
succeeds before that turn has come is handed over while the other path is still paused, and
the assertion fails.  This is the only way any of the assertions can fail: a hand-over behind
a paused path does not happen, because `pickup_connected_socket` stops at the SCHEDULED path
first, and the priority timeout, which would let it go on, is armed only right before a loop
that resumes everything.

So a run is stopped by an assertion if and only if some connection in it succeeds while a path
behind it is paused.
-/
import Netresolve.Proofs.Descriptors
import Netresolve.Proofs.Requests
import Netresolve.Proofs.Waiting

namespace Netresolve.Connect

open Outcome

/-! ### The condition -/

/-- Of an entry of the log: if a connection has just succeeded, no path behind it is paused. -/
def Unhindered (o : Note × Socket) : Prop :=
  ∀ i, o.1 = .changed i → (o.2.path i).state = .ready → ∀ j, i < j → ¬ o.2.paused j

def AllUnhindered (log : List (Note × Socket)) : Prop := ∀ o ∈ log, Unhindered o

theorem AllUnhindered.cons {log : List (Note × Socket)} (h : AllUnhindered log) {o : Note × Socket}
    (ho : Unhindered o) : AllUnhindered (o :: log) := by
  intro o' ho'
  rcases List.mem_cons.mp ho' with rfl | ho'
  · exact ho
  · exact h o' ho'

theorem AllUnhindered.older {log log' : List (Note × Socket)} (h : AllUnhindered log')
    (hlog : log <:+ log') : AllUnhindered log := fun o ho => h o (hlog.subset ho)

/-- Entries that are not about a success. -/
theorem unhindered_of_ne {n : Note} {s : Socket}
    (h : ∀ i, n = .changed i → (s.path i).state ≠ .ready) : Unhindered (n, s) :=
  fun i hi hready => absurd hready (h i hi)

theorem AllUnhindered.noted {r : Run} {n : Note} (h : AllUnhindered r.log)
    (hn : ∀ i, n = .changed i → (r.now.path i).state ≠ .ready) : AllUnhindered (r.noted n).log :=
  h.cons (unhindered_of_ne hn)

theorem AllUnhindered.reached {world : World} {r : Run} (h : AllUnhindered r.log) (i : Nat) :
    AllUnhindered (r.reached world i).log := by
  have hturned : AllUnhindered (r.noted (.turned i)).log := h.noted (by simp)
  unfold Run.reached Run.timed
  split
  · exact hturned
  · exact hturned

theorem AllUnhindered.attempted {r : Run} (h : AllUnhindered r.log) (i : Nat) (fd : Option Nat) :
    AllUnhindered (r.attempted i fd).log := by
  cases fd with
  | none => exact h
  | some n => exact h.cons (unhindered_of_ne (by simp))

theorem AllUnhindered.moved {r : Run} {i : Nat} {state : SocketState} (h : AllUnhindered r.log)
    (hstate : state ≠ .ready) (hi : i < r.now.paths.length) :
    AllUnhindered (r.moved i state).log := by
  refine h.cons (unhindered_of_ne fun j hj => ?_)
  obtain rfl : i = j := by simpa using hj
  show ((r.moved i state).now.path i).state ≠ .ready
  rw [moved_path, if_pos ⟨rfl, hi⟩]
  exact hstate

theorem AllUnhindered.cleaned {r : Run} {i : Nat} (h : AllUnhindered r.log)
    (hi : i < r.now.paths.length) : AllUnhindered (r.cleaned i).log := by
  have hdone : AllUnhindered (r.moved i .done).log := h.moved SocketState.noConfusion hi
  exact Run.cleaned_rule (P := fun r => AllUnhindered r.log) hdone
    fun _ _ _ h' => h'.cons (unhindered_of_ne (by simp))

theorem AllUnhindered.passed {r : Run} {i : Nat} (h : AllUnhindered r.log)
    (hi : i < r.now.paths.length) : AllUnhindered (r.passed i).log := by
  have hchosen : AllUnhindered (r.noted (.chosen i)).log := h.noted (by simp)
  have hdone : AllUnhindered ((r.noted (.chosen i)).moved i .done).log :=
    hchosen.moved SocketState.noConfusion hi
  exact hdone.cons (unhindered_of_ne (by simp))

/-! ### At most two paths are active -/

theorem Ordered.single {s : Socket} (h : Ordered s) {i j : Nat} (hi : s.active i) (hj : s.active j)
    (hfamily : (s.path i).family = (s.path j).family) : i = j := by
  rcases Nat.lt_trichotomy i j with hij | rfl | hji
  · exact absurd (h i j hij hfamily hj) (not_active_done hi)
  · rfl
  · exact absurd (h j i hji hfamily.symm hi) (not_active_done hj)

theorem family_cases {p : Path} (h : hasSockaddr p.family = true) :
    p.family = AF_INET ∨ p.family = AF_INET6 := by
  unfold hasSockaddr at h
  exact of_decide_eq_true h

/-- Of three active paths two are the same. -/
theorem Lined.third {s : Socket} (h : Lined s) (hordered : Ordered s) {i j m : Nat}
    (hi : s.active i) (hj : s.active j) (hm : s.active m) : i = j ∨ i = m ∨ j = m := by
  rcases family_cases (h.family i hi) with fi | fi <;>
    rcases family_cases (h.family j hj) with fj | fj <;>
    rcases family_cases (h.family m hm) with fm | fm
  all_goals first
    | exact Or.inl (hordered.single hi hj (fi.trans fj.symm))
    | exact Or.inr (Or.inl (hordered.single hi hm (fi.trans fm.symm)))
    | exact Or.inr (Or.inr (hordered.single hj hm (fj.trans fm.symm)))

/-- While a path is attempted at most one other is active. -/
theorem Lined.alone {r : Run} {i a b : Nat} {rest : List Nat} (h : Lined r.now)
    (hordered : Ordered r.now) (hsweep : Sweep (i :: rest) a b r) (hturns : Turns r i a b)
    (hstarts : Starts r i) {j m : Nat} (hj : r.now.active j) (hm : r.now.active m) : j = m := by
  have hother : ∀ l, r.now.active l → (r.now.path l).family ≠ (r.now.path i).family := by
    intro l hl hsame
    rcases Nat.lt_trichotomy l i with hli | rfl | hil
    · exact not_active_done hl (hsweep.first hturns hstarts.family hli hsame)
    · unfold Socket.active at hl
      rw [hstarts.state] at hl
      rcases hl with hl | hl <;> cases hl
    · have hdone := hordered i l hil hsame.symm hl
      rw [hstarts.state] at hdone
      cases hdone
  refine hordered.single hj hm ?_
  have hj' := hother j hj
  have hm' := hother m hm
  rcases family_cases hstarts.family with fi | fi <;>
    rcases family_cases (h.family j hj) with fj | fj <;>
    rcases family_cases (h.family m hm) with fm | fm
  all_goals first
    | exact fj.trans fm.symm
    | exact absurd (fj.trans fi.symm) hj'
    | exact absurd (fm.trans fi.symm) hm'

theorem found_of_first {s : Socket} {i : Nat} (hready : (s.path i).state = .ready)
    (hfirst : ∀ j < i, ¬ s.active j) : s.found = some i := by
  have hlt : i < s.paths.length := lt_of_state (by rw [hready]; exact SocketState.noConfusion)
  unfold Socket.found
  refine List.findIdx?_eq_some_iff_getElem.mpr ⟨hlt, ?_, fun j hj => ?_⟩
  · rw [← path_eq_getElem hlt, hready]
    simp
  · have hinactive := hfirst j hj
    rw [← path_eq_getElem (hj.trans hlt)]
    unfold Socket.active at hinactive
    push Not at hinactive
    simp [hinactive.1, hinactive.2]

/-! ### What the steps keep -/

/-- Whenever a function returns: where the priority timeout is armed nothing is paused. -/
structure Resumed (r : Run) : Prop where
  log : AllUnhindered r.log
  armed : r.now.priorityTimeout = true → ∀ j, ¬ r.now.paused j

/-- In the loop: where the priority timeout is armed a paused path has its turn to come. -/
structure Resuming (rest : List Nat) (a b : Nat) (r : Run) : Prop where
  log : AllUnhindered r.log
  armed : r.now.priorityTimeout = true → ∀ j, r.now.paused j →
    j ∈ rest ∧ ¬ (r.now.path j).counted a b

/-- Either nothing is paused when a socket is handed over, or the condition has failed. -/
def Picks (r : Run) : Prop :=
  (AllUnhindered r.log ∧
    ∀ p j, r.now.found = some p → (r.now.path p).state = .ready → ¬ r.now.paused j) ∨
  (¬ AllUnhindered r.log ∧
    ∃ p j, r.now.found = some p ∧ (r.now.path p).state = .ready ∧ r.now.paused j)

theorem not_paused_ready {s : Socket} {i : Nat} (h : (s.path i).state = .ready) : ¬ s.paused i := by
  intro hc
  have hstate := hc.1
  rw [h] at hstate
  cases hstate

/-- A connection has succeeded, next to at most one other path that is active. -/
theorem picks_success {r : Run} {i : Nat} {log : List (Note × Socket)}
    (hlog : r.log = (.changed i, r.now) :: log) (hold : AllUnhindered log)
    (hready : (r.now.path i).state = .ready) (hskip : r.now.skipScheduled = false)
    (halone : ∀ j m, j ≠ i → m ≠ i → r.now.active j → r.now.active m → j = m) : Picks r := by
  by_cases hbehind : ∃ j, i < j ∧ r.now.paused j
  · obtain ⟨j, hij, hj⟩ := hbehind
    refine Or.inr ⟨fun hall => ?_, i, j, found_of_first hready fun m hm hactive => ?_, hready, hj⟩
    · rw [hlog] at hall
      exact hall _ List.mem_cons_self i rfl hready j hij hj
    · have hmj := halone m j (Nat.ne_of_lt hm) (Nat.ne_of_gt hij) hactive (Or.inl hj.1)
      omega
  · refine Or.inl ⟨?_, fun p j hfound hp hj => ?_⟩
    · rw [hlog]
      refine hold.cons fun i' hi' _ j hij hj => hbehind ⟨j, ?_, hj⟩
      obtain rfl : i = i' := by simpa using hi'
      exact hij
    · have hji : j ≠ i := by
        rintro rfl
        exact not_paused_ready hready hj
      have hfirst : ¬ j < p := fun hjp => (found_first hfound hjp).2 hskip hj.1
      rcases Nat.lt_trichotomy p i with hpi | rfl | hip
      · have hpj := halone p j (Nat.ne_of_lt hpi) hji (Or.inr hp) (Or.inl hj.1)
        rw [hpj] at hp
        exact not_paused_ready hp hj
      · exact hbehind ⟨j, by omega, hj⟩
      · exact (found_first hfound hip).1 hready

theorem picks_quiet {r : Run} (h : AllUnhindered r.log)
    (hnone : ∀ p j, (r.now.path p).state = .ready → ¬ r.now.paused j) : Picks r :=
  Or.inl ⟨h, fun p j _ hp => hnone p j hp⟩

/-- What the other rules say. -/
def grounds : Stages :=
  shallow.and (inOrder.and (preferring.and (lining.and (counting.and owning))))

theorem grounds_rule (world : World) : Rule world grounds :=
  (shallow_rule world).and ((inOrder_rule world).and ((preferring_rule world).and
    ((lining_rule world).and ((counting_rule world).and (owning_rule world)))))

def pausing : Stages where
  enter _ r := AllUnhindered r.log
  pick _ := Picks
  answer _ := Resumed
  loop _ := Resuming
  turned _ := Resuming
  kill r := AllUnhindered r.log
  rest := Resumed
  stop _ log := ¬ AllUnhindered log

/-! ### The loop -/

theorem paused_lt {s : Socket} {i : Nat} (h : s.paused i) : i < s.paths.length :=
  lt_of_state (by rw [h.1]; exact SocketState.noConfusion)

namespace Resuming

variable {world : World} {r r' : Run} {i a b : Nat} {rest : List Nat}

theorem start (h : AllUnhindered r.log) : Resuming (List.range r.now.paths.length) 0 0 r := by
  refine ⟨h, fun _ j hj => ⟨List.mem_range.mpr (paused_lt hj), ?_⟩⟩
  rintro (⟨-, hne⟩ | ⟨-, hne⟩) <;> exact hne rfl

theorem skip (h : Resuming (i :: rest) a b r) (hdone : (r.now.path i).state = .done) :
    Resuming rest a b r := by
  refine ⟨h.log, fun harmed j hj => ?_⟩
  obtain ⟨hmem, hfresh⟩ := h.armed harmed j hj
  refine ⟨(List.mem_cons.mp hmem).resolve_left fun hji => ?_, hfresh⟩
  subst hji
  exact not_active_done (Or.inl hj.1) hdone

/-- The counters of another family do not count a path. -/
theorem uncounted {p q : Path} (h : ¬ p.counted a b) (hfamily : q.family ≠ p.family) :
    ¬ p.counted (q.up4 a) (q.up6 b) := by
  unfold Path.counted Path.up4 Path.up6 at *
  rintro (⟨hp, hne⟩ | ⟨hp, hne⟩)
  · rw [if_neg (fun hq => hfamily (hq.trans hp.symm))] at hne
    exact h (Or.inl ⟨hp, hne⟩)
  · rw [if_neg (fun hq => hfamily (hq.trans hp.symm))] at hne
    exact h (Or.inr ⟨hp, hne⟩)

theorem count (h : Resuming (i :: rest) a b r) (hcounted : (r.now.path i).counted a b) :
    Resuming rest ((r.now.path i).up4 a) ((r.now.path i).up6 b) r := by
  refine ⟨h.log, fun harmed j hj => ?_⟩
  obtain ⟨hmem, hfresh⟩ := h.armed harmed j hj
  have hfamily : (r.now.path i).family ≠ (r.now.path j).family := by
    intro hsame
    unfold Path.counted at *
    rw [hsame] at hcounted
    exact hfresh hcounted
  refine ⟨(List.mem_cons.mp hmem).resolve_left fun hji => ?_, uncounted hfresh hfamily⟩
  exact hfamily (by rw [hji])

/-- A turn after which a path is paused only if it was and was not the one at its turn. -/
theorem turn (h : Resuming (i :: rest) a b r) (hordered : Ordered r.now)
    (hsweep : Sweep (i :: rest) a b r) (hundone : (r.now.path i).state ≠ .done)
    (hlog : AllUnhindered r'.log) (hon : Onward r r')
    (harmed : r'.now.priorityTimeout = r.now.priorityTimeout)
    (hpaused : ∀ j, r'.now.paused j → r.now.paused j ∧ j ≠ i) :
    Resuming rest ((r.now.path i).up4 a) ((r.now.path i).up6 b) r' := by
  refine ⟨hlog, fun harm j hj => ?_⟩
  rw [harmed] at harm
  obtain ⟨hj', hji⟩ := hpaused j hj
  obtain ⟨hmem, hfresh⟩ := h.armed harm j hj'
  have hrest := (List.mem_cons.mp hmem).resolve_left hji
  have hlt : i < j := by
    obtain ⟨m, hall, -⟩ := hsweep
    obtain ⟨rfl, -, hrest'⟩ := Sweep.cons hall
    rw [hrest'] at hrest
    obtain ⟨l, hl, rfl⟩ := List.mem_iff_getElem.mp hrest
    rw [List.getElem_drop, List.getElem_range]
    omega
  refine ⟨hrest, ?_⟩
  have hcounted : ∀ c d, (r'.now.path j).counted c d ↔ (r.now.path j).counted c d := by
    intro c d
    unfold Path.counted
    rw [hon.family j]
  rw [hcounted]
  refine uncounted hfresh fun hsame => hundone ?_
  exact hordered i j hlt hsame (Or.inl hj'.1)

theorem finish (h : Resuming [] a b r) : Resumed r := by
  refine ⟨h.log, fun harmed j hj => ?_⟩
  have hmem := (h.armed harmed j hj).1
  cases hmem

end Resuming

/-! ### The paths after a step -/

theorem paused_reached (world : World) (r : Run) (i j : Nat) :
    (r.reached world i).now.paused j ↔ r.now.paused j := by
  unfold Socket.paused
  rw [reached_path]

/-- A path with a watch is not paused, and the others are as they were. -/
theorem paused_watched {r : Run} {i j : Nat} (h : (r.watched i true).now.paused j) :
    r.now.paused j ∧ j ≠ i := by
  have hlt := paused_lt h
  rw [show (r.watched i true).now.paths.length = r.now.paths.length from length_modifyPath ..] at hlt
  unfold Socket.paused at h
  rw [watched_path] at h
  split at h
  · cases h.2
  · next hij => exact ⟨h, fun hji => hij ⟨hji.symm, hlt⟩⟩

theorem paused_moved {r : Run} {i j : Nat} {state : SocketState} (hj : j ≠ i) :
    (r.moved i state).now.paused j ↔ r.now.paused j := by
  unfold Socket.paused
  rw [moved_path, if_neg fun hc => hj hc.1.symm]

theorem active_moved {r : Run} {i j : Nat} {state : SocketState} (hj : j ≠ i) :
    (r.moved i state).now.active j ↔ r.now.active j := by
  unfold Socket.active
  rw [moved_path, if_neg fun hc => hj hc.1.symm]

theorem paused_attempt {world : World} {r : Run} {i j : Nat} (fd : Option Nat) :
    ((r.reached world i).attempted i fd).now.paused j ↔ r.now.paused j := by
  unfold Socket.paused
  rw [attempted_path, reached_path]
  split <;> exact Iff.rfl

theorem Alike.active {s s' : Socket} (h : Alike s s') (j : Nat) : s'.active j ↔ s.active j := by
  unfold Socket.active
  rw [(h j).2]

/-- What is active, or paused, after a path has been cleaned up was so before. -/
theorem cleaned_ready {r : Run} {i j : Nat} (h : ((r.cleaned i).now.path j).state = .ready) :
    (r.now.path j).state = .ready ∧ j ≠ i := by
  have hlt : j < r.now.paths.length := by
    rw [← (onward_cleaned r i).length]
    exact lt_of_state (by rw [h]; exact SocketState.noConfusion)
  rw [cleaned_path] at h
  split at h
  · cases h
  · next hij => exact ⟨h, fun hji => hij ⟨hji.symm, hlt⟩⟩

theorem cleaned_paused {r : Run} {i j : Nat} (h : (r.cleaned i).now.paused j) :
    r.now.paused j ∧ j ≠ i := by
  have hlt := paused_lt h
  rw [(onward_cleaned r i).length] at hlt
  unfold Socket.paused at h
  rw [cleaned_path] at h
  split at h
  · cases h.1
  · next hij => exact ⟨h, fun hji => hij ⟨hji.symm, hlt⟩⟩

/-! ### The rule -/

theorem pausing_rule (world : World) : Rule world (grounds.and pausing) where
  fuel h := absurd h.1.1 (Nat.not_lt_zero _)
  stuck h _ hpaused hfd := absurd hfd ((h.1.2.2.2.2.2.shaped _).full (Or.inl hpaused.1))
  unready h hwatch hstate := absurd (h.1.2.2.2.2.1.watch _ hwatch) hstate
  unpaused {_ r i _} h hfound hready hpaused := by
    refine ⟨(grounds_rule world).unpaused h.1 hfound hready hpaused, fun hall => ?_⟩
    rcases h.2 with ⟨-, hnone⟩ | ⟨hnot, -⟩
    · exact hnone _ _ hfound hready hpaused
    · exact hnot (hall.older (onward_picked r i).log)
  start h := ⟨(grounds_rule world).start h.1, Resuming.start h.2⟩
  skip h hdone := ⟨(grounds_rule world).skip h.1 hdone, Resuming.skip h.2 hdone⟩
  count h hundone hcounted :=
    ⟨(grounds_rule world).count h.1 hundone hcounted, Resuming.count h.2 hcounted⟩
  idle {_ i _ _ _ r} h hturns hstarts hp := by
    refine ⟨(grounds_rule world).idle h.1 hturns hstarts hp, ?_⟩
    obtain ⟨⟨-, ⟨hsteady, hsweep⟩, -⟩, hresuming⟩ := h
    refine hresuming.turn hsteady.now hsweep hturns.undone (hresuming.log.reached i)
      (onward_reached world r i) (reached_rest world r i).2 fun j hj => ?_
    rw [paused_reached] at hj
    exact ⟨hj, fun hji => hp (hji ▸ hj)⟩
  resume {_ i _ _ _ r} h hturns hp := by
    refine ⟨(grounds_rule world).resume h.1 hturns hp, ?_⟩
    obtain ⟨⟨-, ⟨hsteady, hsweep⟩, -⟩, hresuming⟩ := h
    refine hresuming.turn hsteady.now hsweep hturns.undone (hresuming.log.reached i)
      (trans_of Onward (onward_reached world r i) (onward_watched _ i true))
      (reached_rest world r i).2 fun j hj => ?_
    obtain ⟨hj, hji⟩ := paused_watched hj
    exact ⟨(paused_reached world r i j).mp hj, hji⟩
  schedule {_ i _ _ _ r} h hturns hstarts hattempt := by
    refine ⟨(grounds_rule world).schedule h.1 hturns hstarts hattempt, ?_⟩
    obtain ⟨⟨-, ⟨hsteady, hsweep⟩, -⟩, hresuming⟩ := h
    refine hresuming.turn hsteady.now hsweep hturns.undone ?_
      (trans_of Onward (onward_schedule hstarts world _) (onward_watched _ i true))
      (reached_rest world r i).2 fun j hj => ?_
    · refine ((hresuming.log.reached i).attempted i _).moved SocketState.noConfusion ?_
      rw [(onward_attempt world r i _).length]
      exact hstarts.lt
    · obtain ⟨hj, hji⟩ := paused_watched hj
      rw [paused_moved hji, paused_attempt] at hj
      exact ⟨hj, hji⟩
  connected {_ i _ _ _ r} h hturns hstarts hattempt := by
    refine ⟨(grounds_rule world).connected h.1 hturns hstarts hattempt, ?_⟩
    obtain ⟨⟨-, ⟨hsteady, hsweep⟩, hcalm, hlinear, -⟩, hresuming⟩ := h
    have hcalm' : Calm (((r.reached world i).attempted i (some r.now.attempts)).moved i .ready) :=
      ((Calm.reached hcalm i).attempted i _).moved fun _ => rfl
    have hlt : i < ((r.reached world i).attempted i (some r.now.attempts)).now.paths.length := by
      rw [(onward_attempt world r i _).length]
      exact hstarts.lt
    refine picks_success rfl ((hresuming.log.reached i).attempted i _) ?_ hcalm'.skip
      fun j m hj hm hja hma => ?_
    · rw [moved_path, if_pos ⟨rfl, hlt⟩]
    · rw [active_moved hj, (alike_attempt world r i _).active] at hja
      rw [active_moved hm, (alike_attempt world r i _).active] at hma
      exact hlinear.lined.alone hsteady.now hsweep hturns hstarts hja hma
  refused {_ i _ _ _ r} fd h hturns hstarts hattempt := by
    refine ⟨(grounds_rule world).refused fd h.1 hturns hstarts hattempt, ?_⟩
    obtain ⟨⟨-, ⟨hsteady, hsweep⟩, -, hlinear, -⟩, hresuming⟩ := h
    have hlt : i < ((r.reached world i).attempted i fd).now.paths.length := by
      rw [(onward_attempt world r i _).length]
      exact hstarts.lt
    refine picks_quiet (((hresuming.log.reached i).attempted i fd).cleaned hlt)
      fun p j hp hj => ?_
    have hp' := (cleaned_ready hp).1
    have hj' := (cleaned_paused hj).1
    rw [(alike_attempt world r i fd p).2] at hp'
    rw [paused_attempt] at hj'
    have hpj := hlinear.lined.alone hsteady.now hsweep hturns hstarts (Or.inr hp') (Or.inl hj'.1)
    rw [hpj] at hp'
    exact not_paused_ready hp' hj'
  back h hturns hstarts hrest hon :=
    ⟨(grounds_rule world).back h.1 hturns hstarts hrest.1 hon, hrest.2.log,
      fun harmed j hj => absurd hj (hrest.2.armed harmed j)⟩
  on h hparallel := ⟨(grounds_rule world).on h.1 hparallel, h.2⟩
  leave {_ _ _ _ r} h hsequential := by
    refine ⟨(grounds_rule world).leave h.1 hsequential, ?_⟩
    obtain ⟨⟨-, -, hcalm, ⟨-, hlined⟩, -⟩, hresuming⟩ := h
    split
    · exact ⟨hresuming.log, fun harmed => by cases harmed⟩
    · refine ⟨hresuming.log, fun harmed j hj => ?_⟩
      obtain ⟨p, hp⟩ := hcalm.ready harmed
      have hpj := hlined.single hsequential (Or.inr hp) (Or.inl hj.1)
      rw [hpj] at hp
      exact not_paused_ready hp hj
  finish h := by
    refine ⟨(grounds_rule world).finish h.1, ?_⟩
    split
    · exact ⟨h.2.log, fun harmed => by cases harmed⟩
    · exact Resuming.finish h.2
  lost h hfound := by
    refine ⟨(grounds_rule world).lost h.1 hfound, ?_⟩
    rcases h.2 with ⟨hall, -⟩ | ⟨-, p, j, hp, -⟩
    · exact hall
    · rw [hfound] at hp
      cases hp
  wait {_ r i} h hfound hstate := by
    refine ⟨(grounds_rule world).wait h.1 hfound hstate, ?_⟩
    have hall : AllUnhindered r.log := by
      rcases h.2 with ⟨hall, -⟩ | ⟨-, p, j, hp, hready, -⟩
      · exact hall
      · rw [hfound] at hp
        injection hp with hp
        rw [← hp, hstate] at hready
        cases hready
    split
    · exact hall
    · exact hall
  pass {_ r i} h hfound hready hnone := by
    refine ⟨(grounds_rule world).pass h.1 hfound hready hnone, ?_⟩
    have hlt : i < r.now.paths.length := lt_of_state (by rw [hready]; exact SocketState.noConfusion)
    rcases h.2 with ⟨hall, -⟩ | ⟨-, p, j, -, -, hj⟩
    · exact ⟨hall.passed hlt, fun harmed => by cases harmed⟩
    · exact absurd hj (hnone j)
  ask h := ⟨(grounds_rule world).ask h.1, AllUnhindered.noted h.2.log (by simp)⟩
  again h hrest hon := ⟨(grounds_rule world).again h.1 hrest.1 hon, hrest.2⟩
  done h := ⟨(grounds_rule world).done h.1, h.2⟩
  ready {r i} h hstate hwatch := by
    refine ⟨(grounds_rule world).ready h.1 hstate hwatch, ?_⟩
    obtain ⟨⟨-, hsteady, hcalm, hlined, -⟩, hresumed⟩ := h
    have hcalm' : Calm ((r.watched i false).moved i .ready) :=
      (Calm.watched hcalm i false).moved fun _ => rfl
    have hlt : i < (r.watched i false).now.paths.length := by
      rw [(onward_watched r i false).length]
      exact lt_of_state (by rw [hstate]; exact SocketState.noConfusion)
    refine picks_success rfl hresumed.log ?_ hcalm'.skip fun j m hj hm hja hma => ?_
    · rw [moved_path, if_pos ⟨rfl, hlt⟩]
    · rw [active_moved hj, (alike_watched r i false).active] at hja
      rw [active_moved hm, (alike_watched r i false).active] at hma
      rcases Lined.third hlined (Steady.now hsteady) (Or.inl hstate) hja hma with heq | heq | heq
      · exact absurd heq.symm hj
      · exact absurd heq.symm hm
      · exact heq
  failed {r i} h hstate hwatch := by
    refine ⟨(grounds_rule world).failed h.1 hstate hwatch, ?_⟩
    obtain ⟨⟨-, hsteady, -, hlined, -⟩, hresumed⟩ := h
    have hlt : i < r.now.paths.length := lt_of_state (by rw [hstate]; exact SocketState.noConfusion)
    refine picks_quiet (hresumed.log.cleaned hlt) fun p j hp hj => ?_
    obtain ⟨hp, hpi⟩ := cleaned_ready hp
    obtain ⟨hj, hji⟩ := cleaned_paused hj
    rcases Lined.third hlined (Steady.now hsteady) (Or.inl hstate) (Or.inr hp) (Or.inl hj.1)
      with heq | heq | heq
    · exact hpi heq.symm
    · exact hji heq.symm
    · rw [heq] at hp
      exact not_paused_ready hp hj
  next h := ⟨(grounds_rule world).next h.1, AllUnhindered.noted h.2.log (by simp)⟩
  expire h htimeout := ⟨(grounds_rule world).expire h.1 htimeout, h.2.log⟩
  clean h hstate := ⟨(grounds_rule world).clean h.1 hstate,
    AllUnhindered.cleaned h.2 (lt_of_state (by rw [hstate]; exact SocketState.noConfusion))⟩
  expired h := ⟨(grounds_rule world).expired h.1, AllUnhindered.noted h.2 (by simp)⟩
  skipping h harmed := by
    refine ⟨(grounds_rule world).skipping h.1 harmed, ?_⟩
    refine picks_quiet (h.2.log.cons (unhindered_of_ne (by simp))) fun _ j _ => ?_
    exact h.2.armed harmed j
  handled h := ⟨(grounds_rule world).handled h.1, h.2.log, h.2.armed⟩

/-- A run stops exactly if the condition fails in it. -/
theorem connect_unhindered (world : World) (families : List Int) (sequential : Bool)
    {events : List Event} (hevents : ∀ event ∈ events, event.spurious = false) :
    Sat (connect world events) (initial families sequential) (fun _ r => AllUnhindered r.log)
      (fun _ r => ¬ AllUnhindered r.log) := by
  have hlength : (initial families sequential).prepared.now.paths.length =
      (initial families sequential).now.paths.length := List.length_map _
  have hshallow : (initial families sequential).prepared.now.untried.card <
      nesting (initial families sequential).now := by
    unfold nesting
    rw [← hlength]
    exact untried_le _
  refine ((pausing_rule world).connect events (fun event hevent hs => ?_)
    ⟨⟨hshallow, initial_steady families sequential, initial_calm families sequential,
      initial_lined families sequential, initial_settled families sequential,
      initial_owned families sequential⟩, fun o ho => by cases ho⟩).mono
    (fun _ _ h => h.2.log) (fun _ _ h => h.2)
  rw [hevents event hevent] at hs
  cases hs

/--
**No assertion fails in a run if and only if, whenever a connection succeeds in it, no path
behind it is paused.**
-/
theorem assertions_hold_iff (world : World) (families : List Int) (sequential : Bool)
    (events : List Event) (hevents : ∀ event ∈ events, event.spurious = false) :
    returns (connect world events) (initial families sequential) = true ↔
      AllUnhindered (final (connect world events) (initial families sequential)).log := by
  have hsat := connect_unhindered world families sequential hevents
  unfold Sat at hsat
  unfold returns final
  cases hrun : connect world events (initial families sequential) with
  | ok a r =>
      rw [hrun] at hsat
      exact ⟨fun _ => hsat, fun _ => rfl⟩
  | error e r =>
      rw [hrun] at hsat
      exact ⟨fun hc => (by cases hc), fun hall => absurd hall hsat⟩

/-- Two paths that take a while: the second is paused when the first is handed over. -/
theorem assertions_hold_iff_two :
    AllUnhindered (final (connect { attempt := fun _ => some .inProgress } [.ready 0 .ok])
      (initial [AF_INET6, AF_INET] false)).log :=
  (assertions_hold_iff _ _ _ _ (by decide)).mp (by decide +kernel)

/-- The first two attempts take a while and the third succeeds immediately. -/
def thirdAtOnce : World := { attempt := fun n => if n < 2 then some .inProgress else some .ok }

/--
The first IPv6 path is handed over, which pauses the IPv4 path at the end.  The application asks
for another socket, and the second IPv6 path connects before the IPv4 path is resumed.
-/
theorem pause_without_watch : ¬ ∀ (world : World) (families : List Int) (sequential : Bool)
    (events : List Event), (∀ event ∈ events, event.spurious = false) → families ≠ [] →
      ∀ r, connect world events (initial families sequential) ≠ .error (.assertion .pause) r := by
  intro h
  have hfails : fails (connect thirdAtOnce [.ready 0 .ok, .next])
      (initial [AF_INET6, AF_INET6, AF_INET] false) = some (.assertion .pause) := by
    decide +kernel
  exact h thirdAtOnce [AF_INET6, AF_INET6, AF_INET] false [.ready 0 .ok, .next] (by decide)
    (by decide) _ (error_of_fails hfails)

end Netresolve.Connect
