/-
Which socket is handed over.

`pickup_connected_socket` stops at the first path that is SCHEDULED or READY.  Only
`connect_priority_timeout` makes it run past the scheduled ones, by a flag that stays set
until a socket has been passed with the priority timeout armed.  The flag does not outlive the
handler because the priority timeout is armed only while a path is READY: then there is a
socket to pass, and passing it takes the flag back before the application is called.
-/
import Netresolve.Proofs.Sockets
import Netresolve.Library.Past

namespace Netresolve.Connect

open Outcome Past

/-! ### What is shown of a hand-over -/

/-- The path is the first READY one, and no SCHEDULED one is passed over without a timeout. -/
structure Foremost (s : Socket) (i : Nat) : Prop where
  ready : (s.path i).state = .ready
  first : ∀ j < i, (s.path j).state ≠ .ready
  waited : s.handling = false → ∀ j < i, (s.path j).state ≠ .scheduled

/--
Of an entry of the log: the flag is set only in the handler of the priority timeout, and a
socket that is passed to the application was just taken from the foremost path.
-/
structure Preferred (o : Note × Socket) (past : List (Note × Socket)) : Prop where
  skipping : o.2.skipScheduled = true → o.2.handling = true
  called : ∀ i fd, o.1 = .called i fd → ∃ s₁ s before,
    past = (.changed i, s₁) :: (.chosen i, s) :: before ∧ fd = (s.path i).fd ∧ Foremost s i

theorem found_first {s : Socket} {i : Nat} (h : s.found = some i) {j : Nat} (hj : j < i) :
    (s.path j).state ≠ .ready ∧ (s.skipScheduled = false → (s.path j).state ≠ .scheduled) := by
  unfold Socket.found at h
  obtain ⟨hlt, -, hbefore⟩ := List.findIdx?_eq_some_iff_getElem.mp h
  have hskipped := hbefore j hj
  rw [← path_eq_getElem (hj.trans hlt)] at hskipped
  simp only [Bool.or_eq_true, Bool.and_eq_true, decide_eq_true_eq, Bool.not_eq_true',
    not_or, not_and] at hskipped
  exact ⟨hskipped.2, fun hskip hscheduled => hskipped.1 hscheduled hskip⟩

theorem found_none {s : Socket} (h : s.found = none) (j : Nat) : (s.path j).state ≠ .ready := by
  intro hready
  have hlt : j < s.paths.length := lt_of_state (by rw [hready]; exact SocketState.noConfusion)
  unfold Socket.found at h
  have hskipped := List.findIdx?_eq_none_iff.mp h s.paths[j] (List.getElem_mem hlt)
  rw [← path_eq_getElem hlt, hready] at hskipped
  simp at hskipped

/-! ### What the steps keep -/

/-- Some path is READY. -/
def Socket.someReady (s : Socket) : Prop := ∃ i, (s.path i).state = .ready

theorem any_ready_iff {s : Socket} : s.paths.any (·.state = .ready) = true ↔ s.someReady := by
  rw [List.any_eq_true]
  refine ⟨fun ⟨p, hp, hready⟩ => ?_, fun ⟨j, hready⟩ => ?_⟩
  · obtain ⟨j, hj, rfl⟩ := List.getElem_of_mem hp
    refine ⟨j, ?_⟩
    rw [path_eq_getElem hj]
    exact of_decide_eq_true hready
  · have hlt : j < s.paths.length := lt_of_state (by rw [hready]; exact SocketState.noConfusion)
    rw [path_eq_getElem hlt] at hready
    exact ⟨s.paths[j], List.getElem_mem hlt, decide_eq_true hready⟩

/-- Whenever `pickup_connected_socket` is called. -/
structure Choosing (r : Run) : Prop where
  log : Always Preferred r.log
  handling : r.now.skipScheduled = true → r.now.handling = true
  armed : r.now.skipScheduled = true → r.now.priorityTimeout = true
  ready : r.now.priorityTimeout = true → r.now.someReady

/-- Everywhere else. -/
structure Calm (r : Run) : Prop where
  log : Always Preferred r.log
  skip : r.now.skipScheduled = false
  ready : r.now.priorityTimeout = true → r.now.someReady

namespace Calm

variable {world : World} {r : Run} {i : Nat}

theorem choosing (h : Calm r) : Choosing r := by
  refine ⟨h.log, fun hskip => ?_, fun hskip => ?_, h.ready⟩
  · rw [h.skip] at hskip
    cases hskip
  · rw [h.skip] at hskip
    cases hskip

theorem noted (h : Calm r) {n : Note} (hn : ∀ i fd, n ≠ .called i fd) : Calm (r.noted n) := by
  refine ⟨⟨⟨fun hskip => ?_, fun i fd hcalled => absurd hcalled (hn i fd)⟩, h.log⟩, h.skip, h.ready⟩
  rw [h.skip] at hskip
  cases hskip

theorem modified {f : Socket → Socket} (h : Calm r) (hskip : (f r.now).skipScheduled = false)
    (hready : (f r.now).priorityTimeout = true → (f r.now).someReady) : Calm (r.modified f) :=
  ⟨h.log, hskip, hready⟩

/-- A change of one path that keeps it READY if it was. -/
theorem path {f : Path → Path} (h : Calm r)
    (hf : (r.now.path i).state = .ready → (f (r.now.path i)).state = .ready) :
    Calm (r.modified (·.modifyPath i f)) := by
  refine h.modified h.skip fun harmed => ?_
  obtain ⟨j, hj⟩ := h.ready harmed
  refine ⟨j, ?_⟩
  rw [path_modifyPath]
  split
  · next hij =>
      rw [← hij.1]
      exact hf (by rw [hij.1]; exact hj)
  · exact hj

theorem moved {state : SocketState} (h : Calm r)
    (hi : (r.now.path i).state = .ready → state = .ready) : Calm (r.moved i state) :=
  noted (h.path hi) (by simp)

theorem watched (h : Calm r) (i : Nat) (watch : Bool) : Calm (r.watched i watch) :=
  h.path fun hready => hready

theorem timed (h : Calm r) : Calm (r.timed world) := by
  unfold Run.timed
  split
  · exact h.modified h.skip h.ready
  · exact h

theorem reached (h : Calm r) (i : Nat) : Calm (r.reached world i) := (h.noted (by simp)).timed

theorem attempted (h : Calm r) (i : Nat) (fd : Option Nat) : Calm (r.attempted i fd) := by
  have hfd : Calm ((r.modified fun s => { s with attempts := s.attempts + 1 }).modified
      (·.modifyPath i fun p => { p with fd := fd })) :=
    path (h.modified h.skip h.ready) fun hready => hready
  exact Run.attempted_rule hfd fun _ _ h' => h'.noted (by simp)

theorem cleaned (h : Calm r) (hi : (r.now.path i).state ≠ .ready) : Calm (r.cleaned i) := by
  have hdone : Calm ((r.moved i .done).watched i false) :=
    (h.moved fun hready => absurd hready hi).watched i false
  exact Run.cleaned_rule hdone fun _ _ _ h' => (h'.noted (by simp)).path fun hready => hready

theorem cleared (h : Calm r) : Calm r.cleared := h.modified h.skip (by simp)

theorem asked (h : Calm r) : Calm r.asked := modified (h.noted (by simp)) h.skip h.ready

end Calm

/-- The log while a socket is taken. -/
theorem Choosing.picked {r : Run} (h : Choosing r) (i : Nat) : Always Preferred (r.picked i).log :=
  ⟨⟨h.handling, by simp⟩, ⟨h.handling, by simp⟩, h.log⟩

theorem Choosing.foremost {r : Run} {i : Nat} (h : Choosing r) (hfound : r.now.found = some i)
    (hready : (r.now.path i).state = .ready) : Foremost r.now i := by
  refine ⟨hready, fun j hj => (found_first hfound hj).1, fun hidle j hj => ?_⟩
  refine (found_first hfound hj).2 ?_
  by_contra hskip
  rw [Bool.not_eq_false] at hskip
  rw [h.handling hskip] at hidle
  cases hidle

theorem Choosing.passed {r : Run} {i : Nat} (h : Choosing r) (hfound : r.now.found = some i)
    (hready : (r.now.path i).state = .ready) : Calm (r.passed i) := by
  have hskip : (r.passed i).now.skipScheduled = false := by
    show (r.now.skipScheduled && !r.now.priorityTimeout) = false
    by_cases hskip : r.now.skipScheduled = true
    · rw [h.armed hskip]
      simp
    · simp [hskip]
  refine ⟨⟨⟨fun hset => ?_, fun j fd hcalled => ?_⟩, h.picked i⟩, hskip, ?_⟩
  · exact absurd (hskip.symm.trans hset) (by simp)
  · obtain ⟨rfl, rfl⟩ : i = j ∧ (r.now.path i).fd = fd := by simpa using hcalled
    exact ⟨_, r.now, r.log, rfl, rfl, h.foremost hfound hready⟩
  · intro harmed
    cases harmed

/-- While the flag is set there is a socket to pass. -/
theorem Choosing.calm {r : Run} (h : Choosing r)
    (hfound : ∀ i, r.now.found = some i → (r.now.path i).state ≠ .ready) : Calm r := by
  refine ⟨h.log, ?_, h.ready⟩
  by_contra hskip
  rw [Bool.not_eq_false] at hskip
  obtain ⟨j, hj⟩ := h.ready (h.armed hskip)
  cases hf : r.now.found with
  | none => exact found_none hf j hj
  | some i =>
      unfold Socket.found at hf
      obtain ⟨hlt, hi, -⟩ := List.findIdx?_eq_some_iff_getElem.mp hf
      refine hfound i hf ?_
      rw [← path_eq_getElem hlt, hskip] at hi
      simpa using hi

def preferring : Stages where
  enter _ := Calm
  pick _ := Choosing
  answer _ := Calm
  loop _ _ _ _ := Calm
  turned _ _ _ _ := Calm
  kill := Calm
  rest := Calm
  stop _ log := Always Preferred log

theorem preferring_rule (world : World) : Rule world preferring where
  fuel h := h.log
  stuck h _ _ _ := (Calm.reached h _).log
  unready h _ _ := h.log
  unpaused h _ _ _ := Choosing.picked h _
  start h := h
  skip h _ := h
  count h _ _ := h
  idle h _ _ _ := Calm.reached h _
  resume h _ _ := (Calm.reached h _).watched _ true
  schedule {_ i _ _ _ r} h _ hstarts _ := by
    refine (((Calm.reached h i).attempted i _).moved fun hready => ?_).watched i true
    rw [hstarts.attempted world, hstarts.state] at hready
    cases hready
  connected {_ i _ _ _ r} h _ _ _ := (((Calm.reached h i).attempted i _).moved fun _ => rfl).choosing
  refused {_ i _ _ _ r} fd h _ hstarts _ := by
    refine (((Calm.reached h i).attempted i fd).cleaned ?_).choosing
    rw [hstarts.attempted world, hstarts.state]
    exact SocketState.noConfusion
  back _ _ _ hrest _ := hrest
  on h _ := h
  leave h _ := kept_if Calm.cleared h
  finish h := kept_if Calm.cleared h
  lost h hfound := Choosing.calm h fun i hi => by rw [hfound] at hi; cases hi
  wait {_ r i} h hfound hstate := by
    have hcalm : Calm r := by
      refine Choosing.calm h fun j hj => ?_
      rw [hfound] at hj
      cases hj
      rw [hstate]
      exact SocketState.noConfusion
    split
    · next harm =>
        exact hcalm.modified hcalm.skip fun _ => any_ready_iff.mp harm.1
    · exact hcalm
  pass h hfound hready _ := Choosing.passed h hfound hready
  ask h := Calm.asked h
  again _ hrest _ := hrest
  done h := h
  ready h _ _ := ((Calm.watched h _ false).moved fun _ => rfl).choosing
  failed h hstate _ := (Calm.cleaned h (by rw [hstate]; exact SocketState.noConfusion)).choosing
  next h := Calm.asked h
  expire h _ := Calm.cleared h
  clean h hstate := Calm.cleaned h (by rw [hstate]; exact SocketState.noConfusion)
  expired h := Calm.noted h (by simp)
  skipping h harmed :=
    ⟨⟨⟨fun _ => rfl, by simp⟩, h.log⟩, fun _ => rfl, fun _ => harmed, h.ready⟩
  handled h := Calm.modified h h.skip h.ready

theorem initial_calm (families : List Int) (sequential : Bool) :
    Calm (initial families sequential).prepared :=
  ⟨trivial, rfl, fun harmed => by cases harmed⟩

/--
**Every socket passed to the application comes from the first READY path, with no SCHEDULED
path before it unless the priority timeout has run out; the flag that allows this is set
nowhere outside the handler.**
-/
theorem sockets_passed_in_order (world : World) (families : List Int) (sequential : Bool)
    (events : List Event) :
    Sat (connect world events) (initial families sequential)
      (fun _ r => Always Preferred r.log ∧ r.now.skipScheduled = false)
      (fun e r => (∃ x, e = .assertion x) ∧ Always Preferred r.log) := by
  exact ((connect_stops world _ events).and ((preferring_rule world).connect events
    (fun _ _ _ _ h => h.log) (initial_calm families sequential))).mono
    (fun _ _ h => ⟨h.2.log, h.2.skip⟩) (fun _ _ h => h)

end Netresolve.Connect
