/-
The steps of the connection machine.

Whatever is shown of connecting is shown of a few steps: a path is turned to, attempted,
scheduled, ready or done, a socket is passed on, more is asked for, a timer is set or cleared.
They are functions on `Run` here, and every function of `Core/Socket.lean` is made of them.
The state of a path only ever goes up, which is `Onward`.

The functions call each other in a circle, so a statement about one of them is a statement
about all.  `Rule` collects what has to be shown of the steps, one implication for each, and
`Rule.connect` is what follows for a whole run.
-/
import Netresolve.Core.Socket
import Netresolve.Library.Outcome
import Mathlib.Data.Finset.Card

namespace Netresolve.Connect

open Outcome

/-! ### Steps -/

def Run.noted (r : Run) (n : Note) : Run := { r with log := (n, r.now) :: r.log }

def Run.modified (r : Run) (f : Socket → Socket) : Run := { r with now := f r.now }

/-- The state of a path changes. -/
def Run.moved (r : Run) (i : Nat) (state : SocketState) : Run :=
  (r.modified (·.modifyPath i fun p => { p with state := state })).noted (.changed i)

def Run.watched (r : Run) (i : Nat) (watch : Bool) : Run :=
  r.modified (·.modifyPath i fun p => { p with watch := watch })

/-- The path is cleaned up. -/
def Run.cleaned (r : Run) (i : Nat) : Run :=
  let r₁ := (r.moved i .done).watched i false
  match (r₁.now.path i).fd with
  | none => r₁
  | some fd => (r₁.noted (.closed fd)).modified (·.modifyPath i fun p => { p with fd := none })

/-- What holds when the path is done, and still does when its descriptor is closed. -/
theorem Run.cleaned_rule {P : Run → Prop} {r : Run} {i : Nat}
    (hdone : P ((r.moved i .done).watched i false))
    (hclose : ∀ r' fd, (r'.now.path i).fd = some fd → P r' →
      P ((r'.noted (.closed fd)).modified (·.modifyPath i fun p => { p with fd := none }))) :
    P (r.cleaned i) := by
  unfold Run.cleaned
  dsimp only
  split
  · exact hdone
  · next fd hfd => exact hclose _ fd hfd hdone

/-- A connection is attempted, with the descriptor that was opened for it. -/
def Run.attempted (r : Run) (i : Nat) (fd : Option Nat) : Run :=
  let r₁ := (r.modified fun s => { s with attempts := s.attempts + 1 }).modified
    (·.modifyPath i fun p => { p with fd := fd })
  match fd with
  | none => r₁
  | some n => r₁.noted (.opened n)

theorem Run.attempted_rule {P : Run → Prop} {r : Run} {i : Nat} {fd : Option Nat}
    (hfd : P ((r.modified fun s => { s with attempts := s.attempts + 1 }).modified
      (·.modifyPath i fun p => { p with fd := fd })))
    (hopen : ∀ r' n, P r' → P (r'.noted (.opened n))) : P (r.attempted i fd) := by
  unfold Run.attempted
  dsimp only
  split
  · exact hfd
  · exact hopen _ _ hfd

/-- The timer of the connection is set unless it is already. -/
def Run.timed (world : World) (r : Run) : Run :=
  if r.now.timeout = false then
    r.modified fun s => { s with timeout := world.timerfd s.timers, timers := s.timers + 1 }
  else r

/-- The timer of the preference is set. -/
def Run.armed (world : World) (r : Run) : Run :=
  r.modified fun s => { s with
    priorityTimeout := world.timerfd s.timers, timers := s.timers + 1 }

def Run.cleared (r : Run) : Run :=
  r.modified fun s => { s with timeout := false, priorityTimeout := false }

def Path.paused (p : Path) : Path := if p.state = .scheduled then { p with watch := false } else p

/-- A ready socket is taken from its path. -/
def Run.picked (r : Run) (i : Nat) : Run :=
  ((r.noted (.chosen i)).moved i .done).modified (·.modifyPath i fun p => { p with fd := none })

/-- The socket is passed to the application. -/
def Run.passed (r : Run) (i : Nat) : Run :=
  ((r.picked i).modified fun s => { s with
    paths := s.paths.map Path.paused
    skipScheduled := s.skipScheduled && !s.priorityTimeout
    timeout := false
    priorityTimeout := false
    calls := s.calls + 1
    waiting := false }).noted (.called i (r.now.path i).fd)

/-- The application asks for another socket. -/
def Run.asked (r : Run) : Run :=
  (r.noted .asked).modified fun s => { s with waiting := true }

/-- `connect_priority_timeout` starts. -/
def Run.skipping (r : Run) : Run :=
  (r.modified fun s => { s with handling := true, skipScheduled := true }).noted .skipping

def Run.handled (r : Run) : Run := r.modified fun s => { s with handling := false }

/-! ### Functions made of steps -/

section

variable {world : World} {r : Run} {E : Fault → Run → Prop}

theorem sat_note (n : Note) (r : Run) (Q : Unit → Run → Prop) :
    Sat (note n) r Q E ↔ Q () (r.noted n) := Iff.rfl

theorem sat_modifySocket (f : Socket → Socket) (r : Run) (Q : Unit → Run → Prop) :
    Sat (modifySocket f) r Q E ↔ Q () (r.modified f) := Iff.rfl

theorem sat_modifyPath (i : Nat) (f : Path → Path) (r : Run) (Q : Unit → Run → Prop) :
    Sat (modifyPath i f) r Q E ↔ Q () (r.modified (·.modifyPath i f)) := Iff.rfl

theorem sat_setState (i : Nat) (state : SocketState) (r : Run) (Q : Unit → Run → Prop) :
    Sat (setState i state) r Q E ↔ Q () (r.moved i state) := by
  rw [setState, sat_bind, sat_modifyPath, sat_note]
  exact Iff.rfl

theorem sat_socketCleanup (i : Nat) (r : Run) (Q : Unit → Run → Prop) :
    Sat (socketCleanup i) r Q E ↔ Q () (r.cleaned i) := by
  rw [socketCleanup, sat_bind, sat_setState, sat_bind, sat_modifyPath, sat_bind, sat_get]
  show Sat (match (((r.moved i .done).watched i false).now.path i).fd with
    | none => pure ()
    | some fd => do
        note (.closed fd)
        modifyPath i fun p => { p with fd := none }) ((r.moved i .done).watched i false) Q E ↔ _
  unfold Run.cleaned
  dsimp only
  cases (((r.moved i .done).watched i false).now.path i).fd with
  | none => exact Iff.rfl
  | some fd => exact Iff.rfl

theorem sat_clearTimeouts (r : Run) (Q : Unit → Run → Prop) :
    Sat clearTimeouts r Q E ↔ Q () r.cleared := Iff.rfl

/-! ### Paths -/

theorem path_modifyPath (s : Socket) (i j : Nat) (f : Path → Path) :
    (s.modifyPath i f).path j = if i = j ∧ j < s.paths.length then f (s.path j) else s.path j := by
  unfold Socket.path Socket.modifyPath
  rw [List.getD_eq_getElem?_getD, List.getElem?_modify, List.getD_eq_getElem?_getD]
  by_cases hj : j < s.paths.length
  · by_cases hij : i = j
    · simp [hij, hj]
    · simp [hij]
  · simp [hj]

theorem length_modifyPath (s : Socket) (i : Nat) (f : Path → Path) :
    (s.modifyPath i f).paths.length = s.paths.length := List.length_modify f s.paths i

/-- A path behind the last is not there. -/
theorem path_of_ge {s : Socket} {i : Nat} (h : s.paths.length ≤ i) : s.path i = {} := by
  unfold Socket.path
  rw [List.getD_eq_getElem?_getD, List.getElem?_eq_none h]
  rfl

theorem path_eq_getElem {s : Socket} {i : Nat} (h : i < s.paths.length) : s.path i = s.paths[i] := by
  unfold Socket.path
  rw [List.getD_eq_getElem?_getD, List.getElem?_eq_getElem h]
  rfl

theorem lt_of_state {s : Socket} {i : Nat} (h : (s.path i).state ≠ .none) :
    i < s.paths.length := by
  by_contra hge
  rw [path_of_ge (Nat.le_of_not_lt hge)] at h
  exact h rfl

/-- The path waits without a watch. -/
def Socket.paused (s : Socket) (i : Nat) : Prop :=
  (s.path i).state = .scheduled ∧ (s.path i).watch = false

instance (s : Socket) (i : Nat) : Decidable (s.paused i) := inferInstanceAs (Decidable (_ ∧ _))

theorem paused_state (p : Path) : p.paused.state = p.state := by
  unfold Path.paused
  split <;> rfl

theorem paused_family (p : Path) : p.paused.family = p.family := by
  unfold Path.paused
  split <;> rfl

theorem paused_fd (p : Path) : p.paused.fd = p.fd := by
  unfold Path.paused
  split <;> rfl

theorem path_map (s : Socket) (f : Path → Path) (hf : f {} = {}) (j : Nat) :
    ({ s with paths := s.paths.map f } : Socket).path j = f (s.path j) := by
  unfold Socket.path
  rw [List.getD_eq_getElem?_getD, List.getD_eq_getElem?_getD, List.getElem?_map]
  cases s.paths[j]? with
  | none => exact hf.symm
  | some p => rfl

/-- Of the paths of `r` those in the list have been paused. -/
structure PausedTo (r : Run) (before : List Nat) (r' : Run) : Prop where
  log : r'.log = r.log
  rest : r'.now = { r.now with paths := r'.now.paths }
  length : r'.now.paths.length = r.now.paths.length
  path : ∀ j, r'.now.path j = if j ∈ before then (r.now.path j).paused else r.now.path j

theorem PausedTo.skip {r r' : Run} {before : List Nat} {i : Nat} (h : PausedTo r before r')
    (hi : i ∉ before) (hs : (r'.now.path i).state ≠ .scheduled) : PausedTo r (before ++ [i]) r' := by
  refine ⟨h.log, h.rest, h.length, fun j => ?_⟩
  have hcell := h.path i
  rw [if_neg hi] at hcell
  rw [h.path j]
  by_cases hij : i = j
  · subst hij
    rw [hcell] at hs
    rw [if_neg hi, if_pos (List.mem_append_right _ (List.mem_singleton.mpr rfl)), Path.paused,
      if_neg hs]
  · simp [Ne.symm hij]

theorem PausedTo.pause {r r' : Run} {before : List Nat} {i : Nat} (h : PausedTo r before r')
    (hi : i ∉ before) (hs : (r'.now.path i).state = .scheduled) :
    PausedTo r (before ++ [i]) (r'.watched i false) := by
  refine ⟨h.log, ?_, (length_modifyPath ..).trans h.length, fun j => ?_⟩
  · show r'.now.modifyPath i _ = _
    rw [h.rest]
    rfl
  · have hcell := h.path i
    rw [if_neg hi] at hcell
    show (r'.now.modifyPath i _).path j = _
    rw [path_modifyPath, h.path j]
    by_cases hij : i = j
    · subst hij
      rw [if_pos ⟨rfl, lt_of_state (by rw [hs]; exact SocketState.noConfusion)⟩, if_neg hi,
        if_pos (List.mem_append_right _ (List.mem_singleton.mpr rfl)), Path.paused,
        if_pos (by rw [← hcell]; exact hs)]
    · rw [if_neg fun hc => hij hc.1]
      simp [Ne.symm hij]

theorem PausedTo.all {r r' : Run} (h : PausedTo r (List.range r.now.paths.length) r') :
    r' = r.modified fun s => { s with paths := s.paths.map Path.paused } := by
  have hpaths : r'.now.paths = r.now.paths.map Path.paused := by
    refine List.ext_getElem (by simpa using h.length) fun j hj _ => ?_
    have hj' : j < r.now.paths.length := by
      rw [← h.length]
      exact hj
    have hread := h.path j
    rw [if_pos (List.mem_range.mpr hj')] at hread
    unfold Socket.path at hread
    rw [List.getD_eq_getElem?_getD, List.getD_eq_getElem?_getD, List.getElem?_eq_getElem hj,
      List.getElem?_eq_getElem hj'] at hread
    simpa using hread
  have hnow := h.rest
  rw [hpaths] at hnow
  obtain ⟨now, log⟩ := r'
  obtain rfl : now = _ := hnow
  obtain rfl : log = _ := h.log
  rfl

/-- Pausing all scheduled sockets, which stops where one is paused already. -/
theorem pauseAll_eq (r : Run) : Sat (forScheduled socketPause) r
    (fun _ r' => r' = (r.modified fun s => { s with paths := s.paths.map Path.paused }) ∧
      ∀ j, ¬ r.now.paused j)
    (fun e r' => e = .assertion .pause ∧ r'.log = r.log ∧ ∃ j, r.now.paused j) := by
  unfold forScheduled
  rw [sat_bind, sat_get]
  let I : List Nat → Run → Prop := fun rest r' => ∃ before,
    List.range r.now.paths.length = before ++ rest ∧ PausedTo r before r' ∧
      ∀ j ∈ before, ¬ r.now.paused j
  refine (sat_forM I (fun i rest r' h => ?_) (List.range r.now.paths.length) r
    ⟨[], rfl, ⟨rfl, rfl, rfl, fun j => by simp⟩, by simp⟩).mono (fun _ r' h => ?_)
    (fun _ _ he => he)
  · obtain ⟨before, hall, hpaused, hbefore⟩ := h
    have hi : i ∉ before := by
      have hnodup := List.nodup_range (n := r.now.paths.length)
      rw [hall] at hnodup
      exact fun hmem => (List.nodup_append.mp hnodup).2.2 i hmem i List.mem_cons_self rfl
    have hnext : List.range r.now.paths.length = (before ++ [i]) ++ rest := by
      rw [hall, List.append_assoc]
      rfl
    have hcell := hpaused.path i
    rw [if_neg hi] at hcell
    have hlonger : ¬ r.now.paused i → ∀ j ∈ before ++ [i], ¬ r.now.paused j := by
      intro hwatched j hj
      rcases List.mem_append.mp hj with hj | hj
      · exact hbefore j hj
      · rw [List.mem_singleton.mp hj]
        exact hwatched
    rw [sat_bind, sat_get, sat_ite]
    refine ⟨fun hs => ?_, fun hs => ⟨before ++ [i], hnext, hpaused.skip hi hs, hlonger ?_⟩⟩
    · rw [socketPause, sat_bind, sat_get]
      dsimp only
      rw [sat_ite]
      refine ⟨fun hunwatched => ⟨rfl, hpaused.log, i, ?_⟩,
        fun hwatched => ⟨before ++ [i], hnext, hpaused.pause hi hs, hlonger ?_⟩⟩
      · rw [hcell] at hs hunwatched
        exact ⟨hs, hunwatched.resolve_left fun hne => hne hs⟩
      · rw [hcell] at hwatched
        exact fun hc => hwatched (Or.inr hc.2)
    · rw [hcell] at hs
      exact fun hc => hs hc.1
  · obtain ⟨before, hall, hpaused, hbefore⟩ := h
    rw [List.append_nil] at hall
    rw [← hall] at hpaused hbefore
    refine ⟨hpaused.all, fun j hj => ?_⟩
    have hlt : j < r.now.paths.length := lt_of_state (by rw [hj.1]; exact SocketState.noConfusion)
    exact hbefore j (List.mem_range.mpr hlt) hj

end

/-! ### The paths after a step -/

theorem moved_path (r : Run) (i : Nat) (state : SocketState) (j : Nat) :
    (r.moved i state).now.path j =
      if i = j ∧ j < r.now.paths.length then { r.now.path j with state := state }
      else r.now.path j := path_modifyPath ..

theorem watched_path (r : Run) (i : Nat) (watch : Bool) (j : Nat) :
    (r.watched i watch).now.path j =
      if i = j ∧ j < r.now.paths.length then { r.now.path j with watch := watch }
      else r.now.path j := path_modifyPath ..

theorem cleaned_path (r : Run) (i j : Nat) : (r.cleaned i).now.path j =
    if i = j ∧ j < r.now.paths.length then
      { r.now.path j with state := .done, watch := false, fd := none }
    else r.now.path j := by
  have hdone : ∀ l, ((r.moved i .done).watched i false).now.path l =
      if i = l ∧ l < r.now.paths.length then
        { r.now.path l with state := .done, watch := false } else r.now.path l := by
    intro l
    rw [watched_path, moved_path, show (r.moved i .done).now.paths.length = r.now.paths.length from
      length_modifyPath ..]
    split
    · rfl
    · rfl
  unfold Run.cleaned
  dsimp only
  split
  · next hfd =>
      rw [hdone] at hfd ⊢
      by_cases hij : i = j ∧ j < r.now.paths.length
      · obtain ⟨rfl, hlt⟩ := hij
        rw [if_pos ⟨rfl, hlt⟩] at hfd
        rw [if_pos ⟨rfl, hlt⟩, if_pos ⟨rfl, hlt⟩]
        rw [← show (r.now.path i).fd = none from hfd]
      · rw [if_neg hij, if_neg hij]
  · refine (path_modifyPath ..).trans ?_
    rw [show (((r.moved i .done).watched i false).noted (.closed _)).now.paths.length =
      r.now.paths.length from (length_modifyPath ..).trans (length_modifyPath ..)]
    by_cases hij : i = j ∧ j < r.now.paths.length
    · rw [if_pos hij, if_pos hij]
      show { ((r.moved i .done).watched i false).now.path j with fd := none } = _
      rw [hdone, if_pos hij]
    · rw [if_neg hij, if_neg hij]
      exact (hdone j).trans (if_neg hij)

theorem picked_path (r : Run) (i j : Nat) : (r.picked i).now.path j =
    if i = j ∧ j < r.now.paths.length then { r.now.path j with state := .done, fd := none }
    else r.now.path j := by
  refine (path_modifyPath ..).trans ?_
  rw [show ((r.noted (.chosen i)).moved i .done).now.paths.length = r.now.paths.length from
    length_modifyPath .., moved_path]
  split
  · next hij => rw [if_pos (by exact hij)]; rfl
  · next hij => rw [if_neg (by exact hij)]; rfl

theorem passed_path (r : Run) (i j : Nat) :
    (r.passed i).now.path j = ((r.picked i).now.path j).paused :=
  path_map (r.picked i).now Path.paused rfl j

/-! ### States go up -/

def SocketState.rank : SocketState → Nat
  | .none => 0
  | .scheduled => 1
  | .ready => 2
  | .done => 3

/-- The paths are the same and their states have not gone back; the log has grown. -/
structure Onward (r r' : Run) : Prop where
  length : r'.now.paths.length = r.now.paths.length
  family : ∀ j, (r'.now.path j).family = (r.now.path j).family
  state : ∀ j, (r.now.path j).state.rank ≤ (r'.now.path j).state.rank
  sequential : r'.now.sequentialConnect = r.now.sequentialConnect
  log : r.log <:+ r'.log

instance : IsPreorder Run Onward where
  refl _ := ⟨rfl, fun _ => rfl, fun _ => Nat.le_refl _, rfl, List.suffix_refl _⟩
  trans _ _ _ h h' :=
    ⟨h'.length.trans h.length, fun j => (h'.family j).trans (h.family j),
      fun j => Nat.le_trans (h.state j) (h'.state j), h'.sequential.trans h.sequential,
      h.log.trans h'.log⟩

theorem Onward.done {r r' : Run} (h : Onward r r') {j : Nat} (hj : (r.now.path j).state = .done) :
    (r'.now.path j).state = .done := by
  have hrank := h.state j
  rw [hj] at hrank
  cases hs : (r'.now.path j).state with
  | done => rfl
  | _ => rw [hs] at hrank; simp [SocketState.rank] at hrank

theorem onward_noted (r : Run) (n : Note) : Onward r (r.noted n) :=
  ⟨rfl, fun _ => rfl, fun _ => Nat.le_refl _, rfl, List.suffix_cons _ _⟩

/-- A change of something other than the paths. -/
theorem onward_modified {r : Run} {f : Socket → Socket} (hpaths : (f r.now).paths = r.now.paths)
    (hsequential : (f r.now).sequentialConnect = r.now.sequentialConnect) :
    Onward r (r.modified f) := by
  have hpath : ∀ j, (r.modified f).now.path j = r.now.path j := by
    intro j
    unfold Socket.path Run.modified
    rw [hpaths]
  refine ⟨congrArg List.length hpaths, fun j => ?_, fun j => ?_, hsequential, List.suffix_refl _⟩
  · rw [hpath]
  · exact Nat.le_of_eq (by rw [hpath])

/-- A change of one path. -/
theorem onward_path {r : Run} {i : Nat} {f : Path → Path}
    (hfamily : (f (r.now.path i)).family = (r.now.path i).family)
    (hstate : (r.now.path i).state.rank ≤ (f (r.now.path i)).state.rank) :
    Onward r (r.modified (·.modifyPath i f)) := by
  have hpath : ∀ j, (r.modified (·.modifyPath i f)).now.path j =
      if i = j ∧ j < r.now.paths.length then f (r.now.path j) else r.now.path j :=
    fun j => path_modifyPath r.now i j f
  refine ⟨length_modifyPath .., fun j => ?_, fun j => ?_, rfl, List.suffix_refl _⟩
  · rw [hpath]
    split
    · next h => rw [← h.1, hfamily]
    · rfl
  · rw [hpath]
    split
    · next h => rw [← h.1]; exact hstate
    · exact Nat.le_refl _

theorem onward_moved {r : Run} {i : Nat} {state : SocketState}
    (h : (r.now.path i).state.rank ≤ state.rank) : Onward r (r.moved i state) :=
  trans_of Onward (onward_path rfl h) (onward_noted _ _)

theorem onward_watched (r : Run) (i : Nat) (watch : Bool) : Onward r (r.watched i watch) :=
  onward_path rfl (Nat.le_refl _)

theorem rank_done (state : SocketState) : state.rank ≤ SocketState.done.rank := by
  cases state <;> decide

theorem onward_cleaned (r : Run) (i : Nat) : Onward r (r.cleaned i) := by
  have hdone : Onward r ((r.moved i .done).watched i false) :=
    trans_of Onward (onward_moved (rank_done _)) (onward_watched _ _ _)
  refine Run.cleaned_rule hdone fun r' fd _ hon => ?_
  exact trans_of Onward (trans_of Onward hon (onward_noted _ (.closed fd)))
    (onward_path rfl (Nat.le_refl _))

theorem onward_attempted (r : Run) (i : Nat) (fd : Option Nat) : Onward r (r.attempted i fd) := by
  have hfd : Onward r ((r.modified fun s => { s with attempts := s.attempts + 1 }).modified
      (·.modifyPath i fun p => { p with fd := fd })) :=
    trans_of Onward (onward_modified rfl rfl) (onward_path rfl (Nat.le_refl _))
  exact Run.attempted_rule hfd fun _ _ hon => trans_of Onward hon (onward_noted _ _)

theorem onward_timed (world : World) (r : Run) : Onward r (r.timed world) := by
  unfold Run.timed
  split
  · exact onward_modified rfl rfl
  · exact refl_of Onward r

theorem onward_picked (r : Run) (i : Nat) : Onward r (r.picked i) := by
  have hdone : Onward (r.noted (.chosen i)) ((r.noted (.chosen i)).moved i .done) :=
    onward_moved (rank_done _)
  exact trans_of Onward (trans_of Onward (onward_noted r (.chosen i)) hdone)
    (onward_path rfl (Nat.le_refl _))

theorem onward_passed (r : Run) (i : Nat) : Onward r (r.passed i) := by
  refine trans_of Onward (onward_picked r i) (trans_of Onward ?_ (onward_noted _ _))
  have hpath : ∀ j, ({ (r.picked i).now with
      paths := (r.picked i).now.paths.map Path.paused } : Socket).path j =
        ((r.picked i).now.path j).paused := fun j => path_map _ _ rfl j
  refine ⟨List.length_map _, fun j => ?_, fun j => ?_, rfl, List.suffix_refl _⟩
  · exact (congrArg Path.family (hpath j)).trans (paused_family _)
  · refine Nat.le_of_eq (congrArg SocketState.rank ?_)
    exact ((congrArg Path.state (hpath j)).trans (paused_state _)).symm

theorem onward_asked (r : Run) : Onward r r.asked :=
  trans_of Onward (onward_noted r .asked) (onward_modified rfl rfl)

theorem onward_cleared (r : Run) : Onward r r.cleared := onward_modified rfl rfl

/-! ### The rule -/

/-- The loop of `enable_sockets` has reached a path it does not skip. -/
def Run.reached (world : World) (r : Run) (i : Nat) : Run := (r.noted (.turned i)).timed world

/-- The loop skips the path because it has had one of the family. -/
def Path.counted (p : Path) (ip4 ip6 : Nat) : Prop :=
  p.family = AF_INET ∧ ip4 ≠ 0 ∨ p.family = AF_INET6 ∧ ip6 ≠ 0

instance (p : Path) (ip4 ip6 : Nat) : Decidable (p.counted ip4 ip6) :=
  inferInstanceAs (Decidable (_ ∨ _))

/-- The counters after the path. -/
def Path.up4 (p : Path) (ip4 : Nat) : Nat := if p.family = AF_INET then ip4 + 1 else ip4

def Path.up6 (p : Path) (ip6 : Nat) : Nat := if p.family = AF_INET6 then ip6 + 1 else ip6

/-- The loop turns to the first of the paths that are left. -/
structure Turns (r : Run) (i ip4 ip6 : Nat) : Prop where
  undone : (r.now.path i).state ≠ .done
  fresh : ¬ (r.now.path i).counted ip4 ip6

/-- The path is one that `connect_start` attempts. -/
structure Starts (r : Run) (i : Nat) : Prop where
  state : (r.now.path i).state = .none
  family : hasSockaddr (r.now.path i).family = true

/-- A step that is taken under a condition only. -/
theorem kept_if {P : Run → Prop} {r r' : Run} {c : Prop} [Decidable c] (hstep : P r → P r')
    (h : P r) : P (if c then r' else r) := by
  split
  · exact hstep h
  · exact h

/-- The statements that are kept, for the nesting that is left. -/
structure Stages where
  enter : Nat → Run → Prop
  pick : Nat → Run → Prop
  answer : Nat → Run → Prop
  loop : Nat → List Nat → Nat → Nat → Run → Prop
  turned : Nat → List Nat → Nat → Nat → Run → Prop
  kill : Run → Prop
  rest : Run → Prop
  stop : Fault → List (Note × Socket) → Prop

/--
What has to be shown: `enter` holds when `enable_sockets` is called, `loop` before every round
of its loop, with the paths and the counters, and `turned` after one that did not skip its
path; `pick` when `pickup_connected_socket` is
called, `answer` while the callback runs, `kill` while `connect_timeout` cleans up, and `rest`
when a function returns.
-/
structure Rule (world : World) (T : Stages) : Prop where
  fuel : ∀ {r}, T.enter 0 r → T.stop .fuel r.log
  stuck : ∀ {k i rest a b r}, T.loop k (i :: rest) a b r → Turns r i a b → r.now.paused i →
    (r.now.path i).fd = none → T.stop (.assertion .watchAdd) (r.reached world i).log
  unready : ∀ {r i}, T.rest r → (r.now.path i).watch = true → (r.now.path i).state ≠ .scheduled →
    T.stop (.assertion .connectReady) r.log
  unpaused : ∀ {k r i j}, T.pick k r → r.now.found = some i → (r.now.path i).state = .ready →
    r.now.paused j → T.stop (.assertion .pause) (r.picked i).log
  start : ∀ {k r}, T.enter (k + 1) r → T.loop k (List.range r.now.paths.length) 0 0 r
  skip : ∀ {k i rest a b r}, T.loop k (i :: rest) a b r → (r.now.path i).state = .done →
    T.loop k rest a b r
  count : ∀ {k i rest a b r}, T.loop k (i :: rest) a b r → (r.now.path i).state ≠ .done →
    (r.now.path i).counted a b → T.loop k rest ((r.now.path i).up4 a) ((r.now.path i).up6 b) r
  idle : ∀ {k i rest a b r}, T.loop k (i :: rest) a b r → Turns r i a b → ¬ Starts r i →
    ¬ r.now.paused i → T.turned k rest ((r.now.path i).up4 a) ((r.now.path i).up6 b) (r.reached world i)
  resume : ∀ {k i rest a b r}, T.loop k (i :: rest) a b r → Turns r i a b → r.now.paused i →
    T.turned k rest ((r.now.path i).up4 a) ((r.now.path i).up6 b)
      ((r.reached world i).watched i true)
  schedule : ∀ {k i rest a b r}, T.loop k (i :: rest) a b r → Turns r i a b → Starts r i →
    world.attempt r.now.attempts = some .inProgress →
    T.turned k rest ((r.now.path i).up4 a) ((r.now.path i).up6 b)
      ((((r.reached world i).attempted i (some r.now.attempts)).moved i .scheduled).watched i true)
  connected : ∀ {k i rest a b r}, T.loop k (i :: rest) a b r → Turns r i a b → Starts r i →
    world.attempt r.now.attempts = some .ok →
    T.pick k (((r.reached world i).attempted i (some r.now.attempts)).moved i .ready)
  refused : ∀ {k i rest a b r} (fd : Option Nat), T.loop k (i :: rest) a b r → Turns r i a b →
    Starts r i → (fd = none ∧ world.attempt r.now.attempts = none ∨
      fd = some r.now.attempts ∧ world.attempt r.now.attempts = some .failed) →
    T.pick k (((r.reached world i).attempted i fd).cleaned i)
  back : ∀ {k i rest a b r r'}, T.loop k (i :: rest) a b r → Turns r i a b → Starts r i →
    T.rest r' → Onward r r' → T.turned k rest ((r.now.path i).up4 a) ((r.now.path i).up6 b) r'
  on : ∀ {k rest a b r}, T.turned k rest a b r → r.now.sequentialConnect = false →
    T.loop k rest a b r
  leave : ∀ {k rest a b r}, T.turned k rest a b r → r.now.sequentialConnect = true →
    T.rest (if a = 0 ∧ b = 0 then r.cleared else r)
  finish : ∀ {k a b r}, T.loop k [] a b r → T.rest (if a = 0 ∧ b = 0 then r.cleared else r)
  lost : ∀ {k r}, T.pick k r → r.now.found = none → T.enter k r
  wait : ∀ {k r i}, T.pick k r → r.now.found = some i → (r.now.path i).state = .scheduled →
    T.enter k (if r.now.paths.any (·.state = .ready) ∧ r.now.priorityTimeout = false then
      r.armed world else r)
  pass : ∀ {k r i}, T.pick k r → r.now.found = some i → (r.now.path i).state = .ready →
    (∀ j, ¬ r.now.paused j) → T.answer k (r.passed i)
  ask : ∀ {k r}, T.answer k r → T.enter k r.asked
  again : ∀ {k r r'}, T.answer k r → T.rest r' → Onward r r' → T.answer k r'
  done : ∀ {k r}, T.answer k r → T.rest r
  ready : ∀ {r i}, T.rest r → (r.now.path i).state = .scheduled → (r.now.path i).watch = true →
    T.pick (r.now.paths.length + 1) ((r.watched i false).moved i .ready)
  failed : ∀ {r i}, T.rest r → (r.now.path i).state = .scheduled → (r.now.path i).watch = true →
    T.pick (r.now.paths.length + 1) (r.cleaned i)
  next : ∀ {r}, T.rest r → T.enter (r.now.paths.length + 1) r.asked
  expire : ∀ {r}, T.rest r → r.now.timeout = true → T.kill r.cleared
  clean : ∀ {r i}, T.kill r → (r.now.path i).state = .scheduled → T.kill (r.cleaned i)
  expired : ∀ {r}, T.kill r → T.enter (r.now.paths.length + 1) (r.noted .expired)
  skipping : ∀ {r}, T.rest r → r.now.priorityTimeout = true →
    T.pick (r.now.paths.length + 1) r.skipping
  handled : ∀ {r}, T.rest r → T.rest r.handled

theorem found_state {s : Socket} {i : Nat} (h : s.found = some i)
    (hready : (s.path i).state ≠ .ready) : (s.path i).state = .scheduled := by
  unfold Socket.found at h
  obtain ⟨hlt, hi, -⟩ := List.findIdx?_eq_some_iff_getElem.mp h
  rw [← path_eq_getElem] at hi
  simp only [Bool.or_eq_true, Bool.and_eq_true, decide_eq_true_eq] at hi
  rcases hi with hi | hi
  · exact hi.1
  · exact absurd hi hready

section

variable {world : World} {T : Stages}

/-- The call returns where `rest` holds, further on, or stops. -/
abbrev Fine (T : Stages) (x : S Unit) (r : Run) : Prop :=
  Sat x r (fun _ r' => T.rest r' ∧ Onward r r') (fun e r' => T.stop e r'.log)

theorem Rule.asks (h : Rule world T) {enable : S Unit} {k : Nat}
    (henable : ∀ r, T.enter k r → Fine T enable r) (n : Nat) : ∀ {r : Run}, T.answer k r →
    Fine T (forM (List.replicate n ()) fun _ => connectNext enable) r := by
  induction n with
  | zero => exact fun ha => ⟨h.done ha, refl_of Onward _⟩
  | succ n ih =>
      intro r ha
      rw [List.replicate_succ]
      show Sat (connectNext enable >>= fun _ => forM (List.replicate n ()) fun _ =>
        connectNext enable) r _ _
      rw [sat_bind]
      refine (henable r.asked (h.ask ha)).mono (fun _ r' hr' => ?_) (fun _ _ he => he)
      have hon : Onward r r' := trans_of Onward (onward_asked r) hr'.2
      exact (ih (h.again ha hr'.1 hon)).mono
        (fun _ r'' hr'' => ⟨hr''.1, trans_of Onward hon hr''.2⟩) (fun _ _ he => he)

/-- Taking a READY socket pauses nothing. -/
theorem paused_picked {r : Run} {i : Nat} (hready : (r.now.path i).state = .ready) (j : Nat) :
    (r.picked i).now.paused j ↔ r.now.paused j := by
  unfold Socket.paused
  rw [picked_path]
  split
  · next hij =>
      rw [← hij.1, hready]
      exact ⟨fun hc => (by cases hc.1), fun hc => (by cases hc.1)⟩
  · exact Iff.rfl

theorem Rule.passSocket (h : Rule world T) {enable : S Unit} {k : Nat}
    (henable : ∀ r, T.enter k r → Fine T enable r) {r : Run} {i : Nat} (hpick : T.pick k r)
    (hfound : r.now.found = some i) (hready : (r.now.path i).state = .ready) :
    Fine T (passSocket world enable i) r := by
  unfold Fine Connect.passSocket
  rw [sat_bind, sat_get, sat_bind, sat_note, sat_bind, sat_setState, sat_bind, sat_modifyPath,
    sat_bind]
  refine (pauseAll_eq (r.picked i)).mono (fun _ r' hr' => ?_) (fun e r' he => ?_)
  · obtain ⟨rfl, hwatched⟩ := hr'
    have hunpaused : ∀ j, ¬ r.now.paused j :=
      fun j hj => hwatched j ((paused_picked hready j).mpr hj)
    rw [sat_bind, sat_modifySocket, sat_bind, sat_clearTimeouts]
    unfold callback
    rw [sat_bind, sat_get, sat_bind, sat_modifySocket, sat_bind, sat_note]
    exact (h.asks henable _ (h.pass hpick hfound hready hunpaused)).mono
      (fun _ r'' hr'' => ⟨hr''.1, trans_of Onward (onward_passed r i) hr''.2⟩) (fun _ _ he => he)
  · obtain ⟨rfl, hlog, j, hj⟩ := he
    rw [hlog]
    exact h.unpaused hpick hfound hready ((paused_picked hready j).mp hj)

theorem Rule.pickup (h : Rule world T) {enable : S Unit} {k : Nat}
    (henable : ∀ r, T.enter k r → Fine T enable r) {r : Run} (hpick : T.pick k r) :
    Fine T (pickupConnectedSocket world enable) r := by
  unfold Fine pickupConnectedSocket
  rw [sat_bind, sat_get]
  dsimp only
  cases hfound : r.now.found with
  | none => exact henable r (h.lost hpick hfound)
  | some i =>
      dsimp only
      rw [sat_ite]
      refine ⟨fun hready => h.passSocket henable hpick hfound hready, fun hready => ?_⟩
      have henter := h.wait hpick hfound (found_state hfound hready)
      rw [sat_bind, sat_ite]
      refine ⟨fun harm => ?_, fun harm => ?_⟩
      · rw [if_pos harm] at henter
        exact (henable _ henter).mono
          (fun _ r' hr' => ⟨hr'.1, trans_of Onward (onward_modified rfl rfl) hr'.2⟩) (fun _ _ he => he)
      · rw [if_neg harm] at henter
        exact henable r henter

/-- Between the steps of a function, which go on from `r`. -/
theorem Fine.after {x : S Unit} {r r' : Run} (h : Fine T x r') (hon : Onward r r') :
    Sat x r' (fun _ r'' => T.rest r'' ∧ Onward r r'') (fun e r'' => T.stop e r''.log) :=
  h.mono (fun _ _ hr => ⟨hr.1, trans_of Onward hon hr.2⟩) (fun _ _ he => he)

theorem onward_reached (world : World) (r : Run) (i : Nat) : Onward r (r.reached world i) :=
  trans_of Onward (onward_noted r _) (onward_timed world _)

theorem reached_path (world : World) (r : Run) (i j : Nat) :
    (r.reached world i).now.path j = r.now.path j := by
  unfold Run.reached Run.timed
  split <;> rfl

theorem reached_attempts (world : World) (r : Run) (i : Nat) :
    (r.reached world i).now.attempts = r.now.attempts := by
  unfold Run.reached Run.timed
  split <;> rfl

theorem reached_length (world : World) (r : Run) (i : Nat) :
    (r.reached world i).now.paths.length = r.now.paths.length := (onward_reached world r i).length

/-- The path and everything about it after an attempt. -/
theorem attempted_path (r : Run) (i : Nat) (fd : Option Nat) (j : Nat) :
    (r.attempted i fd).now.path j =
      if i = j ∧ j < r.now.paths.length then { r.now.path j with fd := fd } else r.now.path j := by
  have hread : (r.attempted i fd).now.path j =
      (r.now.modifyPath i fun p => { p with fd := fd }).path j := by
    unfold Run.attempted
    cases fd <;> rfl
  rw [hread, path_modifyPath]

theorem Starts.lt {r : Run} {i : Nat} (h : Starts r i) : i < r.now.paths.length := by
  by_contra hge
  have hfamily := h.family
  rw [path_of_ge (Nat.le_of_not_lt hge)] at hfamily
  cases hfamily

/-- The attempted path, which has not changed but for its descriptor. -/
theorem Starts.attempted {r : Run} {i : Nat} (h : Starts r i) (world : World) (fd : Option Nat) :
    ((r.reached world i).attempted i fd).now.path i = { r.now.path i with fd := fd } := by
  rw [attempted_path, if_pos ⟨rfl, by rw [reached_length]; exact h.lt⟩, reached_path]

theorem onward_attempt (world : World) (r : Run) (i : Nat) (fd : Option Nat) :
    Onward r ((r.reached world i).attempted i fd) :=
  trans_of Onward (onward_reached world r i) (onward_attempted _ i fd)

/-- `socket_schedule` of a path that is attempted. -/
theorem sat_schedule {r : Run} {i n : Nat} (h : Starts r i) (world : World)
    (Q : Unit → Run → Prop) (E : Fault → Run → Prop) :
    Sat (socketSchedule i) ((r.reached world i).attempted i (some n)) Q E ↔
      Q () ((((r.reached world i).attempted i (some n)).moved i .scheduled).watched i true) := by
  have hpath := h.attempted world (some n)
  have hlt : i < ((r.reached world i).attempted i (some n)).now.paths.length := by
    rw [(onward_attempt world r i (some n)).length]
    exact h.lt
  unfold socketSchedule
  rw [sat_bind, sat_get, if_neg (by rw [hpath]; exact fun hne => hne h.state), sat_bind, sat_setState,
    watchAdd, sat_bind, sat_get]
  have hfd : ((((r.reached world i).attempted i (some n)).moved i .scheduled).now.path i).fd ≠
      none := by
    show (Socket.path (Socket.modifyPath _ i _) i).fd ≠ none
    rw [path_modifyPath, if_pos ⟨rfl, hlt⟩, hpath]
    exact Option.some_ne_none n
  rw [if_neg hfd, sat_modifyPath]
  exact Iff.rfl

/-- `connect_start` at a turn of the loop. -/
theorem Rule.connectStart (h : Rule world T) {enable : S Unit} {k : Nat}
    (henable : ∀ r, T.enter k r → Fine T enable r) {r : Run} {i a b : Nat} {rest : List Nat}
    (hloop : T.loop k (i :: rest) a b r) (hturns : Turns r i a b) (hstarts : Starts r i) :
    Sat (connectStart world enable i) (r.reached world i)
      (fun _ r' => T.turned k rest ((r.now.path i).up4 a) ((r.now.path i).up6 b) r' ∧ Onward r r')
      (fun e r' => T.stop e r'.log) := by
  -- what is picked up inside comes back to the loop
  have hpick : ∀ r₁, Onward r r₁ → T.pick k r₁ → Sat (pickupConnectedSocket world enable) r₁
      (fun _ r' => T.turned k rest ((r.now.path i).up4 a) ((r.now.path i).up6 b) r' ∧ Onward r r')
      (fun e r' => T.stop e r'.log) := by
    intro r₁ hon hp
    refine ((h.pickup henable hp).after hon).mono (fun _ r' hr' => ?_) (fun _ _ he => he)
    exact ⟨h.back hloop hturns hstarts hr'.1 hr'.2, hr'.2⟩
  unfold Connect.connectStart
  rw [sat_bind, sat_get]
  dsimp only
  rw [reached_path, if_neg (fun hne => hne hstarts.state), if_pos hstarts.family, sat_bind, sat_get,
    sat_bind, sat_modifySocket]
  cases hattempt : world.attempt (r.reached world i).now.attempts with
  | none =>
      dsimp only
      rw [sat_bind, sat_modifyPath]
      simp only [connectCheck, sat_bind, sat_socketCleanup]
      rw [reached_attempts] at hattempt
      refine hpick (((r.reached world i).attempted i none).cleaned i) ?_ ?_
      · exact trans_of Onward (onward_attempt world r i none) (onward_cleaned _ i)
      · exact h.refused none hloop hturns hstarts (Or.inl ⟨rfl, hattempt⟩)
  | some errno =>
      dsimp only
      rw [sat_bind, sat_modifyPath, sat_bind, sat_note]
      have hstate : (((r.reached world i).attempted i (some r.now.attempts)).now.path i).state =
          .none := by
        rw [hstarts.attempted world]
        exact hstarts.state
      show Sat (connectCheck world enable i errno)
        ((r.reached world i).attempted i (some (r.reached world i).now.attempts)) _ _
      rw [reached_attempts] at hattempt ⊢
      cases errno with
      | inProgress =>
          unfold connectCheck
          rw [sat_schedule hstarts]
          refine ⟨h.schedule hloop hturns hstarts hattempt, ?_⟩
          refine trans_of Onward (trans_of Onward (onward_attempt world r i _) (onward_moved ?_))
            (onward_watched _ i true)
          rw [hstate]
          exact Nat.zero_le _
      | ok =>
          simp only [connectCheck, sat_bind, sat_get, hstate]
          rw [if_neg (by exact SocketState.noConfusion), sat_pure, sat_setState]
          refine hpick _ (trans_of Onward (onward_attempt world r i _) (onward_moved ?_))
            (h.connected hloop hturns hstarts hattempt)
          rw [hstate]
          exact Nat.zero_le _
      | failed =>
          simp only [connectCheck, sat_bind, sat_socketCleanup]
          refine hpick (((r.reached world i).attempted i (some r.now.attempts)).cleaned i) ?_ ?_
          · exact trans_of Onward (onward_attempt world r i _) (onward_cleaned _ i)
          · exact h.refused _ hloop hturns hstarts (Or.inr ⟨rfl, hattempt⟩)

theorem sat_reached (world : World) (i : Nat) (x : S Unit) (r : Run) (Q : Unit → Run → Prop)
    (E : Fault → Run → Prop) :
    Sat (do
      note (.turned i)
      (if (← get).now.timeout = false then addTimeout world else pure ())
      x) r Q E ↔ Sat x (r.reached world i) Q E := by
  rw [sat_bind, sat_note, sat_bind, sat_get, sat_bind]
  unfold Run.reached Run.timed
  split
  · rfl
  · rfl

theorem Rule.enableSocket (h : Rule world T) {enable : S Unit} {k : Nat}
    (henable : ∀ r, T.enter k r → Fine T enable r) {r : Run} {i a b : Nat} {rest : List Nat}
    (hloop : T.loop k (i :: rest) a b r) (hturns : Turns r i a b) :
    Sat (enableSocket world enable i) r
      (fun _ r' => T.turned k rest ((r.now.path i).up4 a) ((r.now.path i).up6 b) r' ∧ Onward r r')
      (fun e r' => T.stop e r'.log) := by
  unfold Connect.enableSocket
  rw [sat_reached, sat_bind, sat_get]
  dsimp only
  rw [reached_path, sat_ite]
  refine ⟨fun hnone => ?_, fun hsome => ?_⟩
  · by_cases hfamily : hasSockaddr (r.now.path i).family = true
    · exact h.connectStart henable hloop hturns ⟨hnone, hfamily⟩
    · unfold Connect.connectStart
      rw [sat_bind, sat_get]
      dsimp only
      rw [reached_path, if_neg (fun hne => hne hnone), if_neg hfamily, sat_pure]
      refine ⟨h.idle hloop hturns (fun hs => hfamily hs.family) fun hc => ?_,
        onward_reached world r i⟩
      have hscheduled := hc.1
      rw [hnone] at hscheduled
      cases hscheduled
  · rw [sat_ite]
    refine ⟨fun hpaused => ?_, fun hpaused =>
      ⟨h.idle hloop hturns (fun hs => hsome hs.state) hpaused, onward_reached world r i⟩⟩
    unfold socketResume
    rw [sat_bind, sat_get]
    dsimp only
    rw [reached_path, if_neg (by simp [hpaused.1, hpaused.2]), watchAdd, sat_bind, sat_get, sat_ite]
    rw [reached_path]
    refine ⟨fun hfd => h.stuck hloop hturns hpaused hfd, fun _ => ⟨?_, ?_⟩⟩
    · exact h.resume hloop hturns hpaused
    · exact trans_of Onward (onward_reached world r i) (onward_watched _ i true)

theorem Rule.enableLoop (h : Rule world T) {enable : S Unit} {k : Nat}
    (henable : ∀ r, T.enter k r → Fine T enable r) (rest : List Nat) :
    ∀ {a b : Nat} {r : Run}, T.loop k rest a b r →
      Sat (enableLoop world enable rest a b) r
        (fun counts r' => T.rest (if counts.1 = 0 ∧ counts.2 = 0 then r'.cleared else r') ∧
          Onward r r') (fun e r' => T.stop e r'.log) := by
  induction rest with
  | nil =>
      intro a b r hloop
      exact ⟨h.finish hloop, refl_of Onward r⟩
  | cons i rest ih =>
      intro a b r hloop
      unfold Connect.enableLoop
      rw [sat_bind, sat_get]
      dsimp only
      rw [sat_ite]
      refine ⟨fun hdone => ih (h.skip hloop hdone), fun hdone => ?_⟩
      rw [sat_ite]
      refine ⟨fun hcounted => ih (h.count hloop hdone hcounted), fun hcounted => ?_⟩
      rw [sat_bind]
      refine (h.enableSocket henable hloop ⟨hdone, hcounted⟩).mono (fun _ r' hr' => ?_)
        (fun _ _ he => he)
      obtain ⟨hturned, hon⟩ := hr'
      rw [sat_bind, sat_get, sat_ite]
      refine ⟨fun hsequential => ⟨h.leave hturned hsequential, hon⟩, fun hsequential => ?_⟩
      exact (ih (h.on hturned (by simpa using hsequential))).mono (fun _ r'' hr'' => ⟨hr''.1, trans_of Onward hon hr''.2⟩)
        (fun _ _ he => he)

theorem Rule.enableSockets (h : Rule world T) : ∀ (k : Nat) {r : Run}, T.enter k r →
    Fine T (enableSockets world k) r := by
  intro k
  induction k with
  | zero => exact fun henter => h.fuel henter
  | succ k ih =>
      intro r henter
      unfold Fine Connect.enableSockets enablePaths
      rw [sat_bind, sat_get, sat_bind]
      refine (h.enableLoop (fun r' hr' => ih hr') _ (h.start henter)).mono (fun counts r' hr' => ?_)
        (fun _ _ he => he)
      obtain ⟨hrest, hon⟩ := hr'
      rw [sat_ite]
      refine ⟨fun hzero => ?_, fun hzero => ?_⟩
      · rw [if_pos hzero] at hrest
        exact ⟨hrest, trans_of Onward hon (onward_cleared r')⟩
      · rw [if_neg hzero] at hrest
        exact ⟨hrest, hon⟩

/-! ### Events -/

/-- `SO_ERROR` of a connection that has ended is not EINPROGRESS. -/
def Event.spurious : Event → Bool
  | .ready _ .inProgress => true
  | _ => false

theorem Rule.connectReady (h : Rule world T) {r : Run} (hrest : T.rest r) {i : Nat}
    (henabled : (r.now.path i).watch = true) (errno : Errno)
    (hspurious : errno = .inProgress → T.stop (.assertion .schedule) r.log) :
    Fine T (connectReady world (Connect.enableSockets world (nesting r.now)) i errno) r := by
  have hpick := fun r' hr' => h.pickup (k := nesting r.now) (fun _ hr => h.enableSockets _ hr) (r := r') hr'
  unfold Fine Connect.connectReady
  rw [sat_bind, sat_get]
  dsimp only
  rw [sat_ite]
  refine ⟨fun hunready => ?_, fun hwatched => ?_⟩
  · refine h.unready hrest henabled (hunready.resolve_right fun hc => ?_)
    rw [henabled] at hc
    cases hc
  obtain ⟨hstate, hwatch⟩ : (r.now.path i).state = .scheduled ∧ (r.now.path i).watch = true := by
    simpa using hwatched
  cases errno with
  | inProgress =>
      unfold connectCheck socketSchedule
      rw [sat_bind, sat_get, if_pos (by rw [hstate]; exact SocketState.noConfusion), sat_throw]
      exact hspurious rfl
  | ok =>
      simp only [connectCheck, sat_bind, sat_get]
      rw [if_pos hstate, socketPause, sat_bind, sat_get]
      dsimp only
      rw [if_neg (by simp [hstate, hwatch]), sat_modifyPath, sat_setState]
      refine (hpick _ (h.ready hrest hstate hwatch)).after
        (trans_of Onward (onward_watched r i false) (onward_moved ?_))
      have hpath : (r.watched i false).now.path i = { r.now.path i with watch := false } := by
        refine (path_modifyPath ..).trans (if_pos ⟨rfl, lt_of_state ?_⟩)
        rw [hstate]
        exact SocketState.noConfusion
      rw [hpath, hstate]
      decide
  | failed =>
      simp only [connectCheck, sat_bind, sat_socketCleanup]
      exact (hpick _ (h.failed hrest hstate hwatch)).after (onward_cleaned r i)

theorem Rule.killAll (h : Rule world T) {r : Run} (hkill : T.kill r) :
    Sat (forScheduled socketCleanup) r (fun _ r' => T.kill r' ∧ Onward r r')
      (fun e r' => T.stop e r'.log) := by
  unfold forScheduled
  rw [sat_bind, sat_get]
  refine sat_forM (fun _ r' => T.kill r' ∧ Onward r r') (fun i _ r' hr' => ?_) _ r
    ⟨hkill, refl_of Onward r⟩
  rw [sat_bind, sat_get, sat_ite]
  refine ⟨fun hs => ?_, fun _ => hr'⟩
  rw [sat_socketCleanup]
  exact ⟨h.clean hr'.1 hs, trans_of Onward hr'.2 (onward_cleaned r' i)⟩

theorem Rule.dispatch (h : Rule world T) {r : Run} (hrest : T.rest r) (event : Event)
    (hspurious : event.spurious = true → T.stop (.assertion .schedule) r.log) :
    Fine T (dispatch world event) r := by
  have henable := fun r' (hr' : T.enter (nesting r.now) r') => h.enableSockets _ hr'
  unfold Fine Connect.dispatch
  rw [sat_bind, sat_get]
  dsimp only
  rw [sat_ite]
  refine ⟨fun henabled => ?_, fun _ => ⟨hrest, refl_of Onward r⟩⟩
  cases event with
  | ready i errno =>
      refine h.connectReady hrest henabled errno fun herrno => hspurious ?_
      rw [herrno]
      rfl
  | timeout =>
      unfold handle connectTimeout
      rw [sat_bind, sat_clearTimeouts, sat_bind]
      refine (h.killAll (h.expire hrest henabled)).mono (fun _ r' hr' => ?_) (fun _ _ he => he)
      obtain ⟨hkill, hon⟩ := hr'
      have hon' : Onward r (r'.noted .expired) :=
        trans_of Onward (trans_of Onward (onward_cleared r) hon) (onward_noted r' _)
      have henter := h.expired hkill
      rw [show r'.now.paths.length = r.now.paths.length from hon'.length] at henter
      rw [sat_bind, sat_note]
      exact Fine.after (henable _ henter) hon'
  | priorityTimeout =>
      unfold handle connectPriorityTimeout
      rw [sat_bind, sat_modifySocket, sat_bind, sat_note, sat_bind]
      have hskipping : Onward r r.skipping :=
        trans_of Onward (onward_modified rfl rfl) (onward_noted _ _)
      refine ((h.pickup henable (h.skipping hrest henabled)).after hskipping).mono
        (fun _ r' hr' => ?_) (fun _ _ he => he)
      rw [sat_modifySocket]
      exact ⟨h.handled hr'.1, trans_of Onward hr'.2 (onward_modified rfl rfl)⟩
  | next =>
      unfold handle connectNext
      rw [sat_bind, sat_note, sat_bind, sat_modifySocket]
      exact Fine.after (henable _ (h.next hrest)) (onward_asked r)

/-- The machine before the first attempt. -/
def Run.prepared (r : Run) : Run :=
  r.modified fun s => { s with paths := s.paths.map fun p => { p with fd := none } }

theorem initial_path (families : List Int) (sequential : Bool) (i : Nat) :
    ((initial families sequential).prepared.now.path i).state = .none ∧
      ((initial families sequential).prepared.now.path i).fd = none ∧
      ((initial families sequential).prepared.now.path i).watch = false := by
  unfold Run.prepared Run.modified initial Socket.path
  dsimp only
  rw [List.map_map, List.getD_eq_getElem?_getD, List.getElem?_map]
  cases (families.takeWhile (· ≠ 0))[i]? with
  | none => exact ⟨rfl, rfl, rfl⟩
  | some family => exact ⟨rfl, rfl, rfl⟩

/-- **What is kept by the steps holds after every run, and where a run stops.** -/
theorem Rule.connect (h : Rule world T) {r : Run} (events : List Event)
    (hspurious : ∀ event ∈ events, event.spurious = true → ∀ r', T.rest r' →
      T.stop (.assertion .schedule) r'.log)
    (henter : T.enter (nesting r.now) r.prepared) :
    Sat (connect world events) r (fun _ => T.rest) (fun e r' => T.stop e r'.log) := by
  unfold Connect.connect connectPrepare
  rw [sat_bind, sat_get, sat_bind, sat_bind, sat_modifySocket]
  refine (h.enableSockets _ henter).mono (fun _ r' hr' => ?_) (fun _ _ he => he)
  refine (sat_forM (fun left r'' => left ⊆ events ∧ T.rest r'') (fun event left r'' hr'' => ?_)
    events r' ⟨List.Subset.refl _, hr'.1⟩).mono (fun _ _ hr => hr.2) (fun _ _ he => he)
  obtain ⟨hleft, hrest⟩ := hr''
  obtain ⟨hevent, hleft⟩ := List.cons_subset.mp hleft
  refine (h.dispatch hrest event fun hs => hspurious event hevent hs r'' hrest).mono
    (fun _ _ hr => ⟨hleft, hr.1⟩) (fun _ _ he => he)

end

/-! ### Two statements together -/

def Stages.and (T U : Stages) : Stages where
  enter k r := T.enter k r ∧ U.enter k r
  pick k r := T.pick k r ∧ U.pick k r
  answer k r := T.answer k r ∧ U.answer k r
  loop k rest a b r := T.loop k rest a b r ∧ U.loop k rest a b r
  turned k rest a b r := T.turned k rest a b r ∧ U.turned k rest a b r
  kill r := T.kill r ∧ U.kill r
  rest r := T.rest r ∧ U.rest r
  stop e log := T.stop e log ∧ U.stop e log

theorem Rule.and {world : World} {T U : Stages} (h : Rule world T) (h' : Rule world U) :
    Rule world (T.and U) where
  fuel hr := ⟨h.fuel hr.1, h'.fuel hr.2⟩
  stuck hr hturns hpaused hfd := ⟨h.stuck hr.1 hturns hpaused hfd, h'.stuck hr.2 hturns hpaused hfd⟩
  unready hr hw hs := ⟨h.unready hr.1 hw hs, h'.unready hr.2 hw hs⟩
  unpaused hr hf hs hp := ⟨h.unpaused hr.1 hf hs hp, h'.unpaused hr.2 hf hs hp⟩
  start hr := ⟨h.start hr.1, h'.start hr.2⟩
  skip hr hdone := ⟨h.skip hr.1 hdone, h'.skip hr.2 hdone⟩
  count hr hs hc := ⟨h.count hr.1 hs hc, h'.count hr.2 hs hc⟩
  idle hr hturns hs hp := ⟨h.idle hr.1 hturns hs hp, h'.idle hr.2 hturns hs hp⟩
  resume hr hturns hp := ⟨h.resume hr.1 hturns hp, h'.resume hr.2 hturns hp⟩
  schedule hr hturns hs ha := ⟨h.schedule hr.1 hturns hs ha, h'.schedule hr.2 hturns hs ha⟩
  connected hr hturns hs ha := ⟨h.connected hr.1 hturns hs ha, h'.connected hr.2 hturns hs ha⟩
  refused fd hr hturns hs ha := ⟨h.refused fd hr.1 hturns hs ha, h'.refused fd hr.2 hturns hs ha⟩
  back hr hturns hs hrest hon := ⟨h.back hr.1 hturns hs hrest.1 hon, h'.back hr.2 hturns hs hrest.2 hon⟩
  on hr hp := ⟨h.on hr.1 hp, h'.on hr.2 hp⟩
  leave hr hs := ⟨h.leave hr.1 hs, h'.leave hr.2 hs⟩
  finish hr := ⟨h.finish hr.1, h'.finish hr.2⟩
  lost hr hf := ⟨h.lost hr.1 hf, h'.lost hr.2 hf⟩
  wait hr hf hs := ⟨h.wait hr.1 hf hs, h'.wait hr.2 hf hs⟩
  pass hr hf hs hp := ⟨h.pass hr.1 hf hs hp, h'.pass hr.2 hf hs hp⟩
  ask hr := ⟨h.ask hr.1, h'.ask hr.2⟩
  again hr hrest hon := ⟨h.again hr.1 hrest.1 hon, h'.again hr.2 hrest.2 hon⟩
  done hr := ⟨h.done hr.1, h'.done hr.2⟩
  ready hr hs hw := ⟨h.ready hr.1 hs hw, h'.ready hr.2 hs hw⟩
  failed hr hs hw := ⟨h.failed hr.1 hs hw, h'.failed hr.2 hs hw⟩
  next hr := ⟨h.next hr.1, h'.next hr.2⟩
  expire hr ht := ⟨h.expire hr.1 ht, h'.expire hr.2 ht⟩
  clean hr hs := ⟨h.clean hr.1 hs, h'.clean hr.2 hs⟩
  expired hr := ⟨h.expired hr.1, h'.expired hr.2⟩
  skipping hr hp := ⟨h.skipping hr.1 hp, h'.skipping hr.2 hp⟩
  handled hr := ⟨h.handled hr.1, h'.handled hr.2⟩

/-! ### The nesting -/

/-- The paths that have not been attempted. -/
def Socket.untried (s : Socket) : Finset Nat :=
  {i ∈ Finset.range s.paths.length | (s.path i).state = .none}

theorem untried_le (s : Socket) : s.untried.card < s.paths.length + 1 := by
  refine Nat.lt_succ_of_le ((Finset.card_filter_le _ _).trans ?_)
  rw [Finset.card_range]

theorem Onward.untried {r r' : Run} (h : Onward r r') : r'.now.untried ⊆ r.now.untried := by
  intro i hi
  rw [Socket.untried, Finset.mem_filter, Finset.mem_range] at *
  refine ⟨h.length ▸ hi.1, ?_⟩
  have hrank := h.state i
  rw [hi.2] at hrank
  cases hs : (r.now.path i).state with
  | none => rfl
  | _ => rw [hs] at hrank; simp [SocketState.rank] at hrank

/-- Attempting a path leaves fewer of them. -/
theorem Starts.untried {r r' : Run} {i : Nat} (h : Starts r i) (hon : Onward r r')
    (hi : (r'.now.path i).state ≠ .none) : r'.now.untried.card < r.now.untried.card := by
  refine Finset.card_lt_card (Finset.ssubset_iff_subset_ne.mpr ⟨hon.untried, fun heq => ?_⟩)
  have hmem : i ∈ r'.now.untried := by
    rw [heq, Socket.untried, Finset.mem_filter, Finset.mem_range]
    exact ⟨h.lt, h.state⟩
  exact hi (Finset.mem_filter.mp hmem).2

/-- A call of `enable_sockets` may go as deep as there are paths left to attempt. -/
def shallow : Stages where
  enter k r := r.now.untried.card < k
  pick k r := r.now.untried.card < k
  answer k r := r.now.untried.card < k
  loop k _ _ _ r := r.now.untried.card ≤ k
  turned k _ _ _ r := r.now.untried.card ≤ k
  kill _ := True
  rest _ := True
  stop e _ := ∃ x, e = .assertion x

theorem Onward.shallow {r r' : Run} (h : Onward r r') {k : Nat} (hk : r.now.untried.card < k) :
    r'.now.untried.card < k := (Finset.card_le_card h.untried).trans_lt hk

theorem Onward.shallow' {r r' : Run} (h : Onward r r') {k : Nat} (hk : r.now.untried.card ≤ k) :
    r'.now.untried.card ≤ k := (Finset.card_le_card h.untried).trans hk

theorem onward_schedule {r : Run} {i n : Nat} (h : Starts r i) (world : World)
    (state : SocketState) :
    Onward r (((r.reached world i).attempted i (some n)).moved i state) := by
  refine trans_of Onward (onward_attempt world r i _) (onward_moved ?_)
  rw [h.attempted world, h.state]
  exact Nat.zero_le _

theorem shallow_rule (world : World) : Rule world shallow where
  fuel h := absurd h (Nat.not_lt_zero _)
  stuck _ _ _ _ := ⟨_, rfl⟩
  unready _ _ _ := ⟨_, rfl⟩
  unpaused _ _ _ _ := ⟨_, rfl⟩
  start h := Nat.lt_succ_iff.mp h
  skip h _ := h
  count h _ _ := h
  idle {_ i _ _ _ r} h _ _ _ := (onward_reached world r i).shallow' h
  resume {_ i _ _ _ r} h _ _ :=
    (trans_of Onward (onward_reached world r i) (onward_watched _ i true)).shallow' h
  schedule {_ i _ _ _ r} h _ hstarts _ :=
    (trans_of Onward (onward_schedule hstarts world _) (onward_watched _ i true)).shallow' h
  connected {_ i _ _ _ r} h _ hstarts _ := by
    refine (hstarts.untried (onward_schedule hstarts world .ready) ?_).trans_le h
    rw [moved_path, if_pos ⟨rfl, by rw [(onward_attempt world r i _).length]; exact hstarts.lt⟩]
    exact SocketState.noConfusion
  refused {_ i _ _ _ r} fd h _ hstarts _ := by
    refine (hstarts.untried
      (trans_of Onward (onward_attempt world r i fd) (onward_cleaned _ i)) ?_).trans_le h
    rw [cleaned_path, if_pos ⟨rfl, by rw [(onward_attempt world r i _).length]; exact hstarts.lt⟩]
    exact SocketState.noConfusion
  back h _ _ _ hon := hon.shallow' h
  on h _ := h
  leave _ _ := trivial
  finish _ := trivial
  lost h _ := h
  wait {_ r _} h _ _ := by
    split
    · exact (onward_modified (r := r) rfl rfl).shallow h
    · exact h
  pass {_ r i} h _ _ _ := (onward_passed r i).shallow h
  ask {_ r} h := (onward_asked r).shallow h
  again h _ hon := hon.shallow h
  done _ := trivial
  ready {r i} _ _ _ := by
    have hlength : ((r.watched i false).moved i .ready).now.paths.length = r.now.paths.length :=
      (length_modifyPath ..).trans (length_modifyPath ..)
    exact hlength ▸ untried_le _
  failed {r i} _ _ _ := (onward_cleaned r i).length ▸ untried_le _
  next {r} _ := (onward_asked r).length ▸ untried_le _
  expire _ _ := trivial
  clean _ _ := trivial
  expired _ := untried_le _
  skipping _ _ := untried_le _
  handled _ := trivial

/-- **The fuel is enough: a run is stopped only by an assertion.** -/
theorem connect_stops (world : World) (r : Run) (events : List Event) :
    Sat (connect world events) r (fun _ _ => True) (fun e _ => ∃ x, e = .assertion x) := by
  refine ((shallow_rule world).connect events (fun _ _ _ _ _ => ⟨_, rfl⟩) ?_).mono
    (fun _ _ h => h) (fun _ _ h => h)
  have hlength : r.prepared.now.paths.length = r.now.paths.length := List.length_map _
  exact (hlength ▸ untried_le _ : _ < r.now.paths.length + 1)

end Netresolve.Connect
