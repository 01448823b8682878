/-
Who closes a descriptor.

A descriptor is in the record of a path from the moment it is opened until it is closed or
handed over, and nothing else remembers it.  The account is one equation for each descriptor:
the times it was opened are the times it was passed on, the times it was closed and the paths
that hold it.  Each step moves a descriptor from one place to another.  After
`netresolve_connect_free` no path holds any, and what is left of the equation is the
statement.
-/
import Netresolve.Proofs.Families

namespace Netresolve.Connect

open Outcome

/-! ### The account -/

/-- How often the descriptor was opened. -/
def opens (notes : List Note) (n : Nat) : Nat := notes.countP (· = .opened n)

/-- How often the library closed it. -/
def closes (notes : List Note) (n : Nat) : Nat := notes.countP (· = .closed n)

def Note.passes : Note → Nat → Bool
  | .called _ fd, n => fd = some n
  | _, _ => false

/-- How often it was passed to the application. -/
def passes (notes : List Note) (n : Nat) : Nat := notes.countP (·.passes n)

/-- The paths that hold it. -/
def Socket.held (s : Socket) (n : Nat) : Nat := s.paths.countP fun p => p.fd = some n

/--
Every descriptor that was opened was either passed on or closed, and once; no other was
closed; what was passed on was a descriptor.
-/
structure Accounted (notes : List Note) : Prop where
  once : ∀ n, 0 < opens notes n → opens notes n = 1 ∧
    (passes notes n = 1 ∧ closes notes n = 0 ∨ passes notes n = 0 ∧ closes notes n = 1)
  own : ∀ n, opens notes n = 0 → passes notes n = 0 ∧ closes notes n = 0
  real : ∀ i, .called i none ∉ notes

structure Balanced (notes : List Note) (held : Nat → Nat) (attempts : Nat) : Prop where
  balance : ∀ n, opens notes n = passes notes n + closes notes n + held n
  single : ∀ n, opens notes n ≤ 1
  fresh : ∀ n, attempts ≤ n → opens notes n = 0
  real : ∀ i, .called i none ∉ notes

/-- The note is not about a descriptor. -/
def Note.plain : Note → Bool
  | .opened _ | .closed _ | .called _ _ => false
  | _ => true

namespace Balanced

variable {notes : List Note} {held held' : Nat → Nat} {attempts fd : Nat}

theorem plain (h : Balanced notes held attempts) {n : Note} (hn : n.plain = true) :
    Balanced (n :: notes) held attempts := by
  have hopens : ∀ m, opens (n :: notes) m = opens notes m := by
    intro m
    refine List.countP_cons_of_neg fun heq => ?_
    rw [of_decide_eq_true heq] at hn
    cases hn
  have hcloses : ∀ m, closes (n :: notes) m = closes notes m := by
    intro m
    refine List.countP_cons_of_neg fun heq => ?_
    rw [of_decide_eq_true heq] at hn
    cases hn
  have hpasses : ∀ m, passes (n :: notes) m = passes notes m := by
    intro m
    refine List.countP_cons_of_neg fun hpass => ?_
    cases n with
    | called i fd => cases hn
    | _ => cases hpass
  refine ⟨fun m => ?_, fun m => ?_, fun m hm => ?_, fun i hmem => ?_⟩
  · rw [hopens, hcloses, hpasses]
    exact h.balance m
  · rw [hopens]
    exact h.single m
  · rw [hopens]
    exact h.fresh m hm
  · rcases List.mem_cons.mp hmem with rfl | hmem
    · cases hn
    · exact h.real i hmem

theorem hold (h : Balanced notes held attempts) {more : Nat} (hheld : ∀ n, held' n = held n)
    (hmore : attempts ≤ more) : Balanced notes held' more := by
  refine ⟨fun n => ?_, h.single, fun n hn => h.fresh n (hmore.trans hn), h.real⟩
  rw [hheld]
  exact h.balance n

/-- A new descriptor is held by a path. -/
theorem opened (h : Balanced notes held attempts)
    (hheld : ∀ n, held' n = held n + if attempts = n then 1 else 0) :
    Balanced (.opened attempts :: notes) held' (attempts + 1) := by
  have hopens : ∀ n, opens (.opened attempts :: notes) n =
      opens notes n + if attempts = n then 1 else 0 := by
    intro n
    unfold opens
    rw [List.countP_cons]
    simp
  have hrest : ∀ n, passes (.opened attempts :: notes) n = passes notes n ∧
      closes (.opened attempts :: notes) n = closes notes n :=
    fun n => ⟨List.countP_cons_of_neg (by simp [Note.passes]), List.countP_cons_of_neg (by simp)⟩
  have hfresh := h.fresh attempts (Nat.le_refl _)
  refine ⟨fun n => ?_, fun n => ?_, fun n hn => ?_, fun i hmem => ?_⟩
  · rw [hopens, (hrest n).1, (hrest n).2, hheld, h.balance n]
    omega
  · rw [hopens]
    have hsingle := h.single n
    split
    · next heq => rw [← heq, hfresh]
    · exact hsingle
  · rw [hopens, h.fresh n (by omega), if_neg (by omega)]
  · rcases List.mem_cons.mp hmem with heq | hmem
    · cases heq
    · exact h.real i hmem

/-- A descriptor leaves its path, to be closed. -/
theorem close (h : Balanced notes held attempts)
    (hheld : ∀ n, held' n + (if fd = n then 1 else 0) = held n) :
    Balanced (.closed fd :: notes) held' attempts := by
  have hcloses : ∀ n, closes (.closed fd :: notes) n =
      closes notes n + if fd = n then 1 else 0 := by
    intro n
    unfold closes
    rw [List.countP_cons]
    simp
  have hrest : ∀ n, opens (.closed fd :: notes) n = opens notes n ∧
      passes (.closed fd :: notes) n = passes notes n :=
    fun n => ⟨List.countP_cons_of_neg (by simp), List.countP_cons_of_neg (by simp [Note.passes])⟩
  refine ⟨fun n => ?_, fun n => (hrest n).1 ▸ h.single n, fun n hn => (hrest n).1 ▸ h.fresh n hn,
    fun i hmem => ?_⟩
  · have hbalance := h.balance n
    have hmoved := hheld n
    rw [(hrest n).1, (hrest n).2, hcloses]
    omega
  · rcases List.mem_cons.mp hmem with heq | hmem
    · cases heq
    · exact h.real i hmem

/-- A descriptor leaves its path, for the application. -/
theorem call (h : Balanced notes held attempts) (i : Nat)
    (hheld : ∀ n, held' n + (if fd = n then 1 else 0) = held n) :
    Balanced (.called i (some fd) :: notes) held' attempts := by
  have hpasses : ∀ n, passes (.called i (some fd) :: notes) n =
      passes notes n + if fd = n then 1 else 0 := by
    intro n
    unfold passes
    rw [List.countP_cons]
    simp [Note.passes]
  have hrest : ∀ n, opens (.called i (some fd) :: notes) n = opens notes n ∧
      closes (.called i (some fd) :: notes) n = closes notes n :=
    fun n => ⟨List.countP_cons_of_neg (by simp), List.countP_cons_of_neg (by simp)⟩
  refine ⟨fun n => ?_, fun n => (hrest n).1 ▸ h.single n, fun n hn => (hrest n).1 ▸ h.fresh n hn,
    fun j hmem => ?_⟩
  · have hbalance := h.balance n
    have hmoved := hheld n
    rw [(hrest n).1, (hrest n).2, hpasses]
    omega
  · rcases List.mem_cons.mp hmem with heq | hmem
    · cases heq
    · exact h.real j hmem

/-- Nothing is held any more. -/
theorem accounted (h : Balanced notes held attempts) (hnone : ∀ n, held n = 0) :
    Accounted notes := by
  refine ⟨fun n hn => ?_, fun n hn => ?_, h.real⟩
  · have hbalance := h.balance n
    have hsingle := h.single n
    rw [hnone] at hbalance
    refine ⟨by omega, ?_⟩
    by_cases hpassed : passes notes n = 0
    · exact Or.inr ⟨hpassed, by omega⟩
    · exact Or.inl ⟨by omega, by omega⟩
  · have hbalance := h.balance n
    omega

end Balanced

/-! ### Who holds what -/

theorem held_modifyPath (s : Socket) {i : Nat} (f : Path → Path) (hi : i < s.paths.length)
    (n : Nat) :
    (s.modifyPath i f).held n + (if (s.path i).fd = some n then 1 else 0) =
      s.held n + if (f (s.path i)).fd = some n then 1 else 0 := by
  obtain ⟨before, p, after, hpaths, hlength, hmodify⟩ := List.exists_of_modify f hi
  have hpath : s.path i = p := by
    rw [path_eq_getElem hi]
    simp [hpaths, ← hlength]
  unfold Socket.held Socket.modifyPath
  dsimp only
  rw [hmodify, hpath, hpaths, List.countP_append, List.countP_append, List.countP_cons,
    List.countP_cons]
  simp only [decide_eq_true_eq]
  omega

theorem held_keep (s : Socket) (i : Nat) {f : Path → Path} (hf : ∀ p : Path, (f p).fd = p.fd)
    (n : Nat) : (s.modifyPath i f).held n = s.held n := by
  by_cases hi : i < s.paths.length
  · have hheld := held_modifyPath s f hi n
    rw [hf] at hheld
    omega
  · unfold Socket.held Socket.modifyPath
    dsimp only
    rw [List.modify_eq_self (Nat.le_of_not_lt hi)]

theorem lt_of_fd {s : Socket} {i fd : Nat} (h : (s.path i).fd = some fd) : i < s.paths.length := by
  by_contra hge
  rw [path_of_ge (Nat.le_of_not_lt hge)] at h
  cases h

theorem held_drop {s : Socket} {i fd : Nat} (h : (s.path i).fd = some fd) (n : Nat) :
    (s.modifyPath i fun p => { p with fd := none }).held n + (if fd = n then 1 else 0) =
      s.held n := by
  have hheld := held_modifyPath s (fun p => { p with fd := none }) (lt_of_fd h) n
  rw [h] at hheld
  simpa using hheld

theorem held_take {s : Socket} {i : Nat} (hi : i < s.paths.length) (h : (s.path i).fd = none)
    (fd n : Nat) :
    (s.modifyPath i fun p => { p with fd := some fd }).held n =
      s.held n + if fd = n then 1 else 0 := by
  have hheld := held_modifyPath s (fun p => { p with fd := some fd }) hi n
  rw [h] at hheld
  simpa using hheld

theorem held_map (s : Socket) {f : Path → Path} (hf : ∀ p : Path, (f p).fd = p.fd) (n : Nat) :
    (s.paths.map f).countP (fun p => p.fd = some n) = s.held n := by
  rw [List.countP_map]
  unfold Socket.held
  congr 1
  funext p
  simp [hf]

theorem held_none {s : Socket} (h : ∀ i < s.paths.length, (s.path i).fd = none) (n : Nat) :
    s.held n = 0 := by
  unfold Socket.held
  rw [List.countP_eq_zero]
  intro p hp hfd
  obtain ⟨j, hj, rfl⟩ := List.getElem_of_mem hp
  have hnone := h j hj
  rw [path_eq_getElem hj, of_decide_eq_true hfd] at hnone
  cases hnone

/-! ### What the steps keep -/

def Run.balanced (r : Run) : Prop := Balanced (r.log.map Prod.fst) r.now.held r.now.attempts

section

variable {world : World} {r : Run} {i : Nat}

theorem balanced_noted (h : r.balanced) {n : Note} (hn : n.plain = true) :
    (r.noted n).balanced := h.plain hn

theorem balanced_moved (h : r.balanced) (i : Nat) (state : SocketState) :
    (r.moved i state).balanced := by
  have hmodified : (r.modified (·.modifyPath i fun p => { p with state := state })).balanced :=
    h.hold (held_keep r.now i fun _ => rfl) (Nat.le_refl _)
  exact balanced_noted hmodified rfl

theorem balanced_watched (h : r.balanced) (i : Nat) (watch : Bool) : (r.watched i watch).balanced :=
  h.hold (held_keep r.now i fun _ => rfl) (Nat.le_refl _)

theorem balanced_reached (h : r.balanced) (i : Nat) : (r.reached world i).balanced := by
  have hturned : (r.noted (.turned i)).balanced := balanced_noted h rfl
  unfold Run.reached Run.timed
  split
  · exact hturned.hold (fun _ => rfl) (Nat.le_refl _)
  · exact hturned

theorem balanced_attempted (h : r.balanced) (hi : i < r.now.paths.length)
    (hfd : (r.now.path i).fd = none) {fd : Option Nat}
    (hnew : fd = none ∨ fd = some r.now.attempts) : (r.attempted i fd).balanced := by
  unfold Run.attempted
  rcases hnew with rfl | rfl
  · refine h.hold (fun n => ?_) (Nat.le_succ _)
    show (r.now.modifyPath i fun p => { p with fd := none }).held n = r.now.held n
    have hheld := held_modifyPath r.now (fun p => { p with fd := none }) hi n
    rw [hfd] at hheld
    simpa using hheld
  · exact Balanced.opened h (held_take hi hfd r.now.attempts)

theorem balanced_cleaned (h : r.balanced) (i : Nat) : (r.cleaned i).balanced := by
  have hdone : ((r.moved i .done).watched i false).balanced :=
    balanced_watched (balanced_moved h i .done) i false
  exact Run.cleaned_rule hdone fun _ _ hfd h' => Balanced.close h' (held_drop hfd)

theorem balanced_passed (h : r.balanced) {fd : Nat} (hfd : (r.now.path i).fd = some fd) :
    (r.passed i).balanced := by
  have hdone : ((r.noted (.chosen i)).moved i .done).balanced :=
    balanced_moved (balanced_noted h rfl) i .done
  have hpath : (((r.noted (.chosen i)).moved i .done).now.path i).fd = some fd := by
    rw [moved_path]
    split
    · exact hfd
    · exact hfd
  show Balanced (.called i (r.now.path i).fd :: _) _ _
  rw [hfd]
  refine Balanced.call hdone i fun n => ?_
  rw [← held_drop hpath n]
  refine congrArg (· + _) ?_
  exact held_map (r.picked i).now paused_fd n

end

/-- What a path in its state holds. -/
structure Path.shaped (p : Path) : Prop where
  empty : p.state = .none → p.fd = none
  full : p.state = .scheduled ∨ p.state = .ready → p.fd ≠ none

structure Owned (r : Run) : Prop where
  balanced : r.balanced
  shaped : ∀ i, (r.now.path i).shaped

theorem shaped_done {p : Path} (h : p.state = .done) : p.shaped := by
  constructor
  · rw [h]
    exact fun hnone => SocketState.noConfusion hnone
  · rw [h]
    rintro (hs | hs) <;> cases hs

theorem shaped_active {p : Path} {fd : Nat} (h : p.state ≠ .none) (hfd : p.fd = some fd) :
    p.shaped :=
  ⟨fun hnone => absurd hnone h, fun _ => by rw [hfd]; exact Option.some_ne_none fd⟩

/-- The shape of a path does not depend on its watch. -/
theorem Path.shaped.watch {p : Path} (h : p.shaped) (watch : Bool) :
    ({ p with watch := watch } : Path).shaped := ⟨h.empty, h.full⟩

theorem Path.shaped.paused {p : Path} (h : p.shaped) : p.paused.shaped := by
  unfold Path.paused
  split
  · exact h.watch false
  · exact h

namespace Owned

variable {world : World} {r : Run} {i : Nat}

theorem full (h : Owned r) (hi : r.now.active i) : ∃ fd, (r.now.path i).fd = some fd :=
  Option.ne_none_iff_exists'.mp ((h.shaped i).full hi)

/-- What is not a path or an attempt may change. -/
theorem modified {f : Socket → Socket} (h : Owned r) (hpaths : (f r.now).paths = r.now.paths)
    (hattempts : (f r.now).attempts = r.now.attempts) : Owned (r.modified f) := by
  refine ⟨h.balanced.hold (fun n => ?_) (Nat.le_of_eq hattempts.symm), fun j => ?_⟩
  · show (f r.now).held n = r.now.held n
    unfold Socket.held
    rw [hpaths]
  · show ((f r.now).path j).shaped
    unfold Socket.path
    rw [hpaths]
    exact h.shaped j

theorem noted (h : Owned r) {n : Note} (hn : n.plain = true) : Owned (r.noted n) :=
  ⟨balanced_noted h.balanced hn, h.shaped⟩

theorem watched (h : Owned r) (i : Nat) (watch : Bool) : Owned (r.watched i watch) := by
  refine ⟨balanced_watched h.balanced i watch, fun j => ?_⟩
  rw [watched_path]
  split
  · exact (h.shaped j).watch watch
  · exact h.shaped j

theorem reached (h : Owned r) (i : Nat) : Owned (r.reached world i) := by
  refine ⟨balanced_reached h.balanced i, fun j => ?_⟩
  rw [reached_path]
  exact h.shaped j

theorem cleaned (h : Owned r) (i : Nat) : Owned (r.cleaned i) := by
  refine ⟨balanced_cleaned h.balanced i, fun j => ?_⟩
  rw [cleaned_path]
  split
  · exact shaped_done rfl
  · exact h.shaped j

theorem ready (h : Owned r) (hi : (r.now.path i).state = .scheduled) :
    Owned (r.moved i .ready) := by
  obtain ⟨fd, hfd⟩ := h.full (Or.inl hi)
  refine ⟨balanced_moved h.balanced i _, fun j => ?_⟩
  rw [moved_path]
  split
  · next hij =>
      rw [← hij.1]
      exact shaped_active (fun hnone => SocketState.noConfusion hnone) hfd
  · exact h.shaped j

theorem passed (h : Owned r) (hi : (r.now.path i).state = .ready) : Owned (r.passed i) := by
  obtain ⟨fd, hfd⟩ := h.full (Or.inr hi)
  refine ⟨balanced_passed h.balanced hfd, fun j => ?_⟩
  rw [passed_path]
  refine Path.shaped.paused ?_
  rw [picked_path]
  split
  · exact shaped_done rfl
  · exact h.shaped j

section

variable {fd : Option Nat} (hstarts : Starts r i) (hnew : fd = none ∨ fd = some r.now.attempts)

include hstarts hnew

theorem attempt (h : Owned r) : ((r.reached world i).attempted i fd).balanced := by
  refine balanced_attempted (balanced_reached h.balanced i) ?_ ?_ ?_
  · rw [reached_length]
    exact hstarts.lt
  · rw [reached_path]
    exact (h.shaped i).empty hstarts.state
  · rw [reached_attempts]
    exact hnew

theorem refused (h : Owned r) : Owned (((r.reached world i).attempted i fd).cleaned i) := by
  refine ⟨balanced_cleaned (h.attempt hstarts hnew) i, fun j => ?_⟩
  rw [cleaned_path]
  split
  · exact shaped_done rfl
  · next hij =>
      rw [attempted_path, if_neg fun hc => hij ⟨hc.1, ?_⟩, reached_path]
      · exact h.shaped j
      · rw [(onward_attempted _ i fd).length]
        exact hc.2

end

/-- The attempt goes on or has succeeded. -/
theorem attempted (h : Owned r) (hstarts : Starts r i) {state : SocketState}
    (hstate : state ≠ .none) :
    Owned (((r.reached world i).attempted i (some r.now.attempts)).moved i state) := by
  refine ⟨balanced_moved (h.attempt hstarts (Or.inr rfl)) i state, fun j => ?_⟩
  rw [moved_path]
  split
  · next hij =>
      rw [← hij.1, hstarts.attempted world]
      exact shaped_active hstate rfl
  · next hij =>
      rw [attempted_path, if_neg fun hc => hij ⟨hc.1, ?_⟩, reached_path]
      · exact h.shaped j
      · rw [(onward_attempted _ i _).length]
        exact hc.2

end Owned

def owning : Stages where
  enter _ := Owned
  pick _ := Owned
  answer _ := Owned
  loop _ _ _ _ := Owned
  turned _ _ _ _ := Owned
  kill := Owned
  rest := Owned
  stop _ _ := True

theorem owning_rule (world : World) : Rule world owning where
  fuel _ := trivial
  stuck _ _ _ _ := trivial
  unready _ _ _ := trivial
  unpaused _ _ _ _ := trivial
  start h := h
  skip h _ := h
  count h _ _ := h
  idle h _ _ _ := Owned.reached h _
  resume h _ _ := (Owned.reached h _).watched _ true
  schedule h _ hstarts _ :=
    (Owned.attempted h hstarts fun hnone => SocketState.noConfusion hnone).watched _ true
  connected h _ hstarts _ := Owned.attempted h hstarts fun hnone => SocketState.noConfusion hnone
  refused fd h _ hstarts hfd := Owned.refused hstarts (hfd.imp And.left And.left) h
  back _ _ _ hrest _ := hrest
  on h _ := h
  leave h _ := kept_if (fun hr => hr.modified rfl rfl) h
  finish h := kept_if (fun hr => hr.modified rfl rfl) h
  lost h _ := h
  wait h _ _ := kept_if (fun hr => Owned.modified hr rfl rfl) h
  pass h _ hready _ := Owned.passed h hready
  ask h := Owned.modified (h.noted rfl) rfl rfl
  again _ hrest _ := hrest
  done h := h
  ready {r i} h hstate _ := by
    refine (Owned.watched h i false).ready ?_
    rw [watched_path]
    split
    · exact hstate
    · exact hstate
  failed h _ _ := Owned.cleaned h _
  next h := Owned.modified (h.noted rfl) rfl rfl
  expire h _ := Owned.modified h rfl rfl
  clean h _ := Owned.cleaned h _
  expired h := Owned.noted h rfl
  skipping h _ := Owned.noted (Owned.modified h rfl rfl) rfl
  handled h := Owned.modified h rfl rfl

/-! ### The end -/

/-- `netresolve_connect_free` closes what the paths still hold. -/
theorem connectFree_accounts {r : Run} (h : r.balanced) :
    Sat connectFree r (fun _ r' => Accounted (r'.log.map Prod.fst)) (fun _ _ => False) := by
  unfold connectFree
  rw [sat_bind, sat_get, sat_bind]
  -- what the loop has left behind holds nothing
  let I : List Nat → Run → Prop := fun rest r' => r'.balanced ∧
    r'.now.paths.length = r.now.paths.length ∧
      ∀ j < r.now.paths.length, j ∉ rest → (r'.now.path j).fd = none
  refine (sat_forM I (fun i rest r' hI => ?_) _ r
    ⟨h, rfl, fun j hj hrest => absurd (List.mem_range.mpr hj) hrest⟩).mono (fun _ r' hI => ?_)
    (fun _ _ he => he)
  · obtain ⟨hbalanced, hlength, hnone⟩ := hI
    rw [sat_socketCleanup]
    refine ⟨balanced_cleaned hbalanced i, (onward_cleaned r' i).length.trans hlength,
      fun j hj hrest => ?_⟩
    rw [cleaned_path]
    split
    · rfl
    · next hij =>
        refine hnone j hj fun hmem => ?_
        rcases List.mem_cons.mp hmem with rfl | hmem
        · exact hij ⟨rfl, by rw [hlength]; exact hj⟩
        · exact hrest hmem
  · obtain ⟨hbalanced, hlength, hnone⟩ := hI
    rw [sat_clearTimeouts]
    refine hbalanced.accounted (held_none fun j hj => hnone j ?_ (List.not_mem_nil))
    rw [← hlength]
    exact hj

theorem initial_owned (families : List Int) (sequential : Bool) :
    Owned (initial families sequential).prepared := by
  refine ⟨⟨fun n => ?_, fun _ => Nat.zero_le _, fun _ _ => rfl, fun _ => List.not_mem_nil⟩,
    fun i => ?_⟩
  · rw [held_none (fun i _ => (initial_path families sequential i).2.1) n]
    rfl
  · refine ⟨fun _ => (initial_path families sequential i).2.1, fun hactive => ?_⟩
    rw [(initial_path families sequential i).1] at hactive
    rcases hactive with hactive | hactive <;> cases hactive

/--
**Every descriptor is passed to the application once and never closed, or closed once and never
passed on.**  This for every run that ends with `netresolve_connect_free`; the others are
stopped by an assertion.
-/
theorem descriptors_passed_or_closed (world : World) (families : List Int) (sequential : Bool)
    (events : List Event) :
    Sat (do connect world events; connectFree) (initial families sequential)
      (fun _ r => Accounted (r.log.map Prod.fst)) (fun e _ => ∃ x, e = .assertion x) := by
  rw [sat_bind]
  refine ((connect_stops world _ events).and ((owning_rule world).connect events
    (fun _ _ _ _ _ => trivial) (initial_owned families sequential))).mono
    (fun _ r h => ?_) (fun _ _ h => h.1)
  exact (connectFree_accounts h.2.balanced).mono (fun _ _ h' => h') (fun _ _ h' => h'.elim)

end Netresolve.Connect
