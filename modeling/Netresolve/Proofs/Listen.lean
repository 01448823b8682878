/-
The descriptors of a listening query.

`settle` follows a log: a descriptor is held from `socket` to `close`, and to close one that is not
held is a mistake.  A run is `Settled` if it makes no mistake and holds nothing in the end.

Every path adds at least as many calls of `close` to a run as of `socket`, and as many where it is
`Sound`.  So a single path that is not leaves a run with a call of `close` too many.
-/
import Netresolve.Core.Listen

namespace Netresolve.Listen

open Connect (SocketState hasSockaddr)

/-! ### Following a log -/

/-- The descriptors that are held at the end of the log, unless one is closed that is not held. -/
def settle : List Int → List Note → Option (List Int)
  | held, [] => some held
  | held, .opened fd :: rest => settle (fd :: held) rest
  | held, .closed fd :: rest => if fd ∈ held then settle (held.erase fd) rest else none

/-- Each descriptor that was opened is closed exactly once, and no other one is closed. -/
def Settled (notes : List Note) : Prop := settle [] notes = some []

instance (notes : List Note) : Decidable (Settled notes) :=
  inferInstanceAs (Decidable (settle [] notes = some []))

def Note.isOpened : Note → Bool
  | .opened _ => true
  | .closed _ => false

def Note.isClosed : Note → Bool
  | .opened _ => false
  | .closed _ => true

/-- As many calls of `close` as of `socket` have been made, but for what is still held. -/
theorem settle_count (notes : List Note) : ∀ {held held' : List Int},
    settle held notes = some held' →
      notes.countP Note.isOpened + held.length = notes.countP Note.isClosed + held'.length := by
  induction notes with
  | nil =>
      intro held held' h
      cases h
      rfl
  | cons note rest ih =>
      intro held held' h
      cases note with
      | opened fd =>
          have hrest := ih h
          simp only [List.countP_cons, Note.isOpened, Note.isClosed, List.length_cons, if_true] at *
          simp only [Bool.false_eq_true, if_false]
          omega
      | closed fd =>
          rw [settle] at h
          split at h
          · next hmem =>
              have hrest := ih h
              have hlength := List.length_erase_of_mem hmem
              have hpos := List.length_pos_of_mem hmem
              simp only [List.countP_cons, Note.isOpened, Note.isClosed, if_true,
                Bool.false_eq_true, if_false]
              omega
          · cases h

/-- Opening what is closed afterwards. -/
theorem settle_opened (fds : List Int) (rest : List Note) : ∀ held,
    settle held (fds.map Note.opened ++ rest) = settle (fds.reverse ++ held) rest := by
  induction fds with
  | nil => exact fun _ => rfl
  | cons fd fds ih =>
      intro held
      rw [List.map_cons, List.cons_append, settle, ih, List.reverse_cons, List.append_assoc]
      rfl

theorem settle_closed (fds : List Int) : ∀ {held : List Int}, held.Perm fds →
    settle held (fds.map Note.closed) = some [] := by
  induction fds with
  | nil =>
      intro held h
      rw [List.perm_nil.mp h]
      rfl
  | cons fd fds ih =>
      intro held h
      rw [List.map_cons, settle, if_pos (h.mem_iff.mpr List.mem_cons_self)]
      refine ih ?_
      simpa using h.erase fd

theorem settled_of_same (fds : List Int) :
    Settled (fds.map Note.opened ++ fds.map Note.closed) := by
  unfold Settled
  rw [settle_opened, List.append_nil]
  exact settle_closed fds (List.reverse_perm fds)

/-! ### The paths -/

/-- `bind` or `listen` is called for the path and fails. -/
def Results.refused (results : Results) (family : Int) : Bool :=
  results.socket.isSome && results.options family && !(results.bind && results.listen)

/-- The path has a socket address, and `bind` and `listen` succeed if they are called. -/
def Results.sound (results : Results) (family : Int) : Bool :=
  hasSockaddr family && !results.refused family

theorem accept_fds (paths : List Path) : (accept paths).map Path.fd = paths.map Path.fd := by
  unfold accept
  rw [List.map_map]
  refine List.map_congr_left fun path _ => ?_
  rw [Function.comp_apply]
  split
  · rfl
  · rfl

theorem accepts_fds (n : Nat) : ∀ paths : List Path,
    (accept^[n] paths).map Path.fd = paths.map Path.fd := by
  induction n with
  | zero => exact fun _ => rfl
  | succ n ih =>
      intro paths
      rw [Function.iterate_succ_apply, ih, accept_fds]

/-- What is closed in the end depends on the descriptors of the paths only. -/
def closes (fds : List Int) : List Note := (fds.filter (· ≠ -1)).map Note.closed

theorem closes_append (fds fds' : List Int) : closes (fds ++ fds') = closes fds ++ closes fds' := by
  unfold closes
  rw [List.filter_append, List.map_append]

theorem log_listenFree (paths : List Path) :
    log (listenFree paths) = closes (paths.map Path.fd) := by
  induction paths with
  | nil => rfl
  | cons path rest ih =>
      unfold log listenFree closes at *
      rw [List.map_cons, List.flatMap_cons, ih, socketCleanup, List.map_cons, List.filter_cons]
      by_cases h : path.fd = -1
      · simp [h]
      · simp [h]

theorem closes_descriptor (fd : Nat) : closes [(fd : Int)] = [.closed fd] := by
  unfold closes
  rw [List.filter_cons_of_pos (by simp)]
  rfl

/-- What `listen_callback` does with a path of the resolution. -/
def listened (results : Results) (family : Int) : Noted := listenPath results { family := family }

theorem listened_sound {results : Results} {family : Int} (h : results.sound family = true) :
    ∃ fds : List Int, (listened results family).2 = fds.map Note.opened ∧
      closes [(listened results family).1.fd] = fds.map Note.closed := by
  obtain ⟨hfamily, hrefused⟩ : hasSockaddr family = true ∧ results.refused family = false := by
    simpa [Results.sound] using h
  unfold listened listenPath
  rw [if_pos hfamily]
  cases hsocket : results.socket with
  | none => exact ⟨[], rfl, rfl⟩
  | some fd =>
      have hfd := closes_descriptor fd
      dsimp only
      split
      · exact ⟨[fd], rfl, hfd⟩
      · next hoptions =>
          have hmade : (results.bind && results.listen) = true := by
            simpa [Results.refused, hsocket, show results.options family = true by simpa using hoptions]
              using hrefused
          rw [if_neg (by simpa [Bool.and_eq_true] using hmade)]
          exact ⟨[fd], rfl, hfd⟩

/-- The calls of `socket` and of `close` a path adds to a run. -/
def Noted.opens (noted : Noted) : Nat := noted.2.countP Note.isOpened

def Noted.closes (noted : Noted) : Nat :=
  noted.2.countP Note.isClosed + (Listen.closes [noted.1.fd]).countP Note.isClosed

/-- A path adds no more calls of `socket` than of `close`, and fewer where it is not sound. -/
theorem listened_count (results : Results) (family : Int) :
    (listened results family).opens + (if results.sound family then 0 else 1) =
      (listened results family).closes := by
  by_cases hsound : results.sound family = true
  · obtain ⟨fds, hopened, hclosed⟩ := listened_sound hsound
    unfold Noted.opens Noted.closes
    rw [hopened, hclosed, if_pos hsound]
    simp [List.countP_map, Function.comp_def, Note.isOpened, Note.isClosed]
  · rw [if_neg hsound]
    unfold listened listenPath
    by_cases hfamily : hasSockaddr family = true
    · have hrefused : results.refused family = true := by
        simpa [Results.sound, hfamily] using hsound
      simp only [Results.refused, Bool.and_eq_true] at hrefused
      obtain ⟨⟨hsocket, hoptions⟩, hmade⟩ := hrefused
      obtain ⟨fd, hfd⟩ := Option.isSome_iff_exists.mp hsocket
      rw [if_pos hfamily, hfd]
      dsimp only
      rw [if_neg (by simp [hoptions]), if_pos (by simpa using hmade)]
      unfold Noted.opens Noted.closes
      rw [closes_descriptor fd]
      rfl
    · rw [if_neg hfamily]
      rfl

/-! ### Whole runs -/

/-- The loops of `listen_callback` and `netresolve_listen_free` over paths that are all sound. -/
theorem log_sound (noted : List Noted)
    (h : ∀ n ∈ noted, ∃ fds : List Int, n.2 = fds.map Note.opened ∧
      closes [n.1.fd] = fds.map Note.closed) :
    ∃ fds : List Int, log noted = fds.map Note.opened ∧
      closes (noted.map fun n => n.1.fd) = fds.map Note.closed := by
  induction noted with
  | nil => exact ⟨[], rfl, rfl⟩
  | cons n rest ih =>
      obtain ⟨fds, hopened, hclosed⟩ := h n List.mem_cons_self
      obtain ⟨more, hmore, hmore'⟩ := ih fun m hm => h m (List.mem_cons_of_mem _ hm)
      refine ⟨fds ++ more, ?_, ?_⟩
      · show n.2 ++ log rest = _
        rw [hopened, hmore, List.map_append]
      · show closes ([n.1.fd] ++ rest.map fun n => n.1.fd) = _
        rw [closes_append, hclosed, hmore', List.map_append]

/-- The calls over all paths, which can be as many only if they are for each path. -/
theorem log_count (noted : List Noted) (h : ∀ n ∈ noted, n.opens ≤ n.closes) :
    (log noted).countP Note.isOpened ≤ (log noted).countP Note.isClosed +
        (closes (noted.map fun n => n.1.fd)).countP Note.isClosed ∧
      ((log noted).countP Note.isOpened = (log noted).countP Note.isClosed +
        (closes (noted.map fun n => n.1.fd)).countP Note.isClosed →
          ∀ n ∈ noted, n.opens = n.closes) := by
  induction noted with
  | nil => exact ⟨Nat.le_refl _, fun _ n hn => absurd hn List.not_mem_nil⟩
  | cons n rest ih =>
      have hn := h n List.mem_cons_self
      obtain ⟨hle, heq⟩ := ih fun m hm => h m (List.mem_cons_of_mem _ hm)
      have hlog : log (n :: rest) = n.2 ++ log rest := List.flatMap_cons
      have hcloses : closes ((n :: rest).map fun n => n.1.fd) =
          closes [n.1.fd] ++ closes (rest.map fun n => n.1.fd) := closes_append [n.1.fd] _
      unfold Noted.opens Noted.closes at hn
      rw [hlog, hcloses, List.countP_append, List.countP_append, List.countP_append]
      refine ⟨by omega, fun hsame m hm => ?_⟩
      rcases List.mem_cons.mp hm with rfl | hm
      · unfold Noted.opens Noted.closes
        omega
      · exact heq (by omega) m hm

theorem closes_opened (fds : List Int) : (closes fds).countP Note.isOpened = 0 := by
  unfold closes
  rw [List.countP_map]
  exact List.countP_eq_zero.mpr fun _ _ => Bool.false_ne_true

theorem listenCallback_initial (results : Nat → Results) (families : List Int) :
    listenCallback results (initial families) =
      (families.takeWhile (· ≠ 0)).mapIdx fun i family => listened (results i) family := by
  unfold listenCallback initial
  refine List.ext_getElem? fun i => ?_
  rw [List.getElem?_mapIdx, List.getElem?_mapIdx, List.getElem?_map, Option.map_map]
  rfl

/-- The run, by what `listen_callback` does with each path. -/
theorem run_eq (results : Nat → Results) (accepts : Nat) (families : List Int) :
    run results accepts families =
      log ((families.takeWhile (· ≠ 0)).mapIdx fun i family => listened (results i) family) ++
        closes (((families.takeWhile (· ≠ 0)).mapIdx fun i family =>
          listened (results i) family).map fun n => n.1.fd) := by
  unfold run
  dsimp only
  rw [log_listenFree, accepts_fds, List.map_map, listenCallback_initial]
  rfl

/--
**Listening closes what it opened, exactly once and nothing else, if and only if every path has a
socket address and no `bind` or `listen` fails.**
-/
theorem listen_settled_iff (results : Nat → Results) (accepts : Nat) (families : List Int) :
    Settled (run results accepts families) ↔
      ∀ i family, (families.takeWhile (· ≠ 0))[i]? = some family →
        hasSockaddr family = true ∧ (results i).refused family = false := by
  have hsound : ∀ i family, (results i).sound family = true ↔
      hasSockaddr family = true ∧ (results i).refused family = false := by
    intro i family
    simp [Results.sound]
  rw [run_eq]
  constructor
  · intro hsettled i family hfamily
    have hcount := settle_count _ hsettled
    rw [List.countP_append, List.countP_append, closes_opened] at hcount
    have hmem : listened (results i) family ∈
        (families.takeWhile (· ≠ 0)).mapIdx fun i family => listened (results i) family := by
      obtain ⟨hlt, rfl⟩ := List.getElem?_eq_some_iff.mp hfamily
      exact List.mem_mapIdx.mpr ⟨i, hlt, rfl⟩
    have heq := (log_count _ fun n hn => ?_).2 (by simpa using hcount) _ hmem
    · have hpath := listened_count (results i) family
      rw [← hsound]
      by_contra hunsound
      rw [if_neg hunsound] at hpath
      omega
    · obtain ⟨j, hj, rfl⟩ := List.mem_mapIdx.mp hn
      have hpath := listened_count (results j) (families.takeWhile (· ≠ 0))[j]
      omega
  · intro h
    have hall : ∀ n ∈ (families.takeWhile (· ≠ 0)).mapIdx fun i family =>
        listened (results i) family, ∃ fds : List Int, n.2 = fds.map Note.opened ∧
          closes [n.1.fd] = fds.map Note.closed := by
      intro n hn
      obtain ⟨i, hi, rfl⟩ := List.mem_mapIdx.mp hn
      exact listened_sound ((hsound i _).mpr (h i _ (List.getElem?_eq_getElem hi)))
    obtain ⟨fds, hopened, hclosed⟩ := log_sound _ hall
    rw [hopened, hclosed]
    exact settled_of_same fds

/--
The first of two addresses is in use.  Its descriptor is closed at once, the second socket gets the
same number, and in the end it is closed twice.
-/
theorem listen_closes_twice :
    run (fun i => if i = 0 then { socket := some 3, bind := false } else { socket := some 3 }) 0
        [AF_INET, AF_INET] =
      [.opened 3, .closed 3, .opened 3, .closed 3, .closed 3] ∧
    ¬ Settled (run (fun i =>
        if i = 0 then { socket := some 3, bind := false } else { socket := some 3 }) 0
        [AF_INET, AF_INET]) := by
  decide

end Netresolve.Listen
