/-
The paths of a response are in order.

`path_cmp` is a strict order when it is negative, if not a total one: addresses of families
other than the IP ones compare with nothing but by reachability.  That is enough for
`Insertion`.  The block of memory holds the list that `List.orderedInsert` makes of the
records, and a cleared record behind it.
-/
import Netresolve.Core.PathArray
import Netresolve.Library.Insertion
import Netresolve.Proofs.Frame

namespace Netresolve

open Outcome

/-! ### The order -/

/-- `path_cmp(p1, p2) < 0`. -/
def pathLt (sort : Bool) (p₁ p₂ : Path) : Prop := pathCmp sort p₁ p₂ < 0

instance (sort : Bool) : DecidableRel (pathLt sort) := fun p₁ p₂ =>
  inferInstanceAs (Decidable (pathCmp sort p₁ p₂ < 0))

theorem pathLt_iff (p₁ p₂ : Path) : pathLt true p₁ p₂ ↔
    (p₁.reachable = true ∧ p₂.reachable = false) ∨
    (p₁.reachable = p₂.reachable ∧ p₁.family = AF_INET6 ∧ p₂.family = AF_INET) := by
  unfold pathLt pathCmp
  cases h₁ : p₁.reachable <;> cases h₂ : p₂.reachable <;> simp
  · split
    · next h => simp [h]
    · next h =>
        simp only [h, iff_false, not_lt]
        split <;> decide
  · split
    · next h => simp [h]
    · next h =>
        simp only [h, iff_false, not_lt]
        split <;> decide

theorem pathLt_unsorted (p₁ p₂ : Path) : ¬ pathLt false p₁ p₂ := by
  unfold pathLt pathCmp
  simp

instance (sort : Bool) : IsStrictOrder Path (pathLt sort) where
  irrefl p h := by
    cases sort with
    | false => exact pathLt_unsorted p p h
    | true =>
        rcases (pathLt_iff p p).mp h with ⟨hr, hn⟩ | ⟨-, h6, h4⟩
        · rw [hr] at hn
          cases hn
        · rw [h6] at h4
          cases h4
  trans p₁ p₂ p₃ h h' := by
    cases sort with
    | false => exact absurd h (pathLt_unsorted p₁ p₂)
    | true =>
        rw [pathLt_iff] at *
        rcases h with ⟨hr, hn⟩ | ⟨hsame, h6, h4⟩
        · rcases h' with ⟨hr', -⟩ | ⟨hsame', -, -⟩
          · rw [hn] at hr'
            cases hr'
          · exact Or.inl ⟨hr, by rw [← hsame', hn]⟩
        · rcases h' with ⟨hr', hn'⟩ | ⟨-, h6', -⟩
          · exact Or.inl ⟨hsame.trans hr', hn'⟩
          · rw [h4] at h6'
            cases h6'

/-- The paths of one reachability and one family. -/
def Path.within (reachable : Bool) (family : Int) (path : Path) : Bool :=
  path.reachable == reachable && path.family == family

theorem within_alike (sort reachable : Bool) (family : Int) :
    Insertion.Alike (pathLt sort) (Path.within reachable family) := by
  intro p q c hp hq h
  simp only [Path.within, Bool.and_eq_true, beq_iff_eq] at hp hq
  cases sort with
  | false => exact absurd h (pathLt_unsorted p c)
  | true =>
      rw [pathLt_iff] at *
      rw [hp.1, hp.2] at h
      rw [hq.1, hq.2]
      exact h

/-! ### The block -/

/-- The block holds the records of the list, and a cleared one if there are any. -/
structure PathArray.Holds (r : PathArray) (contents : List Path) : Prop where
  paths : r.paths = contents
  count : r.pathcount = contents.length
  zero : contents ≠ [] → r.cells[r.pathcount]? = some Path.zero

theorem PathArray.Holds.cells {r : PathArray} {contents : List Path} (h : r.Holds contents) :
    r.cells = contents ++ r.cells.drop r.pathcount := by
  have hsplit := List.take_append_drop r.pathcount r.cells
  rw [show r.cells.take r.pathcount = contents from h.paths] at hsplit
  exact hsplit.symm

/-- The loop stops at the first record the new one comes before. -/
theorem position_eq (sort : Bool) (path : Path) (tail : List Path) : ∀ before after : List Path,
    position sort path (before ++ (after ++ tail)) before.length after.length =
      some (before.length + (after.takeWhile fun p => ¬ pathLt sort path p).length) := by
  intro before after
  induction after generalizing before with
  | nil => rfl
  | cons p rest ih =>
      have hget : (before ++ (p :: rest ++ tail))[before.length]? = some p := by simp
      rw [List.length_cons, position, hget]
      by_cases hlt : pathCmp sort path p < 0
      · simp [hlt, pathLt]
      · have hshift : before ++ (p :: rest ++ tail) = (before ++ [p]) ++ (rest ++ tail) := by simp
        have hnext := ih (before ++ [p])
        rw [← hshift, List.length_append, List.length_singleton] at hnext
        have hskip : (p :: rest).takeWhile (fun p => ¬ pathLt sort path p) =
            p :: rest.takeWhile fun p => ¬ pathLt sort path p :=
          List.takeWhile_cons_of_pos (decide_eq_true hlt)
        rw [hskip, List.length_cons, ← Nat.add_assoc, Nat.add_right_comm, ← hnext]
        exact if_neg hlt

/-- There is room for the new record and the cleared one. -/
theorem realloc_eq (fresh : Nat → Path) (contents tail : List Path) :
    ∃ x y, realloc fresh (contents ++ tail) (contents.length + 2) = contents ++ [x, y] := by
  have hkept : (contents ++ tail).take (contents.length + 2) = contents ++ tail.take 2 :=
    List.take_length_add_append 2
  unfold realloc
  rw [hkept, List.append_assoc]
  have hlength : (tail.take 2 ++
      (List.range (contents.length + 2 - (contents ++ tail).length)).map fresh).length = 2 := by
    simp only [List.length_append, List.length_take, List.length_map, List.length_range]
    omega
  obtain ⟨x, y, hxy⟩ := List.length_eq_two.mp hlength
  exact ⟨x, y, by rw [hxy]⟩

/-- The records behind the gap move up by one. -/
theorem memmove_eq (before after : List Path) (x y : Path) : ∃ z,
    memmove (before ++ after ++ [x, y]) (before.length + 1) before.length after.length =
      some (before ++ z :: (after ++ [y])) := by
  obtain ⟨z, rest, hz⟩ : ∃ z rest, after ++ [x] = z :: rest := by
    cases after with
    | nil => exact ⟨x, [], rfl⟩
    | cons z rest => exact ⟨z, rest ++ [x], rfl⟩
  have hcells : before ++ after ++ [x, y] = before ++ (z :: rest) ++ [y] := by
    rw [← hz]
    simp
  have hrest : rest.length = after.length := by
    have hlength := congrArg List.length hz
    simp only [List.length_append, List.length_cons, List.length_nil] at hlength
    omega
  have hfrom : (before ++ after ++ [x, y]).drop before.length = after ++ [x, y] := by simp
  have htake : (before ++ (z :: rest) ++ [y]).take (before.length + 1) = before ++ [z] := by
    rw [List.append_assoc, List.take_length_add_append]
    rfl
  have hdrop : (before ++ (z :: rest) ++ [y]).drop (before.length + 1 + after.length) = [y] := by
    rw [← hrest, List.drop_append_of_le_length, List.drop_eq_nil_of_le]
    · rfl
    · simp only [List.length_append, List.length_cons]
      omega
    · simp only [List.length_append, List.length_cons]
      omega
  refine ⟨z, ?_⟩
  unfold memmove
  rw [if_pos, hfrom, List.take_left, hcells, htake, hdrop]
  · simp
  · simp only [List.length_append, List.length_cons, List.length_nil]
    omega

theorem store_eq (before after : List Path) (x path : Path) {i : Nat} (hi : i = before.length) :
    store (before ++ x :: after) i path = some (before ++ path :: after) := by
  subst hi
  unfold store
  rw [if_pos (by simp), List.set_append_right _ _ (Nat.le_refl _)]
  simp

section

variable (env : Env) (reach : Nat → Path → Bool) (fresh : Nat → Nat → Path)

/-- **`add_path` inserts the record and clears the one behind the last.** -/
theorem PathArray.Holds.addPath {r : PathArray} {contents : List Path} (h : r.Holds contents)
    (path : Path) : ∃ r', r.addPath env reach fresh path = some r' ∧
      r'.Holds (contents.orderedInsert (pathLt env.sort)
        (checkedPath env reach contents.length path)) := by
  generalize hnew : checkedPath env reach contents.length path = new
  generalize hbefore : (contents.takeWhile fun p => ¬ pathLt env.sort new p) = before
  generalize hafter : (contents.dropWhile fun p => ¬ pathLt env.sort new p) = after
  have hsplit : contents = before ++ after := by
    rw [← hbefore, ← hafter, List.takeWhile_append_dropWhile]
  have hinserted : contents.orderedInsert (pathLt env.sort) new = before ++ new :: after := by
    rw [List.orderedInsert_eq_take_drop, hbefore, hafter]
  have hposition : position env.sort new r.cells 0 r.pathcount = some before.length := by
    have hloop := position_eq env.sort new (r.cells.drop r.pathcount) [] contents
    rw [List.nil_append, ← h.cells, hbefore] at hloop
    rw [h.count]
    simpa using hloop
  obtain ⟨x, y, hrealloc⟩ := realloc_eq (fresh r.pathcount) contents (r.cells.drop r.pathcount)
  rw [← h.cells, ← h.count] at hrealloc
  obtain ⟨z, hmoved⟩ := memmove_eq before after x y
  have hcount : r.pathcount = before.length + after.length := by
    rw [h.count, hsplit, List.length_append]
  have hlength : (before ++ new :: after).length = r.pathcount + 1 := by
    rw [List.length_append, List.length_cons, hcount, Nat.add_assoc]
  have hcleared : store (before ++ new :: (after ++ [y])) (r.pathcount + 1) Path.zero =
      some ((before ++ new :: after) ++ [Path.zero]) := by
    rw [show before ++ new :: (after ++ [y]) = (before ++ new :: after) ++ y :: [] by simp]
    exact store_eq _ _ _ _ hlength.symm
  refine ⟨⟨(before ++ new :: after) ++ [Path.zero], r.pathcount + 1⟩, ?_, ?_, ?_, fun _ => ?_⟩
  · simp only [PathArray.addPath]
    rw [h.count, hnew, ← h.count, hposition]
    simp only [Option.bind_eq_bind, Option.bind_some]
    rw [hrealloc, hsplit, show r.pathcount - before.length = after.length by omega, hmoved]
    simp only [Option.bind_some]
    rw [store_eq before _ z new rfl]
    simp only [Option.bind_some]
    rw [hcleared]
    rfl
  · rw [hinserted]
    exact List.take_left' hlength
  · rw [hinserted]
    exact hlength.symm
  · show ((before ++ new :: after) ++ [Path.zero])[r.pathcount + 1]? = _
    rw [← hlength, List.getElem?_concat_length]

/-! ### Sequences of calls -/

theorem checkedPaths_append (paths more : List Path) : ∀ n,
    checkedPaths env reach n (paths ++ more) =
      checkedPaths env reach n paths ++ checkedPaths env reach (n + paths.length) more := by
  induction paths with
  | nil => exact fun _ => rfl
  | cons path rest ih =>
      intro n
      rw [List.cons_append, checkedPaths, checkedPaths, ih, List.cons_append, List.length_cons,
        Nat.add_right_comm, ← Nat.add_assoc]

theorem checkedPaths_length (paths : List Path) : ∀ n,
    (checkedPaths env reach n paths).length = paths.length := by
  induction paths with
  | nil => exact fun _ => rfl
  | cons path rest ih =>
      intro n
      rw [checkedPaths, List.length_cons, ih, List.length_cons]

theorem PathArray.Holds.addPaths (paths : List Path) : ∀ {r : PathArray} {contents : List Path},
    r.Holds contents → ∃ r', paths.foldlM (PathArray.addPath env reach fresh) r = some r' ∧
      r'.Holds (Insertion.insertAll (pathLt env.sort) contents
        (checkedPaths env reach contents.length paths)) := by
  induction paths with
  | nil => exact fun h => ⟨_, rfl, h⟩
  | cons path rest ih =>
      intro r contents h
      obtain ⟨r₁, hr₁, h₁⟩ := h.addPath env reach fresh path
      obtain ⟨r', hr', h'⟩ := ih h₁
      rw [List.orderedInsert_length] at h'
      exact ⟨r', by rw [List.foldlM_cons, hr₁]; exact hr', h'⟩

theorem backendAddPaths_eq (request : Request) (calls : List PathArgs) : ∀ r : PathArray,
    calls.foldlM (PathArray.backendAddPath env reach fresh request) r =
      (calls.flatMap (pathsOf env.services request)).foldlM
        (PathArray.addPath env reach fresh) r := by
  induction calls with
  | nil => exact fun _ => rfl
  | cons a rest ih =>
      intro r
      rw [List.foldlM_cons, List.flatMap_cons, List.foldlM_append]
      exact congrArg _ (funext ih)

theorem backendAddPaths_holds (request : Request) (calls : List PathArgs) :
    ∃ r, PathArray.backendAddPaths env reach fresh request calls = some r ∧
      r.Holds (Insertion.insertAll (pathLt env.sort) [] (produced env reach request calls)) := by
  unfold PathArray.backendAddPaths
  rw [backendAddPaths_eq]
  refine PathArray.Holds.addPaths env reach fresh _ ⟨rfl, rfl, fun hne => absurd rfl hne⟩

theorem produced_append (request : Request) (calls : List PathArgs) (a : PathArgs) :
    produced env reach request (calls ++ [a]) = produced env reach request calls ++
      checkedPaths env reach (produced env reach request calls).length
        (pathsOf env.services request a) := by
  unfold produced
  rw [List.flatMap_append, List.flatMap_singleton, checkedPaths_append, checkedPaths_length,
    Nat.zero_add]

/-- One more call adds its records to those of the calls before. -/
theorem backendAddPath_perm (request : Request) (calls : List PathArgs) (a : PathArgs) :
    ∃ r r', PathArray.backendAddPaths env reach fresh request calls = some r ∧
      r.backendAddPath env reach fresh request a = some r' ∧
      r'.Holds
        (Insertion.insertAll (pathLt env.sort) [] (produced env reach request (calls ++ [a]))) ∧
      r'.paths.Perm (produced env reach request (calls ++ [a])) ∧
      r'.paths.Perm (r.paths ++
        checkedPaths env reach r.pathcount (pathsOf env.services request a)) := by
  obtain ⟨r, hr, h⟩ := backendAddPaths_holds env reach fresh request calls
  obtain ⟨r', hr', h'⟩ := backendAddPaths_holds env reach fresh request (calls ++ [a])
  have hstep : r.backendAddPath env reach fresh request a = some r' := by
    unfold PathArray.backendAddPaths at hr hr'
    rw [List.foldlM_append, hr] at hr'
    simpa using hr'
  have hperm := Insertion.insertAll_perm (r := pathLt env.sort) (produced env reach request calls) []
  have hperm' :=
    Insertion.insertAll_perm (r := pathLt env.sort) (produced env reach request (calls ++ [a])) []
  rw [← h.paths, List.nil_append] at hperm
  rw [← h'.paths, List.nil_append] at hperm'
  have hcount : r.pathcount = (produced env reach request calls).length := by
    rw [h.count, ← h.paths, hperm.length_eq]
  refine ⟨r, r', hr, hstep, h', hperm', ?_⟩
  rw [produced_append, ← hcount] at hperm'
  exact hperm'.trans (hperm.symm.append_right _)

/-! ### The address and the family -/

/-- What a record has from the arguments of the call, whatever the service name is. -/
structure PathArgs.Given (a : PathArgs) (path : Path) : Prop where
  family : path.family = a.family
  address : path.address = pathAddress a.family a.address
  ttl : path.ttl = a.ttl

theorem servicePaths_given (services : List Service) (request : Request) (a : PathArgs) :
    ∀ path ∈ servicePaths services request a, a.Given path := by
  intro path hpath
  unfold servicePaths at hpath
  dsimp only at hpath
  split at hpath
  · obtain ⟨m, -, rfl⟩ := List.mem_map.mp hpath
    exact ⟨rfl, rfl, rfl⟩
  · rw [List.mem_singleton.mp hpath]
    exact ⟨rfl, rfl, rfl⟩

theorem pathsOf_given (services : List Service) (request : Request) (a : PathArgs) :
    ∀ path ∈ pathsOf services request a, a.Given path := by
  intro path hpath
  unfold pathsOf at hpath
  split at hpath
  · cases hpath
  · split at hpath
    · obtain ⟨socktype, -, hpath⟩ := List.mem_flatMap.mp hpath
      have hgiven := servicePaths_given services request
        { a with ifindex := 0, socktype := socktype, protocol := 0, port := 0 } path hpath
      exact ⟨hgiven.family, hgiven.address, hgiven.ttl⟩
    · exact servicePaths_given services request a path hpath

theorem pathsOf_family (services : List Service) (request : Request) (a : PathArgs)
    (hfamily : request.family ≠ AF_UNSPEC) :
    ∀ path ∈ pathsOf services request a, path.family = request.family := by
  intro path hpath
  have hsame : request.family = a.family := by
    by_contra hne
    unfold pathsOf at hpath
    rw [if_pos ⟨hfamily, hne⟩] at hpath
    cases hpath
  rw [hsame]
  exact (pathsOf_given services request a path hpath).family

theorem mem_checkedPaths {path : Path} (paths : List Path) : ∀ n,
    path ∈ checkedPaths env reach n paths → ∃ i, ∃ first ∈ paths,
      path = checkedPath env reach i first := by
  induction paths with
  | nil => exact fun _ hpath => absurd hpath List.not_mem_nil
  | cons first rest ih =>
      intro n hpath
      rcases List.mem_cons.mp hpath with rfl | hpath
      · exact ⟨n, first, List.mem_cons_self, rfl⟩
      · obtain ⟨i, p, hp, heq⟩ := ih (n + 1) hpath
        exact ⟨i, p, List.mem_cons_of_mem first hp, heq⟩

/-- Whether a path is reachable is all that `check_reachability` changes. -/
theorem checkedPath_eq (n : Nat) (path : Path) :
    ∃ reachable, checkedPath env reach n path = { path with reachable } := by
  unfold checkedPath checkReachability
  split
  · exact ⟨_, rfl⟩
  · exact ⟨path.reachable, rfl⟩

theorem checkedPath_family (n : Nat) (path : Path) :
    (checkedPath env reach n path).family = path.family := by
  obtain ⟨reachable, heq⟩ := checkedPath_eq env reach n path
  rw [heq]

/--
**The paths of a response.**  Whatever is added and whatever is reachable, no call touches
memory outside of the block.  It adds the records it produces, one for each match in the
services list, and leaves the others as they are.  The paths are sorted, if they are to be,
and those that compare alike by reachability and family stay in the order in which they came;
else all do.  A cleared record follows the last, and the family is the one asked for.
-/
theorem paths_stay_ordered (request : Request) (calls : List PathArgs) (a : PathArgs) :
    ∃ r r', PathArray.backendAddPaths env reach fresh request calls = some r ∧
      r.backendAddPath env reach fresh request a = some r' ∧
      r'.pathcount = r'.paths.length ∧
      r'.paths.Perm (r.paths ++
        checkedPaths env reach r.pathcount (pathsOf env.services request a)) ∧
      (env.sort = true → (r'.paths.Pairwise fun p q => ¬ pathCmp true q p < 0) ∧
        ∀ reachable family, r'.paths.filter (Path.within reachable family) =
          (produced env reach request (calls ++ [a])).filter (Path.within reachable family)) ∧
      (env.sort = false → r'.paths = produced env reach request (calls ++ [a])) ∧
      (r'.pathcount ≠ 0 → r'.cells[r'.pathcount]? = some Path.zero) ∧
      (request.family ≠ AF_UNSPEC → ∀ path ∈ r'.paths, path.family = request.family) := by
  obtain ⟨r, r', hr, hstep, h', hall, hperm⟩ :=
    backendAddPath_perm env reach fresh request calls a
  refine ⟨r, r', hr, hstep, by rw [h'.count, h'.paths], hperm, fun hsort => ⟨?_, fun b f => ?_⟩, ?_,
    fun hne => h'.zero fun hnil => ?_, fun hfamily path hpath => ?_⟩
  · have hordered := Insertion.insertAll_ordered (r := pathLt env.sort)
      (produced env reach request (calls ++ [a])) List.Pairwise.nil
    rw [← h'.paths, hsort] at hordered
    exact hordered
  · rw [h'.paths, Insertion.insertAll_filter (within_alike env.sort b f) _ List.Pairwise.nil]
    rfl
  · intro hsort
    rw [h'.paths, hsort]
    exact Insertion.insertAll_last pathLt_unsorted _ _
  · rw [h'.count, hnil] at hne
    exact hne rfl
  · obtain ⟨i, first, hfirst, rfl⟩ := mem_checkedPaths env reach _ 0 (hall.mem_iff.mp hpath)
    obtain ⟨b, -, hfirst⟩ := List.mem_flatMap.mp hfirst
    rw [checkedPath_family]
    exact pathsOf_family env.services request b hfamily first hfirst

end

/-! ### The list of the core -/

theorem insertPath_values (sort : Bool) (path : Sourced Path) (paths : List (Sourced Path)) :
    (insertPath sort path paths).map (·.value) =
      (paths.map (·.value)).orderedInsert (pathLt sort) path.value := by
  induction paths with
  | nil => rfl
  | cons p rest ih =>
      rw [insertPath, List.map_cons, List.orderedInsert_cons]
      by_cases hlt : pathCmp sort path.value p.value < 0
      · rw [if_pos hlt, if_pos (show pathLt sort path.value p.value from hlt)]
        rfl
      · rw [if_neg hlt, if_neg (show ¬ pathLt sort path.value p.value from hlt), List.map_cons, ih]

/-- **The block holds what the core has in its list.** -/
theorem storePath_refined {env : Env} {s : St} {r : PathArray} (fresh : Nat → Nat → Path)
    (h : r.Holds (s.query.response.paths.map (·.value))) (path : Path) (E : Fault → St → Prop) :
    Sat (storePath env path) s (fun _ s' => ∃ r',
      r.addPath env (fun _ => env.reachable) fresh path = some r' ∧
      r'.Holds (s'.query.response.paths.map (·.value))) E := by
  simp only [storePath, observe, modifyQuery, sat_bind, sat_get, sat_modify]
  rw [insertPath_values]
  exact h.addPath env (fun _ => env.reachable) fresh path

end Netresolve
