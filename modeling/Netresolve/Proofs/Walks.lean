/-
Which paths the walks of `lib/socket.c` visit.

A walk over a block that holds some records visits these, if none of them has family zero
itself; over a response without paths it follows a NULL pointer.  The block a run leaves behind
is that of the paths in its trace, so the condition is one on the run: a path was added, none
was added with family zero, and for the functions that need `priv->query` the application has
been called, which for these queries is `connect_prepare` or `listen_callback`.
-/
import Netresolve.Core.Walk
import Netresolve.Core.Socket
import Netresolve.Proofs.Loose
import Netresolve.Proofs.Paths
import Netresolve.Proofs.Timers

namespace Netresolve.Sentinel

/-! ### The walk -/

/-- A walk over records that are followed by a cleared one. -/
theorem walk_cleared (paths rest : List Path) (hpaths : ∀ p ∈ paths, p.family ≠ 0) :
    walk (paths ++ Path.zero :: rest) = some paths := by
  induction paths with
  | nil => rfl
  | cons p paths ih =>
      rw [List.cons_append, walk, if_neg (hpaths p List.mem_cons_self),
        ih fun q hq => hpaths q (List.mem_cons_of_mem _ hq)]
      rfl

/-- A record with family zero is never visited. -/
theorem walk_family (cells : List Path) : ∀ {visited : List Path}, walk cells = some visited →
    ∀ p ∈ visited, p.family ≠ 0 := by
  induction cells with
  | nil => exact fun h => by cases h
  | cons q rest ih =>
      intro visited h p hp
      rw [walk] at h
      split at h
      · injection h with h
        rw [← h] at hp
        cases hp
      · next hq =>
          obtain ⟨later, hlater, rfl⟩ := Option.map_eq_some_iff.mp h
          rcases List.mem_cons.mp hp with rfl | hp
          · exact hq
          · exact ih hlater p hp

theorem walk_takeWhile (cells : List Path) : ∀ {visited : List Path}, walk cells = some visited →
    (cells.map (·.family)).takeWhile (· ≠ 0) = visited.map (·.family) := by
  induction cells with
  | nil => exact fun h => by cases h
  | cons q rest ih =>
      intro visited h
      rw [walk] at h
      split at h
      · next hq =>
          injection h with h
          rw [← h]
          simp [hq]
      · next hq =>
          obtain ⟨later, hlater, rfl⟩ := Option.map_eq_some_iff.mp h
          simp only [List.map_cons]
          rw [List.takeWhile_cons_of_pos (by simpa using hq), ih hlater]

/-- The machine of `Core/Socket.lean` starts with the paths that are visited. -/
theorem walk_initial {cells visited : List Path} (sequential : Bool)
    (h : walk cells = some visited) :
    (Connect.initial (cells.map (·.family)) sequential).now.paths.map (·.family) =
      visited.map (·.family) := by
  show (((cells.map (·.family)).takeWhile (· ≠ 0)).map fun family =>
    ({ family := family } : Connect.Path)).map (·.family) = _
  rw [List.map_map, walk_takeWhile cells h]
  exact List.map_id _

/-! ### The block of a run -/

/-- The block of a trace holds its paths. -/
structure Holding (past : List Obs) (r : PathArray) : Prop where
  holds : r.Holds r.paths
  empty : (∀ i p, Obs.path i p ∉ past) → r.cells = []
  full : (∃ i p, Obs.path i p ∈ past) → r.paths ≠ []
  family : (∃ p ∈ r.paths, p.family = 0) ↔ ∃ i p, Obs.path i p ∈ past ∧ p.family = 0

theorem Holding.other {past : List Obs} {r : PathArray} {o : Obs} (h : Holding past r)
    (ho : ∀ i path, o ≠ .path i path) : Holding (o :: past) r := by
  have hmem : ∀ i p, Obs.path i p ∈ o :: past ↔ Obs.path i p ∈ past := by
    intro i p
    rw [List.mem_cons]
    exact ⟨fun hp => hp.resolve_left fun hc => ho i p hc.symm, Or.inr⟩
  constructor
  · exact h.holds
  · simpa only [hmem] using h.empty
  · simpa only [hmem] using h.full
  · simpa only [hmem] using h.family

theorem Holding.path {past : List Obs} {r r' : PathArray} {env : Env} {fresh : Nat → Nat → Path}
    {path : Path} (h : Holding past r) (i : Nat)
    (hadd : r.addPath env (fun _ => env.reachable) fresh path = some r') :
    Holding (.path i path :: past) r' := by
  obtain ⟨r'', hr'', hholds⟩ := h.holds.addPath env (fun _ => env.reachable) fresh path
  obtain rfl : r'' = r' := Option.some.inj (hr''.symm.trans hadd)
  have hpaths := hholds.paths
  rw [← hpaths] at hholds
  have hmem : ∀ p, p ∈ r''.paths ↔
      p = checkedPath env (fun _ => env.reachable) r.paths.length path ∨ p ∈ r.paths := by
    intro p
    rw [hpaths]
    exact List.mem_orderedInsert _
  refine ⟨hholds, fun hnone => absurd List.mem_cons_self (hnone i path), fun _ => ?_, ?_⟩
  · exact List.ne_nil_of_mem ((hmem _).mpr (Or.inl rfl))
  · constructor
    · rintro ⟨p, hp, hzero⟩
      rcases (hmem p).mp hp with rfl | hp
      · rw [checkedPath_family] at hzero
        exact ⟨i, path, List.mem_cons_self, hzero⟩
      · obtain ⟨j, q, hq, hzero'⟩ := h.family.mp ⟨p, hp, hzero⟩
        exact ⟨j, q, List.mem_cons_of_mem _ hq, hzero'⟩
    · rintro ⟨j, q, hq, hzero⟩
      rcases List.mem_cons.mp hq with heq | hq
      · injection heq with _ heq
        refine ⟨_, (hmem _).mpr (Or.inl rfl), ?_⟩
        rw [checkedPath_family, ← heq]
        exact hzero
      · obtain ⟨p, hp, hzero'⟩ := h.family.mpr ⟨j, q, hq, hzero⟩
        exact ⟨p, (hmem p).mpr (Or.inr hp), hzero'⟩

theorem Block.holding {past : List Obs} {r : PathArray} (h : Block past r) : Holding past r := by
  induction h with
  | new =>
      refine ⟨⟨rfl, rfl, fun hne => absurd rfl hne⟩, fun _ => rfl, ?_, ?_⟩
      · rintro ⟨i, p, hp⟩
        cases hp
      · constructor
        · rintro ⟨p, hp, -⟩
          cases hp
        · rintro ⟨i, p, hp, -⟩
          cases hp
  | path env fresh i path _ hadd ih => exact ih.path i hadd
  | other ho _ ih => exact ih.other ho

/-- The block and the list of the core hold the same records. -/
def Kept (s : St) : Prop :=
  ∃ r, Block s.trace r ∧ r.Holds (s.query.response.paths.map (·.value))

theorem Kept.other {s s' : St} {o : Obs} (h : Kept s) (ho : ∀ i path, o ≠ .path i path)
    (htrace : s'.trace = o :: s.trace)
    (hpaths : s'.query.response.paths = s.query.response.paths) : Kept s' := by
  obtain ⟨r, hblock, hholds⟩ := h
  refine ⟨r, ?_, ?_⟩
  · rw [htrace]
    exact .other ho hblock
  · rw [hpaths]
    exact hholds

theorem answer_paths (env : Env) (call : Call) (q : Query) :
    (call.answer env q).paths = q.response.paths := by
  unfold Call.answer
  split
  · rfl
  · split <;> rfl
  · rfl
  · rfl
  · rfl

theorem kept_invariant (env : Env) : Invariant env Kept where
  frame hf h := by
    unfold Kept
    rw [hf.response, hf.trace]
    exact h
  entered state h := h.other (by simp) rfl rfl
  reported _ h := h.other (by simp) rfl rfl
  answered {s call} _ h := h.other (by simp) rfl (answer_paths env call s.query)
  stored {s} path h := by
    obtain ⟨r, hblock, hholds⟩ := h
    obtain ⟨r', hadd, hholds'⟩ := hholds.addPath env (fun _ => env.reachable) (fun _ _ => path) path
    refine ⟨r', .path env _ _ path hblock hadd, ?_⟩
    show r'.Holds ((insertPath _ _ _).map _)
    rw [insertPath_values]
    exact hholds'
  warned := by
    intro s h
    rcases warned_cases s with hw | hw
    · rw [hw]
      exact h
    · rw [hw]
      exact h.other (by simp) rfl rfl
  called := by
    intro s h
    unfold St.called
    split
    · exact h.other (by simp) rfl rfl
    · exact h
  moved _ h := h
  setUp _ h := h.other (by simp) rfl rfl

/-! ### The statement -/

/-- A path was added and none was added with family zero. -/
structure Terminated (trace : List Obs) : Prop where
  some : ∃ i p, Obs.path i p ∈ trace
  family : ∀ i p, Obs.path i p ∈ trace → p.family ≠ 0

theorem walk_iff {past : List Obs} {r : PathArray} (h : Holding past r) :
    walk r.cells = some r.paths ↔ Terminated past := by
  constructor
  · intro hwalk
    refine ⟨?_, fun i p hp hzero => ?_⟩
    · by_contra hnone
      push Not at hnone
      rw [h.empty hnone] at hwalk
      cases hwalk
    · obtain ⟨q, hq, hzero'⟩ := h.family.mpr ⟨i, p, hp, hzero⟩
      exact walk_family r.cells hwalk q hq hzero'
  · intro ht
    have hcleared := h.holds.zero (h.full ht.some)
    have hrest : r.cells.drop r.pathcount = Path.zero :: r.cells.drop (r.pathcount + 1) := by
      obtain ⟨hlt, hget⟩ := List.getElem?_eq_some_iff.mp hcleared
      rw [List.drop_eq_getElem_cons hlt, hget]
    rw [h.holds.cells, hrest]
    refine walk_cleared _ _ fun p hp hzero => ?_
    obtain ⟨i, q, hq, hzero'⟩ := h.family.mp ⟨p, hp, hzero⟩
    exact ht.family i q hq hzero'

open Classical in
/--
**At any time of any run, a function of `lib/socket.c` visits exactly the paths of the response
if and only if a path was added, none with family zero, and the application has been called if
the function needs `priv->query`.**
-/
theorem walks_visit_paths_iff {s₀ s : St} (hnew : s₀.toLocal.New) (hrun : Anyhow s₀ s) :
    ∃ r, Block s.trace r ∧ r.Holds (s.query.response.paths.map (·.value)) ∧
      ∀ w : Walker, w.visits ⟨r, decide (CalledBack s.trace)⟩ = some r.paths ↔
        Terminated s.trace ∧ (w.viaPriv = true → CalledBack s.trace) := by
  have hinitial : Kept s₀ := by
    refine ⟨{}, ?_, ?_⟩
    · rw [hnew.trace]
      exact .new
    · rw [hnew.response]
      exact ⟨rfl, rfl, fun hne => absurd rfl hne⟩
  obtain ⟨r, hblock, hholds⟩ := Invariant.anyhow kept_invariant hnew hinitial hrun
  refine ⟨r, hblock, hholds, fun w => ?_⟩
  unfold Walker.visits Session.walkPriv Session.walkQuery
  rw [← walk_iff hblock.holding]
  by_cases hpriv : w.viaPriv = true
  · rw [if_pos hpriv]
    by_cases hcalled : CalledBack s.trace
    · simp [hcalled]
    · simp [hcalled, hpriv]
  · simp [hpriv]

/-- The backend knows one address. -/
def knowsAddress : Env := { setup := fun _ => [.addPath oneAddress, .finished] }

open Classical in
/-- The connection is freed after a resolution that found an address. -/
theorem walks_visit_paths_iff_one : ∃ s r, Anyhow oneBackend s ∧ Block s.trace r ∧ r.paths ≠ [] ∧
    Walker.connectFree.visits ⟨r, decide (CalledBack s.trace)⟩ = some r.paths := by
  obtain ⟨s, hplay, htrace⟩ := peek_some (show peek (·.trace) (play knowsAddress [1]) oneBackend =
    some [.callback .done 1 { paths := [⟨{ onePath with reachable := true }, 0⟩] },
      .enter .done 0 { paths := [⟨{ onePath with reachable := true }, 0⟩] },
      .enter .resolved 0 { paths := [⟨{ onePath with reachable := true }, 0⟩] },
      .report 0 .finished, .path 0 onePath, .report 0 (.addPath oneAddress), .enter .setup 0 {}]
    by decide +kernel)
  have hrun : Anyhow oneBackend s := Or.inl (.play trivial (fun _ _ => trivial) hplay)
  have hterminated : Terminated s.trace := by
    rw [htrace]
    refine ⟨⟨0, onePath, by simp⟩, fun i p hp => ?_⟩
    obtain ⟨rfl, rfl⟩ : i = 0 ∧ p = onePath := by simpa using hp
    decide
  have hcalled : CalledBack s.trace := by
    rw [htrace]
    exact ⟨_, _, _, List.mem_cons_self⟩
  obtain ⟨r, hblock, hholds, hvisits⟩ := walks_visit_paths_iff oneBackend_fresh.toNew hrun
  exact ⟨s, r, hrun, hblock, hblock.holding.full hterminated.some,
    (hvisits .connectFree).mpr ⟨hterminated, fun _ => hcalled⟩⟩

/-- A resolution that fails. -/
def knowsNothing : Env := { setup := fun _ => [.failed] }

open Classical in
/-- The resolution ends without a path, and `connect_prepare` follows a NULL pointer. -/
theorem connect_prepare_without_paths : ¬ ∀ (s₀ s : St) (r : PathArray) (w : Walker),
    s₀.toLocal.New → Anyhow s₀ s → Block s.trace r → CalledBack s.trace →
      w.visits ⟨r, decide (CalledBack s.trace)⟩ = some r.paths := by
  intro h
  obtain ⟨s, hplay, htrace⟩ := peek_some (show peek (·.trace) (play knowsNothing []) oneBackend =
    some [.callback .failed 1 {}, .enter .failed 0 {}, .enter .error 0 {}, .report 0 .failed,
      .enter .setup 0 {}] by decide +kernel)
  have hrun : Anyhow oneBackend s := Or.inl (.play trivial (fun _ _ => trivial) hplay)
  have hblock : Block s.trace {} := by
    rw [htrace]
    exact .other (by simp) (.other (by simp) (.other (by simp) (.other (by simp)
      (.other (by simp) .new))))
  have hcalled : CalledBack s.trace := by
    rw [htrace]
    exact ⟨_, _, _, List.mem_cons_self⟩
  have hvisits := h oneBackend s {} .connectPrepare oneBackend_fresh.toNew hrun hblock hcalled
  cases hvisits

end Netresolve.Sentinel
