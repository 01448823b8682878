/-
What the core makes of a dispatch function.

While a backend is waiting, its dispatch function adds paths, sets the security of the
response and reports.  With a result timeout other than zero none of this makes the query
leave the backend before the function returns, so what the core has then can be read off the
list of calls: the paths it stored, in the order of the calls, and the last report.
-/
import Netresolve.Proofs.Leave
import Netresolve.Proofs.Paths

namespace Netresolve

open Outcome

/-! ### Reading a list of calls -/

/-- The arguments of a call that adds a path. -/
def Call.path? : Call → Option PathArgs
  | .addPath args => some args
  | _ => none

/-- The report made last, or the one from before. -/
def lastReport (before : Option Call) (calls : List Call) : Option Call :=
  calls.foldl (fun last call => if call.reports then some call else last) before

/-- The records of the calls, put into a list of paths. -/
def storedPaths (env : Env) (origin : Nat) (request : Request) (calls : List Call)
    (paths : List (Sourced Path)) : List (Sourced Path) :=
  ((calls.filterMap Call.path?).flatMap (pathsOf env.services request)).foldl
    (fun paths path => insertPath env.sort ⟨checkReachability env path, origin⟩ paths) paths

theorem insertPath_perm (sort : Bool) (path : Sourced Path) (paths : List (Sourced Path)) :
    (insertPath sort path paths).Perm (path :: paths) := by
  induction paths with
  | nil => exact List.Perm.refl _
  | cons p rest ih =>
      rw [insertPath]
      split
      · exact List.Perm.refl _
      · exact (ih.cons p).trans (List.Perm.swap path p rest)

theorem storedPaths_perm (env : Env) (origin : Nat) (request : Request) (calls : List Call)
    (paths : List (Sourced Path)) :
    (storedPaths env origin request calls paths).Perm (paths ++
      ((calls.filterMap Call.path?).flatMap (pathsOf env.services request)).map
        fun path => ⟨checkReachability env path, origin⟩) := by
  unfold storedPaths
  generalize (calls.filterMap Call.path?).flatMap (pathsOf env.services request) = new
  induction new generalizing paths with
  | nil => simp
  | cons path rest ih =>
      rw [List.foldl_cons, List.map_cons]
      refine (ih _).trans (((insertPath_perm _ _ paths).append_right _).trans ?_)
      exact List.perm_middle.symm

/-- The states of a query while the dispatch function of its backend runs. -/
def QueryState.attending : QueryState → Bool
  | .waiting | .waitingMore | .resolved | .error => true
  | _ => false

/-- The report that brings a query to the state. -/
def QueryState.report : QueryState → Option Call
  | .resolved => some .finished
  | .error => some .failed
  | _ => Option.none

/-! ### One call -/

/-- The calls have been made. -/
structure Heard (env : Env) (calls : List Call) (s s' : St) : Prop where
  cursor : s'.query.cursor = s.query.cursor
  request : s'.query.request = s.query.request
  attending : s'.query.state.attending = true
  report : s'.query.state.report = lastReport s.query.state.report calls
  paths : s'.query.response.paths =
    storedPaths env s.query.cursor s.query.request calls s.query.response.paths
  security : s'.query.response.security =
    if .setSecure ∈ calls then .secure else s.query.response.security

theorem Heard.trans {env : Env} {calls more : List Call} {s s' s'' : St}
    (h : Heard env calls s s') (h' : Heard env more s' s'') : Heard env (calls ++ more) s s'' where
  cursor := h'.cursor.trans h.cursor
  request := h'.request.trans h.request
  attending := h'.attending
  report := by
    rw [h'.report, h.report]
    exact List.foldl_append.symm
  paths := by
    rw [h'.paths, h.paths, h.cursor, h.request]
    unfold storedPaths
    rw [List.filterMap_append, List.flatMap_append, List.foldl_append]
  security := by
    rw [h'.security, h.security]
    by_cases hmore : Call.setSecure ∈ more
    · rw [if_pos hmore, if_pos (List.mem_append_right _ hmore)]
    · rw [if_neg hmore]
      simp only [List.mem_append, hmore, or_false]

/-- A call that neither adds a path nor reports nor sets the security. -/
theorem heard_other {env : Env} {call : Call} {s s' : St}
    (hcall : call.path? = none ∧ call.reports = false ∧ call ≠ .setSecure)
    (hs : s.query.state.attending = true) (hstate : s'.query.state = s.query.state)
    (hcursor : s'.query.cursor = s.query.cursor) (hrequest : s'.query.request = s.query.request)
    (hpaths : s'.query.response.paths = s.query.response.paths)
    (hsecurity : s'.query.response.security = s.query.response.security) :
    Heard env [call] s s' where
  cursor := hcursor
  request := hrequest
  attending := by rw [hstate]; exact hs
  report := by
    rw [hstate]
    simp [lastReport, hcall.2.1]
  paths := by
    rw [hpaths]
    simp [storedPaths, hcall.1]
  security := by
    rw [hsecurity, if_neg]
    exact fun hmem => hcall.2.2 (List.mem_singleton.mp hmem).symm

variable {env : Env} {s : St}

/-! ### The state changes -/

theorem sat_querySetState (state : QueryState) (s : St) (Q : Unit → St → Prop)
    (E : Fault → St → Prop) : Sat (querySetState env state) s Q E ↔
      (state = s.query.state → Q () s) ∧ (state ≠ s.query.state →
        Sat (enterState env (setState env (3 * s.backends.length + 2)) s.query.state state)
          (s.entered state) Q E) := by
  simp only [querySetState, nesting, sat_bind, sat_get]
  rw [show 3 * s.backends.length + 3 = (3 * s.backends.length + 2) + 1 from rfl, setState]
  simp only [sat_bind, sat_get, sat_ite, sat_pure, modifyQuery, observe, sat_modify]
  exact Iff.rfl

/-- The first path: the query enters WAITING_MORE, and maybe sets a timer. -/
theorem enter_waitingMore (hs : s.query.state = .waiting)
    (hresult : s.query.request.resultTimeout ≠ 0) :
    Sat (querySetState env .waitingMore) s (fun _ => Frame (s.entered .waitingMore))
      (fun _ _ => True) := by
  rw [sat_querySetState, hs]
  refine ⟨QueryState.noConfusion, fun _ => ?_⟩
  simp only [enterState, enterWaitingMore, sat_bind, sat_get]
  rw [if_neg (show ¬ (s.entered .waitingMore).query.request.resultTimeout = 0 from hresult)]
  simp only [sat_pure]
  exact (keeps_armResultTimeout (s.entered .waitingMore)).mono (fun _ _ h => h) (fun _ _ _ => trivial)

theorem enter_resolved (hs : s.query.state.attending = true) :
    Sat (querySetState env .resolved) s (fun _ s' => s' = s.toResolved) (fun _ _ => True) := by
  rw [sat_querySetState]
  unfold St.toResolved
  refine ⟨fun h => (if_pos h.symm).symm, fun h => ?_⟩
  have hsetup : s.query.state ≠ .setup := by
    intro hc
    rw [hc] at hs
    cases hs
  simp only [enterState, enterResolved, if_neg hsetup, sat_pure]
  exact (if_neg fun hc => h hc.symm).symm

theorem enter_error (s : St) :
    Sat (querySetState env .error) s (fun _ s' => s' = s.toError) (fun _ _ => True) := by
  rw [sat_querySetState]
  unfold St.toError
  refine ⟨fun h => (if_pos h.symm).symm, fun h => ?_⟩
  simp only [enterState, sat_pure]
  exact (if_neg fun hc => h hc.symm).symm

/-! ### All calls -/

/-- Records have been stored. -/
structure Stocked (env : Env) (paths : List Path) (s s' : St) : Prop where
  cursor : s'.query.cursor = s.query.cursor
  request : s'.query.request = s.query.request
  attending : s'.query.state.attending = true
  report : s'.query.state.report = s.query.state.report
  response : s'.query.response = { s.query.response with
    paths := paths.foldl (fun stored path =>
      insertPath env.sort ⟨checkReachability env path, s.query.cursor⟩ stored)
      s.query.response.paths }

theorem addPath_stocked (hs : s.query.state.attending = true)
    (hresult : s.query.request.resultTimeout ≠ 0) (path : Path) :
    Sat (addPath env (querySetState env) path) s (fun _ => Stocked env [path] s) (fun _ _ => True) := by
  simp only [addPath, storePath, observe, modifyQuery, sat_bind, sat_get, sat_modify, sat_ite,
    sat_pure]
  refine ⟨fun hw => ?_, fun _ => ⟨rfl, rfl, hs, rfl, rfl⟩⟩
  refine (enter_waitingMore (s := s.stored env path) hw hresult).mono (fun _ s' hf => ?_) (fun _ _ he => he)
  refine ⟨hf.cursor, hf.request, ?_, ?_, hf.response⟩
  · rw [hf.state]
    rfl
  · rw [hf.state, show s.query.state = .waiting from hw]
    rfl

theorem addPaths_stocked (paths : List Path) : ∀ {s : St}, s.query.state.attending = true →
    s.query.request.resultTimeout ≠ 0 →
    Sat (forM paths (addPath env (querySetState env))) s (fun _ => Stocked env paths s)
      (fun _ _ => True) := by
  induction paths with
  | nil => exact fun hs _ => ⟨rfl, rfl, hs, rfl, rfl⟩
  | cons path rest ih =>
      intro s hs hresult
      rw [List.forM_cons, sat_bind]
      refine (addPath_stocked hs hresult path).mono (fun _ s₁ h₁ => ?_) (fun _ _ he => he)
      refine (ih h₁.attending (by rw [h₁.request]; exact hresult)).mono (fun _ s₂ h₂ => ?_)
        (fun _ _ he => he)
      refine ⟨h₂.cursor.trans h₁.cursor, h₂.request.trans h₁.request, h₂.attending,
        h₂.report.trans h₁.report, ?_⟩
      rw [h₂.response, h₁.response, h₁.cursor]
      rfl

theorem runCall_heard (hs : s.query.state.attending = true)
    (hresult : s.query.request.resultTimeout ≠ 0) {call : Call}
    (hcall : ∀ allocated, call ≠ .newPriv allocated) :
    Sat (runCall env (querySetState env) call) s (fun _ => Heard env [call] s) (fun _ _ => True) := by
  by_cases hdata : call.data
  · rw [sat_data _ hdata]
    cases call with
    | setSecure =>
        exact ⟨rfl, rfl, hs, rfl, rfl, by rw [if_pos (List.mem_singleton.mpr rfl)]; rfl⟩
    | setCanonicalName name =>
        exact heard_other ⟨rfl, rfl, Call.noConfusion⟩ hs rfl rfl rfl rfl rfl
    | addNameInfo nodename =>
        refine heard_other ⟨rfl, rfl, Call.noConfusion⟩ hs rfl rfl rfl ?_ ?_
        · show (Call.answer env (.addNameInfo nodename) s.query).paths = _
          simp only [Call.answer]
          split <;> rfl
        · show (Call.answer env (.addNameInfo nodename) s.query).security = _
          simp only [Call.answer]
          split <;> rfl
    | setDnsAnswer answer =>
        exact heard_other ⟨rfl, rfl, Call.noConfusion⟩ hs rfl rfl rfl rfl rfl
    | _ => simp [Call.data] at hdata
  · have hframe : ∀ {s'}, call.path? = none ∧ call.reports = false ∧ call ≠ .setSecure →
        Frame (s.reported call) s' → Heard env [call] s s' := fun hother hf =>
      heard_other hother hs hf.state hf.cursor hf.request
        (congrArg Response.paths hf.response) (congrArg Response.security hf.response)
    cases call with
    | newPriv allocated => exact absurd rfl (hcall allocated)
    | addPath a =>
        simp only [runCall, backendAddPath, observe, sat_bind, sat_get, sat_modify]
        refine (addPaths_stocked (s := s.reported (.addPath a)) _ hs hresult).mono
          (fun _ s' h => ?_) (fun _ _ he => he)
        refine ⟨h.cursor, h.request, h.attending, h.report, ?_, ?_⟩
        · rw [h.response]
          simp [storedPaths, Call.path?, St.reported]
        · rw [h.response, if_neg (by simp)]
          rfl
    | watchAdd fd =>
        simp only [runCall, observe, sat_bind, sat_get, sat_modify]
        exact (keeps_callWatchAdd env fd _).mono (fun _ _ hf => hframe ⟨rfl, rfl, Call.noConfusion⟩ hf)
          (fun _ _ _ => trivial)
    | watchRemove k doClose =>
        simp only [runCall, observe, sat_bind, sat_get, sat_modify]
        exact (keeps_callWatchRemove env k doClose _).mono
          (fun _ _ hf => hframe ⟨rfl, rfl, Call.noConfusion⟩ hf) (fun _ _ _ => trivial)
    | finished =>
        simp only [runCall, observe, sat_bind, sat_get, sat_modify]
        refine (enter_resolved (s := s.reported .finished) hs).mono (fun _ s' h => ?_)
          (fun _ _ he => he)
        subst h
        unfold St.toResolved
        split
        · next hstate => exact ⟨rfl, rfl, hs, congrArg QueryState.report hstate, rfl, rfl⟩
        · exact ⟨rfl, rfl, rfl, rfl, rfl, rfl⟩
    | failed =>
        simp only [runCall, observe, sat_bind, sat_get, sat_modify]
        refine (enter_error (s.reported .failed)).mono (fun _ s' h => ?_) (fun _ _ he => he)
        subst h
        unfold St.toError
        split
        · next hstate => exact ⟨rfl, rfl, hs, congrArg QueryState.report hstate, rfl, rfl⟩
        · exact ⟨rfl, rfl, rfl, rfl, rfl, rfl⟩
    | _ => simp [Call.data] at hdata

/-- **What a dispatch function leaves the query with is what it called.** -/
theorem runCalls_heard (calls : List Call) : ∀ {s : St}, s.query.state.attending = true →
    s.query.request.resultTimeout ≠ 0 → (∀ call ∈ calls, ∀ allocated, call ≠ .newPriv allocated) →
    Sat (runCalls env (querySetState env) calls) s (fun _ => Heard env calls s)
      (fun _ _ => True) := by
  induction calls with
  | nil => exact fun hs _ _ => ⟨rfl, rfl, hs, rfl, rfl, rfl⟩
  | cons call rest ih =>
      intro s hs hresult hcalls
      unfold runCalls
      rw [List.forM_cons, sat_bind]
      refine (runCall_heard hs hresult (hcalls call List.mem_cons_self)).mono (fun _ s₁ h₁ => ?_)
        (fun _ _ he => he)
      refine (ih h₁.attending (by rw [h₁.request]; exact hresult)
        fun c hc => hcalls c (List.mem_cons_of_mem call hc)).mono (fun _ s₂ h₂ => ?_) (fun _ _ he => he)
      exact h₁.trans h₂

end Netresolve
