/-
One induction over nested state changes.

`netresolve_query_set_state` calls itself through the backends, so whatever is to be
shown of it has to be shown of all nesting depths at once.  This is done here once.
A proof about the state machine says what holds at each stage of a query (`Stages`), and
`Sound` lists what has to be shown, one field for each thing the code does between two
state changes.  In return every event leads from rest to rest.

All stages are told how many calls of the application callback are owed: entering DONE calls it only after the restart it may cause has returned.
-/
import Netresolve.Proofs.Frame

namespace Netresolve

open Outcome

/-! ### The states between two state changes -/

/-- Which function of the backend is running. -/
inductive Phase where
  | setup | dispatch
  deriving DecidableEq, Repr

/-- `netresolve_query_set_state` up to its `switch`. -/
def St.entered (s : St) (state : QueryState) : St :=
  { s with
    query := { s.query with state := state }
    trace := .enter state s.query.cursor s.query.response :: s.trace }

/-- After entering ERROR, which does nothing else. -/
def St.toError (s : St) : St := if s.query.state = .error then s else s.entered .error

/-- A backend makes a call. -/
def St.reported (s : St) (call : Call) : St :=
  { s with trace := .report s.query.cursor call :: s.trace }

/-- After `case NETRESOLVE_STATE_SETUP` up to the setup function. -/
def St.setUp (s : St) (backend : Backend) : St :=
  let request := { s.query.request with
    protocol := if s.query.request.dnsSrvLookup ∧ s.query.request.protocol = 0 then IPPROTO_TCP
      else s.query.request.protocol }
  { s.entered .setup with
    query := { (s.entered .setup).query with request := request }
    backends := s.backends.modify s.query.cursor fun b =>
      { b with history := .setup s.query.id (backend.setup request.type) :: b.history } }

/-- After the application callback, if there is one. -/
def St.called (s : St) : St :=
  if s.query.callback then
    { s with trace := .callback s.query.state s.query.cursor s.query.response :: s.trace }
  else s

/-- After a record went into the response. -/
def St.stored (env : Env) (s : St) (path : Path) : St :=
  { s with
    query := { s.query with response := { s.query.response with
      paths := insertPath env.sort ⟨checkReachability env path, s.query.cursor⟩
        s.query.response.paths } }
    trace := .path s.query.cursor path :: s.trace }

/-- The calls that never change the state of the query. -/
def Call.quiet : Call → Bool
  | .setCanonicalName _ | .addNameInfo _ | .setDnsAnswer _ | .setSecure => true
  | .watchAdd _ | .watchRemove _ _ => true
  | _ => false

/-- The states in which the dispatch function of a timer accepts to run. -/
def Timer.due : Timer → QueryState → Bool
  | .delayed, .resolved => true
  | .requestTimeout, .waiting | .requestTimeout, .waitingMore => true
  | .resultTimeout, .waitingMore => true
  | _, _ => false

/-- The assertion its dispatch function starts with. -/
def Timer.assertion : Timer → Assertion
  | .delayed => .dispatchDelayed
  | .requestTimeout => .dispatchRequestTimeout
  | .resultTimeout => .dispatchResultTimeout

/-- The dispatch function of a timer up to the state change. -/
def expire (env : Env) (t : Timer) : M Unit := do
  let s ← get
  if t.due s.query.state then
    if (s.query.timeout t).isNone then throw (.assertion .dispatchTimeout)
    else clearTimeout env t
  else throw (.assertion t.assertion)

/-! ### What a proof has to supply -/

/--
What holds of a query about to set a backend up, of one whose backend is running and
has the given calls still to make, of one whose backend is about to end in DONE or
FAILED, and of one that waits for its next event.  `bold` is what a backend may rely
on when it adds a path that is accepted, with the calls that follow.
-/
structure Stages where
  ready : Nat → St → Prop
  run : Nat → Phase → List Call → St → Prop
  fin : Nat → QueryState → St → Prop
  rest : Nat → St → Prop
  bold : Nat → List Call → St → Prop

/-- The second test of `case NETRESOLVE_STATE_WAITING_MORE`. -/
def armResultTimeout (env : Env) : M Unit := do
  if (← get).query.request.resultTimeout > 0 then setTimeout env .resultTimeout

section

variable (env : Env) (E : Fault → St → Prop) (P : Stages)

/-- What holds of the code between two state changes. -/
structure Sound : Prop where
  fuel : ∀ s, E .fuel s
  setUp : ∀ k s, P.ready k s → s.query.state ≠ .setup ∧
    ∃ backend, s.backends[s.query.cursor]? = some backend ∧
      (backend.setup s.query.request.type = true →
        P.run k .setup (env.setup s.query.cursor) (s.setUp backend)) ∧
      (backend.setup s.query.request.type = false → P.fin k .failed (s.setUp backend))
  waiting : ∀ k s, P.run k .setup [] s → s.query.state = .setup →
    s.query.request.requestTimeout ≠ 0 →
    Sat (enterWaiting env) (s.entered .waiting) (fun _ => P.rest k) E
  impatient : ∀ k s, P.run k .setup [] s → s.query.state = .setup →
    s.query.request.requestTimeout = 0 → P.fin k .failed s
  finished : ∀ k ph rest s, P.run k ph (.finished :: rest) s →
    (s.query.state = .resolved → P.run k ph rest (s.reported .finished)) ∧
    (s.query.state ≠ .resolved →
      Sat (enterResolved env s.query.state) ((s.reported .finished).entered .resolved)
        (fun _ => P.run k ph rest) E)
  failed : ∀ k ph rest s, P.run k ph (.failed :: rest) s →
    P.run k ph rest (s.reported .failed).toError
  alloc : ∀ k ph rest s allocated, P.run k ph (.newPriv allocated :: rest) s →
    Sat (allocPriv allocated) (s.reported (.newPriv allocated))
      (fun _ s' => P.run k ph rest (if allocated then s' else s'.toError)) E
  quiet : ∀ k ph rest s call, call.quiet → P.run k ph (call :: rest) s →
    Sat (runCall env (fun _ => pure ()) call) s (fun _ => P.run k ph rest) E
  addPath : ∀ k ph rest s a, P.run k ph (.addPath a :: rest) s →
    P.run k ph rest (s.reported (.addPath a)) ∧
      (pathsOf env.services s.query.request a ≠ [] → P.bold k rest (s.reported (.addPath a)))
  store : ∀ k ph rest s path, P.run k ph rest s → P.bold k rest s →
    P.run k ph rest (s.stored env path) ∧ P.bold k rest (s.stored env path)
  more : ∀ k ph rest s, P.run k ph rest s → P.bold k rest s → s.query.state = .waiting →
    s.query.request.resultTimeout ≠ 0 →
    Sat (armResultTimeout env) (s.entered .waitingMore)
      (fun _ s' => P.run k ph rest s' ∧ P.bold k rest s') E
  zero : ∀ k ph rest s, P.run k ph rest s → P.bold k rest s → s.query.state = .waiting →
    s.query.request.resultTimeout = 0 → P.fin k .done (s.entered .waitingMore) ∧
    ∀ s', P.rest k s' → Sat (armResultTimeout env) s'
      (fun _ s'' => P.run k ph rest s'' ∧ P.bold k rest s'') E
  done : ∀ k s, P.fin k .done s →
    (s.query.state = .done → P.rest k s) ∧ (s.query.state ≠ .done →
    Sat (leaveDone env) (s.entered .done)
      (fun found s' => if found then P.ready (k + 1) s' else P.rest k s'.called) E)
  leave : ∀ k s, P.fin k .failed s →
    (s.query.state = .failed → P.rest k s) ∧ (s.query.state ≠ .failed →
    Sat (leaveFailed env) (s.entered .failed)
      (fun found s' => if found then P.ready k s' else P.rest k s'.called) E)
  called : ∀ k s, P.rest (k + 1) s → P.rest k s.called
  settled : ∀ k s, P.run k .setup [] s → s.query.state ≠ .setup → s.query.state ≠ .error →
    P.rest k s
  woken : ∀ k s, P.run k .dispatch [] s → s.query.state ≠ .resolved → s.query.state ≠ .error →
    P.rest k s
  succeeded : ∀ k s, P.run k .dispatch [] s → s.query.state = .resolved → P.fin k .done s
  broken : ∀ k ph s, P.run k ph [] s ∨ P.rest k s → s.query.state = .error → P.fin k .failed s

/-- What `netresolve_query_set_state` does for each state it is asked to enter. -/
structure Changes (f : QueryState → M Unit) : Prop where
  setup : ∀ k s, P.ready k s → Sat (f .setup) s (fun _ => P.rest k) E
  waiting : ∀ k s, P.run k .setup [] s → s.query.state = .setup →
    s.query.request.requestTimeout ≠ 0 → Sat (f .waiting) s (fun _ => P.rest k) E
  resolved : ∀ k ph rest s, P.run k ph (.finished :: rest) s →
    Sat (f .resolved) (s.reported .finished) (fun _ => P.run k ph rest) E
  error : ∀ k ph rest s, P.run k ph rest s.toError →
    Sat (f .error) s (fun _ => P.run k ph rest) E
  more : ∀ k ph rest s, P.run k ph rest s → P.bold k rest s → s.query.state = .waiting →
    Sat (f .waitingMore) s (fun _ s' => P.run k ph rest s' ∧ P.bold k rest s') E
  done : ∀ k s, P.fin k .done s → Sat (f .done) s (fun _ => P.rest k) E
  failed : ∀ k s, P.fin k .failed s → Sat (f .failed) s (fun _ => P.rest k) E

end

variable {env : Env} {E : Fault → St → Prop} {P : Stages}

/-! ### Running the calls of a backend -/

theorem sat_invokeCallback (s : St) (Q : Unit → St → Prop) :
    Sat invokeCallback s Q E ↔ Q () s.called := by
  simp only [invokeCallback, observe, sat_bind, sat_get, St.called]
  split
  · simp only [sat_modify]
  · simp only [sat_pure]

theorem runCall_quiet (f : QueryState → M Unit) (call : Call) (h : call.quiet) :
    runCall env f call = runCall env (fun _ => pure ()) call := by
  cases call <;> first | rfl | simp [Call.quiet] at h

theorem sat_whenState (state : QueryState) (x : M Unit) (s : St) (Q : Unit → St → Prop) :
    Sat (whenState state x) s Q E ↔
      (s.query.state = state → Sat x s Q E) ∧ (s.query.state ≠ state → Q () s) := by
  simp only [whenState, sat_bind, sat_get, sat_ite, sat_pure, ne_eq]

theorem sat_currentBackend {s : St} {backend : Backend}
    (h : s.backends[s.query.cursor]? = some backend) (Q : Option Backend → St → Prop) :
    Sat currentBackend s Q E ↔ Q (some backend) s := by
  have hle : s.query.cursor ≤ s.backends.length :=
    Nat.le_of_lt (List.getElem?_eq_some_iff.mp h).1
  simp only [currentBackend, sat_bind, sat_get, if_pos hle, sat_pure, h]

/-- The paths of one call, each of which may change the state. -/
theorem Sound.paths (h : Sound env E P) {f : QueryState → M Unit} (hf : Changes E P f) {k : Nat}
    {ph : Phase} {rest : List Call} (paths : List Path) {s : St} (hrun : P.run k ph rest s)
    (hbold : P.bold k rest s) :
    Sat (forM paths (Netresolve.addPath env f)) s (fun _ => P.run k ph rest) E := by
  refine (sat_forM (fun _ s' => P.run k ph rest s' ∧ P.bold k rest s') ?_ paths s ⟨hrun, hbold⟩).mono
    (fun _ _ h' => h'.1) (fun _ _ he => he)
  rintro path _ s' ⟨hrun', hbold'⟩
  have hstore := h.store k ph rest s' path hrun' hbold'
  simp only [Netresolve.addPath, storePath, observe, modifyQuery, sat_bind, sat_get, sat_modify,
    sat_ite, sat_pure]
  exact ⟨fun hw => hf.more k ph rest _ hstore.1 hstore.2 hw, fun _ => hstore⟩

theorem Sound.call (h : Sound env E P) {f : QueryState → M Unit} (hf : Changes E P f) {k : Nat}
    {ph : Phase} {call : Call} {rest : List Call} {s : St} (hrun : P.run k ph (call :: rest) s) :
    Sat (runCall env f call) s (fun _ => P.run k ph rest) E := by
  by_cases hq : call.quiet
  · rw [runCall_quiet f call hq]
    exact h.quiet k ph rest s call hq hrun
  · cases call with
    | addPath a =>
        obtain ⟨hrun', hbold⟩ := h.addPath k ph rest s a hrun
        simp only [runCall, backendAddPath, observe, sat_bind, sat_get, sat_modify]
        by_cases hp : pathsOf env.services s.query.request a = []
        · rw [hp]
          exact hrun'
        · exact h.paths hf _ hrun' (hbold hp)
    | newPriv allocated =>
        simp only [runCall, backendNewPriv, observe, sat_bind, sat_get, sat_modify]
        refine (h.alloc k ph rest s allocated hrun).mono (fun _ s' h' => ?_) (fun _ _ he => he)
        cases allocated with
        | true => exact h'
        | false => exact hf.error k ph rest s' h'
    | finished =>
        simp only [runCall, observe, sat_bind, sat_get, sat_modify]
        exact hf.resolved k ph rest s hrun
    | failed =>
        simp only [runCall, observe, sat_bind, sat_get, sat_modify]
        exact hf.error k ph rest _ (h.failed k ph rest s hrun)
    | _ => simp [Call.quiet] at hq

theorem Sound.calls (h : Sound env E P) {f : QueryState → M Unit} (hf : Changes E P f) {k : Nat}
    {ph : Phase} (calls : List Call) {s : St} (hrun : P.run k ph calls s) :
    Sat (runCalls env f calls) s (fun _ => P.run k ph []) E :=
  sat_forM (P.run k ph) (fun _ _ _ h' => h.call hf h') calls s hrun

/-! ### Entering a state -/

theorem Sound.enterSetup (h : Sound env E P) {f : QueryState → M Unit} (hf : Changes E P f)
    {k : Nat} {s : St} {backend : Backend} (hget : s.backends[s.query.cursor]? = some backend)
    (hrun : backend.setup s.query.request.type = true →
      P.run k .setup (env.setup s.query.cursor) (s.setUp backend))
    (hfin : backend.setup s.query.request.type = false → P.fin k .failed (s.setUp backend)) :
    Sat (Netresolve.enterSetup env f) (s.entered .setup) (fun _ => P.rest k) E := by
  have hget' : (s.entered .setup).backends[(s.entered .setup).query.cursor]? = some backend := hget
  simp only [Netresolve.enterSetup, sat_bind, sat_currentBackend hget']
  simp only [sat_get, sat_bind, modifyQuery, modifyBackend, sat_modify, sat_ite]
  refine ⟨fun (hp : backend.setup s.query.request.type = true) => ?_,
    fun (hp : ¬ backend.setup s.query.request.type = true) => ?_⟩
  · refine (h.calls hf _ (hrun hp)).mono (fun _ s' hrun' => ?_) (fun _ _ he => he)
    simp only [sat_whenState, sat_bind, sat_get]
    refine ⟨fun hs => ?_, fun hs => ⟨fun he => ?_, fun he => h.settled k s' hrun' hs he⟩⟩
    · -- Nothing reported: the query starts to wait, or fails if it may not wait.
      have hrest : Sat (f (if s'.query.request.requestTimeout ≠ 0 then .waiting else .failed)) s'
          (fun _ => P.rest k) E := by
        by_cases ht : s'.query.request.requestTimeout = 0
        · rw [if_neg (not_not.mpr ht)]
          exact hf.failed k s' (h.impatient k s' hrun' hs ht)
        · rw [if_pos ht]
          exact hf.waiting k s' hrun' hs ht
      refine hrest.mono (fun _ s'' h'' => ⟨fun he => ?_, fun _ => h''⟩) (fun _ _ he => he)
      exact hf.failed k s'' (h.broken k .setup s'' (Or.inr h'') he)
    · exact hf.failed k s' (h.broken k .setup s' (Or.inl hrun') he)
  · exact hf.failed k _ (hfin (by simpa using hp))

theorem Sound.enterWaitingMore (h : Sound env E P) {f : QueryState → M Unit}
    (hf : Changes E P f) {k : Nat} {ph : Phase} {rest : List Call} {s : St}
    (hrun : P.run k ph rest s) (hbold : P.bold k rest s) (hw : s.query.state = .waiting) :
    Sat (Netresolve.enterWaitingMore env f) (s.entered .waitingMore)
      (fun _ s' => P.run k ph rest s' ∧ P.bold k rest s') E := by
  show Sat (get >>= fun t => (if t.query.request.resultTimeout = 0 then f .done else pure ()) >>=
    fun _ => armResultTimeout env) _ _ _
  simp only [sat_bind, sat_get]
  by_cases hz : s.query.request.resultTimeout = 0
  · obtain ⟨hfin, hback⟩ := h.zero k ph rest s hrun hbold hw hz
    rw [if_pos (show (s.entered .waitingMore).query.request.resultTimeout = 0 from hz)]
    exact (hf.done k _ hfin).mono (fun _ s' h' => hback s' h') (fun _ _ he => he)
  · rw [if_neg (show ¬ (s.entered .waitingMore).query.request.resultTimeout = 0 from hz), sat_pure]
    exact h.more k ph rest s hrun hbold hw hz

/-! ### All depths of nesting -/

/-- **What holds between two state changes holds of the state machine.** -/
theorem Sound.setState (h : Sound env E P) : ∀ fuel, Changes E P (setState env fuel) := by
  intro fuel
  induction fuel with
  | zero =>
      constructor <;> intros <;> exact h.fuel _
  | succ fuel hf =>
      refine ⟨?_, ?_, ?_, ?_, ?_, ?_, ?_⟩
      · intro k s hready
        obtain ⟨hne, backend, hget, hrun, hfin⟩ := h.setUp k s hready
        simp only [Netresolve.setState, sat_bind, sat_get, if_neg (Ne.symm hne), modifyQuery,
          observe, sat_modify, enterState]
        exact h.enterSetup hf hget hrun hfin
      · intro k s hrun hs ht
        have hne : ¬ QueryState.waiting = s.query.state := by rw [hs]; decide
        simp only [Netresolve.setState, sat_bind, sat_get, if_neg hne, modifyQuery, observe,
          sat_modify, enterState]
        exact h.waiting k s hrun hs ht
      · intro k ph rest s hrun
        obtain ⟨hsame, hnew⟩ := h.finished k ph rest s hrun
        simp only [Netresolve.setState, sat_bind, sat_get, modifyQuery, observe, sat_modify,
          enterState, sat_ite, sat_pure]
        exact ⟨fun he => hsame he.symm, fun hne => hnew (Ne.symm hne)⟩
      · intro k ph rest s hrun
        simp only [Netresolve.setState, sat_bind, sat_get, modifyQuery, observe, sat_modify,
          enterState, sat_ite, sat_pure]
        refine ⟨fun he => ?_, fun hne => ?_⟩
        · rwa [St.toError, if_pos he.symm] at hrun
        · rwa [St.toError, if_neg (Ne.symm hne)] at hrun
      · intro k ph rest s hrun hbold hw
        have hne : ¬ QueryState.waitingMore = s.query.state := by rw [hw]; decide
        simp only [Netresolve.setState, sat_bind, sat_get, if_neg hne, modifyQuery, observe,
          sat_modify, enterState]
        exact h.enterWaitingMore hf hrun hbold hw
      · intro k s hfin
        obtain ⟨hsame, hnew⟩ := h.done k s hfin
        simp only [Netresolve.setState, sat_bind, sat_get, modifyQuery, observe, sat_modify,
          enterState, sat_ite, sat_pure]
        refine ⟨fun he => hsame he.symm, fun hne => ?_⟩
        simp only [enterDone, sat_bind]
        refine (hnew (Ne.symm hne)).mono (fun found s' h' => ?_) (fun _ _ he => he)
        cases found with
        | true =>
            refine (hf.setup (k + 1) s' h').mono (fun _ s'' h'' => ?_) (fun _ _ he => he)
            rw [sat_invokeCallback]
            exact h.called k s'' h''
        | false =>
            simp only [Bool.false_eq_true, if_false, sat_pure, sat_invokeCallback]
            exact h'
      · intro k s hfin
        obtain ⟨hsame, hnew⟩ := h.leave k s hfin
        simp only [Netresolve.setState, sat_bind, sat_get, modifyQuery, observe, sat_modify,
          enterState, sat_ite, sat_pure]
        refine ⟨fun he => hsame he.symm, fun hne => ?_⟩
        simp only [enterFailed, sat_bind]
        refine (hnew (Ne.symm hne)).mono (fun found s' h' => ?_) (fun _ _ he => he)
        cases found with
        | true => exact hf.setup k s' h'
        | false =>
            simp only [Bool.false_eq_true, if_false, sat_invokeCallback]
            exact h'

/-- `netresolve_query_set_state` as it is called from outside. -/
theorem Sound.querySetState (h : Sound env E P) : Changes E P (querySetState env) := by
  have hat : ∀ state s Q, Sat (Netresolve.setState env (nesting s) state) s Q E →
      Sat (Netresolve.querySetState env state) s Q E := by
    intro state s Q hs
    simpa only [Netresolve.querySetState, sat_bind, sat_get] using hs
  exact ⟨fun k s h₁ => hat _ _ _ ((h.setState _).setup k s h₁),
    fun k s h₁ h₂ h₃ => hat _ _ _ ((h.setState _).waiting k s h₁ h₂ h₃),
    fun k ph rest s h₁ => hat _ _ _ ((h.setState _).resolved k ph rest s h₁),
    fun k ph rest s h₁ => hat _ _ _ ((h.setState _).error k ph rest s h₁),
    fun k ph rest s h₁ h₂ h₃ => hat _ _ _ ((h.setState _).more k ph rest s h₁ h₂ h₃),
    fun k s h₁ => hat _ _ _ ((h.setState _).done k s h₁),
    fun k s h₁ => hat _ _ _ ((h.setState _).failed k s h₁)⟩

/-! ### Events -/

/-- The state a timer asks for when it fires. -/
def Timer.next : Timer → QueryState
  | .requestTimeout => .failed
  | _ => .done

theorem due_delayed (state : QueryState) : Timer.delayed.due state ↔ state = .resolved := by
  cases state <;> simp [Timer.due]

theorem due_requestTimeout (state : QueryState) :
    Timer.requestTimeout.due state ↔ state = .waiting ∨ state = .waitingMore := by
  cases state <;> simp [Timer.due]

theorem due_resultTimeout (state : QueryState) :
    Timer.resultTimeout.due state ↔ state = .waitingMore := by
  cases state <;> simp [Timer.due]

theorem sat_timeout (s : St) (t : Timer) (Q : Unit → St → Prop)
    (h : Sat (expire env t) s (fun _ s' => Sat (querySetState env t.next) s' Q E) E) :
    Sat (watchCallback env (.timeout t)) s Q E := by
  cases t <;>
  · simp only [watchCallback, dispatchDelayed, dispatchRequestTimeout, dispatchResultTimeout,
      dispatchTimeout, expire, due_delayed, due_requestTimeout, due_resultTimeout, sat_bind,
      sat_get, sat_ite, sat_throw] at h ⊢
    exact h

/--
What an event has to start from, depending on what its watch calls.  The restart a timer
causes can succeed at once, and `netresolve_query_dispatch` then enters DONE again.
-/
def Wakes (env : Env) (E : Fault → St → Prop) (P : Stages) (s : St) : WatchCallback → Prop
  | .backend i => P.run 0 .dispatch (env.dispatch i) s
  | .timeout t => Sat (expire env t) s (fun _ => P.fin 0 t.next) E ∧
      ∀ s', P.rest 0 s' → s'.query.state = .resolved → P.fin 0 .done s'

/-- The watch an event is for. -/
theorem find_watch {s : St} {w : Nat} (hw : ∃ x ∈ s.query.watches, x.id = w) :
    ∃ x, s.query.watches.find? (·.id = w) = some x ∧ x ∈ s.query.watches ∧ x.id = w := by
  have hfind : (s.query.watches.find? (·.id = w)).isSome := by
    obtain ⟨x, hx, hid⟩ := hw
    exact List.find?_isSome.mpr ⟨x, hx, by simpa using hid⟩
  obtain ⟨x, hx⟩ := Option.isSome_iff_exists.mp hfind
  exact ⟨x, hx, List.mem_of_find?_eq_some hx, by simpa using List.find?_some hx⟩

/-- **Every event leads from rest to rest.** -/
theorem Sound.queryDispatch (h : Sound env E P) {s : St} {w : Nat} {x : Watch}
    (hx : s.query.watches.find? (·.id = w) = some x) (hwake : Wakes env E P s x.callback) :
    Sat (queryDispatch env w) s (fun _ => P.rest 0) E := by
  have hf := h.querySetState
  -- The tests of `netresolve_query_dispatch` once the query is at rest again.
  have htail : ∀ s', P.rest 0 s' → Sat (whenState .error (Netresolve.querySetState env .failed)) s'
      (fun _ => P.rest 0) E := by
    intro s' h'
    rw [sat_whenState]
    exact ⟨fun he => hf.failed 0 s' (h.broken 0 .dispatch s' (Or.inr h') he), fun _ => h'⟩
  simp only [Netresolve.queryDispatch, sat_bind, sat_get, hx]
  cases hcb : x.callback with
  | timeout t =>
      rw [hcb] at hwake
      refine sat_timeout s t _ (Sat.mono hwake.1 (fun _ s₁ h₁ => ?_) (fun _ _ he => he))
      have hnext : Sat (Netresolve.querySetState env t.next) s₁ (fun _ => P.rest 0) E := by
        cases t with
        | requestTimeout => exact hf.failed 0 s₁ h₁
        | delayed => exact hf.done 0 s₁ h₁
        | resultTimeout => exact hf.done 0 s₁ h₁
      refine hnext.mono (fun _ s₂ h₂ => ?_) (fun _ _ he => he)
      rw [sat_whenState]
      refine ⟨fun hr => ?_, fun _ => htail s₂ h₂⟩
      exact (hf.done 0 s₂ (hwake.2 s₂ h₂ hr)).mono (fun _ s₃ h₃ => htail s₃ h₃)
        (fun _ _ he => he)
  | backend i =>
      rw [hcb] at hwake
      refine (h.calls hf _ hwake).mono (fun _ s₁ h₁ => ?_) (fun _ _ he => he)
      simp only [sat_whenState]
      refine ⟨fun hr => ?_, fun hr => ⟨fun he => ?_, fun he => h.woken 0 s₁ h₁ hr he⟩⟩
      · refine (hf.done 0 s₁ (h.succeeded 0 s₁ h₁ hr)).mono (fun _ s₂ h₂ => ?_)
          (fun _ _ he => he)
        exact ⟨fun he => hf.failed 0 s₂ (h.broken 0 .dispatch s₂ (Or.inr h₂) he), fun _ => h₂⟩
      · exact hf.failed 0 s₁ (h.broken 0 .dispatch s₁ (Or.inl h₁) he)

theorem Sound.queryStart (h : Sound env E P) {s : St} (hready : P.ready 0 s) :
    Sat (queryStart env) s (fun _ => P.rest 0) E := by
  obtain ⟨-, backend, hget, -⟩ := h.setUp 0 s hready
  have hne : s.backends.isEmpty = false := by
    cases hb : s.backends with
    | nil => rw [hb] at hget; simp at hget
    | cons b rest => rfl
  simp only [Netresolve.queryStart, sat_bind, sat_get, hne, Bool.false_eq_true, if_false]
  exact h.querySetState.setup 0 s hready

end Netresolve
