/-
The state machine of a query: `lib/query.c`.

`netresolve_query_set_state` calls itself, directly and through the backends it
sets up.  Each state it can enter is a function of its own here, which gets the
state change for its nested calls as an argument; `setState` ties the knot with a
fuel that bounds the nesting.  The fuel `querySetState` gives it is never used up,
see `Proofs/Fuel.lean`.
-/
import Netresolve.Core.Report

namespace Netresolve

/-! ### Leaving a backend -/

/-- `backend->cleanup(backend->data)`: the backend removes the watches it remembers. -/
def backendCleanup (env : Env) (data : Option Block) : M Unit := do
  let q := (← get).query.id
  modifyBackend fun b => { b with history := .cleanup q (data.map (·.id)) :: b.history }
  match data with
  | none => pure ()
  | some block =>
      if block.query = q then forM block.watches (watchRemove env · false)
      else throw .foreign

/-- `cleanup_query`. -/
def cleanupQuery (env : Env) : M Unit := do
  let backend ← currentBackend
  clearTimeout env .delayed
  clearTimeout env .requestTimeout
  clearTimeout env .resultTimeout
  match backend with
  | none => pure ()
  | some b => do
      (if b.cleanup then backendCleanup env b.data else pure ())
      modifyBackend fun b => { b with data := none }
      modifyQuery fun q => { q with priv := none }

/-- `*++query->backend`. -/
def nextBackend : M (Option Backend) := do
  modifyQuery fun q => { q with cursor := q.cursor + 1 }
  currentBackend

/-- `if (query->callback) query->callback(query, query->user_data)`. -/
def invokeCallback : M Unit := do
  let q := (← get).query
  if q.callback then observe (.callback q.state q.cursor q.response)

/-- `if (query->state == ...)`. -/
def whenState (state : QueryState) (x : M Unit) : M Unit := do
  if (← get).query.state = state then x

/-! ### Entering a state -/

section

variable (env : Env) (setState : QueryState → M Unit)

/-- `case NETRESOLVE_STATE_NONE`. -/
def enterNone : M Unit :=
  modifyQuery fun q => { q with response := {} }

/-- `case NETRESOLVE_STATE_SETUP`. -/
def enterSetup : M Unit := do
  match ← currentBackend with
  | none => throw .nullDeref
  | some backend => do
      modifyQuery fun q => { q with request := { q.request with
        protocol := if q.request.dnsSrvLookup ∧ q.request.protocol = 0 then IPPROTO_TCP
          else q.request.protocol } }
      let q := (← get).query
      let present := backend.setup q.request.type
      modifyBackend fun b => { b with history := .setup q.id present :: b.history }
      if present then do
        runCalls env setState (env.setup q.cursor)
        whenState .setup (do
          setState (if (← get).query.request.requestTimeout ≠ 0 then .waiting else .failed))
        whenState .error (setState .failed)
      else setState .failed

/-- `case NETRESOLVE_STATE_WAITING`. -/
def enterWaiting : M Unit := do
  if (← get).query.request.requestTimeout > 0 then Netresolve.setTimeout env .requestTimeout

/-- `case NETRESOLVE_STATE_WAITING_MORE`. -/
def enterWaitingMore : M Unit := do
  let q := (← get).query
  (if q.request.resultTimeout = 0 then setState .done else pure ())
  if (← get).query.request.resultTimeout > 0 then Netresolve.setTimeout env .resultTimeout

/-- `eventfd(1, EFD_NONBLOCK)`, aborting on failure. -/
def openEventfd : M Unit := do
  let n := (← get).context.next
  if env.eventfd n then
    modifyContext fun c => { c with next := c.next + 1, opened := .core n :: c.opened }
  else throw .abort

/-- `case NETRESOLVE_STATE_RESOLVED`: the event descriptor is opened and never used. -/
def enterResolved (old : QueryState) : M Unit :=
  if old = .setup then do
    openEventfd env
    Netresolve.setTimeout env .delayed
  else pure ()

/--
The loop of `case NETRESOLVE_STATE_DONE`: where `*++query->backend` comes to stand, with
whether it is a mandatory backend or the NULL terminator.
-/
def nextMandatory : List Backend → Nat → Nat × Bool
  | [], i => (i, false)
  | b :: rest, i => if b.mandatory then (i, true) else nextMandatory rest (i + 1)

/-- `case NETRESOLVE_STATE_DONE` up to the backend to restart with, if there is one. -/
def leaveDone : M Bool := do
  cleanupQuery env
  let s ← get
  if s.query.cursor < s.backends.length then do
    let next := nextMandatory (s.backends.drop (s.query.cursor + 1)) (s.query.cursor + 1)
    modifyQuery fun q => { q with cursor := next.1 }
    pure next.2
  else do
    modifyQuery fun q => { q with cursor := q.cursor + 1 }
    throw .outOfBounds

/-- `case NETRESOLVE_STATE_DONE`. -/
def enterDone : M Unit := do
  let found ← leaveDone env
  (if found then setState .setup else pure ())
  invokeCallback

/-- `case NETRESOLVE_STATE_FAILED` up to the backend to restart with, if there is one. -/
def leaveFailed : M Bool := do
  let response := (← get).query.response
  (if response.paths ≠ [] then observe (.error "Failed reply has data.") else pure ())
  cleanupQuery env
  let backend ← nextBackend
  pure backend.isSome

/-- `case NETRESOLVE_STATE_FAILED`. -/
def enterFailed : M Unit := do
  let found ← leaveFailed env
  if found then setState .setup else invokeCallback

/-- The `switch` of `netresolve_query_set_state`. -/
def enterState (old : QueryState) : QueryState → M Unit
  | .none => enterNone
  | .setup => enterSetup env setState
  | .waiting => enterWaiting env
  | .waitingMore => enterWaitingMore env setState
  | .resolved => enterResolved env old
  | .done => enterDone env setState
  | .error => pure ()
  | .failed => enterFailed env setState

end

/-- `netresolve_query_set_state`, nested at most as deep as the fuel allows. -/
def setState (env : Env) : Nat → QueryState → M Unit
  | 0, _ => throw .fuel
  | fuel + 1, state => do
      let old := (← get).query.state
      if state = old then pure ()
      else do
        modifyQuery fun q => { q with state := state }
        let q := (← get).query
        observe (.enter state q.cursor q.response)
        enterState env (setState env fuel) old state

/-- Three levels for every backend of the list, and three to spare. -/
def nesting (s : St) : Nat := 3 * s.backends.length + 3

/-- `netresolve_query_set_state` as it is called from outside. -/
def querySetState (env : Env) (state : QueryState) : M Unit := do
  setState env (nesting (← get)) state

/-! ### Events -/

/-- `dispatch_timeout`. -/
def dispatchTimeout (env : Env) (t : Timer) (state : QueryState) : M Unit := do
  if ((← get).query.timeout t).isNone then throw (.assertion .dispatchTimeout)
  else do
    clearTimeout env t
    querySetState env state

/-- `dispatch_request_timeout`. -/
def dispatchRequestTimeout (env : Env) : M Unit := do
  let state := (← get).query.state
  if state = .waiting ∨ state = .waitingMore then
    dispatchTimeout env .requestTimeout .failed
  else throw (.assertion .dispatchRequestTimeout)

/-- `dispatch_result_timeout`. -/
def dispatchResultTimeout (env : Env) : M Unit := do
  if (← get).query.state = .waitingMore then dispatchTimeout env .resultTimeout .done
  else throw (.assertion .dispatchResultTimeout)

/-- `dispatch_delayed`. -/
def dispatchDelayed (env : Env) : M Unit := do
  if (← get).query.state = .resolved then dispatchTimeout env .delayed .done
  else throw (.assertion .dispatchDelayed)

/-- `watch->callback(...)`. -/
def watchCallback (env : Env) : WatchCallback → M Unit
  | .backend i => runCalls env (querySetState env) (env.dispatch i)
  | .timeout .delayed => dispatchDelayed env
  | .timeout .requestTimeout => dispatchRequestTimeout env
  | .timeout .resultTimeout => dispatchResultTimeout env

/-- `netresolve_query_dispatch`. -/
def queryDispatch (env : Env) (w : Nat) : M Unit := do
  match (← get).query.watches.find? (·.id = w) with
  | none => throw .dangling
  | some watch => do
      watchCallback env watch.callback
      whenState .resolved (querySetState env .done)
      whenState .error (querySetState env .failed)

/-- `netresolve_query`, from the test for an empty list in `netresolve_query_new` on. -/
def queryStart (env : Env) : M Unit := do
  if (← get).backends.isEmpty then throw .abort
  else querySetState env .setup

/-- `netresolve_query_get_secure`, of the response at that moment. -/
def queryGetSecure (response : Response) : Bool := response.security == .secure

/-- `netresolve_query_free`. -/
def queryFree (env : Env) : M Unit := do
  cleanupQuery env
  querySetState env .none
  let q := (← get).query
  if q.nfds = 0 ∧ q.watches = [] then pure ()
  else throw (.assertion .queryFree)

end Netresolve
