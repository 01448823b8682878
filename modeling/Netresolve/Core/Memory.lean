/-
Queries that are freed.

The functions of `lib/query.c` and `lib/backend.c` once more, over a memory in which the
application's callback calls `netresolve_query_free` on its query.  `live` holds the queries of
the context that have not been freed.  Whatever reads or writes the query goes through
`touch`, which stops the run when the query is no longer there; everything between two calls
of the application is the code of `Core/Report.lean` and `Core/Query.lean`.

Only the functions that may call the application, or are called by one that may, have to be
written down again, with each of their accesses to the query.

Two of the functions of `lib/compat.c` that create a query go on with it when `netresolve_query` has
returned.  In blocking mode that is after the events up to the end of the query.
-/
import Netresolve.Core.Run
import Mathlib.Data.Finset.Basic

namespace Netresolve.Memory

/-- A query with its surroundings, and the queries that exist. -/
structure Mem where
  st : St
  live : Finset Nat

inductive Crash where
  | fault (e : Fault)
  | useAfterFree
  deriving DecidableEq, Repr

abbrev L := EStateM Crash Mem

/-- The query exists. -/
def Mem.alive (m : Mem) : Prop := m.st.query.id ∈ m.live

instance (m : Mem) : Decidable m.alive := inferInstanceAs (Decidable (_ ∈ _))

/-- Code that works on the query and does not call the application. -/
def touch {α : Type} (x : M α) : L α := fun m =>
  if m.alive then
    match x m.st with
    | .ok a s => .ok a { m with st := s }
    | .error e s => .error (.fault e) { m with st := s }
  else .error .useAfterFree m

/-- `if (query->callback) query->callback(...)`, where the application frees the query. -/
def invokeCallback (env : Env) : L Unit := do
  if (← touch get).query.callback then do
    touch Netresolve.invokeCallback
    touch (queryFree env)
    modify fun m => { m with live := m.live.erase m.st.query.id }

/-- `if (query->state == ...)`. -/
def whenState (state : QueryState) (x : L Unit) : L Unit := do
  if (← touch get).query.state = state then x

section

variable (env : Env) (setState : QueryState → L Unit)

/-! ### Calls of the backends -/

/-- `add_path`. -/
def addPath (path : Path) : L Unit := do
  touch (storePath env path)
  whenState .waiting (setState .waitingMore)

/-- `netresolve_backend_add_path`. -/
def backendAddPath (a : PathArgs) : L Unit := do
  forM (pathsOf env.services (← touch get).query.request a) (addPath env setState)

/-- `netresolve_backend_new_priv`. -/
def backendNewPriv (allocated : Bool) : L Unit := do
  touch (allocPriv allocated)
  if allocated then pure () else setState .error

/-- One call made by a backend. -/
def runCall (call : Call) : L Unit := do
  touch (do observe (.report (← get).query.cursor call))
  match call with
  | .addPath a => backendAddPath env setState a
  | .setCanonicalName name => touch (backendSetCanonicalName name)
  | .addNameInfo nodename => touch (backendAddNameInfo env nodename)
  | .setDnsAnswer answer => touch (backendSetDnsAnswer answer)
  | .setSecure => touch backendSetSecure
  | .newPriv allocated => backendNewPriv setState allocated
  | .watchAdd fd => touch (callWatchAdd env fd)
  | .watchRemove k doClose => touch (callWatchRemove env k doClose)
  | .finished => setState .resolved
  | .failed => setState .error

/-- The calls of one setup or dispatch function, in order. -/
def runCalls (calls : List Call) : L Unit := forM calls (runCall env setState)

/-! ### Entering a state -/

/-- `case NETRESOLVE_STATE_SETUP` up to the setup function, with whether there is one. -/
def beginSetup : M Bool := do
  match ← currentBackend with
  | none => throw .nullDeref
  | some backend => do
      modifyQuery fun q => { q with request := { q.request with
        protocol := if q.request.dnsSrvLookup ∧ q.request.protocol = 0 then IPPROTO_TCP
          else q.request.protocol } }
      let q := (← get).query
      let present := backend.setup q.request.type
      modifyBackend fun b => { b with history := .setup q.id present :: b.history }
      pure present

/-- `case NETRESOLVE_STATE_SETUP`. -/
def enterSetup : L Unit := do
  if ← touch beginSetup then do
    runCalls env setState (env.setup (← touch get).query.cursor)
    whenState .setup (do
      setState (if (← touch get).query.request.requestTimeout ≠ 0 then .waiting else .failed))
    whenState .error (setState .failed)
  else setState .failed

/-- `case NETRESOLVE_STATE_WAITING_MORE`. -/
def enterWaitingMore : L Unit := do
  (if (← touch get).query.request.resultTimeout = 0 then setState .done else pure ())
  touch (do if (← get).query.request.resultTimeout > 0 then
    Netresolve.setTimeout env .resultTimeout)

/-- `case NETRESOLVE_STATE_DONE`. -/
def enterDone : L Unit := do
  (if ← touch (leaveDone env) then setState .setup else pure ())
  invokeCallback env

/-- `case NETRESOLVE_STATE_FAILED`. -/
def enterFailed : L Unit := do
  if ← touch (leaveFailed env) then setState .setup else invokeCallback env

/-- The `switch` of `netresolve_query_set_state`. -/
def enterState (old : QueryState) : QueryState → L Unit
  | .none => touch enterNone
  | .setup => enterSetup env setState
  | .waiting => touch (enterWaiting env)
  | .waitingMore => enterWaitingMore env setState
  | .resolved => touch (enterResolved env old)
  | .done => enterDone env setState
  | .error => pure ()
  | .failed => enterFailed env setState

end

/-- `netresolve_query_set_state`, nested at most as deep as the fuel allows. -/
def setState (env : Env) : Nat → QueryState → L Unit
  | 0, _ => touch (throw .fuel)
  | fuel + 1, state => do
      let old := (← touch get).query.state
      if state = old then pure ()
      else do
        touch (do
          modifyQuery fun q => { q with state := state }
          let q := (← get).query
          observe (.enter state q.cursor q.response))
        enterState env (setState env fuel) old state

/-- `netresolve_query_set_state` as it is called from outside. -/
def querySetState (env : Env) (state : QueryState) : L Unit := do
  setState env (nesting (← get).st) state

/-! ### Events -/

/-- `dispatch_timeout`. -/
def dispatchTimeout (env : Env) (t : Timer) (state : QueryState) : L Unit := do
  if ((← touch get).query.timeout t).isNone then throw (.fault (.assertion .dispatchTimeout))
  else do
    touch (clearTimeout env t)
    querySetState env state

/-- `dispatch_request_timeout`. -/
def dispatchRequestTimeout (env : Env) : L Unit := do
  let state := (← touch get).query.state
  if state = .waiting ∨ state = .waitingMore then
    dispatchTimeout env .requestTimeout .failed
  else throw (.fault (.assertion .dispatchRequestTimeout))

/-- `dispatch_result_timeout`. -/
def dispatchResultTimeout (env : Env) : L Unit := do
  if (← touch get).query.state = .waitingMore then dispatchTimeout env .resultTimeout .done
  else throw (.fault (.assertion .dispatchResultTimeout))

/-- `dispatch_delayed`. -/
def dispatchDelayed (env : Env) : L Unit := do
  if (← touch get).query.state = .resolved then dispatchTimeout env .delayed .done
  else throw (.fault (.assertion .dispatchDelayed))

/-- `watch->callback(...)`. -/
def watchCallback (env : Env) : WatchCallback → L Unit
  | .backend i => runCalls env (querySetState env) (env.dispatch i)
  | .timeout .delayed => dispatchDelayed env
  | .timeout .requestTimeout => dispatchRequestTimeout env
  | .timeout .resultTimeout => dispatchResultTimeout env

/-- `netresolve_query_dispatch`. -/
def queryDispatch (env : Env) (w : Nat) : L Unit := do
  match (← touch get).query.watches.find? (·.id = w) with
  | none => throw (.fault .dangling)
  | some watch => do
      watchCallback env watch.callback
      whenState .resolved (querySetState env .done)
      whenState .error (querySetState env .failed)

/-- `netresolve_query`, from the test for an empty list in `netresolve_query_new` on. -/
def queryStart (env : Env) : L Unit := do
  if (← touch get).backends.isEmpty then throw (.fault .abort)
  else querySetState env .setup

/-! ### Functions that create a query -/

/--
The functions of the library that create a query.  `query` stands for `netresolve_query` and those
that do nothing else; `netresolve_query_getaddrinfo` has `AI_CANONNAME` among its flags or not, and
`netresolve_query_gethostbyaddr` accepts IPv4 addresses only.
-/
inductive Creation where
  | query
  | getaddrinfo (canonname : Bool)
  | gethostbyaddr (address : List UInt8)
  deriving DecidableEq, Repr

/-- `free(query->response.nodename)` and `strdup("")`. -/
def emptyNodename : M Unit :=
  modifyQuery fun q => { q with response := { q.response with nodename := some ⟨"", q.cursor⟩ } }

/-- What the function does with the query that `netresolve_query` has returned. -/
def Creation.finish (env : Env) : Creation → L Unit
  | .query => pure ()
  | .getaddrinfo canonname => if canonname then pure () else touch emptyNodename
  | .gethostbyaddr address =>
      backendAddPath env (querySetState env) { family := AF_INET, address }

/-- The function up to its end, or up to the wait in `netresolve_query`. -/
def create (env : Env) (creation : Creation) (blocking : Bool) : L Unit := do
  queryStart env
  if blocking then pure () else creation.finish env

/-! ### Runs -/

/--
What others do between two events of a query: they use the context and the private data of the
backends, and come and go.
-/
structure Mem.Others (m m' : Mem) : Prop where
  query : m'.st.query = m.st.query
  shape : m'.st.backends.map (fun b => (b.mandatory, b.setup)) =
    m.st.backends.map fun b => (b.mandatory, b.setup)
  alive : m'.alive ↔ m.alive

/--
The memory between two events of a query, when the start satisfies `P₀` and the events
satisfy `P`.  An event is the dispatch of one of the watches of the query.
-/
inductive Lived (P₀ : Env → Creation → Bool → St → Prop) (P : Env → St → Nat → Prop) (m₀ : Mem) :
    Mem → Prop
  | start (env : Env) (creation : Creation) (blocking : Bool) {m : Mem}
      (hP : P₀ env creation blocking m₀.st) (h : create env creation blocking m₀ = .ok () m) :
      Lived P₀ P m₀ m
  | step (env : Env) (w : Nat) {m m' : Mem} (h : Lived P₀ P m₀ m) (hP : P env m.st w)
      (hw : ∃ x ∈ m.st.query.watches, x.id = w) (hstep : queryDispatch env w m = .ok () m') :
      Lived P₀ P m₀ m'
  | others {m m' : Mem} (h : Lived P₀ P m₀ m) (ho : m.Others m') : Lived P₀ P m₀ m'

/-- The start of a query and the dispatch of the given watches, all in one environment. -/
def play (env : Env) (ws : List Nat) : L Unit := do
  queryStart env
  forM ws (queryDispatch env)

end Netresolve.Memory
