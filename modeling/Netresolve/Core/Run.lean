/-
Runs of one query.

A run starts with `netresolve_query` on a fresh query and goes on with the dispatch of
one of the watches the query has at that moment.  Which watch comes next, and what
the backends and the operating system do then, is up to the environment of the
event, so a run is a run against every order of events.

Backends are taken to behave as their interface asks: a backend calls the library
only from its setup function and from the dispatch of its watches, which is how
`runCalls` is used, and it adds watches only once it has private data to remember
them in, which its cleanup function then removes.  `keepsWatches` is that second
condition, on the list of calls of one function.
-/
import Netresolve.Core.Query

namespace Netresolve

/--
The calls add no watch without private data and obtain private data at most once.
The flag tells whether the backend has its private data already.
-/
def keepsWatches : Bool → List Call → Bool
  | _, [] => true
  | has, .watchAdd _ :: rest => has && keepsWatches has rest
  | has, .newPriv allocated :: rest => !has && keepsWatches allocated rest
  | has, _ :: rest => keepsWatches has rest

/-- Every setup and dispatch function of the environment is one of a well-behaved backend. -/
structure Env.WellBehaved (env : Env) : Prop where
  setup : ∀ i, keepsWatches false (env.setup i) = true
  dispatch : ∀ i, keepsWatches true (env.dispatch i) = true

/-- No system call fails. -/
structure Env.Reliable (env : Env) : Prop where
  timerfd : ∀ n, env.timerfd n = true
  eventfd : ∀ n, env.eventfd n = true
  epollAdd : ∀ w, env.epollAdd w = true
  epollDel : ∀ w, env.epollDel w = true

/--
The calls add a path that is accepted before they report an outcome: in state WAITING
this is what makes the query enter WAITING_MORE.
-/
def pathFirst (services : List Service) (request : Request) : List Call → Bool
  | [] => false
  | .addPath a :: rest =>
      !(pathsOf services request a).isEmpty || pathFirst services request rest
  | .finished :: _ | .failed :: _ => false
  | _ :: rest => pathFirst services request rest

/-- A query as `netresolve_query_new` makes it, on backends that are not in use. -/
structure Local.New (l : Local) : Prop where
  state : l.query.state = .none
  cursor : l.query.cursor = 0
  watches : l.query.watches = []
  nfds : l.query.nfds = 0
  timeout : ∀ t, l.query.timeout t = none
  response : l.query.response = {}
  trace : l.trace = []
  data : ∀ b ∈ l.backends, b.data = none

/-- A new query on a context whose counters are right. -/
structure Fresh (s : St) : Prop extends s.toLocal.New where
  loop : s.context.loop.count = s.context.nfds
  registered : s.context.nfds = s.context.loop.registered.length

/-- One event: a watch of the query is dispatched, in an environment that is allowed then. -/
def Step (P : St → Env → Nat → Prop) (s s' : St) : Prop :=
  ∃ env w, P s env w ∧ (∃ x ∈ s.query.watches, x.id = w) ∧ queryDispatch env w s = .ok () s'

/--
The states between two events of a run that starts from `s₀`, when the environment of
the start satisfies `P₀` and those of the events satisfy `P`.
-/
inductive Reachable (P₀ : Env → Prop) (P : St → Env → Nat → Prop) (s₀ : St) : St → Prop
  | start (env : Env) {s : St} (hP : P₀ env) (h : queryStart env s₀ = .ok () s) :
      Reachable P₀ P s₀ s
  | step {s s' : St} (h : Reachable P₀ P s₀ s) (hstep : Step P s s') : Reachable P₀ P s₀ s'

/-- Where such a run stops, in the middle of the start or of an event. -/
inductive Stopped (P₀ : Env → Prop) (P : St → Env → Nat → Prop) (s₀ : St) : St → Prop
  | start {env : Env} {e : Fault} {s : St} (hP : P₀ env) (h : queryStart env s₀ = .error e s) :
      Stopped P₀ P s₀ s
  | step {s s' : St} {env : Env} {w : Nat} {e : Fault} (h : Reachable P₀ P s₀ s) (hP : P s env w)
      (hw : ∃ x ∈ s.query.watches, x.id = w) (herr : queryDispatch env w s = .error e s') :
      Stopped P₀ P s₀ s'

/-- The start of a query and the dispatch of the given watches, all in one environment. -/
def play (env : Env) (ws : List Nat) : M Unit := do
  queryStart env
  forM ws (queryDispatch env)

/-- Events with well-behaved backends. -/
def Orderly (_ : St) (env : Env) (_ : Nat) : Prop := env.WellBehaved

/--
Events with well-behaved backends that do not end the query in the middle of a
dispatch function: with a result timeout of zero, no path is accepted in state WAITING
before the backend reports an outcome.
-/
structure Tame (s : St) (env : Env) (w : Nat) : Prop where
  orderly : Orderly s env w
  path : s.query.request.resultTimeout ≠ 0 ∨ s.query.state ≠ .waiting ∨
    pathFirst env.services s.query.request (env.dispatch s.query.cursor) = false

end Netresolve
