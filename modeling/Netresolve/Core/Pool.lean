/-
Queries that share the entries of the backend list.

`Core/Net.lean` gives every query entries of its own.  In the source the entries belong
to the context: the private data of a backend and its cleanup function are fields of
`struct netresolve_backend`, which all queries of the context point into.  A `Pool` is a
context with its queries and the one list of entries.  Which query acts next, and how, is
open; what is asked of a step is a `Rule` over the pool before it.
-/
import Netresolve.Core.Course
import Netresolve.Core.Run
import Netresolve.Library.Outcome

namespace Netresolve

/-- A query with its trace. -/
structure Party where
  query : Query
  trace : List Obs := []

/-- A context with its queries and its backends. -/
structure Pool where
  queries : List Party
  backends : List Backend
  context : Context := {}

/-- A query of the pool as its own functions see it. -/
def Pool.view (pool : Pool) (p : Party) : St :=
  { query := p.query, backends := pool.backends, trace := p.trace, context := pool.context }

def St.party (s : St) : Party := ⟨s.query, s.trace⟩

/-- What an application or its event loop makes a query do. -/
inductive Action where
  | start
  | dispatch (w : Nat)
  | free
  deriving DecidableEq, Repr

def Action.run (env : Env) : Action → M Unit
  | .start => queryStart env
  | .dispatch w => queryDispatch env w
  | .free => queryFree env

/-- What is left of the query. -/
def Action.leaves : Action → Party → List Party
  | .free, _ => []
  | _, p => [p]

/-- A query as `netresolve_query_new` makes it. -/
structure Query.New (q : Query) : Prop where
  state : q.state = .none
  cursor : q.cursor = 0
  watches : q.watches = []
  nfds : q.nfds = 0
  timeout : ∀ t, q.timeout t = none
  response : q.response = {}
  priv : q.priv = none

/-- The query `p`, which is new or stands between `before` and `after`, can act. -/
inductive Turn (pool : Pool) : Action → List Party → Party → List Party → Prop
  | start {p : Party} (hnew : p.query.New) (htrace : p.trace = [])
      (hid : ∀ o ∈ pool.queries, o.query.id ≠ p.query.id) : Turn pool .start pool.queries p []
  | dispatch {w : Nat} {before after : List Party} {p : Party}
      (hp : pool.queries = before ++ p :: after) (hw : ∃ x ∈ p.query.watches, x.id = w) :
      Turn pool (.dispatch w) before p after
  | free {before after : List Party} {p : Party} (hp : pool.queries = before ++ p :: after) :
      Turn pool .free before p after

/-- A condition on a step of `p` next to the queries `others`. -/
abbrev Rule := Pool → Env → Action → List Party → Party → Prop

/-- A step that returns. -/
inductive PoolStep (C : Rule) (pool : Pool) : List Party → Pool → Prop
  | mk {env : Env} {action : Action} {before after : List Party} {p : Party} {s : St}
      (hturn : Turn pool action before p after) (hC : C pool env action (before ++ after) p)
      (hok : action.run env (pool.view p) = .ok () s) :
      PoolStep C pool (before ++ after)
        ⟨before ++ action.leaves s.party ++ after, s.backends, s.context⟩

/-- A step that stops, with the fault and the state it stops in. -/
inductive PoolStops (C : Rule) (pool : Pool) : Fault → St → Prop
  | mk {env : Env} {action : Action} {before after : List Party} {p : Party} {e : Fault} {s : St}
      (hturn : Turn pool action before p after) (hC : C pool env action (before ++ after) p)
      (herr : action.run env (pool.view p) = .error e s) : PoolStops C pool e s

/-- What a pool can come to by steps that keep to the rule. -/
inductive PoolReachable (C : Rule) (pool₀ : Pool) : Pool → Prop
  | init : PoolReachable C pool₀ pool₀
  | step {pool pool' : Pool} {others : List Party} (h : PoolReachable C pool₀ pool)
      (hstep : PoolStep C pool others pool') : PoolReachable C pool₀ pool'

/-- A context that has not run a query yet. -/
structure Pool.Unused (pool : Pool) : Prop where
  queries : pool.queries = []
  backends : ∀ b ∈ pool.backends, b.data = none ∧ b.cleanup = false ∧ b.history = []

/-! ### Rules -/

/-- How far the action takes the query. -/
def Action.course (env : Env) (s : St) : Action → Course
  | .start => s.course.change env s.backends .setup
  | .dispatch w =>
      match s.query.watches.find? (·.id = w) with
      | none => s.course
      | some x => s.course.dispatch env s.backends x.callback
  | .free => { s.course with state := .none }

/-- The action sets up the backend at position `j`. -/
def SetsUp (env : Env) (action : Action) (s : St) (j : Nat) : Prop :=
  j ∈ (action.course env s).setUps

instance (env : Env) (action : Action) (s : St) (j : Nat) : Decidable (SetsUp env action s j) :=
  inferInstanceAs (Decidable (_ ∈ _))

/--
Backends behave, and no query is set up on a backend on which another one stands with
private data, or without any if the set-up is to obtain some.
-/
structure Apart (pool : Pool) (env : Env) (action : Action) (others : List Party) (p : Party) :
    Prop where
  behaved : env.WellBehaved
  apart : ∀ j, SetsUp env action (pool.view p) j → ∀ o ∈ others, o.query.cursor = j →
    o.query.priv = none ∧ .newPriv true ∉ env.setup j

/--
The set-up of the backend `b` at position `j` obtains private data, or there is no cleanup
function, neither from before nor from this set-up.
-/
def Obtains (env : Env) (type : RequestType) (j : Nat) (b : Backend) : Prop :=
  b.setup type = true ∧ .newPriv true ∈ env.setup j ∨
  b.cleanup = false ∧ (b.setup type = true → ∀ allocated, .newPriv allocated ∉ env.setup j)

/-- The query is over: its cursor is on the terminator of the list. -/
def Pool.Ended (pool : Pool) (p : Party) : Prop := pool.backends.length ≤ p.query.cursor

instance (pool : Pool) (p : Party) : Decidable (pool.Ended p) :=
  inferInstanceAs (Decidable (_ ≤ _))

/-- Backends behave. -/
def Behaved (_ : Pool) (env : Env) (_ : Action) (_ : List Party) (_ : Party) : Prop :=
  env.WellBehaved

/-- One query after another: only a query that is over may be left, to be freed later. -/
structure Lone (pool : Pool) (env : Env) (action : Action) (others : List Party) (p : Party) :
    Prop where
  behaved : env.WellBehaved
  alone : (∀ o ∈ others, pool.Ended o) ∨ action = .free ∧ pool.Ended p

/-- Every set-up next to a cleanup function obtains data. -/
structure Serial (pool : Pool) (env : Env) (action : Action) (others : List Party) (p : Party) :
    Prop extends Lone pool env action others p where
  obtains : ∀ j b, SetsUp env action (pool.view p) j → pool.backends[j]? = some b →
    Obtains env p.query.request.type j b

/-! ### Histories -/

/-- One step of a run: the pool before it, whose step it is, and the pool after it. -/
structure Moment where
  pool : Pool
  env : Env
  action : Action
  party : Party
  after : Pool

/-- The steps by which a pool has come from another one, the oldest first.  No rule is kept. -/
inductive PoolHistory (pool₀ : Pool) : List Moment → Pool → Prop
  | init : PoolHistory pool₀ [] pool₀
  | step {ms : List Moment} {pool pool' : Pool} {env : Env} {action : Action}
      {before after : List Party} {p : Party} {s : St} (h : PoolHistory pool₀ ms pool)
      (hturn : Turn pool action before p after)
      (hok : action.run env (pool.view p) = .ok () s)
      (hpool : pool' = ⟨before ++ action.leaves s.party ++ after, s.backends, s.context⟩) :
      PoolHistory pool₀ (ms ++ [⟨pool, env, action, p, pool'⟩]) pool'

/-- The core opens the descriptor in this step, and does not close it. -/
def Moment.Opens (m : Moment) (fd : Fd) : Prop :=
  fd ∈ m.after.context.opened ∧ fd ∉ m.pool.context.opened

/-! ### Playing a run -/

/-- The pool after the start of a query, which has to return. -/
def Pool.started (env : Env) (p : Party) (pool : Pool) : Pool :=
  let s := Outcome.final (queryStart env) (pool.view p)
  ⟨pool.queries ++ [s.party], s.backends, s.context⟩

/-- How the start of a query stops, if it does. -/
def Pool.fault (env : Env) (p : Party) (pool : Pool) : Option Fault :=
  match queryStart env (pool.view p) with
  | .ok _ _ => none
  | .error e _ => some e

end Netresolve
