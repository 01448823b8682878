/-
Several queries on one context.

The queries of a context share its counters and its loop, and an event is an event of
one of them.  Each query comes with entries of the backend list of its own here: this
is what it means that the backends keep no data shared between queries, as the private
data of an entry is the only thing queries could share.
-/
import Netresolve.Core.Run

namespace Netresolve

/-- A context with its queries. -/
structure Net where
  queries : List Local
  context : Context

/-- A query of the context as its own functions see it. -/
def Net.view (net : Net) (l : Local) : St := { toLocal := l, context := net.context }

/-- The numbers of the watches of a query. -/
def Local.watchIds (l : Local) : List Nat := l.query.watches.map (·.id)

/--
What can happen to a context between two events: a query is created, a watch of a
query is dispatched, or a query is freed, finished or not.
-/
inductive NetStep : Net → Net → Prop
  | create {net : Net} (env : Env) {l : Local} {s : St} (hnew : l.New)
      (hresult : l.query.request.resultTimeout ≠ 0) (henv : env.WellBehaved)
      (h : queryStart env (net.view l) = .ok () s) :
      NetStep net ⟨net.queries ++ [s.toLocal], s.context⟩
  | dispatch {net : Net} {before after : List Local} {env : Env} {l : Local} {w : Nat} {s : St}
      (hl : net.queries = before ++ l :: after) (henv : env.WellBehaved)
      (hw : ∃ x ∈ l.query.watches, x.id = w) (h : queryDispatch env w (net.view l) = .ok () s) :
      NetStep net ⟨before ++ s.toLocal :: after, s.context⟩
  | free {net : Net} {before after : List Local} {env : Env} {l : Local} {s : St}
      (hl : net.queries = before ++ l :: after) (h : queryFree env (net.view l) = .ok () s) :
      NetStep net ⟨before ++ after, s.context⟩

/-- What a context without queries can come to. -/
inductive NetReachable : Net → Prop
  | init : NetReachable ⟨[], {}⟩
  | step {net net' : Net} (h : NetReachable net) (hstep : NetStep net net') : NetReachable net'

end Netresolve
