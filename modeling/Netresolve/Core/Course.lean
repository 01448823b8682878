/-
How far a step takes a query along its list of backends.

A `Course` is a query without its watches, timers, response and private data.  Where it comes to
stand is told by the calls of the setup and dispatch functions alone, and so are the backends it is
set up on.  The functions lead it through the state changes of `Core/Query.lean`, with every system
call taken to succeed; that a step follows its course is in `Proofs/Courses.lean`.
-/
import Netresolve.Core.Query

namespace Netresolve

/-- The request as `case NETRESOLVE_STATE_SETUP` leaves it. -/
def Request.prepared (r : Request) : Request :=
  { r with protocol := if r.dnsSrvLookup ∧ r.protocol = 0 then IPPROTO_TCP else r.protocol }

/-- The state a call brings the query to, if it reports. -/
def tells : Call → Option QueryState
  | .finished => some .resolved
  | .failed | .newPriv false => some .error
  | _ => none

/-- The state the reports in a list of calls bring the query to. -/
def told (state : QueryState) (calls : List Call) : QueryState :=
  calls.foldl (fun state call => (tells call).getD state) state

/-- Where a query stands, and the positions it has been set up at, newest first. -/
structure Course where
  state : QueryState
  cursor : Nat
  request : Request
  setUps : List Nat := []

namespace Course

/-- The query enters SETUP. -/
def enter (c : Course) : Course :=
  { c with state := .setup, request := c.request.prepared, setUps := c.cursor :: c.setUps }

section

variable (env : Env)

/-- The state a setup function leaves the query in. -/
def report (c : Course) : QueryState :=
  match told .setup (env.setup c.cursor) with
  | .setup => if c.request.requestTimeout ≠ 0 then .waiting else .failed
  | .error => .failed
  | state => state

/-- The backends are set up one after the other, as long as they fail. -/
def follow : List Backend → Course → Course
  | [], c => c.enter
  | b :: rest, c =>
      let c := c.enter
      let state := if b.setup c.request.type then c.report env else .failed
      if state ≠ .failed then { c with state }
      else
        let c := { c with state := .failed, cursor := c.cursor + 1 }
        if rest.isEmpty then c else follow rest c

variable (bs : List Backend)

/-- `case NETRESOLVE_STATE_FAILED`. -/
def fail (c : Course) : Course :=
  let c := { c with state := .failed, cursor := c.cursor + 1 }
  let rest := bs.drop c.cursor
  if rest.isEmpty then c else c.follow env rest

/-- `case NETRESOLVE_STATE_DONE`. -/
def finish (c : Course) : Course :=
  let next := nextMandatory (bs.drop (c.cursor + 1)) (c.cursor + 1)
  let c := { c with state := .done, cursor := next.1 }
  if next.2 then c.follow env (bs.drop c.cursor) else c

/-- `netresolve_query_set_state`. -/
def change (c : Course) (state : QueryState) : Course :=
  if state = c.state then c
  else
    match state with
    | .setup => c.follow env (bs.drop c.cursor)
    | .waitingMore =>
        if c.request.resultTimeout = 0 then c.finish env bs else { c with state := .waitingMore }
    | .done => c.finish env bs
    | .failed => c.fail env bs
    | state => { c with state }

/-- `add_path`. -/
def path (c : Course) : Course :=
  if c.state = .waiting then c.change env bs .waitingMore else c

/-- A backend makes a call. -/
def call (c : Course) : Call → Course
  | .addPath a => (pathsOf env.services c.request a).foldl (fun c _ => c.path env bs) c
  | call => { c with state := (tells call).getD c.state }

/-- `watch->callback(...)`. -/
def callback (c : Course) : WatchCallback → Course
  | .backend i => (env.dispatch i).foldl (call env bs) c
  | .timeout .requestTimeout => c.change env bs .failed
  | .timeout _ => c.change env bs .done

/-- `netresolve_query_dispatch`. -/
def dispatch (c : Course) (watch : WatchCallback) : Course :=
  let c := c.callback env bs watch
  let c := if c.state = .resolved then c.change env bs .done else c
  if c.state = .error then c.change env bs .failed else c

end

end Course

/-- The course of a query that has not moved yet. -/
def St.course (s : St) : Course := ⟨s.query.state, s.query.cursor, s.query.request, []⟩

end Netresolve
