/-
The blocking mode: `netresolve_epoll_wait`, the end of `netresolve_query` and
`netresolve_context_free`.

The loop of `netresolve_epoll_wait` goes on as long as the context has watches, and each turn
dispatches one of them; which one, and what the backends do then, is open.  For the timers this
is not good enough, as they decide how long a query can take.  So there is a clock as well.  The
numbers that the context hands out are stamped with the time of the event in which they are, and a
timer descriptor is ready when its time is over.  What is asked of the system is that no event
comes later than a timer that is still set.

A backend that reports success after it has reported failure, both from its setup function, leaves
its query in RESOLVED without a timer.  `decided` rules this out.

When a context is freed its queries are, with all the memory they hold.  Which list of services a
query has by then is open: none, if no name or port had to be looked up, or what became of the file
when it was read last.
-/
import Netresolve.Core.Net
import Netresolve.Core.Release

namespace Netresolve

/-! ### Times -/

/-- `struct timespec`. -/
structure Timespec where
  sec : Int
  nsec : Int
  deriving DecidableEq, Repr

/-- The `it_value` of `netresolve_timeout_add`. -/
def timeoutValue (sec nsec : Int) : Timespec := ⟨sec, if sec ≠ 0 ∨ nsec ≠ 0 then nsec else 1⟩

/-- The `it_value` of `netresolve_timeout_add_ms`. -/
def timeoutValueMs (msec : Int) : Timespec :=
  timeoutValue (msec.tdiv 1000) (msec.tmod 1000 * 1000000)

def Timespec.nanoseconds (t : Timespec) : Int := t.sec * 1000000000 + t.nsec

/-- The milliseconds that `netresolve_query_set_state` asks for. -/
def Request.milliseconds (r : Request) : Timer → Int
  | .delayed => 0
  | .requestTimeout => r.requestTimeout
  | .resultTimeout => r.resultTimeout

/-- How long a timer of the request takes. -/
def Request.duration (r : Request) (t : Timer) : Int :=
  (timeoutValueMs (r.milliseconds t)).nanoseconds

/-! ### Events -/

/-- No success is reported behind a failure. -/
def decided : List Call → Bool
  | [] => true
  | .failed :: rest | .newPriv false :: rest => !rest.contains .finished && decided rest
  | _ :: rest => decided rest

/-- Backends behave, and timers can be had. -/
structure Env.Timely (env : Env) : Prop extends env.WellBehaved where
  decided : ∀ i, decided (env.setup i) = true
  timerfd : ∀ n, env.timerfd n = true

/-- A query whose timeouts are set. -/
structure Local.Timed (l : Local) : Prop where
  request : 0 < l.query.request.requestTimeout
  result : l.query.request.resultTimeout ≠ 0

/-- A query that has ended. -/
structure Local.Over (l : Local) : Prop where
  state : l.query.state = .done ∨ l.query.state = .failed
  cursor : l.query.cursor = l.backends.length

/-- `netresolve_query` up to the wait. -/
inductive Created (net : Net) : Net → Prop
  | mk (env : Env) {l : Local} {s : St} (hnew : l.New) (htimed : l.Timed) (henv : env.Timely)
      (h : queryStart env (net.view l) = .ok () s) :
      Created net ⟨net.queries ++ [s.toLocal], s.context⟩

/-- A watch of a query is dispatched. -/
inductive Dispatched (net : Net) : Net → Prop
  | mk {before after : List Local} {env : Env} {l : Local} {w : Nat} {s : St}
      (hl : net.queries = before ++ l :: after) (henv : env.Timely)
      (hw : ∃ x ∈ l.query.watches, x.id = w) (h : queryDispatch env w (net.view l) = .ok () s) :
      Dispatched net ⟨before ++ s.toLocal :: after, s.context⟩

/-- A query is freed. -/
inductive Released (net : Net) : Net → Prop
  | mk {before after : List Local} {env : Env} {l : Local} {s : St}
      (hl : net.queries = before ++ l :: after) (h : queryFree env (net.view l) = .ok () s) :
      Released net ⟨before ++ after, s.context⟩

/-- What a context can come to when all queries have timeouts and timers can be had. -/
inductive TimedReachable : Net → Prop
  | init : TimedReachable ⟨[], {}⟩
  | created {net net' : Net} (h : TimedReachable net) (hstep : Created net net') :
      TimedReachable net'
  | dispatched {net net' : Net} (h : TimedReachable net) (hstep : Dispatched net net') :
      TimedReachable net'
  | released {net net' : Net} (h : TimedReachable net) (hstep : Released net net') :
      TimedReachable net'

/-! ### Waiting -/

/-- `netresolve_epoll_wait`, which returns on the second context. -/
inductive EpollWait : Net → Net → Prop
  | done {net : Net} (h : net.context.loop.count = 0) : EpollWait net net
  | turn {net net' net'' : Net} (h : 0 < net.context.loop.count) (hstep : Dispatched net net')
      (hrest : EpollWait net' net'') : EpollWait net net''

/-- What a context can come to that is used in blocking mode only. -/
inductive Blocking : Net → Prop
  | init : Blocking ⟨[], {}⟩
  | query {net net' net'' : Net} (h : Blocking net) (hstep : Created net net')
      (hwait : EpollWait net' net'') : Blocking net''
  | released {net net' : Net} (h : Blocking net) (hstep : Released net net') : Blocking net'

/-! ### Freeing a context -/

/-- A query of a context with its list of services. -/
structure Equipped where
  entry : Local
  services : Option ServiceList := none

/--
How `netresolve_context_free` can stop: in a query, in the frees of a query, or at the assertion of
`cleanup_members`.
-/
inductive FreeFault where
  | query (e : Fault)
  | release (e : ReleaseFault)
  | cleanupMembers
  deriving DecidableEq, Repr

/-- What a function of the library does to a query while its context is freed. -/
def during (x : M Unit) (s : St) : Except FreeFault St :=
  match x s with
  | .ok _ s' => .ok s'
  | .error e _ => .error (.query e)

/-- `netresolve_query_free`, with the frees. -/
def queryDestroy (env : Env) (services : Option ServiceList) (s : St) : Except FreeFault St := do
  let s ← during (cleanupQuery env) s
  (releaseNone s.query services).mapError .release
  let freed ← during (querySetState env .none) s
  (if freed.query.nfds = 0 ∧ freed.query.watches = [] then pure ()
    else throw (.query (.assertion .queryFree)))
  (releaseEnd s.query).mapError .release
  pure freed

/-- The loop of `netresolve_context_free`, which takes the queries from the front of the list. -/
def freeQueries (env : Env) : List Equipped → Context → Except FreeFault Context
  | [], c => .ok c
  | l :: rest, c => do
      let s ← queryDestroy env l.services { toLocal := l.entry, context := c }
      freeQueries env rest s.context

/-- `netresolve_context_free`, with `cleanup_members` for the callback of the loop. -/
def contextFree (env : Env) (queries : List Equipped) (c : Context) :
    Except FreeFault Context := do
  let c ← freeQueries env queries c
  if c.loop.count = 0 then pure c else throw .cleanupMembers

/-! ### With a clock -/

/-- A query, with the times of its creation and of its last event. -/
structure Dated where
  born : Int
  last : Int
  entry : Local

/-- A context at a time; `stamp` tells when a number was handed out. -/
structure Clock where
  queries : List Dated
  context : Context := {}
  now : Int := 0
  stamp : Nat → Int := fun _ => 0

def Clock.net (c : Clock) : Net := ⟨c.queries.map (·.entry), c.context⟩

/-- No timer that is set is over before the time. -/
def Clock.InTime (c : Clock) (time : Int) : Prop :=
  ∀ d ∈ c.queries, ∀ t w, d.entry.query.timeout t = some w →
    time ≤ c.stamp w + d.entry.query.request.duration t

/-- The context after an event at a time. -/
def Clock.at (c : Clock) (time : Int) (queries : List Dated) (context : Context) : Clock where
  queries
  context
  now := time
  stamp n := if n < c.context.next then c.stamp n else time

/-- An event at a time. -/
inductive Ticked (c : Clock) (time : Int) : Clock → Prop
  | created (env : Env) {l : Local} {s : St} (hnew : l.New) (htimed : l.Timed)
      (henv : env.Timely) (h : queryStart env (c.net.view l) = .ok () s) :
      Ticked c time (c.at time (c.queries ++ [⟨time, time, s.toLocal⟩]) s.context)
  | dispatched {before after : List Dated} {env : Env} {d : Dated} {w : Nat} {s : St}
      (hd : c.queries = before ++ d :: after) (henv : env.Timely)
      (hw : ∃ x ∈ d.entry.query.watches, x.id = w)
      (h : queryDispatch env w (c.net.view d.entry) = .ok () s) :
      Ticked c time (c.at time (before ++ ⟨d.born, time, s.toLocal⟩ :: after) s.context)
  | released {before after : List Dated} {env : Env} {d : Dated} {s : St}
      (hd : c.queries = before ++ d :: after)
      (h : queryFree env (c.net.view d.entry) = .ok () s) :
      Ticked c time (c.at time (before ++ after) s.context)

/-- Runs of a context whose timers fire in time. -/
inductive Punctual : Clock → Prop
  | init : Punctual { queries := [] }
  | step {c c' : Clock} {time : Int} (h : Punctual c) (hnow : c.now ≤ time)
      (htime : c.InTime time) (hstep : Ticked c time c') : Punctual c'

end Netresolve
