/-
Connecting: the part of `lib/socket.c` behind `netresolve_connect`.

The machine starts with the paths of a finished resolution.  It attempts one IPv4 and one
IPv6 path at a time, and hands the sockets over to the application one by one.  The functions
of the source call each other in a circle, `enable_sockets` by way of `connect_start`,
`connect_check` and `pickup_connected_socket` again `enable_sockets`, and the application's
callback may ask for the next socket from inside.  Each function gets `enable_sockets` as an
argument here; `enableSockets` ties the knot with a fuel that bounds the nesting.

What the kernel and the application decide is in `World`: how the attempts end, in the order
they are made, whether a timer is to be had, and how often each callback asks for more.  A
descriptor is the number of the attempt it was opened for.  Of the watches it matters only
whether a path has one.

The log notes what happens, newest entry first, with the state at that moment.  It is ghost
data, like `handling` and `waiting`; the source has none of it.
-/
import Netresolve.Core.Service

namespace Netresolve.Connect

/-! ### Data -/

/-- `enum netresolve_socket_state`. -/
inductive SocketState where
  | none | scheduled | ready | done
  deriving DecidableEq, Repr

/-- `struct netresolve_path`: the family and the socket; no descriptor is -1. -/
structure Path where
  family : Int := 0
  state : SocketState := .none
  watch : Bool := false
  fd : Option Nat := Option.none
  deriving DecidableEq, Repr

/-- `errno`, as far as `connect_check` tells it apart. -/
inductive Errno where
  | ok | inProgress | failed
  deriving DecidableEq, Repr

/--
What is decided elsewhere: `errno` after `connect`, or nothing where `socket` fails already,
whether a timer descriptor is to be had, and the number of calls of `netresolve_connect_next`
in a callback.
-/
structure World where
  attempt : Nat → Option Errno
  timerfd : Nat → Bool := fun _ => true
  asks : Nat → Nat := fun _ => 0

/--
`struct netresolve_socket` with the paths of its query and the numbers of attempts, timers
and callbacks so far.  `handling` says that `connect_priority_timeout` is running, `waiting`
that the latest request has not been answered.
-/
structure Socket where
  paths : List Path
  timeout : Bool := false
  priorityTimeout : Bool := false
  skipScheduled : Bool := false
  sequentialConnect : Bool := false
  attempts : Nat := 0
  timers : Nat := 0
  calls : Nat := 0
  handling : Bool := false
  waiting : Bool := true
  deriving DecidableEq, Repr

/-- What is noted. -/
inductive Note where
  | changed (i : Nat)
  | opened (fd : Nat)
  | closed (fd : Nat)
  | chosen (i : Nat)
  | called (i : Nat) (fd : Option Nat)
  | asked
  | turned (i : Nat)
  | expired
  | skipping
  deriving DecidableEq, Repr

/-- The machine with its log. -/
structure Run where
  now : Socket
  log : List (Note × Socket) := []
  deriving DecidableEq, Repr

/-- The assertions of the functions modelled here. -/
inductive Assertion where
  | schedule | pause | resume | connectReady | connectStart | watchAdd
  deriving DecidableEq, Repr

inductive Fault where
  | assertion (a : Assertion)
  | fuel
  deriving DecidableEq, Repr

abbrev S := EStateM Fault Run

def note (n : Note) : S Unit :=
  modify fun r => { r with log := (n, r.now) :: r.log }

def modifySocket (f : Socket → Socket) : S Unit :=
  modify fun r => { r with now := f r.now }

def Socket.path (s : Socket) (i : Nat) : Path := s.paths.getD i {}

def Socket.modifyPath (s : Socket) (i : Nat) (f : Path → Path) : Socket :=
  { s with paths := s.paths.modify i f }

def modifyPath (i : Nat) (f : Path → Path) : S Unit :=
  modifySocket (·.modifyPath i f)

/-- `path->socket.state = ...`. -/
def setState (i : Nat) (state : SocketState) : S Unit := do
  modifyPath i fun p => { p with state := state }
  note (.changed i)

/-! ### Timers and watches -/

/-- `clear_timeouts`. -/
def clearTimeouts : S Unit :=
  modifySocket fun s => { s with timeout := false, priorityTimeout := false }

/-- `priv->timeout = netresolve_timeout_add(...)`. -/
def addTimeout (world : World) : S Unit :=
  modifySocket fun s => { s with timeout := world.timerfd s.timers, timers := s.timers + 1 }

/-- `priv->priority_timeout = netresolve_timeout_add(...)`. -/
def addPriorityTimeout (world : World) : S Unit :=
  modifySocket fun s => { s with
    priorityTimeout := world.timerfd s.timers, timers := s.timers + 1 }

/-- `path->socket.watch = netresolve_watch_add(...)`, which asserts a descriptor. -/
def watchAdd (i : Nat) : S Unit := do
  if ((← get).now.path i).fd = none then throw (.assertion .watchAdd)
  else modifyPath i fun p => { p with watch := true }

/-- `socket_schedule`. -/
def socketSchedule (i : Nat) : S Unit := do
  if ((← get).now.path i).state ≠ .none then throw (.assertion .schedule)
  else do
    setState i .scheduled
    watchAdd i

/-- `socket_pause`. -/
def socketPause (i : Nat) : S Unit := do
  let p := (← get).now.path i
  if p.state ≠ .scheduled ∨ p.watch = false then throw (.assertion .pause)
  else modifyPath i fun p => { p with watch := false }

/-- `socket_resume`. -/
def socketResume (i : Nat) : S Unit := do
  let p := (← get).now.path i
  if p.state ≠ .scheduled ∨ p.watch = true then throw (.assertion .resume)
  else watchAdd i

/-- `socket_cleanup`. -/
def socketCleanup (i : Nat) : S Unit := do
  setState i .done
  modifyPath i fun p => { p with watch := false }
  match ((← get).now.path i).fd with
  | none => pure ()
  | some fd => do
      note (.closed fd)
      modifyPath i fun p => { p with fd := none }

/-- Runs over the paths, for those in state SCHEDULED. -/
def forScheduled (f : Nat → S Unit) : S Unit := do
  forM (List.range (← get).now.paths.length) fun i => do
    if ((← get).now.path i).state = .scheduled then f i

/-! ### Connecting -/

section

variable (world : World) (enable : S Unit)

/-- `netresolve_connect_next`. -/
def connectNext : S Unit := do
  note .asked
  modifySocket fun s => { s with waiting := true }
  enable

/-- `priv->callback(...)`: the application asks for more as often as it likes. -/
def callback (i : Nat) (fd : Option Nat) : S Unit := do
  let n := (← get).now.calls
  modifySocket fun s => { s with calls := n + 1, waiting := false }
  note (.called i fd)
  forM (List.replicate (world.asks n) ()) fun _ => connectNext enable

/-- The first loop of `pickup_connected_socket`. -/
def Socket.found (s : Socket) : Option Nat :=
  s.paths.findIdx? fun p =>
    (p.state = .scheduled && !s.skipScheduled) || p.state = .ready

/-- The branch of `pickup_connected_socket` for a ready socket. -/
def passSocket (i : Nat) : S Unit := do
  let fd := ((← get).now.path i).fd
  note (.chosen i)
  setState i .done
  modifyPath i fun p => { p with fd := none }
  forScheduled socketPause
  modifySocket fun s => { s with skipScheduled := s.skipScheduled && !s.priorityTimeout }
  clearTimeouts
  callback world enable i fd

/-- `pickup_connected_socket`. -/
def pickupConnectedSocket : S Unit := do
  let s := (← get).now
  match s.found with
  | none => enable
  | some i =>
      if (s.path i).state = .ready then passSocket world enable i
      else do
        (if s.paths.any (·.state = .ready) ∧ s.priorityTimeout = false then
          addPriorityTimeout world else pure ())
        enable

/-- `connect_check`. -/
def connectCheck (i : Nat) : Errno → S Unit
  | .inProgress => socketSchedule i
  | .ok => do
      (if ((← get).now.path i).state = .scheduled then socketPause i else pure ())
      setState i .ready
      pickupConnectedSocket world enable
  | .failed => do
      socketCleanup i
      pickupConnectedSocket world enable

/-- `connect_ready`, with what `getsockopt` puts into `errno`. -/
def connectReady (i : Nat) (errno : Errno) : S Unit := do
  let p := (← get).now.path i
  if p.state ≠ .scheduled ∨ p.watch = false then throw (.assertion .connectReady)
  else connectCheck world enable i errno

/-- `netresolve_query_get_sockaddr` knows the two IP families. -/
def hasSockaddr (family : Int) : Bool := family = AF_INET ∨ family = AF_INET6

/-- `connect_start`. -/
def connectStart (i : Nat) : S Unit := do
  let p := (← get).now.path i
  if p.state ≠ .none then throw (.assertion .connectStart)
  else if hasSockaddr p.family then do
    let n := (← get).now.attempts
    modifySocket fun s => { s with attempts := n + 1 }
    match world.attempt n with
    | none => do
        modifyPath i fun p => { p with fd := none }
        connectCheck world enable i .failed
    | some errno => do
        modifyPath i fun p => { p with fd := some n }
        note (.opened n)
        connectCheck world enable i errno
  else pure ()

/-- What the loop of `enable_sockets` does with a path it does not skip. -/
def enableSocket (i : Nat) : S Unit := do
  note (.turned i)
  (if (← get).now.timeout = false then addTimeout world else pure ())
  let p := (← get).now.path i
  if p.state = .none then connectStart world enable i
  else if p.state = .scheduled ∧ p.watch = false then socketResume i
  else pure ()

/-- The loop of `enable_sockets`, with the paths that are left and the two counters. -/
def enableLoop : List Nat → Nat → Nat → S (Nat × Nat)
  | [], ip4, ip6 => pure (ip4, ip6)
  | i :: rest, ip4, ip6 => do
      let p := (← get).now.path i
      if p.state = .done then enableLoop rest ip4 ip6
      else
        let ip4' := if p.family = AF_INET then ip4 + 1 else ip4
        let ip6' := if p.family = AF_INET6 then ip6 + 1 else ip6
        if p.family = AF_INET ∧ ip4 ≠ 0 ∨ p.family = AF_INET6 ∧ ip6 ≠ 0 then
          enableLoop rest ip4' ip6'
        else do
          enableSocket world enable i
          if (← get).now.sequentialConnect then pure (ip4', ip6')
          else enableLoop rest ip4' ip6'

/-- The body of `enable_sockets`. -/
def enablePaths : S Unit := do
  let counts ← enableLoop world enable (List.range (← get).now.paths.length) 0 0
  if counts.1 = 0 ∧ counts.2 = 0 then clearTimeouts else pure ()

end

/-- `enable_sockets`, nested at most as deep as the fuel allows. -/
def enableSockets (world : World) : Nat → S Unit
  | 0 => throw .fuel
  | fuel + 1 => enablePaths world (enableSockets world fuel)

/-- Each level of `enable_sockets` uses up a path. -/
def nesting (s : Socket) : Nat := s.paths.length + 1

/-! ### Events -/

section

variable (world : World) (enable : S Unit)

/-- `connect_timeout`. -/
def connectTimeout : S Unit := do
  clearTimeouts
  forScheduled socketCleanup
  note .expired
  enable

/-- `connect_priority_timeout`. -/
def connectPriorityTimeout : S Unit := do
  modifySocket fun s => { s with handling := true, skipScheduled := true }
  note .skipping
  pickupConnectedSocket world enable
  modifySocket fun s => { s with handling := false }

/-- `connect_prepare`. -/
def connectPrepare : S Unit := do
  modifySocket fun s => { s with paths := s.paths.map fun p => { p with fd := none } }
  enable

end

/-- `netresolve_connect_free`, up to the query. -/
def connectFree : S Unit := do
  forM (List.range (← get).now.paths.length) socketCleanup
  clearTimeouts

/-- What can happen between two calls of the library: a socket is ready, with `SO_ERROR`. -/
inductive Event where
  | ready (i : Nat) (errno : Errno)
  | timeout
  | priorityTimeout
  | next
  deriving DecidableEq, Repr

/-- The event can happen: a watch or a timer is there for it. -/
def Event.enabled (s : Socket) : Event → Bool
  | .ready i _ => (s.path i).watch
  | .timeout => s.timeout
  | .priorityTimeout => s.priorityTimeout
  | .next => true

/-- The function the event calls. -/
def handle (world : World) (enable : S Unit) : Event → S Unit
  | .ready i errno => connectReady world enable i errno
  | .timeout => connectTimeout enable
  | .priorityTimeout => connectPriorityTimeout world enable
  | .next => connectNext enable

/-- An event that cannot happen does not. -/
def dispatch (world : World) (event : Event) : S Unit := do
  let s := (← get).now
  if event.enabled s then handle world (enableSockets world (nesting s)) event else pure ()

/-- The end of a resolution and any number of events. -/
def connect (world : World) (events : List Event) : S Unit := do
  connectPrepare (enableSockets world (nesting (← get).now))
  forM events (dispatch world)

/--
`netresolve_connect` after a resolution that found paths of the given families.  Loops over the
paths end at the first record with family zero.
-/
def initial (families : List Int) (sequential : Bool) : Run :=
  { now :=
      { paths := (families.takeWhile (· ≠ 0)).map fun family => { family := family }
        sequentialConnect := sequential } }

end Netresolve.Connect
