/-
The data the core library works on, from `include/netresolve-private.h`.

One query is modelled together with everything a step of it can touch: the entries
of the backend list, which the context shares between its queries, and the
counters of the context and of its epoll loop.  Pointers are positions and
numbers.  `query->backend` is the position `cursor` in the backend list, the length
of the list being its NULL terminator; a watch, a private block and a descriptor are
numbers handed out in order and never reused.

Backends are code the library calls, so a backend is described by the calls it
makes.  `Call` is one such call, and the lists of calls come from an `Env`, which
also decides whatever the operating system decides.

Ghost data, which the source does not have and no modelled function reads: the
position of the backend that contributed a datum, the trace of a query, the history
of a backend entry and the block a query obtained.
-/
import Netresolve.Core.Service

namespace Netresolve

/-! ### Requests and responses -/

/-- `enum netresolve_state`. -/
inductive QueryState where
  | none | setup | waiting | waitingMore | resolved | done | error | failed
  deriving DecidableEq, Repr

/-- `enum netresolve_request_type`. -/
inductive RequestType where
  | forward | reverse | dns
  deriving DecidableEq, Repr

/-- `enum netresolve_security`. -/
inductive Security where
  | insecure | secure
  deriving DecidableEq, Repr

/-- `struct netresolve_request`, the fields the modelled functions read. -/
structure Request where
  type : RequestType := .forward
  nodename : Option String := none
  family : Int := AF_UNSPEC
  servname : Option String := none
  socktype : Int := 0
  protocol : Int := 0
  port : Int := 0
  defaultLoopback : Bool := false
  dnsSrvLookup : Bool := false
  address : List UInt8 := []
  ifindex : Int := 0
  dnsName : Option String := none
  dnsClass : Int := 0
  dnsType : Int := 0
  requestTimeout : Int := 15000
  resultTimeout : Int := 5000
  deriving DecidableEq, Repr

/-- `struct netresolve_path` without the part the socket interface uses. -/
structure Path where
  family : Int
  address : List UInt8
  ifindex : Int
  reachable : Bool := false
  socktype : Int
  protocol : Int
  port : Int
  priority : Int
  weight : Int
  ttl : Int
  deriving DecidableEq, Repr

/-- A datum of the response with the position of the backend that contributed it. -/
structure Sourced (α : Type) where
  value : α
  origin : Nat
  deriving DecidableEq, Repr

/-- `struct netresolve_response`. -/
structure Response where
  paths : List (Sourced Path) := []
  nodename : Option (Sourced String) := none
  servname : Option (Sourced String) := none
  dns : Option (Sourced (List UInt8)) := none
  security : Security := .insecure
  deriving DecidableEq, Repr

/-! ### Watches and timers -/

/-- The three timers a query keeps. -/
inductive Timer where
  | delayed | requestTimeout | resultTimeout
  deriving DecidableEq, Repr

/-- A descriptor, opened by the core or handed over by a backend. -/
inductive Fd where
  | core (n : Nat)
  | backend (n : Nat)
  deriving DecidableEq, Repr

/-- What a watch calls: the dispatch function of a backend or that of a timer. -/
inductive WatchCallback where
  | backend (i : Nat)
  | timeout (t : Timer)
  deriving DecidableEq, Repr

/-- `struct netresolve_watch`. -/
structure Watch where
  id : Nat
  fd : Fd
  callback : WatchCallback
  deriving DecidableEq, Repr

/-! ### Backends -/

/-- A block of private data, with the watches its backend remembers in it. -/
structure Block where
  id : Nat
  query : Nat
  watches : List Nat := []
  deriving DecidableEq, Repr

/-- What happens to the private data of a backend entry. -/
inductive PrivEvent where
  | setup (query : Nat) (present : Bool)
  | alloc (query block : Nat)
  | allocFailed (query : Nat)
  | cleanup (query : Nat) (arg : Option Nat)
  deriving DecidableEq, Repr

/-- `struct netresolve_backend`; `setup` tells for which types the module has a function. -/
structure Backend where
  mandatory : Bool := false
  setup : RequestType → Bool := fun _ => true
  cleanup : Bool := false
  data : Option Block := none
  history : List PrivEvent := []

/-- The arguments of `netresolve_backend_add_path`. -/
structure PathArgs where
  family : Int
  address : List UInt8
  ifindex : Int := 0
  socktype : Int := 0
  protocol : Int := 0
  port : Int := 0
  priority : Int := 0
  weight : Int := 0
  ttl : Int := 0
  deriving DecidableEq, Repr

/-- A call a backend makes into the library. -/
inductive Call where
  | addPath (args : PathArgs)
  | setCanonicalName (name : String)
  | addNameInfo (nodename : Option String)
  | setDnsAnswer (answer : List UInt8)
  | setSecure
  | newPriv (allocated : Bool)
  | watchAdd (fd : Nat)
  | watchRemove (k : Nat) (doClose : Bool)
  | finished
  | failed
  deriving DecidableEq, Repr

/--
What the code around the library decides during one event: the calls a backend's
setup and dispatch functions make, the results of system calls (by the number the
watch or descriptor concerned has or would get), the reachability of an address, the
services file and `NETRESOLVE_SORT_RESULTS`.
-/
structure Env where
  setup : Nat → List Call := fun _ => []
  dispatch : Nat → List Call := fun _ => []
  timerfd : Nat → Bool := fun _ => true
  eventfd : Nat → Bool := fun _ => true
  epollAdd : Nat → Bool := fun _ => true
  epollDel : Nat → Bool := fun _ => true
  reachable : Path → Bool := fun _ => true
  services : List Service := []
  sort : Bool := true

/-! ### Queries and contexts -/

/-- `struct netresolve_query`; `priv` is the block the running backend obtained. -/
structure Query where
  id : Nat
  state : QueryState := .none
  cursor : Nat := 0
  watches : List Watch := []
  nfds : Nat := 0
  delayed : Option Nat := none
  requestTimeout : Option Nat := none
  resultTimeout : Option Nat := none
  callback : Bool := true
  request : Request := {}
  response : Response := {}
  priv : Option Nat := none
  deriving DecidableEq, Repr

/-- `&query->delayed` and its two siblings. -/
def Query.timeout (q : Query) : Timer → Option Nat
  | .delayed => q.delayed
  | .requestTimeout => q.requestTimeout
  | .resultTimeout => q.resultTimeout

def Query.setTimeout (q : Query) (t : Timer) (w : Option Nat) : Query :=
  match t with
  | .delayed => { q with delayed := w }
  | .requestTimeout => { q with requestTimeout := w }
  | .resultTimeout => { q with resultTimeout := w }

/--
`struct netresolve_epoll`: the count and the watches of the pending events, with the
watches the kernel has registered for the loop's descriptor.
-/
structure Epoll where
  count : Nat := 0
  registered : List Nat := []
  events : List (Option Nat) := []
  deriving DecidableEq, Repr

/--
`struct netresolve_context` as far as all queries share it.  `next` hands out fresh
numbers and `opened` lists the descriptors the core has opened and not closed.
-/
structure Context where
  nfds : Nat := 0
  loop : Epoll := {}
  next : Nat := 0
  opened : List Fd := []
  deriving DecidableEq, Repr

/-- What can be observed of a query, with the cursor and the response at that moment. -/
inductive Obs where
  | enter (state : QueryState) (i : Nat) (response : Response)
  | report (i : Nat) (call : Call)
  | path (i : Nat) (path : Path)
  | callback (state : QueryState) (i : Nat) (response : Response)
  | error (text : String)
  deriving DecidableEq, Repr

/-- A query with its view of the backend list and its trace, newest entry first. -/
structure Local where
  query : Query
  backends : List Backend
  trace : List Obs := []

/-- Everything a step of one query works on. -/
structure St extends Local where
  context : Context := {}

/-- The assertions of the modelled functions. -/
inductive Assertion where
  | watchRemove | dispatchTimeout | dispatchRequestTimeout | dispatchResultTimeout
  | dispatchDelayed | newPriv | queryFree
  deriving DecidableEq, Repr

/--
How a run can stop.  `abort` is a call of `abort()` after a failed system call;
`dangling`, `outOfBounds` and `nullDeref` are uses of a removed watch, of memory behind
the end of the backend list and of its NULL terminator; `foreign` is a cleanup
function called on the private data of another query.
-/
inductive Fault where
  | assertion (a : Assertion)
  | abort
  | dangling
  | outOfBounds
  | nullDeref
  | foreign
  | fuel
  deriving DecidableEq, Repr

/-- A function of the library, running on behalf of one query. -/
abbrev M := EStateM Fault St

end Netresolve
