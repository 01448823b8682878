/-
The front end of `compat/asyncns.c`: requests in a doubly linked list, and the callback that marks
them as done.

The memory holds the list itself at address 0 and each request at the address that `calloc` has
returned for it.  A query of the library is a number; as long as it lives, the library has the
address of its request as the user data of the callback.  The library runs callbacks while it
creates a query and in `asyncns_wait`, in any order.  What the functions do with the data of a
query is in `Compat.lean`, and how the memory of a query is freed in `Release.lean`.

An event names the addresses that the system and the program choose.  Addresses that `calloc`
cannot return, because they are in use, and requests that the program cannot have, because they
are not in the list, make an event that does nothing.  A NULL pointer or a freed block that is
used gives `none`, and so does a query that cannot be freed.
-/
import Netresolve.Core.Release
import Netresolve.Library.Ring

namespace Netresolve.Asyncns

open Ring

/-- The fields of `struct netresolve_asyncns_query` besides the links. -/
structure Data where
  query : Nat := 0
  done : Bool := false
  deriving DecidableEq, Repr

/-- `&asyncns->queries`. -/
def list : Nat := 0

/-- A query of the library: the user data of its callback, and whether it has a DNS name. -/
structure Handle where
  data : Nat
  named : Bool
  deriving DecidableEq, Repr

/-- The memory, and the queries that live. -/
structure State where
  nodes : Heap Data
  live : Nat → Option Handle

/-! ### The list -/

/-- `enqueue`. -/
def enqueue (h : Heap Data) (q : Nat) : Option (Heap Data) := do
  let h ← setPrevious h q (← h list).previous
  let h ← setNext h q list
  let h ← setNext h (← h q).previous q
  setPrevious h (← h q).next q

/-- `dequeue`. -/
def dequeue (h : Heap Data) (q : Nat) : Option (Heap Data) := do
  let h ← setNext h (← h q).previous (← h q).next
  setPrevious h (← h q).next (← h q).previous

/-- `calloc`. -/
def State.alloc (s : State) (q : Nat) : State :=
  { s with nodes := Function.update s.nodes q (some ⟨0, 0, {}⟩) }

/-- `free`. -/
def State.free (s : State) (q : Nat) : State :=
  { s with nodes := Function.update s.nodes q none }

/-! ### Queries -/

/-- `callback`, if the query lives. -/
def State.callback (s : State) (query : Nat) : Option State :=
  match s.live query with
  | none => some s
  | some handle => do
      let nodes ← setValue s.nodes handle.data fun d => { d with done := true }
      some { s with nodes }

/-- The library returns a new query, and has run its callback if it ended at once. -/
def State.created (s : State) (q query : Nat) (named early : Bool) : Option State :=
  let s := { s with live := Function.update s.live query (some ⟨q, named⟩) }
  if early then s.callback query else some s

/-- The memory of a query that was started can be freed, see `releaseQuery`. -/
def releases (named : Bool) (services : Option ServiceList) : Bool :=
  !named && services != some ⟨none⟩

/-- `netresolve_query_free`, with the list of services that the query has by then. -/
def State.queryFree (s : State) (query : Nat) (services : Option ServiceList) : Option State :=
  match s.live query with
  | none => none
  | some handle =>
      if releases handle.named services then
        some { s with live := Function.update s.live query none }
      else none

/-- `add_query` with a query. -/
def State.addQuery (s : State) (q query : Nat) : Option State := do
  let nodes ← setValue s.nodes q fun d => { d with query }
  let nodes ← enqueue nodes q
  some { s with nodes }

/-- `remove_query`. -/
def State.removeQuery (s : State) (q : Nat) : Option (State × Nat) := do
  let query := (← s.nodes q).value.query
  let nodes ← dequeue s.nodes q
  some ({ s with nodes }.free q, query)

/-! ### The interface -/

/--
The functions that issue a request; the first has `AI_CANONNAME` among its flags or not, and the
last has a name or NULL.
-/
inductive Kind where
  | getaddrinfo (canonname : Bool)
  | getnameinfo
  | resQuery (named : Bool)
  deriving DecidableEq, Repr

/-- The query has a DNS name. -/
def Kind.named : Kind → Bool
  | .resQuery named => named
  | _ => false

/--
A call of the program: `address` is what `calloc` returns, `query` what the library returns, and
`early` whether the query ends while it is created.  A request that is handed back has a query with
a list of services; `usable` tells whether the function finds all it uses of the query's data.
-/
inductive Event where
  | issue (kind : Kind) (address query : Option Nat) (early : Bool)
  | wait (ended : List Nat)
  | collect (q : Nat) (services : Option ServiceList) (usable : Bool)
  | cancel (q : Nat) (services : Option ServiceList)
  deriving DecidableEq, Repr

/-- The call hands back the request at the address. -/
def Event.Takes (e : Event) (q : Nat) : Prop :=
  (∃ services usable, e = .collect q services usable) ∨ ∃ services, e = .cancel q services

/-- `asyncns_getaddrinfo`, `asyncns_getnameinfo` and `asyncns_res_query`. -/
def State.issue (s : State) (kind : Kind) (address query : Option Nat) (early : Bool) :
    Option State :=
  match address with
  | none => some s
  | some q =>
      match query with
      | none =>
          if (s.nodes q).isSome then some s
          -- netresolve_query_getaddrinfo reads the response of the query
          else if kind = .getaddrinfo false then none
          else some ((s.alloc q).free q)
      | some query =>
          if (s.nodes q).isSome ∨ (s.live query).isSome then some s
          else do
            let s ← (s.alloc q).created q query kind.named early
            s.addQuery q query

/-- `asyncns_getaddrinfo_done`, `asyncns_getnameinfo_done` and `asyncns_res_done`. -/
def State.collect (s : State) (q : Nat) (services : Option ServiceList) (usable : Bool) :
    Option State := do
  let (s, query) ← s.removeQuery q
  let s ← s.queryFree query services
  if usable then some s else none

/-- `asyncns_cancel`. -/
def State.cancel (s : State) (q : Nat) (services : Option ServiceList) : Option State := do
  let s ← s.queryFree (← s.nodes q).value.query services
  let nodes ← dequeue s.nodes q
  some ({ s with nodes }.free q)

def State.step (s : State) : Event → Option State
  | .issue kind address query early => s.issue kind address query early
  | .wait ended => ended.foldlM State.callback s
  | .collect q services usable =>
      if q = list ∨ (s.nodes q).isNone then some s else s.collect q services usable
  | .cancel q services =>
      if q = list ∨ (s.nodes q).isNone then some s else s.cancel q services

/-- `asyncns_new`. -/
def State.new : State where
  nodes := Function.update (fun _ => none) list (some ⟨list, list, {}⟩)
  live := fun _ => none

/-- The state after a sequence of calls. -/
def run (events : List Event) : Option State := events.foldlM State.step State.new

/-- The loop of `asyncns_getnext`, at `q`. -/
def getnextFrom (h : Heap Data) : (fuel q : Nat) → Option (Option Nat)
  | 0, _ => none
  | fuel + 1, q =>
      if q = list then some none
      else do
        let node ← h q
        if node.value.done then some (some q) else getnextFrom h fuel node.next

/-- `asyncns_getnext`; the fuel bounds the number of requests it passes. -/
def State.getnext (s : State) (fuel : Nat) : Option (Option Nat) := do
  getnextFrom s.nodes fuel (← s.nodes list).next

/-- The loop of `asyncns_getnqueries`, at `q`: the requests it counts. -/
def walkFrom (h : Heap Data) : (fuel q : Nat) → Option (List Nat)
  | 0, _ => none
  | fuel + 1, q =>
      if q = list then some []
      else do
        let rest ← walkFrom h fuel (← h q).next
        some (q :: rest)

/-- The requests in the list. -/
def State.walk (s : State) (fuel : Nat) : Option (List Nat) := do
  walkFrom s.nodes fuel (← s.nodes list).next

/-- `asyncns_getnqueries`. -/
def State.getnqueries (s : State) (fuel : Nat) : Option Nat := (s.walk fuel).map List.length

/-- `asyncns_isdone`. -/
def State.isdone (s : State) (q : Nat) : Option Bool := (s.nodes q).map (·.value.done)

/-! ### What the list is for -/

/-- A request, by the order in which it was issued, with its address and its query. -/
structure Ticket where
  serial : Nat
  address : Nat
  query : Nat
  named : Bool
  deriving DecidableEq, Repr

/-- What the library has of the request. -/
def Ticket.handle (t : Ticket) : Handle := ⟨t.address, t.named⟩

/-- The requests there are, in the order of issue, and those whose callback ran. -/
structure Queue where
  tickets : List Ticket := []
  ran : List Nat := []
  next : Nat := 0
  deriving DecidableEq, Repr

/-- The callback of a query runs. -/
def Queue.finish (Q : Queue) (query : Nat) : Queue :=
  match Q.tickets.find? (·.query = query) with
  | none => Q
  | some t => { Q with ran := t.serial :: Q.ran }

/-- A request is handed back. -/
def Queue.drop (Q : Queue) (q : Nat) : Queue :=
  { Q with tickets := Q.tickets.filter (·.address ≠ q) }

/-- The call returns a request. -/
def Queue.accepts (Q : Queue) (address query : Nat) : Bool :=
  address ≠ list && Q.tickets.all fun t => t.address ≠ address && t.query ≠ query

def Queue.step (Q : Queue) : Event → Queue
  | .issue kind (some address) (some query) early =>
      if Q.accepts address query then
        { tickets := Q.tickets ++ [⟨Q.next, address, query, kind.named⟩]
          ran := if early then Q.next :: Q.ran else Q.ran
          next := Q.next + 1 }
      else Q
  | .issue _ _ _ _ => Q
  | .wait ended => ended.foldl Queue.finish Q
  | .collect q _ _ => Q.drop q
  | .cancel q _ => Q.drop q

def queueOf (events : List Event) : Queue := events.foldl Queue.step {}

end Netresolve.Asyncns
