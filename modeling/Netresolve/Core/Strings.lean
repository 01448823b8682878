/-
Who releases which string.

The request of a context and of a query has three strings, and the response of a query two.  Here
every string that the library allocates has a number of its own, and `free` writes down the
number instead of giving memory back.  A query starts with a copy of the bytes of the context's
request, so its pointers are those of the context.  What else the requests and the responses
hold is left out.

An entry of the list of releases also tells whether the context's request has the pointer at that
moment.  Of the state, `lent` is there to be spoken about only: the strings that were allocated
for the request of the context.
-/
import Mathlib.Logic.Function.Basic

namespace Netresolve.Strings

/-- The strings of a request. -/
inductive Field where
  | nodename | servname | dnsName
  deriving DecidableEq, Repr

/-- One call of `free` with a string; `byQuery` for those that create or free a query. -/
structure Release where
  id : Nat
  byQuery : Bool
  inContext : Bool
  deriving DecidableEq, Repr

/-- The strings of a query.  It is started when it has left the state NONE. -/
structure Query where
  request : Field → Option Nat
  nodename : Option Nat := none
  servname : Option Nat := none
  started : Bool := false

/-- A context with its queries in the order of creation; one that is freed is `none`. -/
structure State where
  context : Field → Option Nat := fun _ => none
  queries : List (Option Query) := []
  next : Nat := 0
  released : List Release := []
  lent : List Nat := []

/-- The context's request refers to the string. -/
def State.refers (s : State) (id : Nat) : Bool :=
  [Field.nodename, .servname, .dnsName].any fun f => s.context f = some id

/-- `free`. -/
def State.free (s : State) (byQuery : Bool) : Option Nat → State
  | none => s
  | some id => { s with released := ⟨id, byQuery, s.refers id⟩ :: s.released }

/-- `source ? strdup(source) : NULL`. -/
def State.strdup (s : State) (source : Bool) : Option Nat := if source then some s.next else none

/-- The number after those that are in use, when a string was allocated. -/
def State.bump (s : State) (source : Bool) : State :=
  if source then { s with next := s.next + 1 } else s

/-- `s.queries[i]`, if it is there. -/
def State.query (s : State) (i : Nat) : Option Query := s.queries[i]?.join

def State.setQuery (s : State) (i : Nat) (q : Option Query) : State :=
  { s with queries := s.queries.set i q }

/-! ### Options -/

/-- An option for a string, and whether its argument is other than NULL. -/
abbrev Opt := Field × Bool

/-- `copy_string` on the request of the context. -/
def State.setOption (s : State) (o : Opt) : State :=
  let s₁ := s.free false (s.context o.1)
  { s₁.bump o.2 with
    context := Function.update s.context o.1 (s.strdup o.2)
    lent := if o.2 then s.next :: s.lent else s.lent }

/-- `copy_string` on the request of a query. -/
def State.copyString (s : State) (i : Nat) (o : Opt) : State :=
  match s.query i with
  | none => s
  | some q =>
      let s₁ := s.free true (q.request o.1)
      (s₁.bump o.2).setQuery i
        (some { q with request := Function.update q.request o.1 (s.strdup o.2) })

/-! ### Queries -/

/-- The part of `netresolve_query_set_state` for the state NONE that frees strings. -/
def State.leave (s : State) (q : Query) : State :=
  if q.started then
    ((s.free true (q.request .dnsName)).free true q.nodename).free true q.servname
  else s

/-- `netresolve_query_free`. -/
def State.queryFree (s : State) (i : Nat) : State :=
  match s.query i with
  | none => s
  | some q =>
      let s := s.leave q
      let s := s.free true (q.request .nodename)
      let s := s.free true (q.request .servname)
      let s := s.free true (q.request .dnsName)
      s.setQuery i none

/-- `netresolve_query_new`: the request is copied from the context. -/
def State.queryNew (s : State) : State :=
  { s with queries := s.queries ++ [some { request := s.context }] }

/-- The query leaves the state NONE. -/
def State.start (s : State) (i : Nat) : State :=
  match s.query i with
  | none => s
  | some q => s.setQuery i (some { q with started := true })

/-- `netresolve_query`, with an unknown option at the end of the list if it is not valid. -/
def State.create (s : State) (opts : List Opt) (valid : Bool) : State :=
  let i := s.queries.length
  let s := opts.foldl (fun s o => s.copyString i o) s.queryNew
  if valid then s.start i else s.queryFree i

/-- The string options of `netresolve_query_forward`, for arguments other than NULL or not. -/
def forwardOptions (nodename servname : Bool) : List Opt :=
  [(.nodename, nodename), (.servname, servname)]

/-- The string options of `netresolve_query_dns`. -/
def dnsOptions (dname : Bool) : List Opt := [(.dnsName, dname)]

/-! ### Responses -/

/--
`netresolve_backend_set_canonical_name`.  `netresolve_query_getaddrinfo` does the same with an
empty string.
-/
def State.setCanonicalName (s : State) (i : Nat) : State :=
  match s.query i with
  | none => s
  | some q =>
      let s₁ := s.free false q.nodename
      (s₁.bump true).setQuery i (some { q with nodename := s.strdup true })

/--
`netresolve_backend_add_name_info`, with whether the node name is other than NULL and whether the
services have a name for the port.
-/
def State.addNameInfo (s : State) (i : Nat) (nodename servname : Bool) : State :=
  match s.query i with
  | none => s
  | some q =>
      if q.nodename.isSome then s
      else
        let s₁ := s.bump nodename
        let q := { q with nodename := s.strdup nodename }
        if q.servname.isSome then s₁.setQuery i (some q)
        else (s₁.bump servname).setQuery i (some { q with servname := s₁.strdup servname })

/-! ### Programs -/

/-- A call of the program, or one that a backend makes for a query. -/
inductive Event where
  | setOptions (opts : List Opt)
  | create (opts : List Opt) (valid : Bool)
  | setCanonicalName (i : Nat)
  | addNameInfo (i : Nat) (nodename servname : Bool)
  | queryFree (i : Nat)
  | contextFree
  deriving DecidableEq, Repr

/-- The loop of `netresolve_context_free`: the oldest query first. -/
def State.queriesFree (s : State) : State :=
  (List.range s.queries.length).foldl State.queryFree s

/-- `netresolve_context_free`; what follows is about a new context. -/
def State.contextFree (s : State) : State :=
  { s.queriesFree with context := fun _ => none, lent := [] }

def State.step (s : State) : Event → State
  | .setOptions opts => opts.foldl State.setOption s
  | .create opts valid => s.create opts valid
  | .setCanonicalName i => s.setCanonicalName i
  | .addNameInfo i nodename servname => s.addNameInfo i nodename servname
  | .queryFree i => s.queryFree i
  | .contextFree => s.contextFree

def run (events : List Event) : State := events.foldl State.step {}

end Netresolve.Strings
