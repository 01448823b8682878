/-
The entry points that stand in for those of other libraries: `getnameinfo`, `gethostbyname2_r` and
`res_query` of `compat/libc.c`, `asyncns_getnameinfo_done` and `asyncns_res_done` of
`compat/asyncns.c`, with the functions of `lib/compat.c` they use.

Each of them starts from what became of a query, or from NULL if there is none.  The query is
given in the state in which its callback would be called, with the list of services it keeps.
Each of them also frees the query, unless it stops before.  Memory that the functions allocate is
taken to be there.  A string is a `String` that has a character for each of its bytes.
-/
import Netresolve.Core.Release

namespace Netresolve.Compat

/--
The use of something that is not there, or of the memory behind a buffer, or a query that cannot
be freed.
-/
inductive Crash where
  | query | hostent | string | overflow
  | release (e : ReleaseFault)
  deriving DecidableEq, Repr

def EAI_SYSTEM : Int := -11
def EAI_OVERFLOW : Int := -12
def ERANGE : Int := 34
def HOST_NOT_FOUND : Int := 1

/-- A query that is over. -/
structure Finished where
  query : Query
  services : Option ServiceList := none

/-- `netresolve_query_free` of a query that is over. -/
def queryFree (f : Finished) : Except Crash Unit :=
  (releaseQuery f.query f.services).mapError .release

/-! ### What a query has to tell -/

/-- `netresolve_query_get_node_name`. -/
def getNodeName (q : Query) : Option String :=
  match q.response.nodename with
  | some name => some name.value
  | none =>
      if q.state ≠ .done then none
      else if q.request.type ≠ .forward then none
      else some (q.request.nodename.getD "localhost")

/-- `netresolve_query_get_service_name`. -/
def getServiceName (q : Query) : Option String := q.response.servname.map (·.value)

/-- `netresolve_query_get_dns_answer`: the pointer and the length. -/
def getDnsAnswer (q : Query) : Option (List UInt8) × Nat :=
  match q.response.dns with
  | some answer => (some answer.value, answer.value.length)
  | none => (none, 0)

/-- `strlen(s) + 1`, and nothing for NULL. -/
def size : Option String → Nat
  | none => 0
  | some s => s.length + 1

/-! ### Names of an address -/

/-- `netresolve_query_getnameinfo_done` up to the end of the query: the status and two strings. -/
def getnameinfoDone (q : Query) : Int × Option String × Option String :=
  (0, getNodeName q, getServiceName q)

/-- What is in the buffers of the caller afterwards; `none` for one that was not written. -/
structure Names where
  status : Int
  host : Option String := none
  serv : Option String := none
  deriving DecidableEq, Repr

/-- There is a buffer, of the given length, and it is too short. -/
def tooShort (len : Option Nat) (s : Option String) : Bool :=
  match len with
  | none => false
  | some n => n < size s

/-- `getnameinfo`, with the lengths of the buffers that are not NULL. -/
def getnameinfo (query : Option Finished) (hostlen servlen : Option Nat) : Except Crash Names :=
  match query with
  | none => .ok { status := EAI_SYSTEM }
  | some f => do
      let (status, myhost, myserv) := getnameinfoDone f.query
      queryFree f
      if status = 0 then
        if tooShort hostlen myhost || tooShort servlen myserv then .ok { status := EAI_OVERFLOW }
        else .ok {
          status
          host := hostlen.map fun _ => myhost.getD ""
          serv := servlen.map fun _ => myserv.getD "" }
      else .ok { status }

/-- `asyncns_getnameinfo_done`. -/
def asyncnsGetnameinfoDone (f : Finished) (hostlen servlen : Nat) : Except Crash Names := do
  let (status, myhost, myserv) := getnameinfoDone f.query
  queryFree f
  if status = 0 then
    match myhost, myserv with
    | some host, some serv =>
        if hostlen ≤ size (some host) ∧ servlen ≤ size (some serv) then
          if hostlen < size (some host) ∨ servlen < size (some serv) then .error .overflow
          else .ok { status, host := some host, serv := some serv }
        else .ok { status := ERANGE }
    | _, _ => .error .string
  else .ok { status }

/-! ### Addresses of a name -/

/-- `struct hostent`, without the aliases, of which there are none. -/
structure Hostent where
  name : Option String := none
  addrtype : Int := 0
  length : Nat := 0
  addrs : List (List UInt8) := []
  deriving DecidableEq, Repr

/-- The loop of `get_hostent` at one record. -/
def Hostent.add (he : Hostent) (path : Path) : Hostent :=
  if path.family ≠ AF_INET ∧ path.family ≠ AF_INET6 then he
  else if he.addrtype ≠ 0 then
    if he.addrtype ≠ path.family then he
    else { he with addrs := he.addrs ++ [path.address.take he.length] }
  else
    let length := if path.family = AF_INET then 4 else 16
    { he with
      addrtype := path.family
      length
      addrs := he.addrs ++ [path.address.take length] }

/-- `get_hostent` up to the end of the query. -/
def getHostent (q : Query) : Hostent :=
  (q.response.paths.map (·.value)).foldl Hostent.add { name := getNodeName q }

/--
`netresolve_query_gethostbyname_done`: the result, or the error number.  Only with a result is the
query freed.
-/
def gethostbynameDone (q : Query) : Except Int Hostent :=
  if q.response.paths = [] then .error HOST_NOT_FOUND else .ok (getHostent q)

/-- `len_total`: the name, two lists of pointers that end with NULL, and the addresses. -/
def Hostent.lenTotal (he : Hostent) : Nat :=
  8 + size he.name + (he.addrs.length + 1) * 8 + he.addrs.length * he.length

/-- What `gethostbyname2_r` returns, and what it stores for its caller. -/
structure Host where
  status : Int
  result : Option Hostent := none
  deriving DecidableEq, Repr

/-- `gethostbyname2_r`, with `errno` as it is when there is no query. -/
def gethostbyname2R (query : Option Finished) (errno : Int) (buflen : Nat) : Except Crash Host :=
  match query with
  | none => .ok { status := errno }
  | some f =>
      match gethostbynameDone f.query with
      | .error _ => .error .hostent
      | .ok tmp => do
          queryFree f
          if buflen < tmp.lenTotal then .ok { status := ERANGE }
          else .ok { status := 0, result := some tmp }

/-! ### DNS answers -/

/-- What `_res_query` returns, and what it writes to the buffer. -/
structure Answer where
  status : Int
  answer : Option (List UInt8) := none
  deriving DecidableEq, Repr

/-- `(int) n`. -/
def toInt (n : Nat) : Int := Int.bmod n 4294967296

/-- `_res_query`. -/
def resQuery (query : Option Finished) (length : Nat) : Except Crash Answer :=
  match query with
  -- netresolve_query_free(query)
  | none => .error .query
  | some f => do
      let (myanswer, mylength) := getDnsAnswer f.query
      let answer := if length < mylength then none else myanswer
      queryFree f
      pure { status := toInt mylength, answer }

/-- `asyncns_res_done`. -/
def asyncnsResDone (f : Finished) : Except Crash Answer := do
  let (queryAnswer, _) := getDnsAnswer f.query
  queryFree f
  pure { status := 0, answer := queryAnswer }

end Netresolve.Compat
