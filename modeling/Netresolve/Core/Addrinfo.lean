/-
Responses as lists of `struct addrinfo`, and back.

`netresolve_query_getaddrinfo_done` of `lib/compat.c` turns the paths of a response into a list,
with a socket address for each of them.  `netresolve_backend_apply_addrinfo` of `lib/backend.c`
is what backends use that get such a list from elsewhere.  A socket address is kept as its
bytes.  The fields for the family and the scope are in the byte order of the machine, taken here
to be the low byte first; it does not matter, because they are written and read in the same way.
-/
import Netresolve.Core.PathArray
import Netresolve.Library.Bytes

namespace Netresolve

/-- `struct addrinfo`; `ai_addrlen` is the length of `addr`. -/
structure Addrinfo where
  family : Int
  socktype : Int
  protocol : Int
  addr : List UInt8
  canonname : Option String := none
  deriving DecidableEq, Repr

end Netresolve

namespace Netresolve.Addrinfo

open Bytes

def EAI_NONAME : Int := -2
def EAI_NODATA : Int := -5
def EAI_SYSTEM : Int := -11

def AI_PASSIVE : Int := 1

def INT32_MAX : Int := 2147483647

/-! ### Hints -/

/-- `struct addrinfo`, the fields that are used as hints. -/
structure Hints where
  family : Int
  socktype : Int
  protocol : Int
  flags : Int
  deriving DecidableEq, Repr

/-- `netresolve_backend_get_addrinfo_hints`. -/
def backendGetAddrinfoHints (request : Request) (defaultLoopback : Bool) : Hints :=
  { family := request.family
    socktype := request.socktype
    protocol := request.protocol
    flags := if defaultLoopback then 0 else AI_PASSIVE }

/-! ### Socket addresses -/

/-- `htons`, as the two bytes in memory. -/
def htons (n : Int) : List UInt8 := (ofInt 2 n).reverse

/-- `ntohs`. -/
def ntohs (bytes : List UInt8) : Int := ofBytes bytes.reverse

/-- The first `n` bytes of the array a path has for its address. -/
def addressBytes (n : Nat) (path : Path) : List UInt8 :=
  (path.address ++ List.replicate n 0).take n

/-- `netresolve_query_get_sockaddr`, for the record at the index. -/
def getSockaddr (path : Path) : Option (List UInt8) :=
  if path.family = AF_INET then
    some (ofInt 2 path.family ++ htons path.port ++ addressBytes 4 path ++ List.replicate 8 0)
  else if path.family = AF_INET6 then
    -- sin6_flowinfo stands between the port and the address
    some (ofInt 2 path.family ++ htons path.port ++ List.replicate 4 0 ++ addressBytes 16 path ++
      ofInt 4 path.ifindex)
  else none

/-- The ttl `netresolve_query_get_aux_info` reports. -/
def auxTtl (clampTtl : Int) (path : Path) : Int := if 0 ≤ clampTtl then clampTtl else path.ttl

/-! ### Building the list -/

/-- `EAI_SYSTEM`, or the use of a NULL pointer. -/
inductive Failure where
  | system | nullDeref
  deriving DecidableEq, Repr

/--
The loop of `netresolve_query_getaddrinfo_done` from the record at index `i` on, with the ttl so
far.  `calloc` is asked with the index.
-/
def buildList (calloc : Nat → Bool) (clampTtl : Int) (canonname : Option String) :
    Nat → Int → List Path → Except Failure (List Addrinfo × Int)
  | _, ttl, [] => .ok ([], ttl)
  | i, ttl, path :: rest => do
      let ttl := if auxTtl clampTtl path < ttl then auxTtl clampTtl path else ttl
      if calloc i then
        match getSockaddr path with
        | none => throw .nullDeref
        | some sa => do
            let (items, ttl) ← buildList calloc clampTtl canonname (i + 1) ttl rest
            let item : Addrinfo :=
              { family := ofBytes (sa.take 2)
                socktype := path.socktype
                protocol := path.protocol
                addr := sa
                canonname := if i = 0 then canonname.filter (· ≠ "") else none }
            pure (item :: items, ttl)
      else throw .system

/-- What `netresolve_query_getaddrinfo_done` hands to its caller. -/
structure Result where
  status : Int
  items : List Addrinfo
  ttl : Int
  deriving DecidableEq, Repr

/-- `netresolve_query_getaddrinfo_done`. -/
def getaddrinfoDone (calloc : Nat → Bool) (clampTtl : Int) (canonname : Option String)
    (response : PathArray) : Except Failure Result := do
  let (items, ttl) ← buildList calloc clampTtl canonname 0 INT32_MAX response.paths
  pure ⟨if items = [] then EAI_NODATA else 0, items, ttl⟩

/-! ### Applying the list -/

/-- `IN6_IS_ADDR_LINKLOCAL`. -/
def isLinkLocal (address : List UInt8) : Bool :=
  address[0]? = some 0xfe && (address[1]?.map (· &&& 0xc0)) = some 0x80

/-- The arguments the loop of `netresolve_backend_apply_addrinfo` makes of an item. -/
def pathArgs (ttl : Int) (item : Addrinfo) : PathArgs :=
  if item.family = AF_INET then
    { family := item.family
      address := (item.addr.drop 4).take 4 ++ List.replicate 12 0
      socktype := item.socktype
      protocol := item.protocol
      port := ntohs ((item.addr.drop 2).take 2)
      ttl }
  else if item.family = AF_INET6 then
    let address := (item.addr.drop 8).take 16
    { family := item.family
      address
      ifindex := if isLinkLocal address then toInt ((item.addr.drop 24).take 4) else 0
      socktype := item.socktype
      protocol := item.protocol
      port := ntohs ((item.addr.drop 2).take 2)
      ttl }
  else
    { family := item.family
      address := List.replicate 16 0
      socktype := item.socktype
      protocol := item.protocol
      ttl }

/-- `netresolve_backend_apply_addrinfo`, by the calls it makes into the library. -/
def applyAddrinfo (status : Int) (result : List Addrinfo) (ttl : Int) : List Call :=
  if status = 0 then (result.map fun item => Call.addPath (pathArgs ttl item)) ++ [.finished]
  else if status = EAI_NONAME ∨ status = EAI_NODATA then [.finished]
  else [.failed]

end Netresolve.Addrinfo
