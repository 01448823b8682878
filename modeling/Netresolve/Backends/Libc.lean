/-
`backends/libc.c`: the resolver of the C library as a backend.

What the C library answers is in `CLibrary`.  `query_reverse` builds a socket address in a union,
which is kept as its bytes and is zero at first.  Its fields are in the byte order of the machine,
as in `Core/Addrinfo.lean`.  The query for DNS data is left out.
-/
import Netresolve.Backends.Dns
import Netresolve.Core.Options

namespace Netresolve.Libc

open Addrinfo Bytes Dns Options

/--
`getaddrinfo` with the status and the list, and `getnameinfo` with the status and the node name,
by the memory and the length of the socket address and the flags.
-/
structure CLibrary where
  getaddrinfo : Option String → Option String → Hints → Int × List Addrinfo
  getnameinfo : List UInt8 → Nat → Nat → Int × String

/-- `query_forward`, by the calls it makes into the library. -/
def queryForward (libc : CLibrary) (request : Request) : List Call :=
  let (status, result) := libc.getaddrinfo (backendGetNodename request) request.servname
    (backendGetAddrinfoHints request request.defaultLoopback)
  if status ≠ 0 then [.failed] else applyAddrinfo status result 0

/--
The union as `query_reverse` fills it, with the length it passes.  Both cases pass the size of
`sa4`.
-/
def sockaddr (request : Request) : Option (List UInt8 × Nat) :=
  let family := ofInt 2 request.family
  let port := ofInt 2 request.port
  if (ofBytes family : Int) = AF_INET then
    some (family ++ port ++ request.address.take 4 ++ List.replicate 20 0, sizeofSockaddrIn)
  else if (ofBytes family : Int) = AF_INET6 then
    some (family ++ port ++ List.replicate 4 0 ++ request.address.take 16 ++ List.replicate 4 0,
      sizeofSockaddrIn)
  else none

/-- `query_reverse`.  The service name is not used by the library. -/
def queryReverse (libc : CLibrary) (request : Request) : List Call :=
  match sockaddr request with
  | none => [.failed]
  | some (sa, salen) =>
      let (status, nodename) := libc.getnameinfo sa salen 0
      if status ≠ 0 then [.failed] else [.addNameInfo (some nodename), .finished]

end Netresolve.Libc
