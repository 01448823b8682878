/-
`backends/hostname.c`: the host name stands for the addresses of the interfaces.

The list of `getifaddrs` has an entry for each address.  An entry may have no address at all, and
the addresses of some families are not IP addresses.  What the functions read of a socket address
is in `Sockaddr`.  The host name is what `uname` stores.
-/
import Netresolve.Backends.Loopback

namespace Netresolve.Hostname

open Dns (backendGetNodename)
open Loopback (inaddrLoopback in6addrLoopback)

/-- A socket address, by the families that `add_addresses` tells apart. -/
inductive Sockaddr where
  | inet (addr : Vector UInt8 4)
  | inet6 (addr : Vector UInt8 16) (scopeId : UInt32)
  | other
  deriving DecidableEq, Repr

/-- `memcmp` with the result zero. -/
def same (s t : List UInt8) (n : Nat) : Bool := s.take n = t.take n

/-- `sizeof inaddr_loopback`. -/
def sizeofInaddrLoopback : Nat := 4

/--
The body of the loop of `add_addresses`: the arguments of the path it adds, if it does not go on
to the next entry.  Both comparisons have the same length.
-/
def pathArgs (filter : Bool) : Option Sockaddr → Option PathArgs
  | none => none
  | some (.inet addr) =>
      if filter && same addr.toList inaddrLoopback sizeofInaddrLoopback then none
      else some { family := AF_INET, address := addr.toList }
  | some (.inet6 addr scopeId) =>
      if filter && same addr.toList in6addrLoopback sizeofInaddrLoopback then none
      else some { family := AF_INET6, address := addr.toList, ifindex := toCInt scopeId.toNat }
  | some .other => none

/-- `add_addresses`, with the calls it makes into the library and its result. -/
def addAddresses (filter : Bool) : List (Option Sockaddr) → List Call × Bool
  | [] => ([], false)
  | item :: rest =>
      match pathArgs filter item with
      | none => addAddresses filter rest
      | some args => (.addPath args :: (addAddresses filter rest).1, true)

/-- The two calls of `add_addresses` in `query_forward`. -/
def addPaths (list : List (Option Sockaddr)) : List Call :=
  let filtered := addAddresses true list
  if filtered.2 then filtered.1 else filtered.1 ++ (addAddresses false list).1

/-- `query_forward`, with the host name and the list, if there is one. -/
def queryForward (hostname : String) (list : Option (List (Option Sockaddr)))
    (request : Request) : List Call :=
  match backendGetNodename request with
  | none => [.failed]
  | some nodename =>
      if nodename ≠ hostname then [.failed]
      else match list with
        | none => [.failed]
        | some list => addPaths list ++ [.setCanonicalName nodename, .finished]

end Netresolve.Hostname
