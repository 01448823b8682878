/-
`backends/any.c` and `backends/loopback.c`: the addresses of the local host.

The second backend has a copy of the test of the first.  The constants are those of
`include/netresolve-backend.h` and of the C library.
-/
import Netresolve.Backends.Dns

namespace Netresolve.Loopback

open Dns (backendGetNodename)

def inaddrAny : List UInt8 := [0, 0, 0, 0]

def in6addrAny : List UInt8 := List.replicate 16 0

def inaddrLoopback : List UInt8 := [127, 0, 0, 1]

def in6addrLoopback : List UInt8 := List.replicate 15 0 ++ [1]

/-- `memcmp` with the constant of the family. -/
def isConstant (inaddr in6addr : List UInt8) (family : Int) (address : List UInt8) : Bool :=
  if family = AF_INET then address.take 4 = inaddr
  else if family = AF_INET6 then address.take 16 = in6addr
  else false

/-- `is_any`. -/
def isAny : Int → List UInt8 → Bool := isConstant inaddrAny in6addrAny

/-- `is_loopback`. -/
def isLoopback : Int → List UInt8 → Bool := isConstant inaddrLoopback in6addrLoopback

/-! ### `backends/any.c` -/

/-- `query_forward`, by the calls it makes into the library. -/
def anyForward (request : Request) : List Call :=
  if request.defaultLoopback then [.failed]
  else if (backendGetNodename request).any (· ≠ "") then [.failed]
  else [.addPath { family := AF_INET, address := inaddrAny },
    .addPath { family := AF_INET6, address := in6addrAny }, .setSecure, .finished]

/-- `query_reverse`. -/
def anyReverse (request : Request) : List Call :=
  if request.defaultLoopback then [.failed]
  else if ¬ isAny request.family request.address then [.failed]
  else [.addNameInfo (some ""), .setSecure, .finished]

/-! ### `backends/loopback.c` -/

/-- No node name, an empty one, or one of the two. -/
def names (node : Option String) (name : String) : Bool :=
  node = none || node = some "" || node = some "localhost" || node = some name

/-- `query_forward`. -/
def loopbackForward (request : Request) : List Call :=
  let ipv4 := names (backendGetNodename request) "localhost4"
  let ipv6 := names (backendGetNodename request) "localhost6"
  if ¬ ipv4 ∧ ¬ ipv6 then [.failed]
  else [.setCanonicalName "localhost"] ++
    (if ipv4 then [.addPath { family := AF_INET, address := inaddrLoopback }] else []) ++
    (if ipv6 then [.addPath { family := AF_INET6, address := in6addrLoopback }] else []) ++
    [.setSecure, .finished]

/-- `query_reverse`. -/
def loopbackReverse (request : Request) : List Call :=
  if ¬ isAny request.family request.address ∧ ¬ isLoopback request.family request.address then
    [.failed]
  else [.addNameInfo (some "localhost"), .setSecure, .finished]

end Netresolve.Loopback
