/-
`netresolve_query_gethostbyaddr` of `lib/compat.c` in blocking mode.

The reverse query has run to its end when `netresolve_query_reverse` returns, and only then is the
address added to its response, as a path.  Memory is taken to be there, so there is a query
whenever one is asked for.
-/
import Netresolve.Core.Compat
import Netresolve.Core.Query

namespace Netresolve.Compat

/-- The `switch` over the family: `case AF_INET6` has no `break`. -/
def gethostbyaddrAccepts (family length : Int) : Bool :=
  let otherwise := false
  if family = AF_INET then
    if length ≠ 4 then false else true
  else if family = AF_INET6 then
    if length ≠ 16 then false else otherwise
  else otherwise

/-- `context->request` and `context->config.force_family`. -/
structure Config where
  request : Request := {}
  forceFamily : Int := AF_UNSPEC

/--
The request of `netresolve_query_reverse` without an interface, a protocol and a port.  Only the
bytes of the family are copied to `request->address`.
-/
def reverseRequest (config : Config) (family : Int) (address : List UInt8) : Request :=
  { config.request with
    type := .reverse
    family := if config.forceFamily ≠ 0 then config.forceFamily else family
    address := address.take (familyToLength family) ++
      config.request.address.drop (familyToLength family) }

/--
`netresolve_query_gethostbyaddr`, with the state the reverse query has come to; `none` for NULL.
-/
def queryGethostbyaddr (env : Env) (reverse : Request → St) (config : Config)
    (address : List UInt8) (length family : Int) : Option (EStateM.Result Fault St Unit) :=
  if gethostbyaddrAccepts family length then
    some (backendAddPath env (querySetState env) { family, address }
      (reverse (reverseRequest config family address)))
  else none

/-- `netresolve_query_gethostbyaddr_done`. -/
def gethostbyaddrDone (q : Query) : Hostent := getHostent q

end Netresolve.Compat
