/-
Requests as they are put together: `lib/request.c` and the entry points of `lib/query.c`.

A query starts with a copy of the request of its context.  The options of the call are applied to
the copy in their order, and the family that the environment forces comes last.  An option that
takes a pointer to an address is given the bytes that are found there.

`netresolve_query_getnameinfo` of `lib/compat.c` is one more entry point: it makes the arguments
of a reverse query out of a socket address.
-/
import Netresolve.Core.Addrinfo
import Netresolve.Core.Hostent

namespace Netresolve.Options

open Compat (Config)

/-! ### `lib/request.c` -/

/-- `enum netresolve_option`, with the argument that follows it; `unknown` is any other number. -/
inductive RequestOption where
  | nodeName (source : Option String)
  | serviceName (source : Option String)
  | family (source : Int)
  | socktype (source : Int)
  | protocol (source : Int)
  | ifindex (source : Int)
  | ip4Address (source : List UInt8)
  | ip6Address (source : List UInt8)
  | port (source : Int)
  | dnsName (source : Option String)
  | dnsClass (source : Int)
  | dnsType (source : Int)
  | defaultLoopback (source : Int)
  | dnsSrvLookup (source : Int)
  | unknown
  deriving DecidableEq, Repr

/-- `copy_positive`. -/
def copyPositive (target source : Int) : Int := if 0 < source then source else target

/-- `memcpy` to the start of `request->address`. -/
def copyAddress (target source : List UInt8) (n : Nat) : List UInt8 :=
  source.take n ++ target.drop n

/-- The `switch` of `netresolve_request_set_options_from_va`, and whether it goes on. -/
def setOption (r : Request) : RequestOption → Request × Bool
  | .nodeName source => ({ r with nodename := source }, true)
  | .serviceName source => ({ r with servname := source }, true)
  | .family source => ({ r with family := copyPositive r.family source }, true)
  | .socktype source => ({ r with socktype := copyPositive r.socktype source }, true)
  | .protocol source => ({ r with protocol := copyPositive r.protocol source }, true)
  | .ifindex source => ({ r with ifindex := copyPositive r.ifindex source }, true)
  | .ip4Address source =>
      ({ r with family := AF_INET, address := copyAddress r.address source 4 }, true)
  | .ip6Address source =>
      ({ r with family := AF_INET6, address := copyAddress r.address source 16 }, true)
  | .port source => ({ r with port := copyPositive r.port source }, true)
  | .dnsName source => ({ r with dnsName := source }, true)
  | .dnsClass source => ({ r with dnsClass := source }, true)
  | .dnsType source => ({ r with dnsType := source }, true)
  | .defaultLoopback source => ({ r with defaultLoopback := source ≠ 0 }, true)
  | .dnsSrvLookup source => ({ r with dnsSrvLookup := source ≠ 0 }, true)
  | .unknown => (r, false)

/-- `netresolve_request_set_options_from_va`.  What came before an unknown option stays. -/
def setOptions : Request → List RequestOption → Request × Bool
  | r, [] => (r, true)
  | r, option :: rest =>
      match setOption r option with
      | (r, true) => setOptions r rest
      | (r, false) => (r, false)

/-! ### `lib/context.c` -/

/-- What `netresolve_context_new` takes from the environment. -/
structure Environment where
  forceFamily : Int := AF_UNSPEC
  defaultLoopback : Bool := false
  requestTimeout : Int := 15000
  resultTimeout : Int := 5000
  deriving DecidableEq, Repr

/-- `netresolve_context_new`. -/
def contextNew (environment : Environment) : Config where
  request :=
    { defaultLoopback := environment.defaultLoopback
      requestTimeout := environment.requestTimeout
      resultTimeout := environment.resultTimeout }
  forceFamily := environment.forceFamily

/-- `netresolve_context_set_options`, which does not look at the result. -/
def contextSetOptions (config : Config) (options : List RequestOption) : Config :=
  { config with request := (setOptions config.request options).1 }

/-- A new context after some calls of `netresolve_context_set_options`. -/
def configured (environment : Environment) (calls : List (List RequestOption)) : Config :=
  calls.foldl contextSetOptions (contextNew environment)

/-! ### `lib/query.c` -/

/-- `netresolve_query` up to the start of the query; `none` for NULL. -/
def query (config : Config) (type : RequestType) (options : List RequestOption) :
    Option Request :=
  match setOptions { config.request with type } options with
  | (_, false) => none
  | (request, true) =>
      some (if config.forceFamily ≠ 0 then { request with family := config.forceFamily }
        else request)

/-- `netresolve_query_forward`. -/
def queryForward (config : Config) (nodename servname : Option String) : Option Request :=
  query config .forward [.nodeName nodename, .serviceName servname]

/-- The arguments of `netresolve_query_reverse`, with the bytes that `address` points to. -/
structure ReverseArgs where
  family : Int
  address : List UInt8
  ifindex : Int := 0
  protocol : Int := 0
  port : Int := 0
  deriving DecidableEq, Repr

/-- The `switch` of `netresolve_query_reverse`. -/
def ReverseArgs.addressOption (args : ReverseArgs) : Option RequestOption :=
  if args.family = AF_INET then some (.ip4Address args.address)
  else if args.family = AF_INET6 then some (.ip6Address args.address)
  else none

/-- `netresolve_query_reverse`. -/
def queryReverse (config : Config) (args : ReverseArgs) : Option Request :=
  match args.addressOption with
  | none => none
  | some addressOption =>
      query config .reverse
        [addressOption, .ifindex args.ifindex, .protocol args.protocol, .port args.port]

/-- `netresolve_query_dns`. -/
def queryDns (config : Config) (dname : Option String) (cls type : Int) : Option Request :=
  query config .dns [.dnsName dname, .dnsClass cls, .dnsType type]

/-! ### `netresolve_query_getnameinfo` -/

open Bytes Addrinfo

def NI_DGRAM : Nat := 16

/-- `sizeof (struct sockaddr_in)`. -/
def sizeofSockaddrIn : Nat := 16

/-- `sizeof (struct sockaddr_in6)`. -/
def sizeofSockaddrIn6 : Nat := 28

/-- What `netresolve_query_getnameinfo` makes of a socket address; `none` for NULL. -/
def reverseArgs (sa : List UInt8) (salen flags : Nat) : Option ReverseArgs :=
  let family : Int := ofBytes (sa.take 2)
  let protocol := if flags &&& NI_DGRAM ≠ 0 then IPPROTO_UDP else IPPROTO_TCP
  let port := ntohs ((sa.drop 2).take 2)
  if family = AF_INET then
    if salen ≠ sizeofSockaddrIn then none
    else some { family, address := (sa.drop 4).take 4, ifindex := 0, protocol, port }
  else if family = AF_INET6 then
    if salen ≠ sizeofSockaddrIn6 then none
    else some { family, address := (sa.drop 8).take 16, ifindex := toInt ((sa.drop 24).take 4),
                protocol, port }
  else none

/-- `netresolve_query_getnameinfo`. -/
def queryGetnameinfo (config : Config) (sa : List UInt8) (salen flags : Nat) : Option Request :=
  (reverseArgs sa salen flags).bind (queryReverse config)

end Netresolve.Options
