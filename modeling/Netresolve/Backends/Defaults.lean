/-
The backends of the default string that need nobody else: `backends/unix.c`, and which functions
the modules `unix`, `any`, `loopback`, `numerichost`, `hosts` and `hostname` have.

What they read of the system is in `Host`.  It has the hosts file together with the list that
`read_list` makes of it, as this is done anew for each query.
-/
import Netresolve.Backends.Hostname
import Netresolve.Backends.Hosts
import Netresolve.Backends.Numerichost
import Netresolve.Core.BackendString
import Netresolve.Core.Chain

namespace Netresolve.Defaults

open BackendString CString
open Dns (backendGetNodename)

/-! ### `backends/unix.c` -/

/-- `query_forward`, by the calls it makes into the library. -/
def unixForward (request : Request) : List Call :=
  match backendGetNodename request with
  | none => [.failed]
  | some node =>
      if request.family ≠ AF_UNIX ∨ node.toList.head? ≠ some '/' then [.failed]
      else
        let address := bytesOf node.toList
        [.addPath { family := AF_UNIX, address, socktype := request.socktype }, .setSecure, .finished]

/-! ### The modules -/

/-- The modules of the default string up to `hostname`. -/
inductive Module where
  | unix | any | loopback | numerichost | hosts | hostname
  deriving DecidableEq, Repr

/-- In the order of the string. -/
def modules : List Module := [.unix, .any, .loopback, .numerichost, .hosts, .hostname]

def Module.name : Module → String
  | .unix => "unix"
  | .any => "any"
  | .loopback => "loopback"
  | .numerichost => "numerichost"
  | .hosts => "hosts"
  | .hostname => "hostname"

/-- Which of `query_forward`, `query_reverse` and `query_dns` the module has. -/
def Module.exports : Module → RequestType → Bool
  | _, .forward => true
  | .any, .reverse | .loopback, .reverse | .hosts, .reverse => true
  | _, _ => false

/-- What the modules read of the system. -/
structure Host where
  lits : Literals
  choice : Nat → Nat
  memory : Text
  fuel : Nat
  file : Option Text
  items : List Hosts.Item
  read : Hosts.readList lits choice memory fuel file = .ok items
  hostname : String
  interfaces : Option (List (Option Hostname.Sockaddr))

/-- The calls of a module for a request, if it has a function for the type. -/
def Module.setup (host : Host) (request : Request) (m : Module) :
    Except (Lines.Stop Empty) (List Call) :=
  match request.type, m with
  | .forward, .unix => .ok (unixForward request)
  | .forward, .any => .ok (Loopback.anyForward request)
  | .forward, .loopback => .ok (Loopback.loopbackForward request)
  | .forward, .numerichost =>
      .ok (Numerichost.queryForward host.lits (backendGetNodename request))
  | .forward, .hosts =>
      Hosts.queryForward host.lits host.choice host.memory host.fuel host.file
        (backendGetNodename request)
  | .forward, .hostname => .ok (Hostname.queryForward host.hostname host.interfaces request)
  | .reverse, .any => .ok (Loopback.anyReverse request)
  | .reverse, .loopback => .ok (Loopback.loopbackReverse request)
  | .reverse, .hosts =>
      Hosts.queryReverse host.lits host.choice host.memory host.fuel host.file request
  | _, _ => .ok []

/-! ### Queries on the default backends -/

/-- The linker finds the modules, with the functions they have. -/
def Linked (linker : Linker) : Prop :=
  ∀ m ∈ modules, ∃ handle, linker.dlopen (filename m.name.toList) = some handle ∧
    ∀ settings type, Loaded.setup linker ⟨false, settings, handle⟩ type = m.exports type

/-! ### What the host knows -/

/-- The items of the hosts file that `query_forward` and `query_reverse` look at. -/
def Host.entries (host : Host) : List Hosts.Item := host.items.takeWhile (·.name.isSome)

/-- The host can answer the request by itself. -/
inductive Host.Knows (host : Host) (request : Request) : Prop
  | path (node : String) (htype : request.type = .forward)
      (hnode : backendGetNodename request = some node) (hfamily : request.family = AF_UNIX)
      (hslash : node.toList.head? = some '/')
  | nobody (htype : request.type = .forward) (hnode : (backendGetNodename request).getD "" = "")
  | localhost (node : String) (htype : request.type = .forward)
      (hnode : backendGetNodename request = some node)
      (hname : node ∈ ["localhost", "localhost4", "localhost6"])
  | literal (node : String) (a : ParsedAddress) (htype : request.type = .forward)
      (hnode : backendGetNodename request = some node)
      (hparse : parseAddress host.lits (some node.toList) = some a) (hifindex : 0 ≤ a.ifindex)
  | listed (node : String) (item : Hosts.Item) (htype : request.type = .forward)
      (hnode : backendGetNodename request = some node) (hitem : item ∈ host.entries)
      (hname : item.name = some node.toList)
  | hostname (htype : request.type = .forward)
      (hnode : backendGetNodename request = some host.hostname)
      (hinterfaces : host.interfaces.isSome = true)
  | localAddress (htype : request.type = .reverse)
      (haddress : Loopback.isAny request.family request.address = true ∨
        Loopback.isLoopback request.family request.address = true)
  | listedAddress (item : Hosts.Item) (htype : request.type = .reverse)
      (hitem : item ∈ host.entries) (hfamily : item.family = request.family)
      (haddress : request.address.take (familyToLength request.family) =
        item.address.take (familyToLength request.family))

end Netresolve.Defaults
