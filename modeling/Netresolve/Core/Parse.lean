/-
Addresses and paths as text: `netresolve_backend_parse_address` and `netresolve_backend_parse_path`
of `lib/backend.c`.

Which texts are addresses and which names are interfaces is for the C library and the kernel to
say, and is in `Literals`.
-/
import Netresolve.Core.Service
import Netresolve.Library.CString

namespace Netresolve

/-- `inet_pton` for the two families, and `if_nametoindex`, which is zero for an unknown name. -/
structure Literals where
  inetPton : Int → List Char → Option (List UInt8)
  ifNametoindex : List Char → Int

/-- What `netresolve_backend_parse_address` stores. -/
structure ParsedAddress where
  family : Int
  address : List UInt8
  ifindex : Int
  deriving DecidableEq, Repr

/-- The index of an interface, by its name or by its number. -/
def parseIfindex (lits : Literals) (ifname : List Char) : Int :=
  if toCInt (lits.ifNametoindex ifname) ≠ 0 then toCInt (lits.ifNametoindex ifname)
  else if (strtol ifname).2 ≠ [] then -1
  else toCInt (strtol ifname).1

/-- `netresolve_backend_parse_address`; the interface stands behind the first `%`. -/
def parseAddress (lits : Literals) : Option (List Char) → Option ParsedAddress
  | none => none
  | some string =>
      let node := string.takeWhile (· ≠ '%')
      let ifname := (string.dropWhile (· ≠ '%')).tail
      match lits.inetPton AF_INET node with
      | some address => some ⟨AF_INET, address, parseIfindex lits ifname⟩
      | none =>
          match lits.inetPton AF_INET6 node with
          | some address => some ⟨AF_INET6, address, parseIfindex lits ifname⟩
          | none => none

/-! ### Paths -/

namespace ParsePath

open CString

/-- `struct enum_item`. -/
structure EnumItem where
  id : Int
  name : String
  deriving DecidableEq, Repr

/-- The items before the terminator. -/
def socktypes : List EnumItem :=
  [⟨SOCK_STREAM, "stream"⟩, ⟨SOCK_DGRAM, "dgram"⟩, ⟨SOCK_SEQPACKET, "seqpacket"⟩]

def protocols : List EnumItem :=
  [⟨IPPROTO_TCP, "tcp"⟩, ⟨IPPROTO_UDP, "udp"⟩, ⟨IPPROTO_SCTP, "sctp"⟩]

/-- `enum_id_from_name`, with an empty list for NULL. -/
def enumIdFromName (str : Option Text) (list : List EnumItem) : Int :=
  match str with
  | none => 0
  | some str =>
      match list with
      -- the body of the loop is a return statement
      | item :: _ => item.id
      | [] => toCInt (strtol str).1

/-- What `netresolve_backend_parse_path` stores. -/
structure ParsedPath extends ParsedAddress where
  socktype : Int
  protocol : Int
  port : Int
  deriving DecidableEq, Repr

def space (c : Char) : Bool := c = ' '

/-- `netresolve_backend_parse_path`. -/
def parsePath (lits : Literals) (str : Text) : Option ParsedPath :=
  let (address, t) := Tape.strtok space ⟨[], str⟩
  match parseAddress lits address with
  | none => none
  | some address =>
      let (socktype, t) := t.strtok space
      let (protocol, t) := t.strtok space
      let (port, _) := t.strtok space
      some { address with
        socktype := enumIdFromName socktype socktypes
        protocol := enumIdFromName protocol protocols
        port := enumIdFromName port [] }

end ParsePath

end Netresolve
