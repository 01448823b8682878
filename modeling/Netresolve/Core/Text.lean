/-
Queries as text: the functions of `lib/string.c` that write to `query->buffer`.

A text is the list of its bytes, written as characters, and `%s` prints its `cstring`.  `bprintf`
formats a piece of it at the write position and moves the position on; the formats are spelled out
in the callers.  The memory is a function of the offset from the start of the buffer, so that what
is written behind the end of the buffer is not lost.  `text` and `calls` are ghost data: everything
that was formatted, and the positions and sizes `vsnprintf` was called with, newest call first.

The texts that come from other libraries are in `Libc`, with the bounds they are documented to
keep.
-/
import Netresolve.Core.Addrinfo
import Netresolve.Library.CString

namespace Netresolve.Print

open CString

/-- `sizeof query->buffer`. -/
def bufferSize : Nat := 1024

def INT_MAX : Nat := 2147483647

def IF_NAMESIZE : Nat := 16

/-! ### Formats -/

/-- `%d`. -/
def decimal (n : Int) : Text := (toString (toCInt n)).toList

/-- `%02hhx`. -/
def hexByte (byte : UInt8) : Text :=
  [Nat.digitChar (byte.toNat / 16), Nat.digitChar (byte.toNat % 16)]

/-- `socktype_to_string`. -/
def socktypeToString (socktype : Int) : Text :=
  if socktype = 0 then "any".toList
  else if socktype = SOCK_DGRAM then "dgram".toList
  else if socktype = SOCK_STREAM then "stream".toList
  else if socktype = SOCK_SEQPACKET then "seqpacket".toList
  else if socktype = SOCK_RAW then "raw".toList
  else "unknown".toList

/-- `protocol_to_string`. -/
def protocolToString (proto : Int) : Text :=
  if proto = 0 then "any".toList
  else if proto = IPPROTO_UDP then "udp".toList
  else if proto = IPPROTO_TCP then "tcp".toList
  else if proto = IPPROTO_SCTP then "sctp".toList
  else "unknown".toList

/-- Texts of other libraries: addresses, interface names, and packets where there is LDNS. -/
structure Libc where
  inetNtop : Int → List UInt8 → Text
  ifIndextoname : Int → Option { name : Text // name.length < IF_NAMESIZE }
  pkt2str : Option (List UInt8 → Option { text : Text // text.length < INT_MAX }) := none

/-! ### Writing -/

/-- The arguments and the effect of one call of `bprintf` on the write position. -/
structure Printf where
  before : Nat
  size : Nat
  after : Nat
  deriving DecidableEq, Repr

/-- The write position in the buffer, and the memory from the start of the buffer on. -/
structure Writer where
  start : Nat := 0
  memory : Nat → Char
  text : Text := []
  calls : List Printf := []

/-- A path index out of range. -/
inductive Fault where
  | assertion
  deriving DecidableEq, Repr

abbrev W := EStateM Fault Writer

/-- `end - *current` as a `size_t`. -/
def sizeLeft (start : Nat) : Nat := (((bufferSize : Int) - start) % 2 ^ 64).toNat

/-- What `vsnprintf` writes: as much as fits, and the terminator, if the size is not zero. -/
def written (memory : Nat → Char) (start size : Nat) (text : Text) : Nat → Char := fun i =>
  let n := min text.length (size - 1)
  if size = 0 then memory i
  else if start ≤ i ∧ i < start + n then text.getD (i - start) nul
  else if i = start + n then nul
  else memory i

/-- What `vsnprintf` returns: the length of the text, if that is an `int`. -/
def vsnprintf (text : Text) : Int := if text.length ≤ INT_MAX then text.length else -1

/-- `bprintf`. -/
def Writer.printed (w : Writer) (text : Text) : Writer :=
  let size := vsnprintf text
  let after := if size > 0 then w.start + size.toNat else w.start
  { start := after
    memory := written w.memory w.start (sizeLeft w.start) text
    text := w.text ++ text
    calls := ⟨w.start, sizeLeft w.start, after⟩ :: w.calls }

def bprintf (text : Text) : W Unit := modify (·.printed text)

/-! ### Paths -/

section

variable (libc : Libc) (clampTtl : Int)

/-- `addrstr` of `add_path`. -/
def addrstr (path : Path) : Text :=
  if path.family = AF_INET ∨ path.family = AF_INET6 then
    let text := libc.inetNtop path.family path.address
    if text.length < 1024 then text else []
  else []

/-- `ifname` of `add_path`. -/
def ifname (path : Path) : Text :=
  if path.ifindex ≠ 0 then
    '%' :: match libc.ifIndextoname path.ifindex with
      | some name => name
      | none => (decimal path.ifindex).take IF_NAMESIZE
  else []

/-- The address of a path as a string; the array has 1024 bytes and ends with a zero. -/
def unixAddress (path : Path) : Text :=
  cstring ((path.address.take 1023).map fun byte => Char.ofNat byte.toNat)

/-- What `add_path` prints. -/
def pathText (path : Path) : Text :=
  if path.family = AF_UNIX then
    "unix ".toList ++ unixAddress path ++ " ".toList ++ socktypeToString path.socktype
  else
    "ip ".toList ++ addrstr libc path ++ ifname libc path ++ " ".toList ++
      socktypeToString path.socktype ++ " ".toList ++ protocolToString path.protocol ++
      " ".toList ++ decimal path.port ++ " ".toList ++ decimal path.priority ++
      " ".toList ++ decimal path.weight ++ " ".toList ++ decimal (Addrinfo.auxTtl clampTtl path)

/-- `add_path`. -/
def addPath (query : Query) (i : Nat) : W Unit :=
  match query.response.paths[i]? with
  | none => throw .assertion
  | some path => bprintf (pathText libc clampTtl path.value)

/-! ### The three functions -/

/-- `netresolve_backend_get_nodename`. -/
def backendGetNodename (query : Query) : Option Text :=
  (query.request.dnsName <|> query.request.nodename).map String.toList

/-- `netresolve_backend_get_servname`. -/
def backendGetServname (query : Query) : Option Text := query.request.servname.map String.toList

/-- `netresolve_query_get_node_name`. -/
def queryGetNodeName (query : Query) : Option Text :=
  match query.response.nodename with
  | some name => some name.value.toList
  | none =>
      if query.state ≠ .done then none
      else if query.request.type ≠ .forward then none
      else some ((query.request.nodename.getD "localhost").toList)

/-- `netresolve_query_get_service_name`. -/
def queryGetServiceName (query : Query) : Option Text :=
  query.response.servname.map (·.value.toList)

/-- `netresolve_query_get_dns_answer`. -/
def queryGetDnsAnswer (query : Query) : List UInt8 :=
  (query.response.dns.map (·.value)).getD []

/-- A line for a name that is there. -/
def printName (keyword : String) : Option Text → W Unit
  | none => pure ()
  | some name => bprintf (keyword.toList ++ cstring name ++ "\n".toList)

/-- `netresolve_get_request_string`. -/
def getRequestString (query : Query) : W Unit := do
  bprintf "request netresolve 0.0.1\n".toList
  printName "node " (backendGetNodename query)
  printName "service " (backendGetServname query)
  bprintf "\n".toList

/-- `netresolve_get_path_string`. -/
def getPathString (query : Query) (i : Nat) : W Unit := addPath libc clampTtl query i

/-- The DNS answer in hexadecimal and, where there is LDNS, as text; false if that fails. -/
def printAnswer (answer : List UInt8) : W Bool := do
  if answer.length ≠ 0 then do
    bprintf ("dns ".toList ++ decimal answer.length ++ " 0x".toList)
    forM answer fun byte => bprintf (hexByte byte)
    bprintf "\n".toList
    match libc.pkt2str with
    | none => pure true
    | some pkt2str =>
        match pkt2str answer with
        | none => pure false
        | some text => do
            bprintf (cstring text ++ "\n".toList)
            pure true
  else pure true

/-- `netresolve_get_response_string`; false stands for NULL. -/
def getResponseString (query : Query) : W Bool := do
  bprintf "response netresolve 0.0.1\n".toList
  printName "name " (queryGetNodeName query)
  printName "service " (queryGetServiceName query)
  forM (List.range query.response.paths.length) fun i => do
    addPath libc clampTtl query i
    bprintf "\n".toList
  if ← printAnswer libc (queryGetDnsAnswer query) then do
    (if query.response.security = .secure then bprintf "secure\n".toList else pure ())
    bprintf "\n".toList
    pure true
  else pure false

end

end Netresolve.Print
