/-
The service table of `lib/service.c`.

A service name is turned into a list of socket type, protocol and port triples.
The table `protocols` is the one of the source, in its order, and `foundPort`
walks it once for every port that was found.  The services file itself is read
elsewhere; here it is the list of entries it contained.
-/
import Mathlib.Algebra.Order.Ring.Int
import Mathlib.Data.List.Basic

namespace Netresolve

/-! ### Constants of the C library -/

def AF_UNSPEC : Int := 0
def AF_UNIX : Int := 1
def AF_INET : Int := 2
def AF_INET6 : Int := 10

def SOCK_STREAM : Int := 1
def SOCK_DGRAM : Int := 2
def SOCK_RAW : Int := 3
def SOCK_SEQPACKET : Int := 5
def SOCK_DCCP : Int := 6

def IPPROTO_TCP : Int := 6
def IPPROTO_UDP : Int := 17
def IPPROTO_DCCP : Int := 33
def IPPROTO_SCTP : Int := 132
def IPPROTO_UDPLITE : Int := 136

/-! ### Reading a number -/

/-- `isspace` of the C locale. -/
def isSpace (c : Char) : Bool :=
  c = ' ' || c = '\t' || c = '\n' || c = '\x0b' || c = '\x0c' || c = '\r'

/-- The value of a run of decimal digits, most significant digit first. -/
def digitsValue (digits : List Char) : Int :=
  digits.foldl (fun n c => n * 10 + (c.toNat - '0'.toNat : Nat)) 0

/-- The result of `strtol` is clamped to the range of a 64-bit `long`. -/
def clampLong (n : Int) : Int := max (-(2 ^ 63)) (min (2 ^ 63 - 1) n)

/-- Storing a `long` in an `int` keeps its low 32 bits. -/
def toCInt (n : Int) : Int := (n + 2 ^ 31) % 2 ^ 32 - 2 ^ 31

/--
`strtol(str, &endptr, 10)`: the value and the characters from `endptr` on.
Without a digit nothing is consumed, the blanks and the sign included.
-/
def strtol (str : List Char) : Int × List Char :=
  let body := str.dropWhile isSpace
  let (negative, rest) := match body with
    | '-' :: rest => (true, rest)
    | '+' :: rest => (false, rest)
    | rest => (false, rest)
  let digits := rest.takeWhile Char.isDigit
  if digits.isEmpty then (0, str)
  else
    let n := digitsValue digits
    (clampLong (if negative then -n else n), rest.dropWhile Char.isDigit)

/-! ### The table -/

/-- `struct netresolve_protocol`. -/
structure Protocol where
  socktype : Int
  protocol : Int
  defaultpair : Bool
  name : String
  deriving DecidableEq, Repr

/-- The rows before the terminator. -/
def protocols : List Protocol :=
  [⟨SOCK_STREAM, IPPROTO_TCP, true, "tcp"⟩,
   ⟨SOCK_DGRAM, IPPROTO_UDP, true, "udp"⟩,
   ⟨SOCK_DCCP, IPPROTO_DCCP, false, "dccp"⟩,
   ⟨SOCK_DGRAM, IPPROTO_UDPLITE, false, "udplite"⟩,
   ⟨SOCK_STREAM, IPPROTO_SCTP, false, "sctp"⟩,
   ⟨SOCK_SEQPACKET, IPPROTO_SCTP, false, "sctp"⟩,
   ⟨SOCK_RAW, 0, true, "raw"⟩]

/-- `struct netresolve_service`. -/
structure Service where
  protocol : Int
  port : Int
  name : String
  deriving DecidableEq, Repr

/-- The arguments of one call of a `netresolve_service_callback`. -/
structure ServiceMatch where
  name : Option String
  socktype : Int
  protocol : Int
  port : Int
  deriving DecidableEq, Repr

/-- The callbacks `found_port` makes, in order. -/
def foundPort (name : Option String) (socktype proto port : Int) : List ServiceMatch :=
  (protocols.filter fun p =>
      !(socktype != 0 && socktype != p.socktype) &&
      !(proto != 0 && proto != p.protocol) &&
      !((socktype == 0 || proto == 0) && !p.defaultpair)).map
    fun p => ⟨name, p.socktype, p.protocol, port⟩

/-- The test an entry of the services list has to pass to be used. -/
def serviceMatches (name : Option String) (protocol port : Int) (service : Service) : Bool :=
  !(name.isSome && name != some service.name) &&
  !(protocol != 0 && protocol != service.protocol) &&
  !((port != 0 || name.isNone) && port != service.port)

/-- The callbacks `netresolve_service_list_query` makes, in order. -/
def serviceListQuery (services : List Service) (name : Option String)
    (socktype protocol port : Int) : List ServiceMatch :=
  let number : Int × Bool := match name with
    | some str =>
        if port = 0 then (toCInt (strtol str.toList).1, (strtol str.toList).2.isEmpty)
        else (port, false)
    | none => (port, false)
  let port := number.1
  if number.2 then foundPort name socktype protocol port
  else
    let found := services.filter (serviceMatches name protocol port)
    if found.isEmpty then
      foundPort (if port != 0 then some (toString port) else none) socktype protocol port
    else
      found.flatMap fun service =>
        foundPort (some service.name) socktype service.protocol service.port

end Netresolve
