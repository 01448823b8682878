/-
`gethostbyname2_r` of `compat/libc.c`, with the memory it writes to.

The host entry that `netresolve_query_gethostbyname_done` makes is on the heap and is only read.
What is said about it is copied to the buffer of the caller: the name, an array for the aliases, of
which there are none, an array of pointers to the addresses, and the addresses.  The array of
pointers is first copied with what is in it, and then each pointer is replaced.

Sizes are sums over what is in memory already and do not wrap.  The two indices that are an `int` do:
the overflow of one is undefined.
-/
import Netresolve.Core.Nameinfo
import Netresolve.Library.Store

namespace Netresolve.Packing

open Store Bytes Compat Nameinfo

def INT_MAX : Nat := 2147483647

/-- What the language does not define: the use of a NULL pointer, and an `int` that overflows. -/
inductive Undefined where
  | null | overflow
  deriving DecidableEq, Repr

/-- `struct hostent`, with its pointers. -/
structure HostentC where
  name : Nat
  aliases : Nat
  addrtype : Int
  length : Nat
  addrList : Nat
  deriving DecidableEq, Repr

/-- An address as an array of bytes, which has zeros where nothing was stored. -/
def padded (n : Nat) (address : List UInt8) : List UInt8 := (address ++ List.replicate n 0).take n

/-- `netresolve_query_gethostbyname_done`; the index of its loop is an `int`. -/
def hostentOf (q : Query) : Except Undefined Hostent :=
  match gethostbynameDone q with
  | .error _ => .error .null
  | .ok tmp => if INT_MAX < q.response.paths.length then .error .overflow else .ok tmp

/-- The bytes of a name with the zero byte, none for NULL. -/
def nameBytes (name : Option String) : List UInt8 := (name.map zeroEnded).getD []

/-- The loop of `gethostbyname2_r` from an index on: the pointer, and the bytes it points to. -/
def copyAddresses (addrList data length : Nat) :
    Nat → List (List UInt8) → Mem → Except Undefined Mem
  | _, [], m => .ok m
  | i, address :: rest, m =>
      if INT_MAX < i * length then .error .overflow
      else
        let m := write m (addrList + 8 * i) (toBytes 8 (data + i * length))
        let m := write m (readPointer m (addrList + 8 * i)) (padded length address)
        copyAddresses addrList data length (i + 1) rest m

/-- The status, `*result`, and memory afterwards. -/
structure Packed where
  status : Int
  result : Option HostentC
  memory : Mem

/--
`gethostbyname2_r` with a query, for a buffer of `buflen` bytes.  `heap` tells where the addresses of
the host entry are.
-/
def gethostbyname2R (heap : Nat → Nat) (m : Mem) (buffer buflen : Nat) (q : Query) :
    Except Undefined Packed := do
  let tmp ← hostentOf q
  let lenName := (nameBytes tmp.name).length
  let count := tmp.addrs.length
  let lenAliases := (0 + 1) * 8
  let lenAddrList := (count + 1) * 8
  let lenAddrData := count * tmp.length
  let lenTotal := lenAliases + lenName + lenAddrList + lenAddrData
  if lenTotal > buflen then pure { status := ERANGE, result := none, memory := m }
  else do
    let he : HostentC :=
      { name := buffer
        aliases := buffer + lenName
        addrtype := tmp.addrtype
        length := tmp.length
        addrList := buffer + lenName + lenAliases }
    let m := write m buffer (List.replicate buflen 0)
    let m := write m he.name (nameBytes tmp.name)
    let m := write m he.aliases (List.replicate lenAliases 0)
    let m := write m he.addrList
      (((List.range count).map heap).flatMap (toBytes 8) ++ toBytes 8 0)
    let m ← copyAddresses he.addrList (buffer + lenName + lenAliases + lenAddrList) tmp.length 0
      tmp.addrs m
    pure { status := 0, result := some he, memory := m }

/-! ### Reading a host entry -/

/-- What a caller finds behind the pointers of a host entry. -/
structure Entry where
  name : List UInt8
  aliases : List (List UInt8)
  addrtype : Int
  length : Nat
  addrs : List (List UInt8)
  deriving DecidableEq, Repr

def readHostent (m : Mem) (fuel : Nat) (he : HostentC) : Option Entry := do
  let name ← readString m fuel he.name
  let aliases ← readArray m fuel he.aliases
  let aliases ← aliases.mapM (readString m fuel)
  let addrs ← readArray m fuel he.addrList
  pure { name, aliases, addrtype := he.addrtype, length := he.length
         addrs := addrs.map (read m · he.length) }

end Netresolve.Packing
