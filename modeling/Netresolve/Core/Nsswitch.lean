/-
The module for the name service switch: `compat/nsswitch.c`, the two functions that fill a buffer
with all addresses of a name.

The list comes from `netresolve_query_getaddrinfo_done`.  `buffer_append` cuts piece after piece
from the buffer of the caller.  One function makes a list of tuples of it, which is built through
a pointer to the pointer that is next, and the other a host entry.  A tuple has 40 bytes: the
pointer to the next one, the pointer to the name at 8, the family at 16, the address at 20, and
the scope at 36.
-/
import Netresolve.Core.Packing
import Netresolve.Backends.Nss

namespace Netresolve.Nsswitch

open Store Bytes Nss
open Compat (ERANGE)
open Nameinfo (zeroEnded)
open Packing (INT_MAX Undefined HostentC)

/-- `struct buffer_t`, what is left of the buffer. -/
structure Buffer where
  data : Nat
  length : Nat
  deriving DecidableEq, Repr

/--
`buffer_append`: the position of the piece, and the buffer and memory afterwards; `none` stands for
NULL, with `ERANGE` in `errno`.
-/
def bufferAppend (data : Option (List UInt8)) (size : Nat) (buffer : Buffer) (m : Mem) :
    Option (Nat × Buffer × Mem) :=
  let position := buffer.data
  let size :=
    match data with
    | some data => if size = 0 then (data.takeWhile (· ≠ 0)).length + 1 else size
    | none => size
  if buffer.length < size then none
  else
    let buffer := { data := buffer.data + size, length := buffer.length - size }
    match data with
    | some data => some (position, buffer, write m position (data.take size))
    | none => some (position, buffer, write m position (List.replicate size 0))

/-- The address in the socket address of an item, if it has a family of the two. -/
def itemAddress (item : Addrinfo) : List UInt8 :=
  if item.family = AF_INET then (item.addr.drop 4).take 4
  else if item.family = AF_INET6 then (item.addr.drop 8).take 16
  else []

/-- `extract_address`. -/
def extractAddress (item : Addrinfo) (address : Nat) (m : Mem) : Mem :=
  if address = 0 then m else write m address (itemAddress item)

/-- What a function returns, the error number if it stores one, and memory afterwards. -/
structure Returned where
  status : Int
  errno : Option Int := none
  memory : Mem

/-- The loop of `_nss_netresolve_gethostbyname4_r`; `result` is the address of the pointer. -/
def addTuples : Bool → List Addrinfo → Nat → Buffer → Mem → Returned
  | _, [], _, _, m => { status := NSS_STATUS_SUCCESS, memory := m }
  | first, item :: rest, result, buffer, m =>
      match bufferAppend none 40 buffer m with
      | none =>
          { status := NSS_STATUS_TRYAGAIN, errno := some ERANGE
            memory := write m result (toBytes 8 0) }
      | some (position, buffer, m) =>
          let m := write m result (toBytes 8 position)
          let tuple := readPointer m result
          let m := write m (tuple + 16) (ofInt 4 item.family)
          let m := extractAddress item (tuple + 20) m
          match if first then item.canonname else none with
          | none => addTuples false rest tuple buffer m
          | some name =>
              match bufferAppend (some (zeroEnded name)) 0 buffer m with
              | none =>
                  { status := NSS_STATUS_TRYAGAIN, errno := some ERANGE
                    memory := write m (tuple + 8) (toBytes 8 0) }
              | some (position, buffer, m) =>
                  addTuples false rest tuple buffer (write m (tuple + 8) (toBytes 8 position))

/-- `_nss_netresolve_gethostbyname4_r`, with what `_nss_netresolve_getaddrinfo` has returned. -/
def gethostbyname4R (status : Int) (list : List Addrinfo) (m : Mem) (result bufptr buflen : Nat) :
    Returned :=
  if status ≠ 0 then { status := NSS_STATUS_UNAVAIL, memory := m }
  else addTuples true list result { data := bufptr, length := buflen } m

/-! ### Host entries -/

/--
The loop of `_nss_netresolve_gethostbyname3_r` over the addresses, from a count on.  Where the
buffer ends there is only memory left.
-/
def addAddresses (family : Int) (length addrList : Nat) :
    Nat → List Addrinfo → Buffer → Mem → Except Mem (Buffer × Mem)
  | _, [], buffer, m => .ok (buffer, m)
  | count, item :: rest, buffer, m =>
      if item.family ≠ family then addAddresses family length addrList count rest buffer m
      else
        match bufferAppend none length buffer m with
        | none => .error (write m (addrList + 8 * count) (toBytes 8 0))
        | some (position, buffer, m) =>
            let m := write m (addrList + 8 * count) (toBytes 8 position)
            let m := extractAddress item (readPointer m (addrList + 8 * count)) m
            addAddresses family length addrList (count + 1) rest buffer m

/-- The same with the host entry. -/
structure HostReturned extends Returned where
  he : HostentC

/-- `h_length` for a family. -/
def hostLength (family : Int) : Nat := if family = AF_INET then 4 else 16

/-- `_nss_netresolve_gethostbyname3_r`, with what `_nss_netresolve_getaddrinfo` has returned. -/
def gethostbyname3R (status : Int) (list : List Addrinfo) (family : Int) (he : HostentC) (m : Mem)
    (bufptr buflen : Nat) : Except Undefined HostReturned :=
  if status ≠ 0 then .ok { status := NSS_STATUS_UNAVAIL, memory := m, he }
  -- `int count`, and `count + 1`
  else if INT_MAX ≤ list.length then .error .overflow
  else
    let he := { he with addrtype := family, length := hostLength family }
    let tryAgain (he : HostentC) (m : Mem) : HostReturned :=
      { status := NSS_STATUS_TRYAGAIN, errno := some ERANGE, memory := m, he }
    match bufferAppend none ((list.length + 1) * 8) { data := bufptr, length := buflen } m with
    | none => .ok (tryAgain { he with addrList := 0 } m)
    | some (position, buffer, m) =>
        let he := { he with addrList := position }
        match addAddresses family he.length he.addrList 0 list buffer m with
        | .error m => .ok (tryAgain he m)
        | .ok (buffer, m) =>
            match list with
            | [] => .error .null
            | item :: _ =>
                match item.canonname with
                | none => .ok { status := NSS_STATUS_SUCCESS, memory := m, he }
                | some name =>
                    match bufferAppend (some (zeroEnded name)) 0 buffer m with
                    | none => .ok (tryAgain { he with name := 0 } m)
                    | some (position, _, m) =>
                        .ok { status := NSS_STATUS_SUCCESS, memory := m
                              he := { he with name := position } }

/-! ### Reading a list of tuples -/

/-- What a caller finds in a tuple. -/
structure Tuple where
  name : Option (List UInt8)
  family : Int
  addr : List UInt8
  scopeid : Nat
  deriving DecidableEq, Repr

/-- The bytes of the string a pointer points to, if it is not NULL. -/
def readName (m : Mem) (fuel p : Nat) : Option (Option (List UInt8)) :=
  if p = 0 then some none else (readString m fuel p).map some

/-- The tuples from a pointer on; `fuel` bounds their number and the lengths of the names. -/
def readTuples (m : Mem) (strlen : Nat) : Nat → Nat → Option (List Tuple)
  | 0, _ => none
  | fuel + 1, a =>
      let p := readPointer m a
      if p = 0 then some []
      else do
        let name ← readName m strlen (readPointer m (p + 8))
        let family := Bytes.toInt (read m (p + 16) 4)
        let rest ← readTuples m strlen fuel p
        pure
          ({ name, family, addr := read m (p + 20) (familyToLength family)
             scopeid := ofBytes (read m (p + 36) 4) } :: rest)

end Netresolve.Nsswitch
