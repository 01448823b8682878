/-
The two copies of `getnameinfo`, byte by byte: `asyncns_getnameinfo_done` of `compat/asyncns.c`
and `getnameinfo` of `compat/libc.c`.

A buffer is the list of its bytes, and its length the one the caller hands over.  The functions
compare and convert these lengths in types of their own: `size_t` in the first, `int` and
`socklen_t` in the second.  A write behind the end of a buffer is a crash.
-/
import Netresolve.Core.Compat
import Netresolve.Library.CString

namespace Netresolve.Nameinfo

open Compat
open CString (bytesOf)

/-! ### Strings in buffers -/

/-- The bytes of a string, up to the zero byte that ends it. -/
def bytes (s : String) : List UInt8 := (bytesOf s.toList).takeWhile (· ≠ 0)

/-- The bytes of a string with the zero byte. -/
def zeroEnded (s : String) : List UInt8 := bytes s ++ [0]

/-- The string at the start of a buffer. -/
def stringIn (buffer : List UInt8) : List UInt8 := buffer.takeWhile (· ≠ 0)

/-- `memcpy`, with a length that is at most that of the source. -/
def memcpy (dest src : List UInt8) (n : Nat) : Except Crash (List UInt8) :=
  if n ≤ dest.length then .ok (src.take n ++ dest.drop n) else .error .overflow

/-- The conversion of an `int` to `socklen_t`, as in a comparison of the two. -/
def toSocklen (n : Int) : Nat := (n % 4294967296).toNat

/-- The conversion of an `int` to `size_t`. -/
def toSize (n : Int) : Nat := (n % 18446744073709551616).toNat

/-! ### The entry points -/

/-- The status, and the buffers of the caller afterwards. -/
structure Filled where
  status : Int
  host : Option (List UInt8)
  serv : Option (List UInt8)
  deriving DecidableEq, Repr

/-- `strlen(s) + 1` as an `int`, and zero for NULL. -/
def intSize : Option String → Int
  | none => 0
  | some s => toInt (zeroEnded s).length

/-- `buffer && mylen > len`, for a buffer of that length. -/
def exceeds (mylen : Int) (buffer : Option (List UInt8)) : Bool :=
  match buffer with
  | none => false
  | some buffer => buffer.length < toSocklen mylen

/-- `memset` and `memcpy` into a buffer, if there is one. -/
def fill (buffer : Option (List UInt8)) (s : Option String) (mylen : Int) :
    Except Crash (Option (List UInt8)) :=
  match buffer, s with
  | none, _ => .ok none
  | some buffer, none => .ok (some (List.replicate buffer.length 0))
  | some buffer, some s =>
      (memcpy (List.replicate buffer.length 0) (zeroEnded s) (toSize mylen)).map some

/-- `getnameinfo`, with the buffers that are not NULL. -/
def getnameinfo (query : Option Query) (host serv : Option (List UInt8)) :
    Except Crash Filled :=
  match query with
  | none => .ok ⟨Compat.EAI_SYSTEM, host, serv⟩
  | some q =>
      let (status, myhost, myserv) := getnameinfoDone q
      if status = 0 then
        let myhostlen := intSize myhost
        let myservlen := intSize myserv
        if exceeds myhostlen host || exceeds myservlen serv then
          .ok ⟨EAI_OVERFLOW, host, serv⟩
        else do
          let host ← fill host myhost myhostlen
          let serv ← fill serv myserv myservlen
          pure ⟨status, host, serv⟩
      else .ok ⟨status, host, serv⟩

/-- `asyncns_getnameinfo_done`. -/
def asyncnsGetnameinfoDone (q : Query) (host serv : List UInt8) : Except Crash Filled :=
  let (status, myhost, myserv) := getnameinfoDone q
  if status = 0 then
    match myhost, myserv with
    | some myhost, some myserv =>
        let myhostlen := (zeroEnded myhost).length
        let myservlen := (zeroEnded myserv).length
        if host.length ≤ myhostlen ∧ serv.length ≤ myservlen then do
          let host ← memcpy host (zeroEnded myhost) myhostlen
          let serv ← memcpy serv (zeroEnded myserv) myservlen
          pure ⟨status, some host, some serv⟩
        else .ok ⟨ERANGE, some host, some serv⟩
    -- strlen(NULL)
    | _, _ => .error .string
  else .ok ⟨status, some host, some serv⟩

end Netresolve.Nameinfo
