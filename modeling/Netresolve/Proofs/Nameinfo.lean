/-
When the two copies of `getnameinfo` agree.

The comparison in `asyncns_getnameinfo_done` is the wrong way round: it copies if neither buffer
is longer than its string.  So it is right if both strings fill their buffers exactly, and where
it refuses to copy for the wrong reason while there is a right one: one buffer is longer than its
string, which makes it refuse, and the other one is too short.  The size in `getnameinfo` is an
`int`, so strings of 2 GiB and more are measured wrongly.
-/
import Netresolve.Core.Nameinfo
import Mathlib.Data.List.TakeWhile

namespace Netresolve.Nameinfo

open Compat
open CString (bytesOf bytesOf_length)

/-! ### Sizes -/

theorem zero_not_mem_bytes (s : String) : 0 ∉ bytes s := by
  intro h
  simpa using List.mem_takeWhile_imp h

theorem zeroEnded_length (s : String) : (zeroEnded s).length = (bytes s).length + 1 := by
  rw [zeroEnded, List.length_append, List.length_singleton]

/-- The size as `socklen_t`, in the comparison. -/
theorem toSocklen_intSize (s : String) :
    toSocklen (intSize (some s)) = (zeroEnded s).length % 4294967296 := by
  unfold toSocklen intSize toInt
  rw [show (4294967296 : Int) = ((4294967296 : Nat) : Int) from rfl, Int.bmod_emod]
  omega

/-- The size as `size_t`, in the copy: the sign of the `int` is extended. -/
theorem toSize_intSize (s : String) :
    toSize (intSize (some s)) =
      if (zeroEnded s).length % 4294967296 < 2147483648 then (zeroEnded s).length % 4294967296
      else (zeroEnded s).length % 4294967296 + (18446744073709551616 - 4294967296) := by
  unfold toSize
  have hint : intSize (some s) = Int.bmod (zeroEnded s).length 4294967296 := rfl
  rw [hint, Int.bmod_def]
  by_cases hsign : (zeroEnded s).length % 4294967296 < 2147483648
  · rw [if_pos hsign, if_pos (by omega)]
    omega
  · rw [if_neg hsign, if_neg (by omega)]
    omega

/-! ### Copies -/

theorem stringIn_zeroEnded (s : String) (rest : List UInt8) :
    stringIn (zeroEnded s ++ rest) = bytes s := by
  unfold stringIn zeroEnded
  rw [List.append_assoc, List.takeWhile_append_of_pos, List.singleton_append,
    List.takeWhile_cons_of_neg (by simp), List.append_nil]
  intro b hb
  simpa using fun hzero : b = 0 => zero_not_mem_bytes s (hzero ▸ hb)

theorem memcpy_fits {dest : List UInt8} {s : String} (h : (zeroEnded s).length ≤ dest.length) :
    memcpy dest (zeroEnded s) (zeroEnded s).length =
      .ok (zeroEnded s ++ dest.drop (zeroEnded s).length) := by
  rw [memcpy, if_pos h, List.take_length]

theorem fill_fits {s : String} {buffer : List UInt8} (hroom : (zeroEnded s).length ≤ buffer.length)
    (hsmall : (zeroEnded s).length < 2147483648) :
    fill (some buffer) (some s) (intSize (some s)) =
      .ok (some (zeroEnded s ++ (List.replicate buffer.length 0).drop (zeroEnded s).length)) := by
  have hsize : toSize (intSize (some s)) = (zeroEnded s).length := by
    rw [toSize_intSize, if_pos (by omega)]
    omega
  rw [fill, hsize, memcpy_fits (by rw [List.length_replicate]; exact hroom)]
  rfl

theorem fill_ok {s : String} {buffer : List UInt8} {mylen : Int} {r : Option (List UInt8)}
    (h : fill (some buffer) (some s) mylen = .ok r) : toSize mylen ≤ buffer.length := by
  by_contra hlong
  rw [fill, memcpy, if_neg (by rw [List.length_replicate]; exact hlong)] at h
  cases h

/-- What has been filled was found to have room. -/
theorem fill_both_ok {hostbuf servbuf : List UInt8} {host serv : String} {f : Filled}
    (h : (do
      let host ← fill (some hostbuf) (some host) (intSize (some host))
      let serv ← fill (some servbuf) (some serv) (intSize (some serv))
      pure ⟨0, host, serv⟩) = Except.ok f) :
    f.status = 0 ∧ toSize (intSize (some host)) ≤ hostbuf.length ∧
      toSize (intSize (some serv)) ≤ servbuf.length := by
  cases hhost : fill (some hostbuf) (some host) (intSize (some host)) with
  | error _ =>
      rw [hhost] at h
      cases h
  | ok _ =>
      cases hserv : fill (some servbuf) (some serv) (intSize (some serv)) with
      | error _ =>
          rw [hhost, hserv] at h
          cases h
      | ok _ =>
          rw [hhost, hserv] at h
          cases h
          exact ⟨rfl, fill_ok hhost, fill_ok hserv⟩

theorem exceeds_intSize (s : String) (buffer : List UInt8) :
    exceeds (intSize (some s)) (some buffer) = true ↔
      buffer.length < (zeroEnded s).length % 4294967296 := by
  simp only [exceeds, toSocklen_intSize, decide_eq_true_eq]

theorem memcpy_overflow {dest src : List UInt8} {n : Nat} (h : dest.length < n) :
    memcpy dest src n = .error .overflow := if_neg (Nat.not_le.mpr h)

/-! ### Strings by their size only -/

/-- No zero byte stands inside of the string. -/
def NoZero (s : String) : Prop := 0 ∉ bytesOf s.toList

theorem zeroEnded_length_eq_size {s : String} (h : NoZero s) :
    (zeroEnded s).length = size (some s) := by
  have hbytes : bytes s = bytesOf s.toList := by
    refine List.takeWhile_eq_self_iff.mpr fun b hb => ?_
    simpa using fun hzero : b = 0 => h (hzero ▸ hb)
  rw [zeroEnded_length, hbytes, bytesOf_length, String.length_toList]
  rfl

section

variable {f : Finished} {host serv : String} (hfree : Compat.queryFree f = .ok ())
  (hhost : getNodeName f.query = some host) (hserv : getServiceName f.query = some serv)
  (hnohost : NoZero host) (hnoserv : NoZero serv) (hostbuf servbuf : List UInt8)
include hfree hhost hserv hnohost hnoserv

/--
On strings without zero bytes the copy does what the model of it by sizes says, if the query can be
freed.
-/
theorem asyncnsGetnameinfoDone_refines :
    (asyncnsGetnameinfoDone f.query hostbuf servbuf).map (·.status) =
      (Compat.asyncnsGetnameinfoDone f hostbuf.length servbuf.length).map (·.status) := by
  have hhostsize := zeroEnded_length_eq_size hnohost
  have hservsize := zeroEnded_length_eq_size hnoserv
  simp only [asyncnsGetnameinfoDone, Compat.asyncnsGetnameinfoDone, getnameinfoDone, hhost, hserv,
    if_true, ← hhostsize, ← hservsize, hfree]
  by_cases hcopy : hostbuf.length ≤ (zeroEnded host).length ∧
      servbuf.length ≤ (zeroEnded serv).length
  · rw [if_pos hcopy, if_pos hcopy]
    by_cases hhostroom : (zeroEnded host).length ≤ hostbuf.length
    · by_cases hservroom : (zeroEnded serv).length ≤ servbuf.length
      · rw [memcpy_fits hhostroom, memcpy_fits hservroom, if_neg (by omega)]
        rfl
      · rw [memcpy_fits hhostroom, memcpy_overflow (Nat.not_le.mp hservroom), if_pos (by omega)]
        rfl
    · rw [memcpy_overflow (Nat.not_le.mp hhostroom), if_pos (by omega)]
      rfl
  · rw [if_neg hcopy, if_neg hcopy]
    rfl

/-- So does the other copy, on strings of less than 2 GiB. -/
theorem getnameinfo_refines (hhostsmall : (zeroEnded host).length < 2147483648)
    (hservsmall : (zeroEnded serv).length < 2147483648) :
    (getnameinfo (some f.query) (some hostbuf) (some servbuf)).map (·.status) =
      (Compat.getnameinfo (some f) (some hostbuf.length) (some servbuf.length)).map
        (·.status) := by
  have hhostsize := zeroEnded_length_eq_size hnohost
  have hservsize := zeroEnded_length_eq_size hnoserv
  have hexceeds : (exceeds (intSize (some host)) (some hostbuf) ||
      exceeds (intSize (some serv)) (some servbuf)) =
      (tooShort (some hostbuf.length) (some host) ||
        tooShort (some servbuf.length) (some serv)) := by
    rw [Bool.eq_iff_iff, Bool.or_eq_true, Bool.or_eq_true, exceeds_intSize, exceeds_intSize,
      Nat.mod_eq_of_lt (by omega), Nat.mod_eq_of_lt (by omega)]
    simp only [tooShort, decide_eq_true_eq, ← hhostsize, ← hservsize]
  simp only [getnameinfo, Compat.getnameinfo, getnameinfoDone, hhost, hserv, if_true, hexceeds,
    hfree]
  by_cases hshort : (tooShort (some hostbuf.length) (some host) ||
      tooShort (some servbuf.length) (some serv)) = true
  · rw [if_pos hshort]
    simp [hshort, Except.map, bind, Except.bind]
  · have hroom := hshort
    rw [← hexceeds, Bool.or_eq_true, exceeds_intSize, exceeds_intSize,
      Nat.mod_eq_of_lt (by omega), Nat.mod_eq_of_lt (by omega)] at hroom
    rw [if_neg hshort, fill_fits (by omega) hhostsmall, fill_fits (by omega) hservsmall]
    simp [hshort, Except.map, bind, Except.bind, pure, Except.pure]

end

/-! ### What each of them does -/

/-- The string has room in the buffer, with its zero byte. -/
def Fits (s : String) (buffer : List UInt8) : Prop := (zeroEnded s).length ≤ buffer.length

instance (s : String) (buffer : List UInt8) : Decidable (Fits s buffer) :=
  inferInstanceAs (Decidable (_ ≤ _))

/-- The buffers hold the two strings. -/
def Delivers (host serv : String) (f : Filled) : Prop :=
  f.host.map stringIn = some (bytes host) ∧ f.serv.map stringIn = some (bytes serv)

/--
What is expected of an entry point: it writes to its buffers only, succeeds if and only if both
strings fit, and delivers them.
-/
def Right (host serv : String) (hostbuf servbuf : List UInt8) (r : Except Crash Filled) : Prop :=
  ∃ f, r = .ok f ∧ (f.status = 0 ↔ Fits host hostbuf ∧ Fits serv servbuf) ∧
    (f.status = 0 → Delivers host serv f)

/-- The sizes of the strings and those of the buffers for which the entry points agree. -/
def Coincide (hostsize servsize hostlen servlen : Nat) : Prop :=
  (hostsize = hostlen ∧ servsize = servlen ∧ hostsize < 2147483648 ∧ servsize < 2147483648) ∨
  (hostsize < hostlen ∧ servlen < servsize % 4294967296) ∨
  (hostlen < hostsize % 4294967296 ∧ servsize < servlen)

instance (a b c d : Nat) : Decidable (Coincide a b c d) := inferInstanceAs (Decidable (_ ∨ _))

/-- A failure that leaves the buffers alone is right if something does not fit. -/
theorem right_of_failure {host serv : String} {hostbuf servbuf : List UInt8}
    {r : Except Crash Filled} {status : Int} (hstatus : status ≠ 0)
    (hr : r = .ok ⟨status, some hostbuf, some servbuf⟩) :
    Right host serv hostbuf servbuf r ↔ ¬ (Fits host hostbuf ∧ Fits serv servbuf) := by
  constructor
  · intro h hfits
    obtain ⟨f, hf, hiff, _⟩ := h
    cases hr.symm.trans hf
    exact hstatus (hiff.mpr hfits)
  · intro hfits
    exact ⟨_, hr, iff_of_false hstatus hfits, fun h => absurd h hstatus⟩

section

variable {q : Query} {host serv : String} (hhost : getNodeName q = some host)
  (hserv : getServiceName q = some serv) (hostbuf servbuf : List UInt8)
include hhost hserv

theorem asyncnsGetnameinfoDone_right :
    Right host serv hostbuf servbuf (asyncnsGetnameinfoDone q hostbuf servbuf) ↔
      ((zeroEnded host).length = hostbuf.length ∧ (zeroEnded serv).length = servbuf.length) ∨
      ((zeroEnded host).length < hostbuf.length ∧ servbuf.length < (zeroEnded serv).length) ∨
      (hostbuf.length < (zeroEnded host).length ∧ (zeroEnded serv).length < servbuf.length) := by
  by_cases hcopy : hostbuf.length ≤ (zeroEnded host).length ∧
      servbuf.length ≤ (zeroEnded serv).length
  · have hrun : asyncnsGetnameinfoDone q hostbuf servbuf =
        (do
          let host ← memcpy hostbuf (zeroEnded host) (zeroEnded host).length
          let serv ← memcpy servbuf (zeroEnded serv) (zeroEnded serv).length
          pure ⟨0, some host, some serv⟩) := by
      simp only [asyncnsGetnameinfoDone, getnameinfoDone, hhost, hserv, if_true, if_pos hcopy]
    by_cases hexact : (zeroEnded host).length = hostbuf.length ∧
        (zeroEnded serv).length = servbuf.length
    · refine iff_of_true ?_ (Or.inl hexact)
      rw [hrun, memcpy_fits hexact.1.le, memcpy_fits hexact.2.le]
      refine ⟨_, rfl, iff_of_true rfl ⟨hexact.1.le, hexact.2.le⟩, fun _ => ⟨?_, ?_⟩⟩
      · exact congrArg some (stringIn_zeroEnded host _)
      · exact congrArg some (stringIn_zeroEnded serv _)
    · -- one of the two copies runs over its buffer
      refine iff_of_false ?_ (by omega)
      intro hright
      obtain ⟨f, hf, _⟩ := hright
      rw [hrun] at hf
      by_cases hroom : (zeroEnded host).length ≤ hostbuf.length
      · rw [memcpy_fits hroom, memcpy_overflow (show servbuf.length < _ by omega)] at hf
        cases hf
      · rw [memcpy_overflow (Nat.not_le.mp hroom)] at hf
        cases hf
  · have hrun : asyncnsGetnameinfoDone q hostbuf servbuf =
        .ok ⟨ERANGE, some hostbuf, some servbuf⟩ := by
      simp only [asyncnsGetnameinfoDone, getnameinfoDone, hhost, hserv, if_true, if_neg hcopy]
    rw [right_of_failure (by decide) hrun]
    unfold Fits
    omega

theorem getnameinfo_right (hhostlen : hostbuf.length < 4294967296)
    (hservlen : servbuf.length < 4294967296) :
    Right host serv hostbuf servbuf (getnameinfo (some q) (some hostbuf) (some servbuf)) ↔
      (hostbuf.length < (zeroEnded host).length % 4294967296 ∨
        servbuf.length < (zeroEnded serv).length % 4294967296) ∨
      ((zeroEnded host).length < 2147483648 ∧ (zeroEnded serv).length < 2147483648) := by
  by_cases hshort : hostbuf.length < (zeroEnded host).length % 4294967296 ∨
      servbuf.length < (zeroEnded serv).length % 4294967296
  · refine iff_of_true ?_ (Or.inl hshort)
    have hcond : (exceeds (intSize (some host)) (some hostbuf) ||
        exceeds (intSize (some serv)) (some servbuf)) = true := by
      rw [Bool.or_eq_true, exceeds_intSize, exceeds_intSize]
      exact hshort
    have hrun : getnameinfo (some q) (some hostbuf) (some servbuf) =
        .ok ⟨EAI_OVERFLOW, some hostbuf, some servbuf⟩ := by
      simp only [getnameinfo, getnameinfoDone, hhost, hserv, if_true, hcond]
    have hhostmod := Nat.mod_le (zeroEnded host).length 4294967296
    have hservmod := Nat.mod_le (zeroEnded serv).length 4294967296
    rw [right_of_failure (by decide) hrun]
    unfold Fits
    omega
  · have hcond : ¬ (exceeds (intSize (some host)) (some hostbuf) ||
        exceeds (intSize (some serv)) (some servbuf)) = true := by
      rw [Bool.or_eq_true, exceeds_intSize, exceeds_intSize]
      exact hshort
    have hrun : getnameinfo (some q) (some hostbuf) (some servbuf) =
        (do
          let host ← fill (some hostbuf) (some host) (intSize (some host))
          let serv ← fill (some servbuf) (some serv) (intSize (some serv))
          pure ⟨0, host, serv⟩) := by
      simp only [getnameinfo, getnameinfoDone, hhost, hserv, if_true, if_neg hcond]
    by_cases hsmall : (zeroEnded host).length < 2147483648 ∧ (zeroEnded serv).length < 2147483648
    · refine iff_of_true ?_ (Or.inr hsmall)
      have hfits : Fits host hostbuf ∧ Fits serv servbuf := by
        unfold Fits
        omega
      rw [hrun, fill_fits hfits.1 hsmall.1, fill_fits hfits.2 hsmall.2]
      refine ⟨_, rfl, iff_of_true rfl hfits, fun _ => ⟨?_, ?_⟩⟩
      · exact congrArg some (stringIn_zeroEnded host _)
      · exact congrArg some (stringIn_zeroEnded serv _)
    · -- a size that is wrong as an `int` is negative or too small
      refine iff_of_false ?_ (by omega)
      intro hright
      obtain ⟨f, hf, hstatus, _⟩ := hright
      rw [hrun] at hf
      obtain ⟨hzero, hhostsize, hservsize⟩ := fill_both_ok hf
      have hfits := hstatus.mp hzero
      rw [toSize_intSize] at hhostsize hservsize
      unfold Fits at hfits
      split at hhostsize <;> split at hservsize <;> omega

end

/-- A reverse query that found both names. -/
def named (host serv : String) : Query :=
  { id := 0, state := .done, request := { type := .reverse }
    response := { nodename := some ⟨host, 0⟩, servname := some ⟨serv, 0⟩ } }

end Netresolve.Nameinfo
