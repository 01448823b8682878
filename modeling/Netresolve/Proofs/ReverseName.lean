/-
The names that `lookup_address` asks for, read back.

Both formats write the address from its last byte to its first, so the labels of a name in
reverse order are the zone and then the address: a label for each byte in `in-addr.arpa`, two
labels of one digit in `ip6.arpa`, the higher half of the byte before the lower one.
-/
import Netresolve.Backends.Dns
import Netresolve.Proofs.PathText
import Mathlib.Algebra.Group.Action.Defs
import Mathlib.Algebra.Order.BigOperators.Group.List

namespace Netresolve.Dns

open CString Outcome
open PathText (IsAddress)

/-! ### Reading a name -/

/-- The labels of a name.  A dot at the end is ignored. -/
def labels (name : String) : List Text :=
  let parts := name.toList.splitOn '.'
  if parts.getLast? = some [] then parts.dropLast else parts

/-- A byte in decimal. -/
def decimalByte (label : Text) : Option UInt8 :=
  if label ≠ [] ∧ label.all Char.isDigit ∧ Nat.ofDigitChars 10 label 0 < 256 then
    some (UInt8.ofNat (Nat.ofDigitChars 10 label 0))
  else none

/-- A hexadecimal digit. -/
def hexDigit (c : Char) : Option Nat :=
  if '0' ≤ c ∧ c ≤ '9' then some (c.toNat - '0'.toNat)
  else if 'a' ≤ c ∧ c ≤ 'f' then some (c.toNat - 'a'.toNat + 10)
  else none

/-- A label with a single hexadecimal digit. -/
def nibble : Text → Option Nat
  | [c] => hexDigit c
  | _ => none

/-- Bytes of two labels each, the one for the higher half first. -/
def hexBytes : List Text → Option (List UInt8)
  | [] => some []
  | [_] => none
  | high :: low :: rest =>
      match nibble high, nibble low, hexBytes rest with
      | some high, some low, some bytes => some (UInt8.ofNat (16 * high + low) :: bytes)
      | _, _, _ => none

/-- The family and the address that a name in one of the two reverse zones stands for. -/
def decodeName (name : String) : Option (Int × List UInt8) :=
  match (labels name).reverse with
  | arpa :: zone :: rest =>
      if arpa = "arpa".toList then
        if zone = "in-addr".toList ∧ rest.length = 4 then
          (rest.mapM decimalByte).map fun address => (AF_INET, address)
        else if zone = "ip6".toList ∧ rest.length = 32 then
          (hexBytes rest).map fun address => (AF_INET6, address)
        else none
      else none
  | _ => none

/-! ### The labels of a name -/

theorem labels_intercalate {ls : List String} (hdot : ∀ l ∈ ls, '.' ∉ l.toList)
    (hlast : ∀ l ∈ ls.getLast?, l.toList ≠ []) (hne : ls ≠ []) :
    labels (".".intercalate ls) = ls.map String.toList := by
  have hsplit : (".".intercalate ls).toList.splitOn '.' = ls.map String.toList := by
    rw [String.toList_intercalate]
    refine List.splitOn_intercalate '.' ?_ (by simpa using hne)
    intro l hl
    obtain ⟨s, hs, rfl⟩ := List.mem_map.mp hl
    exact hdot s hs
  unfold labels
  rw [hsplit]
  refine if_neg fun hnil => ?_
  rw [List.getLast?_map, Option.map_eq_some_iff] at hnil
  obtain ⟨l, hl, hempty⟩ := hnil
  exact hlast l hl hempty

theorem labels_intercalate_dot {ls : List String} (hdot : ∀ l ∈ ls, '.' ∉ l.toList)
    (hne : ls ≠ []) : labels (".".intercalate ls ++ ".") = ls.map String.toList := by
  have hname : ".".intercalate ls ++ "." = ".".intercalate (ls ++ [""]) := by
    rw [String.intercalate_append_of_ne_nil hne (by simp)]
    simp
  have hsplit : (".".intercalate ls ++ ".").toList.splitOn '.' = ls.map String.toList ++ [[]] := by
    rw [hname, String.toList_intercalate, List.map_append]
    refine List.splitOn_intercalate '.' ?_ (by simp)
    intro l hl
    rcases List.mem_append.mp hl with hl | hl
    · obtain ⟨s, hs, rfl⟩ := List.mem_map.mp hl
      exact hdot s hs
    · rw [List.mem_singleton.mp hl]
      exact List.not_mem_nil
  unfold labels
  rw [hsplit, if_pos List.getLast?_concat, List.dropLast_concat]

/-! ### The names as lists of labels -/

theorem map_range_eq_reverse (address : List UInt8) :
    (List.range address.length).map (fun i => address.getD (address.length - 1 - i) 0) =
      address.reverse := by
  refine List.ext_getElem (by simp) fun i hi _ => ?_
  have hlt : i < address.length := by simpa using hi
  rw [List.getElem_map, List.getElem_range, List.getElem_reverse, List.getD_eq_getElem?_getD,
    List.getElem?_eq_getElem (by omega), Option.getD_some]

/-- `%d`. -/
def decimalLabel (b : UInt8) : String := toString b.toNat

/-- `%x` of the lower half and `%x` of the higher half. -/
def hexLabels (b : UInt8) : List String :=
  [String.ofList (Nat.toDigits 16 (b.toNat % 16)), String.ofList (Nat.toDigits 16 (b.toNat / 16))]

/-- The labels of the name of an IPv4 address. -/
def ipv4Labels (address : List UInt8) : List String :=
  address.reverse.map decimalLabel ++ ["in-addr", "arpa"]

/-- The labels of the name of an IPv6 address. -/
def ipv6Labels (address : List UInt8) : List String :=
  address.reverse.flatMap hexLabels ++ ["ip6", "arpa"]

theorem ipv4Name_eq {address : List UInt8} (h : address.length = 4) :
    ipv4Name address = ".".intercalate (ipv4Labels address) ++ "." := by
  have hbytes := map_range_eq_reverse address
  rw [h] at hbytes
  have hlabels : (List.range 4).map (fun i => toString (address.getD (3 - i) 0).toNat) =
      address.reverse.map decimalLabel := by
    rw [← hbytes, List.map_map]
    rfl
  have hne : address.reverse.map decimalLabel ≠ [] := by
    refine List.ne_nil_of_length_pos ?_
    rw [List.length_map, List.length_reverse, h]
    decide
  unfold ipv4Name ipv4Labels
  rw [hlabels, String.intercalate_append_of_ne_nil hne (by simp), String.append_assoc,
    String.append_assoc]
  rfl

theorem ipv6Name_eq {address : List UInt8} (h : address.length = 16) :
    ipv6Name address = ".".intercalate (ipv6Labels address) := by
  have hbytes := map_range_eq_reverse address
  rw [h] at hbytes
  have hlabels : ((List.range 16).flatMap fun i =>
      let byte := (address.getD (15 - i) 0).toNat
      [String.ofList (Nat.toDigits 16 (byte % 16)),
        String.ofList (Nat.toDigits 16 (byte / 16))]) = address.reverse.flatMap hexLabels := by
    rw [← hbytes, List.flatMap_map]
    rfl
  have hne : address.reverse.flatMap hexLabels ≠ [] := by
    obtain ⟨b, hb⟩ := List.exists_mem_of_length_pos (l := address) (by omega)
    exact List.ne_nil_of_mem (List.mem_flatMap.mpr
      ⟨b, List.mem_reverse.mpr hb, List.mem_cons_self⟩)
  unfold ipv6Name ipv6Labels
  rw [hlabels, String.intercalate_append_of_ne_nil hne (by simp), String.append_assoc]
  rfl

/-! ### Reading the labels -/

theorem decimalLabel_toList (b : UInt8) : (decimalLabel b).toList = Nat.toDigits 10 b.toNat :=
  Nat.toList_repr

theorem decimalByte_decimalLabel (b : UInt8) : decimalByte (decimalLabel b).toList = some b := by
  have hdigits : (Nat.toDigits 10 b.toNat).all Char.isDigit = true := by
    rw [List.all_eq_true]
    exact fun c hc => Nat.isDigit_of_mem_toDigits (by decide) (by decide) hc
  rw [decimalLabel_toList, decimalByte, Nat.ofDigitChars_ten_toDigits,
    if_pos ⟨Nat.toDigits_ne_nil, hdigits, UInt8.toNat_lt b⟩, UInt8.ofNat_toNat]

theorem nibble_toDigits {n : Nat} (h : n < 16) : nibble (Nat.toDigits 16 n) = some n := by
  rw [Nat.toDigits_of_lt_base h]
  have hall : ∀ n < 16, nibble [Nat.digitChar n] = some n := by decide
  exact hall n h

theorem mapM_decimalByte (address : List UInt8) :
    ((address.map decimalLabel).map String.toList).mapM decimalByte = some address := by
  induction address with
  | nil => rfl
  | cons b rest ih =>
      rw [List.map_cons, List.map_cons, List.mapM_cons, decimalByte_decimalLabel, ih]
      rfl

/-- The labels of a byte, in reverse order. -/
theorem hexBytes_hexLabels (address : List UInt8) :
    hexBytes ((address.flatMap fun b => (hexLabels b).reverse).map String.toList) =
      some address := by
  induction address with
  | nil => rfl
  | cons b rest ih =>
      have hb := UInt8.toNat_lt b
      have hbyte : 16 * (b.toNat / 16) + b.toNat % 16 = b.toNat := Nat.div_add_mod b.toNat 16
      have hlabels : (hexLabels b).reverse.map String.toList =
          [Nat.toDigits 16 (b.toNat / 16), Nat.toDigits 16 (b.toNat % 16)] := by
        simp [hexLabels]
      have hhigh := nibble_toDigits (n := b.toNat / 16) (by omega)
      have hlow := nibble_toDigits (n := b.toNat % 16) (by omega)
      rw [List.flatMap_cons, List.map_append, hlabels, List.cons_append, List.cons_append,
        List.nil_append, hexBytes, hhigh, hlow, ih]
      simp only [hbyte, UInt8.ofNat_toNat]

/-! ### The round trip -/

theorem ipv4Labels_dot (address : List UInt8) : ∀ l ∈ ipv4Labels address, '.' ∉ l.toList := by
  intro l hl
  rcases List.mem_append.mp hl with hl | hl
  · obtain ⟨b, _, rfl⟩ := List.mem_map.mp hl
    rw [decimalLabel_toList]
    intro hdot
    exact absurd (Nat.isDigit_of_mem_toDigits (by decide) (by decide) hdot) (by decide)
  · rcases List.mem_pair.mp hl with rfl | rfl <;> decide

theorem hexLabel_digit {address : List UInt8} {l : String} (hl : l ∈ address.flatMap hexLabels) :
    ∃ n < 16, l = String.ofList (Nat.toDigits 16 n) := by
  obtain ⟨b, _, hl⟩ := List.mem_flatMap.mp hl
  have hb := UInt8.toNat_lt b
  rcases List.mem_pair.mp hl with rfl | rfl
  · exact ⟨b.toNat % 16, by omega, rfl⟩
  · exact ⟨b.toNat / 16, by omega, rfl⟩

theorem ipv6Labels_dot (address : List UInt8) : ∀ l ∈ ipv6Labels address, '.' ∉ l.toList := by
  have hall : ∀ n < 16, '.' ∉ [Nat.digitChar n] := by decide
  intro l hl
  rcases List.mem_append.mp hl with hl | hl
  · obtain ⟨n, hn, rfl⟩ := hexLabel_digit hl
    rw [String.toList_ofList, Nat.toDigits_of_lt_base hn]
    exact hall n hn
  · rcases List.mem_pair.mp hl with rfl | rfl <;> decide

theorem decode_ipv4Name {address : List UInt8} (h : address.length = 4) :
    decodeName (ipv4Name address) = some (AF_INET, address) := by
  have hlabels : labels (ipv4Name address) = (ipv4Labels address).map String.toList := by
    rw [ipv4Name_eq h]
    exact labels_intercalate_dot (ipv4Labels_dot address) (by simp [ipv4Labels])
  have hreverse : (labels (ipv4Name address)).reverse =
      "arpa".toList :: "in-addr".toList :: (address.map decimalLabel).map String.toList := by
    rw [hlabels, ipv4Labels, List.map_append, List.reverse_append, List.map_reverse,
      List.map_reverse, List.reverse_reverse]
    rfl
  unfold decodeName
  rw [hreverse]
  dsimp only
  rw [if_pos rfl, if_pos ⟨rfl, by rw [List.length_map, List.length_map, h]⟩, mapM_decimalByte]
  rfl

theorem decode_ipv6Name {address : List UInt8} (h : address.length = 16) :
    decodeName (ipv6Name address) = some (AF_INET6, address) := by
  have hlabels : labels (ipv6Name address) = (ipv6Labels address).map String.toList := by
    rw [ipv6Name_eq h]
    refine labels_intercalate (ipv6Labels_dot address) ?_ (by simp [ipv6Labels])
    simp [ipv6Labels]
  have hreverse : (labels (ipv6Name address)).reverse = "arpa".toList :: "ip6".toList ::
      (address.flatMap fun b => (hexLabels b).reverse).map String.toList := by
    simp only [hlabels, ipv6Labels, List.map_append, List.reverse_append, ← List.map_reverse,
      List.reverse_flatMap, List.reverse_reverse]
    rfl
  have hlength : ((address.flatMap fun b => (hexLabels b).reverse).map String.toList).length =
      32 := by
    simp [hexLabels, h]
  unfold decodeName
  rw [hreverse]
  dsimp only
  rw [if_pos rfl, if_neg (fun hzone => absurd hzone.1 (by decide)), if_pos ⟨rfl, hlength⟩,
    hexBytes_hexLabels]
  rfl

/-! ### The length of a name -/

/-- Every label takes one character more than it has, for the dot behind it. -/
theorem intercalate_length_le (ls : List Text) :
    (['.'].intercalate ls).length ≤ (ls.map fun l => l.length + 1).sum := by
  induction ls with
  | nil => simp
  | cons l rest ih =>
      rw [List.map_cons, List.sum_cons]
      by_cases hnil : rest = []
      · rw [hnil, List.intercalate_singleton]
        omega
      · rw [List.intercalate_cons_of_ne_nil hnil, List.length_append, List.length_append,
          List.length_singleton]
        omega

/-- A number of labels that are not long, with the labels of the zone. -/
theorem name_length_le {k : Nat} {ls : List String} (h : ∀ l ∈ ls, l.toList.length ≤ k)
    (zone : List String) :
    (".".intercalate (ls ++ zone)).toList.length ≤
      ls.length * (k + 1) + (zone.map fun l => l.toList.length + 1).sum := by
  have hsum : ((ls.map fun l => l.toList.length + 1).sum) ≤ ls.length * (k + 1) := by
    have hle := List.sum_le_card_nsmul (ls.map fun l => l.toList.length + 1) (k + 1) (by
      intro n hn
      obtain ⟨l, hl, rfl⟩ := List.mem_map.mp hn
      exact Nat.succ_le_succ (h l hl))
    rwa [List.length_map, smul_eq_mul] at hle
  have hlength := intercalate_length_le ((ls ++ zone).map String.toList)
  simp only [List.map_append, List.map_map, List.sum_append] at hlength
  rw [String.toList_intercalate, List.map_append]
  exact hlength.trans (Nat.add_le_add_right hsum _)

theorem snprintf_of_fits {size : Nat} {text : String} (h : text.toList.length < size) :
    snprintf size text = text := by
  rw [snprintf, List.take_of_length_le (by omega), String.ofList_toList]

theorem decimalLabel_length (b : UInt8) : (decimalLabel b).toList.length ≤ 3 := by
  have hb := UInt8.toNat_lt b
  rw [decimalLabel_toList, Nat.length_toDigits_le_iff (by decide) (by decide)]
  omega

theorem ipv4Name_length {address : List UInt8} (h : address.length = 4) :
    (ipv4Name address).toList.length < 128 := by
  have hlabels : ∀ l ∈ address.reverse.map decimalLabel, l.toList.length ≤ 3 := by
    intro l hl
    obtain ⟨b, _, rfl⟩ := List.mem_map.mp hl
    exact decimalLabel_length b
  have hlength := name_length_le hlabels ["in-addr", "arpa"]
  rw [List.length_map, List.length_reverse, h] at hlength
  rw [ipv4Name_eq h, String.toList_append, List.length_append]
  exact (Nat.add_le_add_right hlength 1).trans_lt (by decide)

theorem ipv6Name_length {address : List UInt8} (h : address.length = 16) :
    (ipv6Name address).toList.length < 128 := by
  have hlabels : ∀ l ∈ address.reverse.flatMap hexLabels, l.toList.length ≤ 1 := by
    intro l hl
    obtain ⟨n, hn, rfl⟩ := hexLabel_digit hl
    rw [String.toList_ofList, Nat.toDigits_of_lt_base hn]
    exact le_rfl
  have hlength := name_length_le hlabels ["ip6", "arpa"]
  have hcount : (address.reverse.flatMap hexLabels).length = 32 := by simp [hexLabels, h]
  rw [hcount] at hlength
  rw [ipv6Name_eq h]
  exact hlength.trans_lt (by decide)

/-! ### The names of addresses -/

/-- The text of the format, without regard to the size of the buffer. -/
def addressName (family : Int) (address : List UInt8) : String :=
  if family = AF_INET then ipv4Name address else ipv6Name address

/-- The address to look up is the bytes that the family takes from the start of the array. -/
structure Target (p : PrivDns) (family : Int) (address : List UInt8) : Prop where
  ofFamily : p.family = family
  bytes : p.address.take (familyToLength family) = address
  whole : IsAddress family address

/-- The name in the lookup that `lookup_address` issues. -/
def AsksFor (p : PrivDns) (name : String) : Prop :=
  lookupAddress p = .ok () { p with
    pending := p.pending + 1
    lookups := p.lookups ++ [⟨p.srv, some name, LDNS_RR_TYPE_PTR, LDNS_RR_CLASS_IN⟩] }

theorem AsksFor.unique {p : PrivDns} {name name' : String} (h : AsksFor p name)
    (h' : AsksFor p name') : name = name' := by
  have heq := h.symm.trans h'
  simpa using heq

theorem addressName_length {family : Int} {address : List UInt8} (h : IsAddress family address) :
    (addressName family address).toList.length < 128 := by
  rcases h with ⟨rfl, hlength⟩ | ⟨rfl, hlength⟩
  · exact ipv4Name_length hlength
  · exact ipv6Name_length hlength

theorem decode_addressName {family : Int} {address : List UInt8} (h : IsAddress family address) :
    decodeName (addressName family address) = some (family, address) := by
  rcases h with ⟨rfl, hlength⟩ | ⟨rfl, hlength⟩
  · exact decode_ipv4Name hlength
  · exact decode_ipv6Name hlength

theorem getD_take (address : List UInt8) {n i : Nat} (h : i < n) :
    (address.take n).getD i 0 = address.getD i 0 := by
  rw [List.getD_eq_getElem?_getD, List.getD_eq_getElem?_getD, List.getElem?_take_of_lt h]

/-- Only the bytes of the family are looked at. -/
theorem ipv4Name_take (address : List UInt8) : ipv4Name (address.take 4) = ipv4Name address := by
  have hlabels : ((List.range 4).map fun i => toString ((address.take 4).getD (3 - i) 0).toNat) =
      (List.range 4).map fun i => toString (address.getD (3 - i) 0).toNat :=
    List.map_congr_left fun i _ => by rw [getD_take address (by omega)]
  unfold ipv4Name
  rw [hlabels]

theorem ipv6Name_take (address : List UInt8) : ipv6Name (address.take 16) = ipv6Name address := by
  unfold ipv6Name
  congr 2
  refine List.flatMap_congr fun i _ => ?_
  rw [getD_take address (by omega)]

/-- Nothing of the name is cut off. -/
theorem Target.asksFor {p : PrivDns} {family : Int} {address : List UInt8}
    (h : Target p family address) : AsksFor p (addressName family address) := by
  have hfits := snprintf_of_fits (addressName_length h.whole)
  obtain ⟨rfl, rfl, hwhole⟩ := h
  unfold AsksFor lookupAddress
  rw [bind_of_ok (show (get : D PrivDns) p = .ok p p from rfl)]
  unfold addressName at hfits ⊢
  rcases hwhole with ⟨hfamily, _⟩ | ⟨hfamily, _⟩
  · have hlength : familyToLength p.family = 4 := by
      rw [hfamily]
      rfl
    rw [if_pos hfamily, hlength, ipv4Name_take] at hfits ⊢
    rw [if_pos hfamily, hfits]
    rfl
  · have hne : p.family ≠ AF_INET := by
      rw [hfamily]
      decide
    have hlength : familyToLength p.family = 16 := by
      rw [hfamily]
      rfl
    rw [if_neg hne, hlength, ipv6Name_take] at hfits ⊢
    rw [if_neg hne, if_pos hfamily, hfits]
    rfl

/--
**Reverse names can be read back.**  The name that is asked for fits the buffer, and the family
and the address can be read in it, so that different addresses never have the same name.
-/
theorem reverse_name_decodes {p : PrivDns} {family : Int} {address : List UInt8}
    (h : Target p family address) :
    (AsksFor p (addressName family address) ∧ (addressName family address).toList.length < 128 ∧
      decodeName (addressName family address) = some (family, address)) ∧
    ∀ (q : PrivDns) (family' : Int) (address' : List UInt8), Target q family' address' →
      ∀ name, AsksFor p name → AsksFor q name → family = family' ∧ address = address' := by
  refine ⟨⟨h.asksFor, addressName_length h.whole, decode_addressName h.whole⟩, ?_⟩
  intro q family' address' hq name hp hname
  have heq : addressName family address = addressName family' address' :=
    (h.asksFor.unique hp).trans (hname.unique hq.asksFor)
  have hdecode := congrArg decodeName heq
  rw [decode_addressName h.whole, decode_addressName hq.whole, Option.some.injEq,
    Prod.mk.injEq] at hdecode
  exact hdecode

/-- The backend has the address of `localhost` to look up. -/
def ipv6Lookup : PrivDns :=
  { request := {}, family := AF_INET6, address := List.replicate 15 0 ++ [1] }

theorem reverse_name_localhost :
    AsksFor ipv6Lookup "1.0.0.0.0.0.0.0.0.0.0.0.0.0.0.0.0.0.0.0.0.0.0.0.0.0.0.0.0.0.0.0.ip6.arpa" := by
  have htarget : Target ipv6Lookup AF_INET6 ipv6Lookup.address :=
    ⟨rfl, rfl, Or.inr ⟨rfl, rfl⟩⟩
  exact (reverse_name_decodes htarget).1.1

end Netresolve.Dns
