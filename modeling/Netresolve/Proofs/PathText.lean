/-
A path as text, and what `netresolve_backend_parse_path` makes of it.

The text has the address with the zone, the names of the socket type and of the protocol, and the
port, with more numbers behind them.  The address, the zone and the port are read as they were
written, but for an index without a name if there is an interface with that number for a name.  The
names are not read at all: the loop of `enum_id_from_name` returns at the first item of its list.
-/
import Netresolve.Proofs.Text
import Netresolve.Proofs.Zones

namespace Netresolve.PathText

open CString ParsePath Print
open Zones (addressText literal parseAddress_addressText strtol_digits parsePath_words)
open ServiceFile (toCInt_clampLong)

/-! ### Numbers -/

theorem digitsValue_eq (digits : Text) : digitsValue digits = Nat.ofDigitChars 10 digits 0 := by
  have hfold : ∀ (digits : Text) (n : Nat),
      digits.foldl (fun (n : Int) c => n * 10 + (c.toNat - '0'.toNat : Nat)) n =
        Nat.ofDigitChars 10 digits n := by
    intro digits
    induction digits with
    | nil => exact fun n => rfl
    | cons c rest ih =>
        intro n
        rw [List.foldl_cons, Nat.ofDigitChars_cons, ← ih]
        congr 1
        push_cast
        ring
  exact hfold digits 0

/-- A number in the range of an `int` that is not negative, in decimal. -/
theorem decimal_natCast {n : Nat} (h : n < 2 ^ 31) : decimal n = Nat.toDigits 10 n := by
  have hint : toCInt n = n := by
    unfold toCInt
    omega
  rw [decimal, hint]
  exact Nat.toList_repr

theorem decimal_digits {n : Nat} (h : n < 2 ^ 31) : decimal n ≠ [] ∧
    (decimal n).all Char.isDigit = true ∧ digitsValue (decimal n) = n := by
  rw [decimal_natCast h, digitsValue_eq, Nat.ofDigitChars_ten_toDigits]
  refine ⟨Nat.toDigits_ne_nil, ?_, rfl⟩
  rw [List.all_eq_true]
  exact fun c hc => Nat.isDigit_of_mem_toDigits (by decide) (by decide) hc

/-- The number comes back from its text. -/
theorem strtol_decimal {n : Int} (hlow : 0 ≤ n) (hhigh : n < 2 ^ 31) :
    toCInt (strtol (decimal n)).1 = n ∧ (strtol (decimal n)).2 = [] := by
  obtain ⟨m, rfl⟩ := Int.eq_ofNat_of_zero_le hlow
  obtain ⟨hne, hdigits, hvalue⟩ := decimal_digits (n := m) (by omega)
  have hstrtol := strtol_digits hne hdigits [] rfl
  rw [List.append_nil] at hstrtol
  rw [hstrtol, hvalue]
  exact ⟨toCInt_clampLong (by omega) hhigh, rfl⟩

/-- There is nothing but digits and a sign in a number. -/
theorem decimal_chars (n : Int) : decimal n ≠ [] ∧ ∀ c ∈ decimal n, c ≠ ' ' ∧ c ≠ nul := by
  have hdigit : ∀ c : Char, c.isDigit = true → c ≠ ' ' ∧ c ≠ nul := by
    intro c hc
    constructor
    · rintro rfl
      cases hc
    · rintro rfl
      cases hc
  unfold decimal
  cases toCInt n with
  | ofNat m =>
      have htext : (toString (Int.ofNat m)).toList = Nat.toDigits 10 m := Nat.toList_repr
      rw [htext]
      exact ⟨Nat.toDigits_ne_nil, fun c hc =>
        hdigit c (Nat.isDigit_of_mem_toDigits (by decide) (by decide) hc)⟩
  | negSucc m =>
      have htext : (toString (Int.negSucc m)).toList = '-' :: Nat.toDigits 10 (m + 1) := by
        show ("-" ++ (m + 1).repr).toList = _
        rw [String.toList_append, Nat.toList_repr]
        rfl
      rw [htext]
      refine ⟨List.cons_ne_nil _ _, fun c hc => ?_⟩
      rcases List.mem_cons.mp hc with rfl | hc
      · decide
      · exact hdigit c (Nat.isDigit_of_mem_toDigits (by decide) (by decide) hc)

/-! ### The text of a path -/

/-- The bytes of an IP address. -/
def IsAddress (family : Int) (address : List UInt8) : Prop :=
  (family = AF_INET ∧ address.length = 4) ∨ (family = AF_INET6 ∧ address.length = 16)

/-- A path with an IP address, and numbers as they come from a socket. -/
structure IpPath (path : Path) : Prop where
  address : IsAddress path.family path.address
  ifindex : 0 ≤ path.ifindex ∧ path.ifindex < 2 ^ 31
  socktype : path.socktype = SOCK_STREAM ∨ path.socktype = SOCK_DGRAM ∨
    path.socktype = SOCK_SEQPACKET
  protocol : path.protocol = IPPROTO_TCP ∨ path.protocol = IPPROTO_UDP ∨
    path.protocol = IPPROTO_SCTP
  port : 0 ≤ path.port ∧ path.port < 65536

/--
What is relied on for a path: `inet_pton` inverts `inet_ntop`, whose text is short and has nothing
in it that stands between the fields, an IPv6 address is not taken for an IPv4 address, and
`if_nametoindex` inverts `if_indextoname`, with a name that has no blank in it.
-/
structure Inverse (libc : Libc) (lits : Literals) (path : Path) : Prop where
  interfaces : Zones.Interfaces lits
  inet : lits.inetPton path.family (libc.inetNtop path.family path.address) = some path.address
  inet6 : path.family = AF_INET6 →
    lits.inetPton AF_INET (libc.inetNtop path.family path.address) = none
  length : 0 < (libc.inetNtop path.family path.address).length ∧
    (libc.inetNtop path.family path.address).length < 46
  text : ∀ c ∈ libc.inetNtop path.family path.address, c ≠ '%' ∧ c ≠ ' ' ∧ c ≠ nul
  index : ∀ name, libc.ifIndextoname path.ifindex = some name →
    lits.ifNametoindex name.1 = path.ifindex
  name : ∀ name, libc.ifIndextoname path.ifindex = some name → ∀ c ∈ name.1, c ≠ ' ' ∧ c ≠ nul

/-- Fields without blanks come back from a text with a blank between each two. -/
theorem words_intercalate {fields : List Text} (hne : fields ≠ [])
    (h : ∀ field ∈ fields, field ≠ [] ∧ ' ' ∉ field) :
    words space ([' '].intercalate fields) = fields := by
  have hsplit := List.splitOn_intercalate ' ' (fun field hfield => (h field hfield).2) hne
  have hspace : space = fun c => c == ' ' := by
    funext c
    exact (beq_eq_decide c ' ').symm
  rw [words, hspace]
  rw [List.splitOn] at hsplit
  rw [hsplit]
  exact List.filter_eq_self.mpr fun field hfield => by simpa using (h field hfield).1

theorem mem_intercalate {c : Char} (fields : List Text) (h : c ∈ [' '].intercalate fields) :
    c = ' ' ∨ ∃ field ∈ fields, c ∈ field := by
  induction fields with
  | nil => cases h
  | cons field rest ih =>
      cases rest with
      | nil =>
          rw [List.intercalate_singleton] at h
          exact Or.inr ⟨field, List.mem_cons_self, h⟩
      | cons next more =>
          rw [List.intercalate_cons_cons, List.mem_append, List.mem_append, List.mem_singleton] at h
          rcases h with (h | h) | h
          · exact Or.inr ⟨field, List.mem_cons_self, h⟩
          · exact Or.inl h
          · rcases ih h with h | ⟨other, hother, h⟩
            · exact Or.inl h
            · exact Or.inr ⟨other, List.mem_cons_of_mem _ hother, h⟩

section

variable (libc : Libc) (clampTtl : Int) (path : Path)

/-- The zone `add_path` prints. -/
def zone : Option Text :=
  if path.ifindex ≠ 0 then
    some (match libc.ifIndextoname path.ifindex with
      | some name => name
      | none => decimal path.ifindex)
  else none

/-- The fields of the text. -/
def fields : List Text :=
  [addressText (libc.inetNtop path.family path.address) (zone libc path),
    socktypeToString path.socktype, protocolToString path.protocol, decimal path.port,
    decimal path.priority, decimal path.weight, decimal (Addrinfo.auxTtl clampTtl path)]

/-- The text without the word in front. -/
def body : Text := [' '].intercalate (fields libc clampTtl path)

variable {libc path}

theorem ifname_eq : ifname libc path = ((zone libc path).map ('%' :: ·)).getD [] := by
  unfold ifname zone
  by_cases hzero : path.ifindex ≠ 0
  · rw [if_pos hzero, if_pos hzero]
    cases libc.ifIndextoname path.ifindex with
    | some name => rfl
    | none =>
        have hlength := decimal_length path.ifindex
        dsimp only
        rw [List.take_of_length_le (hlength.trans (by decide))]
        rfl
  · rw [if_neg hzero, if_neg hzero]
    rfl

variable {lits : Literals} (hinverse : Inverse libc lits path) (hpath : IpPath path)
include hinverse hpath

theorem addrstr_eq : addrstr libc path = libc.inetNtop path.family path.address := by
  have hip : path.family = AF_INET ∨ path.family = AF_INET6 :=
    hpath.address.imp And.left And.left
  have hlength := hinverse.length.2
  rw [addrstr, if_pos hip]
  exact if_pos (by omega)

theorem pathText_eq : pathText libc clampTtl path = "ip ".toList ++ body libc clampTtl path := by
  have hfamily : path.family ≠ AF_UNIX := by
    rcases hpath.address with h | h <;> rw [h.1] <;> decide
  rw [pathText, if_neg hfamily, addrstr_eq hinverse hpath, ifname_eq]
  have hblank : " ".toList = [' '] := rfl
  simp only [body, fields, hblank, List.intercalate_cons_cons, List.intercalate_singleton,
    addressText, List.append_assoc]

omit hpath in
theorem zone_chars : ∀ c ∈ ((zone libc path).map ('%' :: ·)).getD [], c ≠ ' ' ∧ c ≠ nul := by
  intro c hc
  unfold zone at hc
  by_cases hzero : path.ifindex ≠ 0
  · rw [if_pos hzero, Option.map_some, Option.getD_some] at hc
    rcases List.mem_cons.mp hc with rfl | hc
    · decide
    · cases hname : libc.ifIndextoname path.ifindex with
      | some name =>
          rw [hname] at hc
          exact hinverse.name _ hname c hc
      | none =>
          rw [hname] at hc
          exact (decimal_chars path.ifindex).2 c hc
  · rw [if_neg hzero] at hc
    cases hc

/-- No field is empty, or has a blank or a zero byte in it. -/
theorem fields_tokens : ∀ field ∈ fields libc clampTtl path,
    field ≠ [] ∧ ∀ c ∈ field, c ≠ ' ' ∧ c ≠ nul := by
  have hname : ∀ name ∈ ["stream".toList, "dgram".toList, "seqpacket".toList, "tcp".toList,
      "udp".toList, "sctp".toList], name ≠ [] ∧ ∀ c ∈ name, c ≠ ' ' ∧ c ≠ nul := by
    intro name hname
    have hall : ∀ name ∈ ["stream".toList, "dgram".toList, "seqpacket".toList, "tcp".toList,
        "udp".toList, "sctp".toList], name ≠ [] ∧ name.all (fun c => c ≠ ' ' && c ≠ nul) = true := by
      decide
    obtain ⟨hne, hchars⟩ := hall name hname
    refine ⟨hne, fun c hc => ?_⟩
    simpa using List.all_eq_true.mp hchars c hc
  intro field hfield
  simp only [fields, List.mem_cons, List.not_mem_nil, or_false] at hfield
  rcases hfield with rfl | rfl | rfl | rfl | rfl | rfl | rfl
  · have hlength := hinverse.length.1
    refine ⟨List.append_ne_nil_of_left_ne_nil (List.length_pos_iff.mp hlength) _, fun c hc => ?_⟩
    rcases List.mem_append.mp hc with hc | hc
    · exact (hinverse.text c hc).2
    · exact zone_chars hinverse c hc
  · refine hname _ ?_
    rcases hpath.socktype with h | h | h <;> rw [h] <;> decide
  · refine hname _ ?_
    rcases hpath.protocol with h | h | h <;> rw [h] <;> decide
  all_goals exact decimal_chars _

theorem nul_not_mem_body : nul ∉ body libc clampTtl path := by
  intro hmem
  rcases mem_intercalate _ hmem with h | ⟨field, hfield, h⟩
  · exact absurd h (by decide)
  · exact ((fields_tokens clampTtl hinverse hpath field hfield).2 nul h).2 rfl

theorem words_body : words space (cstring (body libc clampTtl path)) = fields libc clampTtl path := by
  have htokens := fields_tokens clampTtl hinverse hpath
  rw [cstring_of_not_mem (nul_not_mem_body clampTtl hinverse hpath)]
  exact words_intercalate (List.cons_ne_nil _ _) fun field hfield =>
    ⟨(htokens field hfield).1, fun h => ((htokens field hfield).2 ' ' h).1 rfl⟩

/-! ### Reading it back -/

/-- The index is zero or has a name, or no other interface has the number for a name. -/
def Resolvable (libc : Libc) (lits : Literals) (ifindex : Int) : Prop :=
  ifindex = 0 ∨ (libc.ifIndextoname ifindex).isSome ∨
    lits.ifNametoindex (decimal ifindex) = 0 ∨ lits.ifNametoindex (decimal ifindex) = ifindex

theorem parseIfindex_zone :
    parseIfindex lits ((zone libc path).getD []) = path.ifindex ↔
      Resolvable libc lits path.ifindex := by
  obtain ⟨hlow, hhigh⟩ := hpath.ifindex
  have hint : ∀ n : Int, 0 ≤ n → n < 2 ^ 31 → toCInt n = n := by
    intro n hlow hhigh
    unfold toCInt
    omega
  unfold zone Resolvable
  by_cases hzero : path.ifindex ≠ 0
  · rw [if_pos hzero, Option.getD_some]
    cases hname : libc.ifIndextoname path.ifindex with
    | some name =>
        refine iff_of_true ?_ (Or.inr (Or.inl rfl))
        dsimp only
        rw [parseIfindex, hinverse.index _ hname, hint _ hlow hhigh, if_pos hzero]
    | none =>
        obtain ⟨hposition, hend⟩ := hinverse.interfaces.range (decimal path.ifindex)
        dsimp only
        rw [parseIfindex, hint _ hposition hend]
        by_cases htaken : lits.ifNametoindex (decimal path.ifindex) ≠ 0
        · rw [if_pos htaken]
          simp [hzero, htaken]
        · obtain ⟨hnumber, hrest⟩ := strtol_decimal hlow hhigh
          rw [if_neg htaken, if_neg (not_not.mpr hrest), hnumber]
          exact iff_of_true rfl (Or.inr (Or.inr (Or.inl (not_not.mp htaken))))
  · refine iff_of_true ?_ (Or.inl (not_not.mp hzero))
    rw [if_neg hzero, Option.getD_none, parseIfindex, hinverse.interfaces.unnamed,
      if_neg (by decide), not_not.mp hzero]
    rfl

theorem literal_inetNtop : literal lits (libc.inetNtop path.family path.address) =
    some (path.family, path.address) := by
  have hback := hinverse.inet
  unfold literal
  rcases hpath.address with h | h
  · rw [h.1] at hback ⊢
    rw [hback]
  · have hother := hinverse.inet6 h.1
    rw [h.1] at hback hother ⊢
    rw [hother, hback]
    rfl

/-- What comes back from the text. -/
theorem parsePath_body : parsePath lits (body libc clampTtl path) =
    some
      { family := path.family
        address := path.address
        ifindex := parseIfindex lits ((zone libc path).getD [])
        socktype := SOCK_STREAM
        protocol := IPPROTO_TCP
        port := path.port } := by
  have hnode : '%' ∉ libc.inetNtop path.family path.address :=
    fun hmem => (hinverse.text '%' hmem).1 rfl
  have hport := (strtol_decimal (n := path.port) hpath.port.1
    (hpath.port.2.trans (by decide))).1
  rw [parsePath_words, words_body clampTtl hinverse hpath]
  simp only [fields, List.head?_cons, List.getElem?_cons_succ, List.getElem?_cons_zero]
  rw [parseAddress_addressText lits hnode, literal_inetNtop hinverse hpath]
  simp only [Option.map_some, enumIdFromName, socktypes, ParsePath.protocols, hport]

end

/-! ### The buffer -/

/-- The string in the buffer. -/
def stringIn (memory : Nat → Char) : Text := cstring ((List.range bufferSize).map memory)

theorem stringIn_of_holds {memory : Nat → Char} {text : Text} (h : Print.Holds memory text)
    (hnul : nul ∉ text) (hlength : text.length < bufferSize) : stringIn memory = text := by
  have hsplit : (List.range bufferSize).map memory = text ++
      nul :: ((List.range bufferSize).map memory).drop (text.length + 1) := by
    have hlen : ((List.range bufferSize).map memory).length = bufferSize := by simp
    have hended := h.ended
    rw [Nat.min_eq_left (by omega)] at hended
    have htake : ((List.range bufferSize).map memory).take text.length = text := by
      refine List.ext_getElem (by simp [hlen, Nat.min_eq_left hlength.le]) fun i hi hi' => ?_
      rw [List.getElem_take, List.getElem_map, List.getElem_range]
      exact h.bytes i _ (by omega) (List.getElem?_eq_getElem hi')
    have hdrop : ((List.range bufferSize).map memory).drop text.length =
        nul :: ((List.range bufferSize).map memory).drop (text.length + 1) := by
      rw [List.drop_eq_getElem_cons (by rw [hlen]; exact hlength), List.getElem_map,
        List.getElem_range, hended]
    rw [← hdrop]
    conv_lhs => rw [← List.take_append_drop text.length ((List.range bufferSize).map memory)]
    rw [htake]
  unfold stringIn
  rw [hsplit]
  exact cstring_append_nul hnul _

section

variable {libc : Libc} (clampTtl : Int) {lits : Literals}

theorem pathText_length {path : Path} (hinverse : Inverse libc lits path) (hpath : IpPath path) :
    (pathText libc clampTtl path).length < bufferSize - 1 := by
  have haddr : (addrstr libc path).length < 46 := by
    rw [addrstr_eq hinverse hpath]
    exact hinverse.length.2
  have hfamily : path.family ≠ AF_UNIX := by
    rcases hpath.address with h | h <;> rw [h.1] <;> decide
  have htext := ipText_length libc clampTtl hfamily
  unfold bufferSize
  omega

/-- The text of the path is in the buffer as a whole. -/
theorem stringIn_getPathString (query : Query) (memory : Nat → Char)
    (i : Fin query.response.paths.length)
    (hinverse : Inverse libc lits (query.response.paths.get i).value)
    (hpath : IpPath (query.response.paths.get i).value) :
    stringIn ((Getter.path i).run libc clampTtl memory).memory =
      "ip ".toList ++ body libc clampTtl (query.response.paths.get i).value := by
  have hlength := pathText_length clampTtl hinverse hpath
  have hshort := short_pathText libc clampTtl (query.response.paths.get i).value
  have hfits : FitsFrom 0 [pathText libc clampTtl (query.response.paths.get i).value] := by
    refine ⟨Or.inl hshort, ?_⟩
    rw [FitsFrom, advance, if_pos hshort]
    omega
  have hkept := kept_of_fits (List.cons_ne_nil _ _) hfits memory
  have hholds := hkept.text
  rw [print_text, List.nil_append, List.flatten_singleton] at hholds
  have hnul : nul ∉ pathText libc clampTtl (query.response.paths.get i).value := by
    rw [pathText_eq clampTtl hinverse hpath, List.mem_append]
    rintro (h | h)
    · exact absurd h (by decide)
    · exact nul_not_mem_body clampTtl hinverse hpath h
  rw [Getter.run_eq, ← pathText_eq clampTtl hinverse hpath]
  exact stringIn_of_holds hholds hnul (by omega)

/-- The text of a path, without the word in front, is read as the same path. -/
def RoundTrip (libc : Libc) (clampTtl : Int) (lits : Literals) (query : Query)
    (memory : Nat → Char) (i : Fin query.response.paths.length) : Prop :=
  ∃ text, stringIn ((Getter.path i).run libc clampTtl memory).memory = "ip ".toList ++ text ∧
    parsePath lits text = some
      { family := (query.response.paths.get i).value.family
        address := (query.response.paths.get i).value.address
        ifindex := (query.response.paths.get i).value.ifindex
        socktype := (query.response.paths.get i).value.socktype
        protocol := (query.response.paths.get i).value.protocol
        port := (query.response.paths.get i).value.port }

/--
**A path comes back from its text if and only if it is a TCP stream whose zone can be told.**  The
zone can be told if the index is zero, has a name, or no other interface has the number for a name.
-/
theorem path_round_trip_iff (query : Query) (memory : Nat → Char)
    (i : Fin query.response.paths.length)
    (hinverse : Inverse libc lits (query.response.paths.get i).value)
    (hpath : IpPath (query.response.paths.get i).value) :
    RoundTrip libc clampTtl lits query memory i ↔
      (query.response.paths.get i).value.socktype = SOCK_STREAM ∧
      (query.response.paths.get i).value.protocol = IPPROTO_TCP ∧
      Resolvable libc lits (query.response.paths.get i).value.ifindex := by
  have hstring := stringIn_getPathString clampTtl query memory i hinverse hpath
  have hparse := parsePath_body clampTtl hinverse hpath
  rw [← parseIfindex_zone hinverse hpath]
  constructor
  · rintro ⟨text, htext, hround⟩
    obtain rfl : body libc clampTtl _ = text := List.append_cancel_left (hstring.symm.trans htext)
    rw [hparse] at hround
    injection hround with hround
    injection hround with hparsed hsocktype hprotocol hport
    injection hparsed with hfamily haddress hifindex
    exact ⟨hsocktype.symm, hprotocol.symm, hifindex⟩
  · rintro ⟨hsocktype, hprotocol, hifindex⟩
    refine ⟨_, hstring, ?_⟩
    rw [hparse, hsocktype, hprotocol, hifindex]

end

/-- A path on an interface with a name. -/
def linkPath (socktype protocol : Int) : Path :=
  { family := AF_INET, address := [1, 2, 3, 4], ifindex := 2, socktype, protocol, port := 80
    priority := 0, weight := 0, ttl := 0 }

def linkQuery (socktype protocol : Int) : Query :=
  { id := 0, response := { paths := [⟨linkPath socktype protocol, 0⟩] } }

def linkLibc : Libc where
  inetNtop family address :=
    if family = AF_INET ∧ address = [1, 2, 3, 4] then "1.2.3.4".toList else []
  ifIndextoname i := if i = 2 then some ⟨"eth0".toList, by decide⟩ else none

def linkLits : Literals where
  inetPton family text :=
    if family = AF_INET ∧ text = "1.2.3.4".toList then some [1, 2, 3, 4] else none
  ifNametoindex name := if name = "eth0".toList then 2 else 0

theorem link_inverse (socktype protocol : Int) :
    Inverse linkLibc linkLits (linkPath socktype protocol) where
  interfaces := by
    refine ⟨rfl, fun name => ?_⟩
    dsimp only [linkLits]
    split <;> decide
  inet := rfl
  inet6 h := absurd (show AF_INET = AF_INET6 from h) (by decide)
  length := by
    show 0 < "1.2.3.4".toList.length ∧ "1.2.3.4".toList.length < 46
    decide
  text := by
    have hall : "1.2.3.4".toList.all (fun c => c ≠ '%' && c ≠ ' ' && c ≠ nul) = true := by decide
    intro c hc
    simpa [and_assoc] using List.all_eq_true.mp hall c hc
  index := by
    intro name hname
    obtain rfl := Option.some.inj hname
    rfl
  name := by
    have hall : "eth0".toList.all (fun c => c ≠ ' ' && c ≠ nul) = true := by decide
    intro name hname c hc
    obtain rfl := Option.some.inj hname
    simpa using List.all_eq_true.mp hall c hc

theorem link_ipPath {socktype protocol : Int}
    (hsocktype : socktype = SOCK_STREAM ∨ socktype = SOCK_DGRAM)
    (hprotocol : protocol = IPPROTO_TCP ∨ protocol = IPPROTO_UDP) :
    IpPath (linkPath socktype protocol) where
  address := Or.inl ⟨rfl, rfl⟩
  ifindex := by
    show (0 : Int) ≤ 2 ∧ (2 : Int) < 2 ^ 31
    decide
  socktype := hsocktype.imp_right Or.inl
  protocol := hprotocol.imp_right Or.inl
  port := by
    show (0 : Int) ≤ 80 ∧ (80 : Int) < 65536
    decide

/-- A TCP stream comes back. -/
theorem path_round_trip_stream :
    RoundTrip linkLibc (-1) linkLits (linkQuery SOCK_STREAM IPPROTO_TCP) (fun _ => nul)
      ⟨0, Nat.zero_lt_one⟩ :=
  (path_round_trip_iff (-1) (linkQuery SOCK_STREAM IPPROTO_TCP) (fun _ => nul)
    ⟨0, Nat.zero_lt_one⟩ (link_inverse SOCK_STREAM IPPROTO_TCP)
    (link_ipPath (Or.inl rfl) (Or.inl rfl))).mpr ⟨rfl, rfl, Or.inr (Or.inl rfl)⟩

/-- A UDP datagram comes back as a TCP stream. -/
theorem path_round_trip_datagram :
    ¬ RoundTrip linkLibc (-1) linkLits (linkQuery SOCK_DGRAM IPPROTO_UDP) (fun _ => nul)
      ⟨0, Nat.zero_lt_one⟩ := by
  rintro ⟨text, htext, hround⟩
  have hinverse := link_inverse SOCK_DGRAM IPPROTO_UDP
  have hpath : IpPath (linkPath SOCK_DGRAM IPPROTO_UDP) := link_ipPath (Or.inr rfl) (Or.inr rfl)
  have hstring := stringIn_getPathString (-1) (linkQuery SOCK_DGRAM IPPROTO_UDP) (fun _ => nul)
    ⟨0, Nat.zero_lt_one⟩ hinverse hpath
  obtain rfl := List.append_cancel_left (hstring.symm.trans htext)
  rw [show (linkQuery SOCK_DGRAM IPPROTO_UDP).response.paths.get ⟨0, Nat.zero_lt_one⟩ =
    ⟨linkPath SOCK_DGRAM IPPROTO_UDP, 0⟩ from rfl, parsePath_body (-1) hinverse hpath] at hround
  injection hround with hround
  injection hround with _ hsocktype
  exact absurd hsocktype (by decide)

end Netresolve.PathText
