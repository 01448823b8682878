/-
The zone of an address, in the places an address text is taken from.

`netresolve_backend_parse_address` asks for the interface of that name and then for a number, and
reports a zone that is neither with the index -1, to be checked by its caller.  Only `numerichost`
checks it.  And what `strtol` takes for a number is more than the decimal numbers: the empty text,
white space and a sign in front of the digits, and numbers that do not fit an `int`.
-/
import Netresolve.Backends.Exec
import Netresolve.Backends.Numerichost
import Netresolve.Proofs.Hosts
import Netresolve.Proofs.ServiceFile

namespace Netresolve.Zones

open CString ParsePath
open ServiceFile (blank toCInt_clampLong)

/-! ### Texts and their zones -/

/-- `A` or `A%Z`. -/
def addressText (node : Text) (zone : Option Text) : Text :=
  node ++ (zone.map ('%' :: ·)).getD []

/-- What `if_nametoindex` is relied on for: indices are positive numbers, and names not empty. -/
structure Interfaces (lits : Literals) : Prop where
  unnamed : lits.ifNametoindex [] = 0
  range : ∀ name, 0 ≤ lits.ifNametoindex name ∧ lits.ifNametoindex name < 2 ^ 31

/-- The index of a zone, if it has one. -/
def zoneIndex (lits : Literals) : Option Text → Option Int
  | none => some 0
  | some zone =>
      if lits.ifNametoindex zone ≠ 0 then some (lits.ifNametoindex zone)
      else if zone ≠ [] ∧ zone.all Char.isDigit ∧ digitsValue zone < 2 ^ 31 then
        some (digitsValue zone)
      else none

/-- The family and the bytes of an address without a zone. -/
def literal (lits : Literals) (node : Text) : Option (Int × List UInt8) :=
  match lits.inetPton AF_INET node with
  | some address => some (AF_INET, address)
  | none => (lits.inetPton AF_INET6 node).map fun address => (AF_INET6, address)

theorem parseAddress_addressText (lits : Literals) {node : Text} (hnode : '%' ∉ node) (zone : Option Text) :
    parseAddress lits (some (addressText node zone)) =
      (literal lits node).map fun l => ⟨l.1, l.2, parseIfindex lits (zone.getD [])⟩ := by
  have hall : ∀ c ∈ node, decide (c ≠ '%') = true := fun c hc => by
    simpa using fun heq : c = '%' => hnode (heq ▸ hc)
  have htake : (addressText node zone).takeWhile (· ≠ '%') = node := by
    cases zone with
    | none =>
        rw [addressText, Option.map_none, Option.getD_none, List.append_nil]
        exact List.takeWhile_eq_self_iff.mpr hall
    | some z =>
        rw [addressText, Option.map_some, Option.getD_some, List.takeWhile_append_of_pos hall,
          List.takeWhile_cons_of_neg (by simp), List.append_nil]
  have hdrop : ((addressText node zone).dropWhile (· ≠ '%')).tail = zone.getD [] := by
    cases zone with
    | none =>
        rw [addressText, Option.map_none, Option.getD_none, List.dropWhile_append_of_pos hall]
        rfl
    | some z =>
        rw [addressText, Option.map_some, Option.getD_some, List.dropWhile_append_of_pos hall,
          List.dropWhile_cons_of_neg (by simp)]
        rfl
  unfold parseAddress literal
  dsimp only
  rw [htake, hdrop]
  cases lits.inetPton AF_INET node with
  | some address => rfl
  | none =>
      cases lits.inetPton AF_INET6 node with
      | some address => rfl
      | none => rfl

/-! ### Numbers -/

variable {lits : Literals}

theorem isSpace_of_isDigit {c : Char} (h : c.isDigit = true) : isSpace c = false := by
  by_contra hspace
  simp only [isSpace, Bool.not_eq_false, Bool.or_eq_true, decide_eq_true_eq] at hspace
  rcases hspace with ((((rfl | rfl) | rfl) | rfl) | rfl) | rfl <;> cases h

theorem digitsValue_nonneg (digits : Text) : 0 ≤ digitsValue digits := by
  unfold digitsValue
  have hfold : ∀ (digits : Text) (n : Int), 0 ≤ n →
      0 ≤ digits.foldl (fun (n : Int) c => n * 10 + (c.toNat - '0'.toNat : Nat)) n := by
    intro digits
    induction digits with
    | nil => exact fun n hn => hn
    | cons c rest ih =>
        intro n hn
        refine ih _ ?_
        dsimp only
        omega
  exact hfold digits 0 (le_refl 0)

/-- `strtol` on digits up to something else. -/
theorem strtol_digits {digits : Text} (hne : digits ≠ []) (hdigits : digits.all Char.isDigit = true)
    (rest : Text) (hrest : rest.takeWhile Char.isDigit = []) :
    strtol (digits ++ rest) = (clampLong (digitsValue digits), rest) := by
  rw [List.all_eq_true] at hdigits
  obtain ⟨first, others, rfl⟩ := List.exists_cons_of_ne_nil hne
  have hfirst := hdigits first List.mem_cons_self
  have hbody : (first :: others ++ rest).dropWhile isSpace = first :: others ++ rest := by
    rw [List.cons_append, List.dropWhile_cons_of_neg (by simp [isSpace_of_isDigit hfirst])]
  have htake : (first :: others ++ rest).takeWhile Char.isDigit = first :: others := by
    rw [List.takeWhile_append_of_pos hdigits, hrest, List.append_nil]
  have hdrop : (first :: others ++ rest).dropWhile Char.isDigit = rest := by
    rw [List.dropWhile_append_of_pos hdigits]
    have hsplit := List.takeWhile_append_dropWhile (p := Char.isDigit) (l := rest)
    rw [hrest, List.nil_append] at hsplit
    exact hsplit
  have hminus : first ≠ '-' := fun heq => by rw [heq] at hfirst; cases hfirst
  have hplus : first ≠ '+' := fun heq => by rw [heq] at hfirst; cases hfirst
  unfold strtol
  rw [hbody]
  dsimp only
  split
  · next hmatch => exact absurd (List.cons.inj hmatch).1 hminus
  · next hmatch => exact absurd (List.cons.inj hmatch).1 hplus
  · rw [htake, hdrop]
    rfl

theorem strtol_nil : strtol [] = (0, []) := rfl

/-- A zone that has an index is read as that. -/
theorem parseIfindex_eq (h : Interfaces lits) {zone : Option Text} {i : Int}
    (hzone : zoneIndex lits zone = some i) : parseIfindex lits (zone.getD []) = i ∧ 0 ≤ i := by
  have hint : ∀ n : Int, 0 ≤ n → n < 2 ^ 31 → toCInt n = n := by
    intro n hlow hhigh
    unfold toCInt
    omega
  unfold parseIfindex
  cases zone with
  | none =>
      obtain rfl : 0 = i := Option.some.inj hzone
      rw [Option.getD_none, h.unnamed, if_neg (by decide), strtol_nil]
      exact ⟨rfl, le_refl 0⟩
  | some zone =>
      obtain ⟨hlow, hhigh⟩ := h.range zone
      rw [Option.getD_some, hint _ hlow hhigh]
      rw [zoneIndex] at hzone
      by_cases hnamed : lits.ifNametoindex zone ≠ 0
      · rw [if_pos hnamed] at hzone ⊢
        obtain rfl := Option.some.inj hzone
        exact ⟨rfl, hlow⟩
      · rw [if_neg hnamed] at hzone ⊢
        by_cases hdecimal : zone ≠ [] ∧ zone.all Char.isDigit ∧ digitsValue zone < 2 ^ 31
        · rw [if_pos hdecimal] at hzone
          obtain rfl := Option.some.inj hzone
          have hstrtol := strtol_digits hdecimal.1 hdecimal.2.1 [] rfl
          have hpos := digitsValue_nonneg zone
          rw [List.append_nil] at hstrtol
          rw [hstrtol, if_neg (by simp), toCInt_clampLong (by omega) hdecimal.2.2]
          exact ⟨rfl, hpos⟩
        · rw [if_neg hdecimal] at hzone
          cases hzone

/-! ### The words of a path -/

/-- `netresolve_backend_parse_path`, on the words of the string. -/
theorem parsePath_words (lits : Literals) (str : Text) : parsePath lits str =
    (parseAddress lits (words space (cstring str)).head?).map fun a =>
      { a with
        socktype := enumIdFromName (words space (cstring str))[1]? socktypes
        protocol := enumIdFromName (words space (cstring str))[2]? ParsePath.protocols
        port := enumIdFromName (words space (cstring str))[3]? [] } := by
  obtain ⟨behind, -, hends, hstart⟩ := within_start str
  obtain ⟨haddress, text₁, hwithin₁, hleft₁⟩ := hstart.next space rfl hends rfl
  obtain ⟨hsocktype, text₂, hwithin₂, hleft₂⟩ := hwithin₁.next space rfl hends hleft₁
  obtain ⟨hprotocol, text₃, hwithin₃, hleft₃⟩ := hwithin₂.next space rfl hends hleft₂
  obtain ⟨hport, -⟩ := hwithin₃.next space rfl hends hleft₃
  have htail : ∀ l : List Text, l.tail.head? = l[1]? ∧ l.tail.tail.head? = l[2]? ∧
      l.tail.tail.tail.head? = l[3]? := by
    intro l
    simp only [List.head?_eq_getElem?, List.getElem?_tail]
    exact ⟨trivial, trivial, trivial⟩
  obtain ⟨hone, htwo, hthree⟩ := htail (words space (cstring str))
  unfold parsePath
  dsimp only
  rw [haddress, hsocktype, hprotocol, hport, hone, htwo, hthree]
  cases parseAddress lits (words space (cstring str)).head? with
  | none => rfl
  | some a => rfl

/-! ### Places -/

/-- The places an address text is taken from, with what stands around it. -/
inductive Place where
  | numerichost
  /-- The memory with the line of the hosts file. -/
  | hosts (memory : Text)
  | execAddress
  /-- What follows the address in the line. -/
  | execPath (behind : Text)

namespace Place

/-- The place has the text as its address. -/
def Has (text : Text) : Place → Prop
  | numerichost => True
  | hosts memory => ∃ names, words blank (cstring memory) = text :: names
  | execAddress => True
  | execPath behind => text ≠ [] ∧ ' ' ∉ text ∧ nul ∉ text ∧
      (behind = [] ∨ ∃ rest, behind = ' ' :: rest)

/-- A path is added for the text. -/
def Adds (lits : Literals) (text : Text) (args : PathArgs) : Place → Prop
  | numerichost => .addPath args ∈ Numerichost.queryForward lits (some (String.ofList text))
  | hosts memory => ∃ node, .addPath args ∈ Hosts.forwardCalls node (Hosts.readItem lits memory).1
  | execAddress => .addPath args ∈ (Exec.receivedLine lits (Exec.addrprefix ++ text)).2
  | execPath behind => .addPath args ∈ (Exec.receivedLine lits (Exec.pathprefix ++ text ++ behind)).2

/-- There is no path for a zone without an index, because of the place. -/
def Refuses (text : Text) (zone : Option Text) : Place → Prop
  | numerichost => ∃ z, zone = some z ∧ ((strtol z).2 ≠ [] ∨ toCInt (strtol z).1 < 0)
  | hosts memory => words blank (cstring memory) = [text]
  | execAddress => False
  | execPath _ => False

/-- An address of that index gets no path, because of the place. -/
def Blocks (text : Text) (ifindex : Int) : Place → Prop
  | numerichost => ifindex < 0
  | hosts memory => words blank (cstring memory) = [text]
  | execAddress => False
  | execPath _ => False

end Place

theorem mem_forwardCalls {node : Text} {a : ParsedAddress} (names : List Text) {args : PathArgs} :
    .addPath args ∈ Hosts.forwardCalls node (Hosts.addNodes a names) ↔
      node ∈ names ∧ args = { family := a.family, address := a.address, ifindex := a.ifindex } := by
  induction names with
  | nil => simp [Hosts.addNodes, Hosts.forwardCalls]
  | cons name rest ih =>
      have hstep : Hosts.forwardCalls node (Hosts.addNodes a (name :: rest)) =
          if node ≠ name then Hosts.forwardCalls node (Hosts.addNodes a rest)
          else .addPath (Hosts.Item.args ⟨some name, a.family, a.address, a.ifindex⟩) ::
            Hosts.forwardCalls node (Hosts.addNodes a rest) := rfl
      rw [hstep]
      by_cases hname : node = name
      · rw [if_neg (not_not.mpr hname), List.mem_cons, ih, List.mem_cons]
        simp only [Call.addPath.injEq, Hosts.Item.args]
        tauto
      · rw [if_pos hname, ih, List.mem_cons]
        tauto

/-- The text of a path line is its first word. -/
theorem head?_words_path {text behind : Text} (h : (Place.execPath behind).Has text) :
    (words space (cstring (text ++ behind))).head? = some text := by
  obtain ⟨hne, hspace, hnul, hbehind⟩ := h
  have hfree : ∀ c ∈ text, space c = false := by
    intro c hc
    simpa [space] using fun heq : c = ' ' => hspace (heq ▸ hc)
  rcases hbehind with rfl | ⟨rest, rfl⟩
  · rw [List.append_nil, cstring_of_not_mem hnul, words_single hne hfree]
    rfl
  · have hstring : cstring (text ++ ' ' :: rest) = text ++ ' ' :: cstring rest := by
      unfold cstring
      rw [List.takeWhile_append_of_pos, List.takeWhile_cons_of_pos (by decide)]
      intro c hc
      simpa using fun heq : c = nul => hnul (heq ▸ hc)
    rw [hstring, words_token hne hfree rfl]
    rfl

/-- One path for an address, unless the place keeps it back. -/
theorem exists_args_iff {calls : List Call} {parsed : Option ParsedAddress} (blocked : Int → Prop)
    (f : ParsedAddress → PathArgs) (hf : ∀ a, (f a).ifindex = a.ifindex)
    (hcalls : ∀ args, .addPath args ∈ calls ↔
      ∃ a, parsed = some a ∧ args = f a ∧ ¬ blocked a.ifindex) (i : Int) :
    (∃ args, .addPath args ∈ calls ∧ args.ifindex = i) ↔
      ∃ a, parsed = some a ∧ a.ifindex = i ∧ ¬ blocked i := by
  constructor
  · intro h
    obtain ⟨args, hmem, hi⟩ := h
    obtain ⟨a, hparsed, rfl, hopen⟩ := (hcalls args).mp hmem
    rw [hf] at hi
    exact ⟨a, hparsed, hi, hi ▸ hopen⟩
  · intro h
    obtain ⟨a, hparsed, hi, hopen⟩ := h
    exact ⟨f a, (hcalls _).mpr ⟨a, hparsed, rfl, hi.symm ▸ hopen⟩, (hf a).trans hi⟩

/-- Where the paths of a text come from. -/
theorem adds_iff (lits : Literals) (place : Place) {text : Text} (hplace : place.Has text) (i : Int) :
    (∃ args, place.Adds lits text args ∧ args.ifindex = i) ↔
      ∃ a, parseAddress lits (some text) = some a ∧ a.ifindex = i ∧ ¬ place.Blocks text i := by
  cases place with
  | numerichost =>
      refine exists_args_iff (fun i => i < 0)
        (fun a => { family := a.family, address := a.address, ifindex := a.ifindex })
        (fun _ => rfl) (fun args => ?_) i
      simp only [Numerichost.queryForward, Option.map_some, String.toList_ofList]
      cases parseAddress lits (some text) with
      | none => simp
      | some a =>
          dsimp only
          by_cases hpos : 0 ≤ a.ifindex
          · rw [if_pos hpos]
            simp [hpos]
          · rw [if_neg hpos]
            simp [not_le.mp hpos]
  | hosts memory =>
      obtain ⟨names, hwords⟩ := hplace
      have hitems : (Hosts.readItem lits memory).1 =
          ((parseAddress lits (some text)).map fun a => Hosts.addNodes a names).getD [] := by
        rw [(Hosts.readItem_does lits memory).items, Hosts.itemsOf, hwords]
        dsimp only
        cases parseAddress lits (some text) with
        | none => rfl
        | some a => rfl
      simp only [Place.Adds, Place.Blocks, hitems, hwords]
      cases parseAddress lits (some text) with
      | none => simp [Hosts.forwardCalls]
      | some a =>
          simp only [Option.map_some, Option.getD_some, mem_forwardCalls]
          cases names with
          | nil => simp
          | cons name rest =>
              constructor
              · rintro ⟨args, ⟨node, _, rfl⟩, hi⟩
                exact ⟨a, rfl, hi, by simp⟩
              · rintro ⟨a', ha, hi, _⟩
                obtain rfl := Option.some.inj ha
                exact ⟨_, ⟨name, List.mem_cons_self, rfl⟩, hi⟩
  | execAddress =>
      refine exists_args_iff (fun _ => False)
        (fun a => { family := a.family, address := a.address, ifindex := a.ifindex })
        (fun _ => rfl) (fun args => ?_) i
      have hne : Exec.addrprefix ++ text ≠ [] := List.cons_ne_nil _ _
      rw [Exec.receivedLine, if_neg hne, if_pos (List.prefix_append _ _), List.drop_left]
      cases parseAddress lits (some text) with
      | none => simp
      | some a => simp
  | execPath behind =>
      have hne : Exec.pathprefix ++ text ++ behind ≠ [] := List.cons_ne_nil _ _
      have hnotaddr : ¬ Exec.addrprefix <+: Exec.pathprefix ++ text ++ behind := by
        rintro ⟨rest, hrest⟩
        have hhead : some 'a' = some 'p' := congrArg List.head? hrest
        exact absurd hhead (by decide)
      have hprefix : Exec.pathprefix <+: Exec.pathprefix ++ text ++ behind := by
        rw [List.append_assoc]
        exact List.prefix_append _ _
      refine exists_args_iff (fun _ => False)
        (fun a =>
          { family := a.family
            address := a.address
            ifindex := a.ifindex
            socktype := enumIdFromName (words space (cstring (text ++ behind)))[1]? socktypes
            protocol := enumIdFromName (words space (cstring (text ++ behind)))[2]?
              ParsePath.protocols
            port := enumIdFromName (words space (cstring (text ++ behind)))[3]? [] })
        (fun _ => rfl) (fun args => ?_) i
      rw [Exec.receivedLine, if_neg hne, if_neg hnotaddr, if_pos hprefix, List.append_assoc,
        List.drop_left, parsePath_words, head?_words_path hplace]
      cases parseAddress lits (some text) with
      | none => simp
      | some a => simp

/-- What the place makes of a zone without an index. -/
theorem blocks_iff (place : Place) {text : Text} {zone : Text}
    (hunnamed : lits.ifNametoindex zone = 0) :
    place.Blocks text (parseIfindex lits zone) ↔ place.Refuses text (some zone) := by
  cases place with
  | numerichost =>
      have hzero : ¬ toCInt (lits.ifNametoindex zone) ≠ 0 := by
        rw [hunnamed]
        decide
      simp only [Place.Blocks, Place.Refuses, Option.some.injEq, exists_eq_left']
      rw [parseIfindex, if_neg hzero]
      by_cases hrest : (strtol zone).2 ≠ []
      · rw [if_pos hrest]
        simp [hrest]
      · rw [if_neg hrest, or_iff_right hrest]
  | hosts memory => exact Iff.rfl
  | execAddress => exact Iff.rfl
  | execPath behind => exact Iff.rfl

/--
**A path has the index of its zone if and only if the text is no address, the zone has an index, or
the place does not add a path.**  For every place an address text is taken from: each path that is
added for `A` or `A%Z` has index 0 without a zone, and else the index of the interface `Z` or the
number `Z`, and there is none if `Z` is neither, exactly if `A` is not an address, or there is no
zone or one that is an interface or a decimal number in range, or no path is added: by numerichost,
because `strtol` does not use up the zone or what it returns is negative as an `int`; for a line of
the hosts file, because there are no names in it.
-/
theorem zone_index_iff (hlits : Interfaces lits) (place : Place) {node : Text} {zone : Option Text}
    (hnode : '%' ∉ node) (hplace : place.Has (addressText node zone)) :
    (∀ args, place.Adds lits (addressText node zone) args →
        zoneIndex lits zone = some args.ifindex) ↔
      literal lits node = none ∨ (zoneIndex lits zone).isSome ∨
        place.Refuses (addressText node zone) zone := by
  have hparse := parseAddress_addressText lits hnode zone
  cases hliteral : literal lits node with
  | none =>
      rw [hliteral, Option.map_none] at hparse
      refine iff_of_true (fun args hargs => ?_) (Or.inl rfl)
      obtain ⟨a, ha, _⟩ := (adds_iff lits place hplace args.ifindex).mp ⟨args, hargs, rfl⟩
      rw [hparse] at ha
      cases ha
  | some l =>
      rw [hliteral, Option.map_some] at hparse
      cases hzone : zoneIndex lits zone with
      | some i =>
          obtain ⟨hindex, _⟩ := parseIfindex_eq hlits hzone
          refine iff_of_true (fun args hargs => ?_) (Or.inr (Or.inl rfl))
          obtain ⟨a, ha, hi, _⟩ := (adds_iff lits place hplace args.ifindex).mp ⟨args, hargs, rfl⟩
          obtain rfl := Option.some.inj (hparse.symm.trans ha)
          rw [← hi, ← hindex]
      | none =>
          cases zone with
          | none => cases hzone
          | some zone =>
              have hunnamed : lits.ifNametoindex zone = 0 := by
                by_contra hnamed
                rw [zoneIndex, if_pos hnamed] at hzone
                cases hzone
              have hadds := adds_iff lits place hplace
                (parseIfindex lits zone)
              rw [blocks_iff place hunnamed] at hadds
              constructor
              · intro hnever
                by_contra hadded
                simp only [reduceCtorEq, Option.isSome_none, Bool.false_eq_true, false_or] at hadded
                obtain ⟨args, hargs, _⟩ := hadds.mpr ⟨_, hparse, rfl, hadded⟩
                cases hnever args hargs
              · intro hrefuses args hargs
                simp only [reduceCtorEq, Option.isSome_none, Bool.false_eq_true, false_or]
                  at hrefuses
                obtain ⟨a, ha, hi, _⟩ := (adds_iff lits place hplace args.ifindex).mp ⟨args, hargs, rfl⟩
                obtain rfl := Option.some.inj (hparse.symm.trans ha)
                exact absurd hrefuses (hadds.mp ⟨args, hargs, hi.symm⟩).choose_spec.2.2

/-- One address, and one interface. -/
def linkLits : Literals where
  inetPton family text :=
    if family = AF_INET6 ∧ text = "fe80::1".toList then
      some [0xfe, 0x80, 0, 0, 0, 0, 0, 0, 0, 0, 0, 0, 0, 0, 0, 1]
    else none
  ifNametoindex name := if name = "eth0".toList then 2 else 0

theorem linkLits_interfaces : Interfaces linkLits := by
  refine ⟨rfl, fun name => ?_⟩
  dsimp only [linkLits]
  split <;> decide

/-- An interface, and its index as a number. -/
theorem zone_index_link :
    (∀ args, Place.execAddress.Adds linkLits (addressText "fe80::1".toList (some "eth0".toList)) args →
      zoneIndex linkLits (some "eth0".toList) = some args.ifindex) ∧
    (∀ args, Place.numerichost.Adds linkLits (addressText "fe80::1".toList (some "2".toList)) args →
      zoneIndex linkLits (some "2".toList) = some args.ifindex) :=
  ⟨(zone_index_iff linkLits_interfaces .execAddress (by decide) trivial).mpr
      (Or.inr (Or.inl (by decide))),
    (zone_index_iff linkLits_interfaces .numerichost (by decide) trivial).mpr
      (Or.inr (Or.inl (by decide)))⟩

/--
A zone that is no interface and no number is the index -1 for the exec backend, and for all backends
a number that does not fit an `int` is another one, and the empty zone is zero.
-/
theorem unknown_zone_is_added :
    (¬ ∀ args, Place.execAddress.Adds linkLits
        (addressText "fe80::1".toList (some "bogus".toList)) args →
      zoneIndex linkLits (some "bogus".toList) = some args.ifindex) ∧
    (¬ ∀ args, Place.numerichost.Adds linkLits
        (addressText "fe80::1".toList (some "4294967297".toList)) args →
      zoneIndex linkLits (some "4294967297".toList) = some args.ifindex) ∧
    ¬ ∀ args, Place.numerichost.Adds linkLits (addressText "fe80::1".toList (some [])) args →
      zoneIndex linkLits (some []) = some args.ifindex := by
  have hadded : ∀ (place : Place) (zone : Text) (i : Int),
      place.Has (addressText "fe80::1".toList (some zone)) →
      ¬ place.Blocks (addressText "fe80::1".toList (some zone)) i →
      parseIfindex linkLits zone = i → zoneIndex linkLits (some zone) = none →
      ¬ ∀ args, place.Adds linkLits (addressText "fe80::1".toList (some zone)) args →
        zoneIndex linkLits (some zone) = some args.ifindex := by
    intro place zone i hplace hopen hindex hnone hclaim
    have hparse := parseAddress_addressText linkLits (show '%' ∉ "fe80::1".toList by decide)
      (some zone)
    rw [Option.getD_some, hindex] at hparse
    obtain ⟨args, hargs, _⟩ := (adds_iff linkLits place hplace i).mpr ⟨_, hparse, rfl, hopen⟩
    have hcon := hclaim args hargs
    rw [hnone] at hcon
    cases hcon
  have hone : ¬ (1 : Int) < 0 := by decide
  have hzero : ¬ (0 : Int) < 0 := by decide
  exact ⟨hadded .execAddress _ (-1) trivial id (by decide) (by decide),
    hadded .numerichost _ 1 trivial hone (by decide) (by decide),
    hadded .numerichost _ 0 trivial hzero (by decide) (by decide)⟩

end Netresolve.Zones
