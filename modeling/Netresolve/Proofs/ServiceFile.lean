/-
What is read from the services file.

`serviceOf` says on the string itself what `read_service` does in memory.  It writes to the string
only, so the lines behind it are what they were, and the loop passes it every finished line of the
file, wherever the pieces end.

A line without anything but slashes behind its name makes `strtok_r` return NULL, and the program
stops in `strtol`.
-/
import Netresolve.Core.ServiceFile

namespace Netresolve.ServiceFile

open CString Lines

/-! ### A line -/

/-- `read_service`, on the string. -/
def serviceOf (line : Text) : Except Fault (List Service) :=
  match splitToken blank line with
  | none => .ok []
  | some (name, rest) =>
      match splitToken slash rest with
      | none => .error .nullDeref
      | some (number, rest) =>
          let port := toCInt (strtol number).1
          if port = 0 then .ok []
          else
            let split := splitToken blank rest
            let protocol := protocolFromString (split.map Prod.fst)
            if protocol = 0 then .ok []
            else .ok (addServices protocol port
              (name :: words blank ((split.map Prod.snd).getD [])))

/-- The call does what is due for the string, and writes to the string only. -/
def Does (memory : Text) (due : Except Fault (List Service))
    (result : Except Fault (List Service × Text)) : Prop :=
  match due with
  | .error e => result = .error e
  | .ok added => ∃ memory', result = .ok (added, memory') ∧
      ∀ n, (cstring memory).length ≤ n → memory'.drop n = memory.drop n

theorem readService_does (memory : Text) :
    Does memory (serviceOf (cstring memory)) (readService memory) := by
  obtain ⟨behind, hmemory, hends, hstart⟩ := within_start memory
  have hkeep : ∀ {t text} (added : List Service), Within (cstring memory) behind t text →
      Does memory (.ok added) (.ok (added, t.memory)) := by
    intro t text added ht
    refine ⟨t.memory, rfl, fun n hn => ?_⟩
    rw [ht.drop hn, ← hmemory]
  unfold serviceOf readService
  obtain ⟨hname, hafter⟩ := hstart.strtok blank rfl hends
  rcases hcall : Tape.strtok blank ⟨[], memory⟩ with ⟨name, t⟩
  rw [hcall] at hname hafter
  cases hsplit : splitToken blank (cstring memory) with
  | none =>
      rw [hsplit] at hname hafter
      subst hname
      exact hkeep [] hafter
  | some split =>
      obtain ⟨token, rest⟩ := split
      rw [hsplit] at hname hafter
      subst hname
      dsimp only [Option.map_some]
      -- the number, which `strtol` is called with even if there is none
      obtain ⟨hnumber, hafter₂⟩ := hafter.strtok slash rfl hends
      rcases hcall₂ : t.strtok slash with ⟨number, t₂⟩
      rw [hcall₂, Option.map_some, Option.getD_some] at hnumber hafter₂
      cases hsplit₂ : splitToken slash rest with
      | none =>
          rw [hsplit₂] at hnumber
          subst hnumber
          rfl
      | some split₂ =>
          obtain ⟨token₂, rest₂⟩ := split₂
          rw [hsplit₂] at hnumber hafter₂
          subst hnumber
          dsimp only [Option.map_some]
          by_cases hport : toCInt (strtol token₂).1 = 0
          · rw [if_pos hport, if_pos hport]
            exact hkeep [] hafter₂
          · rw [if_neg hport, if_neg hport]
            -- the protocol
            obtain ⟨hproto, hafter₃⟩ := hafter₂.strtok blank rfl hends
            rcases hcall₃ : t₂.strtok blank with ⟨str, t₃⟩
            rw [hcall₃, Option.map_some, Option.getD_some] at hproto hafter₃
            subst hproto
            by_cases hprotocol :
                protocolFromString ((splitToken blank rest₂).map Prod.fst) = 0
            · rw [if_pos hprotocol, if_pos hprotocol]
              exact hkeep [] hafter₃
            · rw [if_neg hprotocol, if_neg hprotocol]
              have hfuel : (((splitToken blank rest₂).map Prod.snd).getD []).length <
                  t₃.after.length + 1 := by
                rw [hafter₃.after, List.length_append]
                exact Nat.lt_succ_of_le (Nat.le_add_right _ _)
              obtain ⟨haliases, hend⟩ := hafter₃.tokens blank rfl hends hfuel
              rw [haliases]
              exact hkeep _ hend

theorem readService_contained : Contained serviceOf readService := by
  constructor
  · intro memory e h
    have hdoes := readService_does memory
    rw [h] at hdoes
    exact hdoes
  · intro memory added h
    have hdoes := readService_does memory
    rw [h] at hdoes
    exact hdoes

/-! ### A missing token -/

/-- Something other than slashes follows the first token, if there is one. -/
def numbered (line : Text) : Bool :=
  match splitToken blank line with
  | none => true
  | some (_, rest) => rest.any (· ≠ '/')

theorem splitToken_slash_eq_none {rest : Text} :
    splitToken slash rest = none ↔ rest.any (· ≠ '/') = false := by
  rw [splitToken_eq_none, List.any_eq_false]
  simp [slash]

theorem serviceOf_ok_iff (line : Text) :
    (∃ added, serviceOf line = .ok added) ↔ numbered line = true := by
  unfold serviceOf numbered
  cases splitToken blank line with
  | none => exact ⟨fun _ => rfl, fun _ => ⟨[], rfl⟩⟩
  | some split =>
      obtain ⟨name, rest⟩ := split
      dsimp only
      cases hnumber : splitToken slash rest with
      | none =>
          rw [splitToken_slash_eq_none] at hnumber
          rw [hnumber]
          constructor
          · rintro ⟨added, h⟩
            cases h
          · intro h
            cases h
      | some split₂ =>
          have hany : rest.any (· ≠ '/') = true := by
            by_contra hc
            rw [splitToken_slash_eq_none.mpr (by simpa using hc)] at hnumber
            cases hnumber
          refine ⟨fun _ => hany, fun _ => ?_⟩
          dsimp only
          split
          · exact ⟨[], rfl⟩
          · split
            · exact ⟨[], rfl⟩
            · exact ⟨_, rfl⟩

/-! ### The file -/

/-- The call for a line. -/
def callOf (line : Text) : Except Fault (List Call) :=
  (serviceOf line).map fun added => [⟨line, added⟩]

theorem callOf_eq_ok_iff {line : Text} {calls : List Call} :
    callOf line = .ok calls ↔ ∃ added, serviceOf line = .ok added ∧ [⟨line, added⟩] = calls := by
  unfold callOf
  cases serviceOf line with
  | error e =>
      refine ⟨nofun, ?_⟩
      rintro ⟨added, h, _⟩
      cases h
  | ok added => simp [Except.map]

theorem callReadService_contained : Contained callOf callReadService := by
  constructor
  · intro memory e h
    unfold callOf at h
    cases hline : serviceOf (cstring memory) with
    | error e' =>
        rw [hline] at h
        cases h
        unfold callReadService
        rw [readService_contained.fails hline]
        rfl
    | ok added =>
        rw [hline] at h
        cases h
  · intro memory out h
    obtain ⟨added, hline, rfl⟩ := callOf_eq_ok_iff.mp h
    obtain ⟨memory', hread, hbehind⟩ := readService_contained.takes hline
    refine ⟨memory', ?_, hbehind⟩
    unfold callReadService
    rw [hread]
    rfl

theorem callOf_ok_iff (line : Text) : (∃ calls, callOf line = .ok calls) ↔ numbered line = true := by
  rw [← serviceOf_ok_iff]
  constructor
  · rintro ⟨calls, h⟩
    obtain ⟨added, hline, _⟩ := callOf_eq_ok_iff.mp h
    exact ⟨added, hline⟩
  · rintro ⟨added, hline⟩
    exact ⟨_, callOf_eq_ok_iff.mpr ⟨added, hline, rfl⟩⟩

/-- Every line is passed on as it is, in order. -/
theorem collect_callOf {lines : List Text} : ∀ {calls : List Call},
    collect (fun line => callOf (cut line)) lines = .ok calls →
      calls.map Call.line = lines.map cut := by
  induction lines with
  | nil =>
      intro calls h
      cases h
      rfl
  | cons line lines ih =>
      intro calls h
      obtain ⟨first, more, hline, hlines, rfl⟩ := collect_cons_ok_iff.mp h
      obtain ⟨added, _, rfl⟩ := callOf_eq_ok_iff.mp hline
      rw [List.map_append, ih hlines]
      rfl

/-- The loop, for any pieces and any memory. -/
theorem readServicesCalls_eq {content : Text} (hlines : ∀ line ∈ linesOf content, line.length ≤ 1023)
    (choice : Nat → Nat) (memory : Text) {fuel : Nat} (hfuel : content.length < fuel) :
    readServicesCalls choice memory fuel content =
      (dueFinished callOf content).mapError .fault := by
  have hinv : (⟨[], memory⟩ : Buffer).kept = (restOf []).map mask ∧
      dueFinished callOf [] = .ok [] := ⟨rfl, rfl⟩
  have hloop := callReadService_contained.kept.readLoop 1024 choice fuel hfuel hinv
    (fun line hline => Nat.lt_succ_of_le (hlines line hline)) (fun _ _ => trivial)
  rw [List.nil_append] at hloop
  unfold readServicesCalls
  cases hdue : dueFinished callOf content with
  | error e =>
      rw [hdue] at hloop
      exact hloop
  | ok calls =>
      rw [hdue] at hloop
      obtain ⟨rest, hrest, hall⟩ := hloop
      rw [hall]
      exact hrest

/--
**The finished lines of the file are passed on, cut at their comments, however the file is read, if
and only if each has something behind its name.**
-/
theorem services_passed_iff (choice : Nat → Nat) (memory content : Text)
    (hlines : ∀ line ∈ linesOf content, line.length ≤ 1023) :
    (∃ calls, calls.map Call.line = (finished content).map cut ∧
      ∀ fuel, content.length < fuel → readServicesCalls choice memory fuel content = .ok calls) ↔
        ∀ line ∈ finished content, numbered (cut line) = true := by
  have hok : (∃ calls, dueFinished callOf content = .ok calls) ↔
      ∀ line ∈ finished content, numbered (cut line) = true := by
    unfold dueFinished
    rw [collect_ok_iff]
    exact forall_congr' fun line => forall_congr' fun _ => callOf_ok_iff (cut line)
  rw [← hok]
  constructor
  · rintro ⟨calls, -, hread⟩
    have hrun := hread (content.length + 1) (Nat.lt_succ_self _)
    rw [readServicesCalls_eq hlines choice memory (Nat.lt_succ_self _)] at hrun
    cases hdue : dueFinished callOf content with
    | error e =>
        rw [hdue] at hrun
        cases hrun
    | ok all => exact ⟨all, rfl⟩
  · rintro ⟨calls, hdue⟩
    refine ⟨calls, collect_callOf hdue, fun fuel hfuel => ?_⟩
    rw [readServicesCalls_eq hlines choice memory hfuel, hdue]
    rfl

/-- Two lines, read in pieces of five bytes. -/
theorem services_passed_two_lines :
    (∀ line ∈ linesOf "http 80/tcp # web\nntp 123/udp\n".toList, line.length ≤ 1023) ∧
    ∃ calls, calls.map Call.line =
        (finished "http 80/tcp # web\nntp 123/udp\n".toList).map cut ∧
      ∀ fuel, "http 80/tcp # web\nntp 123/udp\n".toList.length < fuel →
        readServicesCalls (fun _ => 5) [] fuel "http 80/tcp # web\nntp 123/udp\n".toList =
          .ok calls :=
  ⟨by decide, (services_passed_iff _ _ _ (by decide)).mpr (by decide)⟩

/-- A line with a name only stops the program. -/
theorem services_name_only_stops :
    ¬ ∃ calls, calls.map Call.line = (finished "foo\nbar 1/tcp\n".toList).map cut ∧
      ∀ fuel, "foo\nbar 1/tcp\n".toList.length < fuel →
        readServicesCalls (fun _ => 1024) [] fuel "foo\nbar 1/tcp\n".toList = .ok calls := by
  rintro ⟨calls, -, hread⟩
  have hstop : readServicesCalls (fun _ => 1024) [] 15 "foo\nbar 1/tcp\n".toList =
      .error (.fault .nullDeref) := by decide
  have hrun := hread 15 (by decide)
  rw [hstop] at hrun
  cases hrun

/-! ### The form of a line -/

/-- The number a text begins with, behind white space and a sign; the rest of the text is ignored. -/
def leadingNumber (text : Text) : Int :=
  match text.dropWhile isSpace with
  | '-' :: rest => -digitsValue (rest.takeWhile Char.isDigit)
  | '+' :: rest => digitsValue (rest.takeWhile Char.isDigit)
  | rest => digitsValue (rest.takeWhile Char.isDigit)

/--
A line `read_service` finds a name, a number and a protocol in: `NAME blank NUMBER/PROTOCOL`, with
blanks in front of the name and the protocol and slashes in front of the number.  A blank, or
nothing, follows the protocol.
-/
structure Form (line name number proto tail : Text) : Prop where
  parts : ∃ lead b slashes gap, line = lead ++ (name ++ b :: (slashes ++ (number ++
      '/' :: (gap ++ (proto ++ tail))))) ∧ (∀ c ∈ lead, blank c = true) ∧ blank b = true ∧
    (∀ c ∈ slashes, c = '/') ∧ ∀ c ∈ gap, blank c = true
  name : name ≠ [] ∧ ∀ c ∈ name, blank c = false
  number : number ≠ [] ∧ '/' ∉ number
  proto : proto ≠ [] ∧ ∀ c ∈ proto, blank c = false
  tail : tail = [] ∨ ∃ b rest, tail = b :: rest ∧ blank b = true

theorem Form.split {line name number proto tail : Text} (h : Form line name number proto tail) :
    ∃ rest rest₂ rest₃, splitToken blank line = some (name, rest) ∧
      splitToken slash rest = some (number, rest₂) ∧
      splitToken blank rest₂ = some (proto, rest₃) ∧ words blank rest₃ = words blank tail := by
  obtain ⟨lead, b, slashes, gap, rfl, hlead, hb, hslashes, hgap⟩ := h.parts
  have hnumber : ∀ c ∈ number, slash c = false := by
    intro c hc
    have hne : c ≠ '/' := fun heq => h.number.2 (heq ▸ hc)
    simpa [slash] using hne
  have hname : ∀ rest, splitToken blank (lead ++ (name ++ b :: rest)) = some (name, rest) :=
    fun rest => splitToken_eq_some.mpr
      ⟨lead, _, rfl, hlead, h.name.1, h.name.2, Or.inr ⟨b, hb, rfl⟩⟩
  have hport : ∀ rest, splitToken slash (slashes ++ (number ++ '/' :: rest)) =
      some (number, rest) :=
    fun rest => splitToken_eq_some.mpr ⟨slashes, _, rfl,
      fun c hc => by simp [slash, hslashes c hc], h.number.1, hnumber, Or.inr ⟨'/', rfl, rfl⟩⟩
  rcases h.tail with rfl | ⟨d, rest, rfl, hd⟩
  · have hproto : splitToken blank (gap ++ (proto ++ [])) = some (proto, []) :=
      splitToken_eq_some.mpr ⟨gap, [], rfl, hgap, h.proto.1, h.proto.2, Or.inl ⟨rfl, rfl⟩⟩
    exact ⟨_, _, [], hname _, hport _, hproto, rfl⟩
  · have hproto : splitToken blank (gap ++ (proto ++ d :: rest)) = some (proto, rest) :=
      splitToken_eq_some.mpr ⟨gap, _, rfl, hgap, h.proto.1, h.proto.2, Or.inr ⟨d, hd, rfl⟩⟩
    exact ⟨_, _, rest, hname _, hport _, hproto, (words_cons_delim hd rest).symm⟩

theorem form_of_split {line name number proto rest rest₂ rest₃ : Text}
    (hname : splitToken blank line = some (name, rest))
    (hnumber : splitToken slash rest = some (number, rest₂))
    (hproto : splitToken blank rest₂ = some (proto, rest₃)) :
    ∃ tail, Form line name number proto tail := by
  obtain ⟨lead, behind, rfl, hlead, hne, hfree, hbehind⟩ := splitToken_eq_some.mp hname
  obtain ⟨slashes, behind₂, rfl, hslashes, hne₂, hfree₂, hbehind₂⟩ := splitToken_eq_some.mp hnumber
  obtain ⟨gap, tail, rfl, hgap, hne₃, hfree₃, htail⟩ := splitToken_eq_some.mp hproto
  rcases hbehind with ⟨-, hnil⟩ | ⟨b, hb, rfl⟩
  · rw [List.append_eq_nil_iff, List.append_eq_nil_iff] at hnil
    exact absurd hnil.2.1 hne₂
  rcases hbehind₂ with ⟨-, hnil⟩ | ⟨d, hd, rfl⟩
  · rw [List.append_eq_nil_iff, List.append_eq_nil_iff] at hnil
    exact absurd hnil.2.1 hne₃
  obtain rfl : d = '/' := by simpa [slash] using hd
  refine ⟨tail, ⟨lead, b, slashes, gap, rfl, hlead, hb, fun c hc => ?_, hgap⟩, ⟨hne, hfree⟩,
    ⟨hne₂, fun hmem => ?_⟩, ⟨hne₃, hfree₃⟩, ?_⟩
  · simpa [slash] using hslashes c hc
  · have hslash := hfree₂ '/' hmem
    cases hslash
  · rcases htail with ⟨rfl, -⟩ | ⟨b', hb', rfl⟩
    · exact Or.inl rfl
    · exact Or.inr ⟨b', rest₃, rfl, hb'⟩

/-! ### Numbers -/

theorem digitsValue_nil {digits : List Char} (h : digits.isEmpty = true) :
    digitsValue digits = 0 := by
  rw [List.isEmpty_iff.mp h]
  rfl

theorem strtol_fst (text : Text) : (strtol text).1 = clampLong (leadingNumber text) := by
  have hzero : clampLong 0 = 0 := by decide
  have hvalue : ∀ (digits rest : Text) (n : Int), (digits.isEmpty = true → n = 0) →
      (if digits.isEmpty then ((0 : Int), text) else (clampLong n, rest)).1 = clampLong n := by
    intro digits rest n hn
    split
    · next h => rw [hn h, hzero]
    · rfl
  unfold strtol leadingNumber
  generalize text.dropWhile isSpace = body
  dsimp only
  split
  · refine hvalue _ _ _ fun h => ?_
    rw [digitsValue_nil h]
    rfl
  · exact hvalue _ _ _ digitsValue_nil
  · next hminus hplus =>
      refine (hvalue (body.takeWhile Char.isDigit) _ _ digitsValue_nil).trans (congrArg clampLong ?_)
      simp

/-- A number that is an `int` stays what it is. -/
theorem toCInt_clampLong {n : Int} (hlow : -(2 ^ 31) ≤ n) (hhigh : n < 2 ^ 31) :
    toCInt (clampLong n) = n := by
  unfold toCInt clampLong
  omega

/-! ### What is added -/

/-- `serviceOf` of a line that has the form. -/
theorem Form.serviceOf {line name number proto tail : Text} (h : Form line name number proto tail) :
    ServiceFile.serviceOf line =
      if toCInt (strtol number).1 = 0 ∨ protocolFromString (some proto) = 0 then .ok []
      else .ok (addServices (protocolFromString (some proto)) (toCInt (strtol number).1)
        (name :: words blank tail)) := by
  obtain ⟨rest, rest₂, rest₃, hname, hnumber, hproto, hwords⟩ := h.split
  unfold ServiceFile.serviceOf
  rw [hname]
  dsimp only
  rw [hnumber]
  dsimp only
  rw [hproto, Option.map_some, Option.map_some, Option.getD_some, hwords]
  by_cases hport : toCInt (strtol number).1 = 0
  · rw [if_pos hport, if_pos (Or.inl hport)]
  · rw [if_neg hport]
    by_cases hprotocol : protocolFromString (some proto) = 0
    · rw [if_pos hprotocol, if_pos (Or.inr hprotocol)]
    · rw [if_neg hprotocol, if_neg fun hc => hc.elim hport hprotocol]

/-- Nothing is added for a line without the form. -/
theorem serviceOf_of_no_form {line : Text} (hnumbered : numbered line = true)
    (h : ∀ name number proto tail, ¬ Form line name number proto tail) :
    serviceOf line = .ok [] := by
  obtain ⟨added, hadded⟩ := (serviceOf_ok_iff line).mpr hnumbered
  rw [hadded]
  unfold serviceOf at hadded
  cases hname : splitToken blank line with
  | none =>
      rw [hname] at hadded
      exact hadded.symm
  | some split =>
      obtain ⟨name, rest⟩ := split
      rw [hname] at hadded
      dsimp only at hadded
      cases hnumber : splitToken slash rest with
      | none =>
          rw [hnumber] at hadded
          cases hadded
      | some split₂ =>
          obtain ⟨number, rest₂⟩ := split₂
          rw [hnumber] at hadded
          dsimp only at hadded
          split at hadded
          · exact hadded.symm
          · cases hproto : splitToken blank rest₂ with
            | none =>
                rw [hproto] at hadded
                exact hadded.symm
            | some split₃ =>
                obtain ⟨tail, hform⟩ := form_of_split hname hnumber hproto
                exact absurd hform (h _ _ _ _)

/--
**A line adds entries exactly if it has the form, with a number and a protocol that are not zero,
and then one for its name and one for each further token.**
-/
theorem read_service_iff (line junk : Text) (hline : nul ∉ line) (hnumbered : numbered line = true)
    (hrange : ∀ name number proto tail, Form line name number proto tail →
      -(2 ^ 31) ≤ leadingNumber number ∧ leadingNumber number < 2 ^ 31) :
    ∃ services memory', readService (line ++ nul :: junk) = .ok (services, memory') ∧
      (services ≠ [] ↔ ∃ name number proto tail, Form line name number proto tail ∧
        leadingNumber number ≠ 0 ∧ protocolFromString (some proto) ≠ 0) ∧
      ∀ name number proto tail, Form line name number proto tail → leadingNumber number ≠ 0 →
        protocolFromString (some proto) ≠ 0 →
        services = addServices (protocolFromString (some proto)) (leadingNumber number)
          (name :: words blank tail) := by
  have hstring : cstring (line ++ nul :: junk) = line := cstring_append_nul hline junk
  obtain ⟨services, hservices⟩ := (serviceOf_ok_iff line).mpr hnumbered
  obtain ⟨memory', hread, -⟩ := readService_contained.takes (hstring.symm ▸ hservices)
  have hport : ∀ {name number proto tail}, Form line name number proto tail →
      toCInt (strtol number).1 = leadingNumber number := by
    intro name number proto tail hform
    obtain ⟨hlow, hhigh⟩ := hrange _ _ _ _ hform
    rw [strtol_fst, toCInt_clampLong hlow hhigh]
  have hadded : ∀ {name number proto tail}, Form line name number proto tail →
      leadingNumber number ≠ 0 → protocolFromString (some proto) ≠ 0 →
      services = addServices (protocolFromString (some proto)) (leadingNumber number)
        (name :: words blank tail) := by
    intro name number proto tail hform hnumber hproto
    have hline' := hform.serviceOf
    rw [hport hform, if_neg fun hc => hc.elim hnumber hproto, hservices] at hline'
    exact Except.ok.inj hline'
  refine ⟨services, memory', hread, ⟨fun hne => ?_, ?_⟩, fun _ _ _ _ => hadded⟩
  · by_cases hform : ∃ name number proto tail, Form line name number proto tail
    · obtain ⟨name, number, proto, tail, hform⟩ := hform
      have hline' := hform.serviceOf
      rw [hport hform, hservices] at hline'
      split at hline'
      · exact absurd (Except.ok.inj hline') hne
      · next hzero => exact ⟨name, number, proto, tail, hform, fun hc => hzero (Or.inl hc),
          fun hc => hzero (Or.inr hc)⟩
    · have hnone : ∀ name number proto tail, ¬ Form line name number proto tail :=
        fun name number proto tail hf => hform ⟨name, number, proto, tail, hf⟩
      rw [serviceOf_of_no_form hnumbered hnone] at hservices
      exact absurd (Except.ok.inj hservices).symm hne
  · rintro ⟨name, number, proto, tail, hform, hnumber, hproto⟩
    rw [hadded hform hnumber hproto]
    exact List.cons_ne_nil _ _

/-- A name, an alias and a number in range. -/
theorem read_service_alias : ∃ services memory',
    readService ("http 80/tcp www".toList ++ nul :: []) = .ok (services, memory') ∧
      services = addServices IPPROTO_TCP 80 ["http".toList, "www".toList] := by
  have hrange : ∀ name number proto tail, Form "http 80/tcp www".toList name number proto tail →
      -(2 ^ 31) ≤ leadingNumber number ∧ leadingNumber number < 2 ^ 31 := by
    intro name number proto tail h
    obtain ⟨rest, rest₂, rest₃, hname, hnumber, -⟩ := h.split
    rw [show splitToken blank "http 80/tcp www".toList = some ("http".toList, "80/tcp www".toList)
      by decide] at hname
    cases hname
    rw [show splitToken slash "80/tcp www".toList = some ("80".toList, "tcp www".toList)
      by decide] at hnumber
    cases hnumber
    decide
  have hfree : ∀ text : Text, (text.all fun c => !blank c) = true → ∀ c ∈ text, blank c = false := by
    intro text hall c hc
    simpa using List.all_eq_true.mp hall c hc
  have hnone : ∀ {P : Char → Prop}, ∀ c ∈ ([] : Text), P c :=
    fun c hc => absurd hc List.not_mem_nil
  have hform : Form "http 80/tcp www".toList "http".toList "80".toList "tcp".toList " www".toList :=
    ⟨⟨[], ' ', [], [], by decide, hnone, by decide, hnone, hnone⟩, ⟨by decide, hfree _ (by decide)⟩,
      ⟨by decide, by decide⟩, ⟨by decide, hfree _ (by decide)⟩, Or.inr ⟨' ', "www".toList, by decide⟩⟩
  obtain ⟨services, memory', hread, -, hadded⟩ :=
    read_service_iff "http 80/tcp www".toList [] (by decide) (by decide) hrange
  exact ⟨services, memory', hread, hadded _ _ _ _ hform (by decide) (by decide)⟩

/-- The strict form of a line: `NAME blank+ PORT/PROTOCOL (blank+ ALIAS)*`. -/
def Strict (line : Text) : Prop :=
  ∃ name gap port proto tail, line = name ++ (gap ++ (port ++ '/' :: (proto ++ tail))) ∧
    (name ≠ [] ∧ ∀ c ∈ name, blank c = false) ∧ (gap ≠ [] ∧ ∀ c ∈ gap, blank c = true) ∧
    (port ≠ [] ∧ (∀ c ∈ port, c.isDigit = true) ∧ digitsValue port ≠ 0) ∧
    protocolFromString (some proto) ≠ 0 ∧
    (tail = [] ∨ (∃ b rest, tail = b :: rest ∧ blank b = true) ∧
      ∃ rest c, tail = rest ++ [c] ∧ blank c = false)

/-- A blank in front of the name is skipped. -/
theorem read_service_leading_blank :
    (∃ services memory', readService (" http 80/tcp".toList ++ nul :: []) = .ok (services, memory') ∧
      services ≠ []) ∧ ¬ Strict " http 80/tcp".toList := by
  have hread : readService (" http 80/tcp".toList ++ nul :: []) = .ok ([⟨IPPROTO_TCP, 80, "http"⟩],
      " http".toList ++ nul :: ("80".toList ++ nul :: ("tcp".toList ++ [nul]))) := by
    decide +kernel
  refine ⟨⟨_, _, hread, List.cons_ne_nil _ _⟩, ?_⟩
  rintro ⟨name, gap, port, proto, tail, hline, ⟨hne, hname⟩, -⟩
  obtain ⟨c, rest, rfl⟩ := List.exists_cons_of_ne_nil hne
  obtain rfl : ' ' = c := (List.cons.inj hline).1
  exact absurd (hname ' ' List.mem_cons_self) (by decide)

end Netresolve.ServiceFile
