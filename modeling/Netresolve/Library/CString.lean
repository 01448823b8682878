/-
Strings in memory, and taking them apart.

A string is what memory holds in front of the first zero byte.  `strtok` overwrites the delimiter
behind a token with a zero and remembers where it was, so a `Tape` is memory that is cut at that
place.  What a call returns depends on the string only and is `splitToken` of it; what it does to
memory is confined to the string.
-/
import Mathlib.Data.List.TakeWhile
import Mathlib.Data.List.Basic
import Mathlib.Data.List.Forall2

namespace CString

abbrev Text := List Char

def nul : Char := Char.ofNat 0

/-- The string at the start of memory. -/
def cstring (memory : Text) : Text := memory.takeWhile (· ≠ nul)

/-- The bytes of a text, which has a character for each of them. -/
def bytesOf (text : Text) : List UInt8 := text.map fun c => UInt8.ofNat c.toNat

@[simp] theorem bytesOf_length (text : Text) : (bytesOf text).length = text.length :=
  List.length_map _

/-! ### Strings -/

theorem nul_not_mem_cstring (memory : Text) : nul ∉ cstring memory := by
  intro h
  simpa using List.mem_takeWhile_imp h

theorem cstring_of_not_mem {text : Text} (h : nul ∉ text) : cstring text = text := by
  refine List.takeWhile_eq_self_iff.mpr fun c hc => ?_
  simpa using fun hnul : c = nul => h (hnul ▸ hc)

theorem cstring_append_nul {text : Text} (h : nul ∉ text) (rest : Text) :
    cstring (text ++ nul :: rest) = text := by
  unfold cstring
  rw [List.takeWhile_append_of_pos, List.takeWhile_cons_of_neg (by simp), List.append_nil]
  intro c hc
  simpa using fun hnul : c = nul => h (hnul ▸ hc)

/-- A string that ends inside of the text does not depend on what follows. -/
theorem cstring_append_of_mem {text : Text} (h : nul ∈ text) (rest : Text) :
    cstring (text ++ rest) = cstring text := by
  unfold cstring
  induction text with
  | nil => cases h
  | cons c text ih =>
      by_cases hc : c = nul
      · rw [List.cons_append, List.takeWhile_cons_of_neg (by simp [hc]),
          List.takeWhile_cons_of_neg (by simp [hc])]
      · rw [List.cons_append, List.takeWhile_cons_of_pos (by simp [hc]),
          List.takeWhile_cons_of_pos (by simp [hc]),
          ih (List.mem_of_ne_of_mem (fun heq => hc heq.symm) h)]

/-- Where dropping stops. -/
theorem dropWhile_eq_cons {p : Char → Bool} {text : Text} {c : Char} {rest : Text}
    (h : text.dropWhile p = c :: rest) : p c = false := by
  have hc := List.head_dropWhile_not p (l := text) (by rw [h]; exact List.cons_ne_nil _ _)
  simpa only [h, List.head_cons] using hc

/-- Nothing, or a zero byte. -/
def Ends (behind : Text) : Prop := behind = [] ∨ ∃ rest, behind = nul :: rest

/-- Memory is a string and what stands behind it. -/
theorem eq_cstring_append (memory : Text) :
    ∃ behind, memory = cstring memory ++ behind ∧ Ends behind := by
  refine ⟨memory.dropWhile (· ≠ nul), (List.takeWhile_append_dropWhile).symm, ?_⟩
  cases h : memory.dropWhile (· ≠ nul) with
  | nil => exact Or.inl rfl
  | cons c rest => exact Or.inr ⟨rest, by simpa using dropWhile_eq_cons h⟩

/-! ### Tokens of a string -/

/-- The first token, and what follows the delimiter behind it. -/
def splitToken (delim : Char → Bool) (text : Text) : Option (Text × Text) :=
  let body := text.dropWhile delim
  let token := body.takeWhile fun c => !delim c
  if token = [] then none else some (token, (body.dropWhile fun c => !delim c).tail)

theorem dropWhile_of_no_token {delim : Char → Bool} {text : Text}
    (h : ((text.dropWhile delim).takeWhile fun c => !delim c) = []) : text.dropWhile delim = [] := by
  cases hbody : text.dropWhile delim with
  | nil => rfl
  | cons c rest =>
      rw [hbody, List.takeWhile_cons_of_pos (by simp [dropWhile_eq_cons hbody])] at h
      cases h

theorem splitToken_eq_none {delim : Char → Bool} {text : Text} :
    splitToken delim text = none ↔ ∀ c ∈ text, delim c = true := by
  have hnone : splitToken delim text = none ↔
      ((text.dropWhile delim).takeWhile fun c => !delim c) = [] := by
    unfold splitToken
    dsimp only
    split
    · next h => exact ⟨fun _ => h, fun _ => rfl⟩
    · next h => exact ⟨fun hc => (by cases hc), fun hc => absurd hc h⟩
  rw [hnone, ← List.dropWhile_eq_nil_iff]
  refine ⟨dropWhile_of_no_token, fun h => ?_⟩
  rw [h]
  rfl

/-- A token with delimiters in front of it, and one behind it unless the text ends there. -/
theorem splitToken_eq_some {delim : Char → Bool} {text token rest : Text} :
    splitToken delim text = some (token, rest) ↔ ∃ lead behind, text = lead ++ (token ++ behind) ∧
      (∀ c ∈ lead, delim c = true) ∧ token ≠ [] ∧ (∀ c ∈ token, delim c = false) ∧
      (behind = [] ∧ rest = [] ∨ ∃ d, delim d = true ∧ behind = d :: rest) := by
  constructor
  · intro h
    unfold splitToken at h
    dsimp only at h
    split at h
    · cases h
    · next htoken =>
        obtain ⟨rfl, rfl⟩ : _ = token ∧ _ = rest := by simpa using h
        refine ⟨text.takeWhile delim, (text.dropWhile delim).dropWhile fun c => !delim c, ?_,
          fun c hc => List.mem_takeWhile_imp hc, htoken,
          fun c hc => by simpa using List.mem_takeWhile_imp hc, ?_⟩
        · rw [List.takeWhile_append_dropWhile, List.takeWhile_append_dropWhile]
        · cases hrest : (text.dropWhile delim).dropWhile fun c => !delim c with
          | nil => exact Or.inl ⟨rfl, rfl⟩
          | cons d rest => exact Or.inr ⟨d, by simpa using dropWhile_eq_cons hrest, rfl⟩
  · rintro ⟨lead, behind, rfl, hlead, htoken, hfree, hbehind⟩
    obtain ⟨first, others, rfl⟩ := List.exists_cons_of_ne_nil htoken
    have hbody : (lead ++ (first :: others ++ behind)).dropWhile delim =
        first :: others ++ behind := by
      rw [List.dropWhile_append_of_pos hlead, List.cons_append,
        List.dropWhile_cons_of_neg (by simp [hfree first List.mem_cons_self])]
    have hnot : ∀ c ∈ first :: others, (!delim c) = true := fun c hc => by simp [hfree c hc]
    unfold splitToken
    dsimp only
    rw [hbody, List.takeWhile_append_of_pos hnot, List.dropWhile_append_of_pos hnot]
    rcases hbehind with ⟨rfl, rfl⟩ | ⟨d, hd, rfl⟩
    · rw [List.takeWhile_nil, List.append_nil, if_neg htoken]
      rfl
    · rw [List.takeWhile_cons_of_neg (by simp [hd]), List.append_nil, if_neg htoken,
        List.dropWhile_cons_of_neg (by simp [hd])]
      rfl

/-- All tokens. -/
def words (delim : Char → Bool) (text : Text) : List Text :=
  (text.splitOnP delim).filter (· ≠ [])

section

variable {delim : Char → Bool}

theorem words_cons_delim {c : Char} (h : delim c = true) (text : Text) :
    words delim (c :: text) = words delim text := by
  unfold words
  rw [List.splitOnP_cons_eq_if_modifyHead, if_pos h]
  rfl

theorem words_append_delims {lead : Text} (h : ∀ c ∈ lead, delim c = true) (text : Text) :
    words delim (lead ++ text) = words delim text := by
  induction lead with
  | nil => rfl
  | cons c lead ih =>
      rw [List.cons_append, words_cons_delim (h c List.mem_cons_self),
        ih fun d hd => h d (List.mem_cons_of_mem _ hd)]

/-- A token in front of a delimiter. -/
theorem words_token {token : Text} (hne : token ≠ []) (h : ∀ c ∈ token, delim c = false)
    {d : Char} (hd : delim d = true) (rest : Text) :
    words delim (token ++ d :: rest) = token :: words delim rest := by
  unfold words
  rw [List.splitOnP_append_cons_of_forall_mem h d hd, List.filter_cons_of_pos (by simpa using hne)]

theorem words_single {token : Text} (hne : token ≠ []) (h : ∀ c ∈ token, delim c = false) :
    words delim token = [token] := by
  unfold words
  rw [List.splitOnP_eq_singleton h, List.filter_cons_of_pos (by simpa using hne)]
  rfl

/-- Taking off the first token. -/
theorem words_eq_split (text : Text) : words delim text =
    match splitToken delim text with
    | none => []
    | some (token, rest) => token :: words delim rest := by
  cases hsplit : splitToken delim text with
  | none =>
      have hwords := words_append_delims (splitToken_eq_none.mp hsplit) []
      rw [List.append_nil] at hwords
      exact hwords
  | some split =>
      obtain ⟨token, rest⟩ := split
      obtain ⟨lead, behind, rfl, hlead, htoken, hfree, hbehind⟩ := splitToken_eq_some.mp hsplit
      rw [words_append_delims hlead]
      rcases hbehind with ⟨rfl, rfl⟩ | ⟨d, hd, rfl⟩
      · rw [List.append_nil]
        exact words_single htoken hfree
      · exact words_token htoken hfree hd rest

end

/-! ### Taking tokens from memory -/

/-- Memory in front of the place `strtok` remembers, and from there on. -/
structure Tape where
  before : Text
  after : Text
  deriving DecidableEq, Repr

def Tape.memory (t : Tape) : Text := t.before ++ t.after

/-- `strtok`, with the token and the memory it leaves. -/
def Tape.strtok (delim : Char → Bool) (t : Tape) : Option Text × Tape :=
  let body := t.after.dropWhile delim
  let skipped := t.before ++ t.after.takeWhile delim
  let token := body.takeWhile fun c => c ≠ nul && !delim c
  if token = [] then (none, ⟨skipped, body⟩)
  else
    match body.dropWhile fun c => c ≠ nul && !delim c with
    | [] => (some token, ⟨skipped ++ token, []⟩)
    | c :: rest =>
        if c = nul then (some token, ⟨skipped ++ token, c :: rest⟩)
        else (some token, ⟨skipped ++ token ++ [nul], rest⟩)

/-- The tokens `strtok` returns until it returns none, and the memory after that. -/
def Tape.tokens (delim : Char → Bool) : Nat → Tape → List Text × Tape
  | 0, t => ([], t)
  | fuel + 1, t =>
      match t.strtok delim with
      | (none, t) => ([], t)
      | (some token, t) =>
          let (rest, t) := t.tokens delim fuel
          (token :: rest, t)

theorem cstring_append {text behind : Text} (h : nul ∉ text) (hends : Ends behind) :
    cstring (text ++ behind) = text := by
  rcases hends with rfl | ⟨rest, rfl⟩
  · rw [List.append_nil, cstring_of_not_mem h]
  · exact cstring_append_nul h rest

section

variable {p : Char → Bool}

theorem takeWhile_append_ends {text behind : Text} (hends : Ends behind) (hp : p nul = false) :
    (text ++ behind).takeWhile p = text.takeWhile p := by
  induction text with
  | nil =>
      rcases hends with rfl | ⟨rest, rfl⟩
      · rfl
      · rw [List.nil_append, List.takeWhile_cons_of_neg (by simp [hp])]
        rfl
  | cons c text ih =>
      rw [List.cons_append, List.takeWhile_cons, List.takeWhile_cons, ih]

theorem dropWhile_append_ends {text behind : Text} (hends : Ends behind) (hp : p nul = false) :
    (text ++ behind).dropWhile p = text.dropWhile p ++ behind := by
  induction text with
  | nil =>
      rcases hends with rfl | ⟨rest, rfl⟩
      · rfl
      · rw [List.nil_append, List.dropWhile_cons_of_neg (by simp [hp])]
        rfl
  | cons c text ih =>
      rw [List.cons_append, List.dropWhile_cons, List.dropWhile_cons, ih]
      split
      · rfl
      · rfl

end

section

variable {delim : Char → Bool}

/-- In a string without zeros a token ends at a delimiter only. -/
theorem takeWhile_token {text : Text} (h : nul ∉ text) :
    (text.takeWhile fun c => c ≠ nul && !delim c) = text.takeWhile fun c => !delim c := by
  induction text with
  | nil => rfl
  | cons c text ih =>
      have hc : c ≠ nul := fun heq => h (heq ▸ List.mem_cons_self)
      rw [List.takeWhile_cons, List.takeWhile_cons, ih fun hmem => h (List.mem_cons_of_mem _ hmem)]
      simp [hc]

theorem dropWhile_token {text : Text} (h : nul ∉ text) :
    (text.dropWhile fun c => c ≠ nul && !delim c) = text.dropWhile fun c => !delim c := by
  induction text with
  | nil => rfl
  | cons c text ih =>
      have hc : c ≠ nul := fun heq => h (heq ▸ List.mem_cons_self)
      rw [List.dropWhile_cons, List.dropWhile_cons, ih fun hmem => h (List.mem_cons_of_mem _ hmem)]
      simp [hc]

/-- What is skipped, the token and what follows it make up the text. -/
theorem length_token (delim : Char → Bool) (text : Text) : (text.takeWhile delim).length +
    (((text.dropWhile delim).takeWhile fun c => !delim c).length +
      ((text.dropWhile delim).dropWhile fun c => !delim c).length) = text.length := by
  have hsplit := congrArg List.length (List.takeWhile_append_dropWhile (p := delim) (l := text))
  have htoken := congrArg List.length
    (List.takeWhile_append_dropWhile (p := fun c => !delim c) (l := text.dropWhile delim))
  rw [List.length_append] at hsplit htoken
  omega

/--
A call of `strtok` on a string: the token is the first of the string, the rest of the string is
where the next call goes on, and everything behind the string stays.
-/
theorem strtok_spec (hdelim : delim nul = false) (before : Text) {text behind : Text}
    (htext : nul ∉ text) (hends : Ends behind) : ∃ before' text',
    Tape.strtok delim ⟨before, text ++ behind⟩ =
      ((splitToken delim text).map Prod.fst, ⟨before', text' ++ behind⟩) ∧
    text' = ((splitToken delim text).map Prod.snd).getD [] ∧ nul ∉ text' ∧
    before'.length + text'.length = before.length + text.length ∧
    ∃ mark, before' = before ++ (text.takeWhile delim ++
      ((splitToken delim text).map Prod.fst).getD []) ++ mark ∧
      (mark = [nul] ∨ mark = [] ∧ text' = []) := by
  have hbody : nul ∉ text.dropWhile delim := fun h => htext ((List.dropWhile_sublist _).subset h)
  have hlength := length_token delim text
  have hstop : ∀ c : Char, c = nul → (c ≠ nul && !delim c) = false := by simp
  unfold Tape.strtok splitToken
  dsimp only
  rw [takeWhile_append_ends hends hdelim, dropWhile_append_ends hends hdelim,
    takeWhile_append_ends hends (hstop nul rfl), dropWhile_append_ends hends (hstop nul rfl),
    takeWhile_token hbody, dropWhile_token hbody]
  by_cases htoken : ((text.dropWhile delim).takeWhile fun c => !delim c) = []
  · rw [if_pos htoken, if_pos htoken]
    refine ⟨before ++ text.takeWhile delim, [], ?_, rfl, List.not_mem_nil, ?_, [], ?_, ?_⟩
    · rw [dropWhile_of_no_token htoken]
      rfl
    · rw [dropWhile_of_no_token htoken] at hlength
      simpa using hlength
    · simp
    · exact Or.inr ⟨rfl, rfl⟩
  · rw [if_neg htoken, if_neg htoken]
    cases hrest : (text.dropWhile delim).dropWhile fun c => !delim c with
    | nil =>
        rw [hrest] at hlength
        refine ⟨before ++ text.takeWhile delim ++ (text.dropWhile delim).takeWhile fun c => !delim c,
          [], ?_, rfl, List.not_mem_nil, ?_, [], ?_, ?_⟩
        · rcases hends with rfl | ⟨rest, rfl⟩
          · rfl
          · rfl
        · simp only [List.length_append, List.length_nil] at *
          omega
        · simp
        · exact Or.inr ⟨rfl, rfl⟩
    | cons d rest =>
        have hd : d ∈ text.dropWhile delim :=
          (List.dropWhile_sublist _).subset (hrest ▸ List.mem_cons_self)
        have hdnul : d ≠ nul := fun heq => hbody (heq ▸ hd)
        rw [hrest] at hlength
        refine ⟨before ++ text.takeWhile delim ++
          ((text.dropWhile delim).takeWhile fun c => !delim c) ++ [nul], rest, ?_, rfl, ?_, ?_,
          [nul], ?_, Or.inl rfl⟩
        · rw [List.cons_append]
          dsimp only
          rw [if_neg hdnul]
          rfl
        · intro hmem
          exact hbody ((List.dropWhile_sublist _).subset (hrest ▸ List.mem_cons_of_mem _ hmem))
        · simp only [List.length_append, List.length_cons, List.length_nil] at *
          omega
        · simp

/-- Fewer bytes are left after a token. -/
theorem splitToken_length {text token rest : Text} (h : splitToken delim text = some (token, rest)) :
    rest.length < text.length := by
  obtain ⟨lead, behind, rfl, -, htoken, -, hbehind⟩ := splitToken_eq_some.mp h
  have hpos := List.length_pos_iff.mpr htoken
  rw [List.length_append, List.length_append]
  rcases hbehind with ⟨rfl, rfl⟩ | ⟨d, -, rfl⟩
  · rw [List.length_nil]
    omega
  · rw [List.length_cons]
    omega

/-- The tokens of a string, one after another. -/
theorem tokens_spec (hdelim : delim nul = false) (fuel : Nat) :
    ∀ (before : Text) {text behind : Text}, nul ∉ text → Ends behind → text.length < fuel →
    ∃ before', Tape.tokens delim fuel ⟨before, text ++ behind⟩ =
        (words delim text, ⟨before', behind⟩) ∧
      before'.length = before.length + text.length ∧ before <+: before' ∧
      (text = [] → before' = before) := by
  induction fuel with
  | zero =>
      intro before text behind _ _ hlt
      omega
  | succ fuel ih =>
      intro before text behind htext hends hlt
      obtain ⟨before', text', hcall, hrest, htext', hlength, mark, hbefore, hmark⟩ :=
        strtok_spec hdelim before htext hends
      rw [words_eq_split, Tape.tokens, hcall]
      cases hsplit : splitToken delim text with
      | none =>
          rw [hsplit] at hrest hbefore
          obtain rfl : text' = [] := hrest
          refine ⟨before', rfl, by simpa using hlength, ?_, ?_⟩
          · rw [hbefore, List.append_assoc]
            exact List.prefix_append _ _
          · rintro rfl
            have hmark' : mark = [] := by
              have hsize := congrArg List.length hbefore
              simp only [List.length_append] at hsize
              simp only [List.length_nil, Nat.add_zero] at hlength
              exact List.eq_nil_of_length_eq_zero (by omega)
            rw [hbefore, hmark']
            simp
      | some split =>
          obtain ⟨token, rest⟩ := split
          have hshorter := splitToken_length hsplit
          rw [hsplit] at hrest hbefore
          obtain rfl : text' = rest := hrest
          obtain ⟨before'', htokens, hlength', hahead, -⟩ := ih before' htext' hends (by omega)
          refine ⟨before'', ?_, by omega, ?_, ?_⟩
          · dsimp only [Option.map_some]
            rw [htokens]
          · refine List.IsPrefix.trans ?_ hahead
            rw [hbefore, List.append_assoc]
            exact List.prefix_append _ _
          · rintro rfl
            exact absurd hshorter (Nat.not_lt_zero _)

/-- The tape is about to go on with the text, which is the rest of the string. -/
structure Within (string behind : Text) (t : Tape) (text : Text) : Prop where
  after : t.after = text ++ behind
  free : nul ∉ text
  length : t.before.length + text.length = string.length

theorem within_start (memory : Text) : ∃ behind, memory = cstring memory ++ behind ∧ Ends behind ∧
    Within (cstring memory) behind ⟨[], memory⟩ (cstring memory) := by
  obtain ⟨behind, hmemory, hends⟩ := eq_cstring_append memory
  refine ⟨behind, hmemory, hends, hmemory, nul_not_mem_cstring memory, ?_⟩
  rw [List.length_nil, Nat.zero_add]

theorem Within.strtok {string behind text : Text} {t : Tape} (h : Within string behind t text)
    (delim : Char → Bool) (hdelim : delim nul = false) (hends : Ends behind) :
    (t.strtok delim).1 = (splitToken delim text).map Prod.fst ∧
      Within string behind (t.strtok delim).2 (((splitToken delim text).map Prod.snd).getD []) := by
  obtain ⟨before', text', hcall, hrest, hfree, hlength, -⟩ :=
    strtok_spec hdelim t.before h.free hends
  rw [← h.after] at hcall
  rw [show t.strtok delim = _ from hcall, ← hrest]
  exact ⟨rfl, rfl, hfree, hlength.trans h.length⟩

/-- A call of `strtok` takes the first of the words that are left. -/
theorem Within.next {string behind text : Text} {t : Tape} (h : Within string behind t text)
    (delim : Char → Bool) (hdelim : delim nul = false) (hends : Ends behind) {left : List Text}
    (hleft : words delim text = left) : (t.strtok delim).1 = left.head? ∧
      ∃ text', Within string behind (t.strtok delim).2 text' ∧ words delim text' = left.tail := by
  obtain ⟨htoken, hafter⟩ := h.strtok delim hdelim hends
  subst hleft
  have hwords := @words_eq_split delim text
  cases hsplit : splitToken delim text with
  | none =>
      rw [hsplit] at htoken hafter hwords
      rw [hwords]
      exact ⟨htoken, [], hafter, rfl⟩
  | some split =>
      obtain ⟨token, rest⟩ := split
      rw [hsplit] at htoken hafter hwords
      rw [hwords]
      exact ⟨htoken, rest, hafter, rfl⟩

theorem Within.tokens {string behind text : Text} {t : Tape} (h : Within string behind t text)
    (delim : Char → Bool) (hdelim : delim nul = false) (hends : Ends behind) {fuel : Nat}
    (hfuel : text.length < fuel) :
    (t.tokens delim fuel).1 = words delim text ∧
      Within string behind (t.tokens delim fuel).2 [] := by
  obtain ⟨before', hcall, hlength, -⟩ := tokens_spec hdelim fuel t.before h.free hends hfuel
  rw [← h.after] at hcall
  rw [show t.tokens delim fuel = _ from hcall]
  exact ⟨rfl, rfl, List.not_mem_nil, hlength.trans h.length⟩

/-- Nothing behind the string has changed. -/
theorem Within.drop {string behind text : Text} {t : Tape} (h : Within string behind t text)
    {n : Nat} (hn : string.length ≤ n) : t.memory.drop n = (string ++ behind).drop n := by
  obtain ⟨k, rfl⟩ := Nat.exists_eq_add_of_le hn
  have hlength : string.length = (t.before ++ text).length := by
    rw [List.length_append, h.length]
  unfold Tape.memory
  rw [h.after, ← List.append_assoc, List.drop_length_add_append, hlength,
    List.drop_length_add_append]

/-! ### What is left in memory -/

/-- Some bytes have become zero. -/
def Wiped (memory memory' : Text) : Prop :=
  List.Forall₂ (fun c c' => c' = c ∨ c' = nul) memory memory'

theorem Wiped.refl (memory : Text) : Wiped memory memory := by
  induction memory with
  | nil => exact List.Forall₂.nil
  | cons c memory ih => exact List.Forall₂.cons (Or.inl rfl) ih

theorem Wiped.trans {memory memory' memory'' : Text} (h : Wiped memory memory')
    (h' : Wiped memory' memory'') : Wiped memory memory'' := by
  induction h generalizing memory'' with
  | nil => exact h'
  | cons hc _ ih =>
      cases h' with
      | cons hc' hrest =>
          refine List.Forall₂.cons ?_ (ih hrest)
          rcases hc' with rfl | rfl
          · exact hc
          · exact Or.inr rfl

theorem Wiped.append {a a' b b' : Text} (h : Wiped a a') (h' : Wiped b b') :
    Wiped (a ++ b) (a' ++ b') := by
  induction h with
  | nil => exact h'
  | cons hc _ ih => exact List.Forall₂.cons hc ih

theorem Wiped.take {memory memory' : Text} (h : Wiped memory memory') (n : Nat) :
    Wiped (memory.take n) (memory'.take n) := by
  induction h generalizing n with
  | nil =>
      rw [List.take_nil]
      exact List.Forall₂.nil
  | cons hc _ ih =>
      cases n with
      | zero => exact List.Forall₂.nil
      | succ n => exact List.Forall₂.cons hc (ih n)

theorem Wiped.mem {memory memory' : Text} (h : Wiped memory memory') {c : Char}
    (hc : c ∈ memory') : c ∈ memory ∨ c = nul := by
  induction h with
  | nil => cases hc
  | cons hfirst _ ih =>
      rcases List.mem_cons.mp hc with rfl | hc
      · rcases hfirst with rfl | rfl
        · exact Or.inl List.mem_cons_self
        · exact Or.inr rfl
      · exact (ih hc).imp_left (List.mem_cons_of_mem _)

theorem Wiped.nul_mem {memory memory' : Text} (h : Wiped memory memory') (hnul : nul ∈ memory) :
    nul ∈ memory' := by
  induction h with
  | nil => cases hnul
  | cons hfirst _ ih =>
      rcases List.mem_cons.mp hnul with rfl | hnul
      · rcases hfirst with rfl | rfl
        · exact List.mem_cons_self
        · exact List.mem_cons_self
      · exact List.mem_cons_of_mem _ (ih hnul)

theorem Wiped.length {memory memory' : Text} (h : Wiped memory memory') :
    memory'.length = memory.length := (List.Forall₂.length_eq h).symm

theorem strtok_wiped (delim : Char → Bool) (t : Tape) :
    Wiped t.memory (t.strtok delim).2.memory := by
  have hall : t.memory = t.before ++ t.after.takeWhile delim ++ t.after.dropWhile delim := by
    rw [List.append_assoc, List.takeWhile_append_dropWhile]
    rfl
  have hbody := List.takeWhile_append_dropWhile (p := fun c => c ≠ nul && !delim c)
    (l := t.after.dropWhile delim)
  unfold Tape.strtok
  dsimp only
  rw [hall]
  generalize t.before ++ t.after.takeWhile delim = skipped
  generalize t.after.dropWhile delim = body at hbody ⊢
  generalize (body.takeWhile fun c => c ≠ nul && !delim c) = token at hbody ⊢
  generalize (body.dropWhile fun c => c ≠ nul && !delim c) = rest at hbody ⊢
  subst hbody
  split
  · exact Wiped.refl _
  · cases rest with
    | nil =>
        show Wiped _ (skipped ++ token ++ [])
        rw [List.append_assoc]
        exact Wiped.refl _
    | cons c rest =>
        dsimp only
        split
        · show Wiped _ (skipped ++ token ++ c :: rest)
          rw [List.append_assoc]
          exact Wiped.refl _
        · show Wiped _ (skipped ++ token ++ [nul] ++ rest)
          rw [List.append_assoc, List.append_assoc]
          refine (Wiped.refl _).append ((Wiped.refl _).append ?_)
          exact List.Forall₂.cons (Or.inr rfl) (Wiped.refl rest)

theorem tokens_wiped (delim : Char → Bool) (fuel : Nat) :
    ∀ t : Tape, Wiped t.memory (t.tokens delim fuel).2.memory := by
  induction fuel with
  | zero => exact fun t => Wiped.refl _
  | succ fuel ih =>
      intro t
      have hcall := strtok_wiped delim t
      rw [Tape.tokens]
      rcases hcase : t.strtok delim with ⟨token, t'⟩
      rw [hcase] at hcall
      cases token with
      | none => exact hcall
      | some token => exact hcall.trans (ih t')

/-- The first token, with what is in front of it. -/
def firstToken (delim : Char → Bool) (text : Text) : Text :=
  text.takeWhile delim ++ ((splitToken delim text).map Prod.fst).getD []

theorem nul_not_mem_firstToken (delim : Char → Bool) {text : Text} (h : nul ∉ text) :
    nul ∉ firstToken delim text := by
  intro hmem
  unfold firstToken at hmem
  rcases List.mem_append.mp hmem with hmem | hmem
  · exact h ((List.takeWhile_sublist _).subset hmem)
  · cases hsplit : splitToken delim text with
    | none =>
        rw [hsplit] at hmem
        cases hmem
    | some split =>
        obtain ⟨token, rest⟩ := split
        rw [hsplit, Option.map_some, Option.getD_some] at hmem
        obtain ⟨lead, behind, htext, -⟩ := splitToken_eq_some.mp hsplit
        refine h ?_
        rw [htext]
        exact List.mem_append_right _ (List.mem_append_left _ hmem)

theorem words_firstToken (text : Text) :
    words delim (firstToken delim text) = (words delim text).take 1 := by
  unfold firstToken
  rw [words_append_delims (fun c hc => List.mem_takeWhile_imp hc), words_eq_split text]
  cases hsplit : splitToken delim text with
  | none => rfl
  | some split =>
      obtain ⟨token, rest⟩ := split
      obtain ⟨lead, behind, -, -, htoken, hfree, -⟩ := splitToken_eq_some.mp hsplit
      exact words_single htoken hfree

/-- After the first call the string is the first token, and so it is after more calls. -/
theorem cstring_strtok (hdelim : delim nul = false) (memory : Text) {fuel : Nat}
    (hfuel : (Tape.strtok delim ⟨[], memory⟩).2.after.length < fuel) :
    cstring (Tape.strtok delim ⟨[], memory⟩).2.memory = firstToken delim (cstring memory) ∧
    cstring ((Tape.strtok delim ⟨[], memory⟩).2.tokens delim fuel).2.memory =
      firstToken delim (cstring memory) := by
  obtain ⟨behind, hmemory, hends⟩ := eq_cstring_append memory
  have hfree := nul_not_mem_cstring memory
  have hfirst := nul_not_mem_firstToken delim hfree
  obtain ⟨before', text', hcall, -, htext', hlength, mark, hbefore, hmark⟩ :=
    strtok_spec hdelim [] hfree hends
  rw [← hmemory] at hcall
  rw [hcall, List.length_append] at hfuel
  obtain ⟨before'', htokens, -, hahead, hsame⟩ :=
    tokens_spec hdelim fuel before' htext' hends (by omega)
  have hstart : before' = firstToken delim (cstring memory) ++ mark := hbefore
  rw [hcall]
  dsimp only
  rw [htokens]
  unfold Tape.memory
  dsimp only
  rcases hmark with rfl | ⟨rfl, rfl⟩
  · have hcut : ∀ rest, cstring (before' ++ rest) = firstToken delim (cstring memory) := by
      intro rest
      rw [hstart, List.append_assoc]
      exact cstring_append_nul hfirst rest
    obtain ⟨more, rfl⟩ := hahead
    refine ⟨hcut _, ?_⟩
    rw [List.append_assoc]
    exact hcut _
  · rw [hsame rfl, List.nil_append, hstart, List.append_nil]
    exact ⟨cstring_append hfirst hends, cstring_append hfirst hends⟩

end

end CString
