/-
What the text functions do to the buffer.

A function is the list of pieces it prints, one for each call of `bprintf`, and `print` is what
printing them does.  A piece moves the write position on by its length, unless it is so long that
`vsnprintf` cannot return the length; then the next piece is written over it.  `Fits` says when all
goes well: the position stays within the buffer, and a piece of that length comes only where there
is no room for any of it.

That nothing else goes well rests on the pieces themselves.  What is written over a name begins
with another letter, or with other letters further on, which is `Distinct`.
-/
import Netresolve.Backends.Dns
import Netresolve.Core.Compat
import Netresolve.Core.Text
import Netresolve.Library.Outcome
import Mathlib.Data.Nat.Digits.Defs

namespace Netresolve.Print

open Outcome CString

/-! ### Names -/

/-- The names are those that the compatibility functions and the DNS backends read. -/
theorem queryGetNodeName_eq (query : Query) :
    queryGetNodeName query = (Compat.getNodeName query).map String.toList := by
  unfold queryGetNodeName Compat.getNodeName
  cases query.response.nodename with
  | some name => rfl
  | none =>
      by_cases hdone : query.state ≠ .done
      · simp only [if_pos hdone, Option.map_none]
      · by_cases htype : query.request.type ≠ .forward
        · simp only [if_neg hdone, if_pos htype, Option.map_none]
        · simp only [if_neg hdone, if_neg htype, Option.map_some]

theorem queryGetServiceName_eq (query : Query) :
    queryGetServiceName query = (Compat.getServiceName query).map String.toList := by
  unfold queryGetServiceName Compat.getServiceName
  rw [Option.map_map]
  rfl

theorem backendGetNodename_eq (query : Query) :
    backendGetNodename query = (Dns.backendGetNodename query.request).map String.toList := rfl

/-! ### Pieces -/

/-- `vsnprintf` can return the length. -/
def short (piece : Text) : Bool := piece.length ≤ INT_MAX

/-- How far a piece moves the write position. -/
def advance (piece : Text) : Nat := if short piece then piece.length else 0

def print (pieces : List Text) (w : Writer) : Writer := pieces.foldl Writer.printed w

theorem print_append (pieces more : List Text) (w : Writer) :
    print (pieces ++ more) w = print more (print pieces w) := List.foldl_append

theorem printed_start (w : Writer) (piece : Text) :
    (w.printed piece).start = w.start + advance piece := by
  unfold Writer.printed vsnprintf advance short
  dsimp only
  by_cases h : piece.length ≤ INT_MAX
  · simp only [h, if_true, decide_true]
    split
    · rw [Int.toNat_natCast]
    · omega
  · simp only [h, if_false, decide_false, Bool.false_eq_true]
    rfl

theorem printed_calls (w : Writer) (piece : Text) : (w.printed piece).calls =
    ⟨w.start, sizeLeft w.start, (w.printed piece).start⟩ :: w.calls := rfl

theorem sizeLeft_of_le {start : Nat} (h : start ≤ bufferSize) :
    sizeLeft start = bufferSize - start := by
  unfold sizeLeft
  unfold bufferSize at *
  rw [Int.emod_eq_of_lt (by omega) (by omega)]
  omega

/-! ### What a piece writes -/

section

variable (memory : Nat → Char) (start : Nat) {size : Nat} (text : Text)

theorem getElem?_written (hsize : size ≠ 0) {i : Nat} (hi : start ≤ i)
    (hlt : i < start + min text.length (size - 1)) :
    text[i - start]? = some (written memory start size text i) := by
  unfold written
  dsimp only
  rw [if_neg hsize, if_pos ⟨hi, hlt⟩, List.getD_eq_getElem?_getD,
    List.getElem?_eq_getElem (by omega)]
  rfl

theorem written_end (hsize : size ≠ 0) :
    written memory start size text (start + min text.length (size - 1)) = nul := by
  unfold written
  dsimp only
  rw [if_neg hsize, if_neg (by omega), if_pos rfl]

theorem written_full (i : Nat) : written memory start 0 text i = memory i := by
  unfold written
  dsimp only
  rw [if_pos rfl]

/-- Nothing in front of the write position changes. -/
theorem written_below {i : Nat} (h : i < start) :
    written memory start size text i = memory i := by
  unfold written
  dsimp only
  split
  · rfl
  · rw [if_neg (by omega), if_neg (by omega)]

end

theorem print_below (pieces : List Text) : ∀ (w : Writer) {i : Nat}, i < w.start →
    (print pieces w).memory i = w.memory i := by
  induction pieces with
  | nil => exact fun _ _ _ => rfl
  | cons piece rest ih =>
      intro w i h
      have hlater : i < (w.printed piece).start := by
        rw [printed_start]
        omega
      exact (ih (w.printed piece) hlater).trans (written_below _ _ _ h)

theorem print_text (pieces : List Text) : ∀ w : Writer,
    (print pieces w).text = w.text ++ pieces.flatten := by
  induction pieces with
  | nil =>
      intro w
      rw [List.flatten_nil, List.append_nil]
      rfl
  | cons piece rest ih =>
      intro w
      refine (ih (w.printed piece)).trans ?_
      rw [List.flatten_cons, ← List.append_assoc]
      rfl

theorem print_calls (pieces : List Text) : ∀ (w : Writer) {c : Printf}, c ∈ w.calls →
    c ∈ (print pieces w).calls := by
  induction pieces with
  | nil => exact fun _ _ h => h
  | cons piece rest ih =>
      intro w c h
      exact ih (w.printed piece) (List.mem_cons_of_mem _ h)

/-! ### Where everything goes well -/

/-- The memory holds the first 1023 bytes of the text with a terminator. -/
structure Holds (memory : Nat → Char) (text : Text) : Prop where
  bytes : ∀ i c, i < bufferSize - 1 → text[i]? = some c → memory i = c
  ended : memory (min text.length (bufferSize - 1)) = nul

/--
The write position stayed within the buffer, no size was larger than the room left, and the buffer
holds what there was to print.
-/
structure Kept (w : Writer) : Prop where
  position : ∀ c ∈ w.calls, c.after ≤ bufferSize
  size : ∀ c ∈ w.calls, c.size ≤ bufferSize - c.before
  text : Holds w.memory w.text

/-- The pieces from the position on fit. -/
def FitsFrom : Nat → List Text → Prop
  | start, [] => start ≤ bufferSize
  | start, piece :: rest =>
      (short piece = true ∨ bufferSize - 1 ≤ start) ∧ FitsFrom (start + advance piece) rest

theorem FitsFrom.le {start : Nat} {pieces : List Text} (h : FitsFrom start pieces) :
    start ≤ bufferSize := by
  induction pieces generalizing start with
  | nil => exact h
  | cons piece rest ih => exact Nat.le_trans (Nat.le_add_right _ _) (ih h.2)

/-- What holds between the pieces as long as they fit. -/
structure Fitting (w : Writer) : Prop where
  start : w.start ≤ bufferSize
  reached : w.start ≤ w.text.length
  exact : w.start < bufferSize - 1 → w.text.length = w.start
  bytes : ∀ i c, i < bufferSize - 1 → w.text[i]? = some c → w.memory i = c
  fresh : w.calls = [] → w.start = 0
  ended : w.calls ≠ [] → w.memory (min w.text.length (bufferSize - 1)) = nul
  position : ∀ c ∈ w.calls, c.after ≤ bufferSize
  size : ∀ c ∈ w.calls, c.size ≤ bufferSize - c.before

/-- One piece more. -/
theorem Fitting.printed {w : Writer} (h : Fitting w) {piece : Text}
    (hfits : short piece = true ∨ bufferSize - 1 ≤ w.start)
    (hle : w.start + advance piece ≤ bufferSize) : Fitting (w.printed piece) := by
  have hsize := sizeLeft_of_le h.start
  have hstart := printed_start w piece
  have htext : (w.printed piece).text = w.text ++ piece := rfl
  have hmemory : (w.printed piece).memory =
      written w.memory w.start (bufferSize - w.start) piece := by
    rw [← hsize]
    rfl
  have hlength : (w.printed piece).text.length = w.text.length + piece.length := by
    rw [htext, List.length_append]
  have hadvance : advance piece ≤ piece.length := by
    unfold advance
    split
    · exact Nat.le_refl _
    · exact Nat.zero_le _
  have hreached := h.reached
  have hw := h.start
  constructor
  · rw [hstart]
    exact hle
  · rw [hstart, hlength]
    omega
  · intro hlt
    rw [hstart] at hlt ⊢
    have hshort : short piece = true := hfits.resolve_right (by omega)
    have hexact := h.exact (by omega)
    rw [hlength, advance, if_pos hshort, hexact]
  · intro i c hi hc
    rw [htext] at hc
    rw [hmemory]
    by_cases hbelow : i < w.text.length
    · rw [List.getElem?_append_left hbelow] at hc
      have hold := h.bytes i c hi hc
      by_cases hstart' : i < w.start
      · rw [written_below _ _ _ hstart', hold]
      · have hexact := h.exact (by omega)
        omega
    · -- the byte is one of the piece, which begins at the write position
      rw [List.getElem?_append_right (by omega)] at hc
      have hexact := h.exact (by omega)
      obtain ⟨hlt, -⟩ := List.getElem?_eq_some_iff.mp hc
      rw [hexact] at hc hlt
      have hroom : bufferSize - w.start ≠ 0 := by omega
      have hread := getElem?_written w.memory w.start piece hroom (show w.start ≤ i by omega)
        (by omega)
      rw [hc] at hread
      exact (Option.some.inj hread).symm
  · intro hcalls
    cases hcalls
  · intro _
    rw [hmemory, hlength]
    by_cases hfull : w.start = bufferSize
    · -- no room: the terminator is there already
      have hended := h.ended fun hcalls => by
        have hfresh := h.fresh hcalls
        unfold bufferSize at hfull
        omega
      rw [hfull, Nat.sub_self, written_full, ← hended]
      congr 1
      omega
    · have hroom : bufferSize - w.start ≠ 0 := by omega
      refine Eq.trans ?_ (written_end w.memory w.start piece hroom)
      congr 1
      by_cases hlast : w.start < bufferSize - 1
      · have hexact := h.exact hlast
        omega
      · omega
  · intro c hc
    rw [printed_calls, List.mem_cons] at hc
    rcases hc with rfl | hc
    · rw [hstart]
      exact hle
    · exact h.position c hc
  · intro c hc
    rw [printed_calls, List.mem_cons] at hc
    rcases hc with rfl | hc
    · rw [hsize]
    · exact h.size c hc

theorem Fitting.print (pieces : List Text) : ∀ {w : Writer}, Fitting w →
    FitsFrom w.start pieces → Fitting (print pieces w) := by
  induction pieces with
  | nil => exact fun h _ => h
  | cons piece rest ih =>
      intro w h hfits
      refine ih (h.printed hfits.1 hfits.2.le) ?_
      rw [printed_start]
      exact hfits.2

theorem fitting_start (memory : Nat → Char) : Fitting { memory := memory } := by
  constructor
  · exact Nat.zero_le _
  · exact Nat.le_refl _
  · exact fun _ => rfl
  · intro i c _ hc
    cases hc
  · exact fun _ => rfl
  · exact fun h => absurd rfl h
  · intro c hc
    cases hc
  · intro c hc
    cases hc

theorem print_calls_ne_nil {pieces : List Text} (h : pieces ≠ []) (w : Writer) :
    (print pieces w).calls ≠ [] := by
  obtain ⟨piece, rest, rfl⟩ := List.exists_cons_of_ne_nil h
  have hmem : Printf.mk w.start (sizeLeft w.start) (w.printed piece).start ∈
      (print rest (w.printed piece)).calls := print_calls rest _ List.mem_cons_self
  exact List.ne_nil_of_mem hmem

theorem kept_of_fits {pieces : List Text} (hne : pieces ≠ []) (hfits : FitsFrom 0 pieces)
    (memory : Nat → Char) : Kept (print pieces { memory := memory }) := by
  have h := (fitting_start memory).print pieces hfits
  exact ⟨h.position, h.size, h.bytes, h.ended (print_calls_ne_nil hne _)⟩

/-! ### Where something goes wrong -/

/-- How far the pieces move the write position. -/
def advances (pieces : List Text) : Nat := (pieces.map advance).sum

theorem print_start (pieces : List Text) : ∀ w : Writer,
    (print pieces w).start = w.start + advances pieces := by
  induction pieces with
  | nil => exact fun _ => rfl
  | cons piece rest ih =>
      intro w
      refine (ih (w.printed piece)).trans ?_
      rw [printed_start, advances, advances, List.map_cons, List.sum_cons, Nat.add_assoc]

/-- The position at the end is that after the last piece. -/
theorem print_start_of_kept {pieces : List Text} {w : Writer} (hw : w.start ≤ bufferSize)
    (h : Kept (print pieces w)) : (print pieces w).start ≤ bufferSize := by
  rcases List.eq_nil_or_concat pieces with rfl | ⟨before, piece, rfl⟩
  · exact hw
  · rw [List.concat_eq_append, print_append] at h ⊢
    exact h.position ⟨_, _, _⟩ List.mem_cons_self

/-- Behind byte 1023 only the position matters. -/
theorem fitsFrom_of_full (pieces : List Text) : ∀ {start : Nat}, bufferSize - 1 ≤ start →
    start + advances pieces ≤ bufferSize → FitsFrom start pieces := by
  induction pieces with
  | nil => exact fun _ h => h
  | cons piece rest ih =>
      intro start hfull hle
      rw [advances, List.map_cons, List.sum_cons] at hle
      refine ⟨Or.inr hfull, ih (Nat.le_trans hfull (Nat.le_add_right _ _)) ?_⟩
      rw [advances]
      omega

/--
What is written over a piece that is too long differs from it, before the position would be out of
the buffer.
-/
def Clash (piece : Text) (rest : List Text) : Prop :=
  ∃ next k, rest.find? short = some next ∧ k < next.length ∧ piece[k]? ≠ next[k]? ∧
    (k = 0 ∨ k + 1 < advances rest)

/-- Every piece that is too long clashes with what follows. -/
def Distinct : List Text → Prop
  | [] => True
  | piece :: rest => (short piece = false → Clash piece rest) ∧ Distinct rest

/-- The first piece that is not too long remains. -/
theorem print_over (rest : List Text) : ∀ {w : Writer} {next : Text} {k : Nat},
    rest.find? short = some next → k < next.length → w.start + k < bufferSize - 1 →
      next[k]? = some ((print rest w).memory (w.start + k)) := by
  induction rest with
  | nil =>
      intro w next k hfind
      cases hfind
  | cons piece rest ih =>
      intro w next k hfind hk hlt
      rw [List.find?_cons] at hfind
      split at hfind
      · next hshort =>
          cases hfind
          have hlater : w.start + k < (w.printed piece).start := by
            rw [printed_start, advance, if_pos hshort]
            omega
          have hsize : sizeLeft w.start = bufferSize - w.start := sizeLeft_of_le (by omega)
          have hread := getElem?_written w.memory w.start piece (show sizeLeft w.start ≠ 0 by omega)
            (Nat.le_add_right w.start k) (by omega)
          rw [Nat.add_sub_cancel_left] at hread
          refine hread.trans (congrArg some ?_)
          exact (print_below rest (w.printed piece) hlater).symm
      · next hshort =>
          have hstart : (w.printed piece).start = w.start := by
            rw [printed_start, advance, if_neg (by simpa using hshort), Nat.add_zero]
          have hrest := ih (w := w.printed piece) hfind hk (by rw [hstart]; exact hlt)
          rw [hstart] at hrest
          exact hrest

/-- After a piece that is too long the buffer does not hold the text. -/
theorem not_kept_of_clash {piece : Text} {rest : List Text} {w : Writer}
    (hexact : w.start = w.text.length) (hlong : short piece = false) (hclash : Clash piece rest)
    (hstart : w.start < bufferSize - 1) : ¬ Kept (print (piece :: rest) w) := by
  intro h
  obtain ⟨next, k, hfind, hk, hdiff, hroom⟩ := hclash
  have hsame : (w.printed piece).start = w.start := by
    rw [printed_start, advance, if_neg (by simp [hlong]), Nat.add_zero]
  have hend : (print rest (w.printed piece)).start ≤ bufferSize :=
    print_start_of_kept (by rw [hsame]; omega) h
  rw [print_start, hsame] at hend
  have hlt : w.start + k < bufferSize - 1 := by omega
  have hover := print_over rest (w := w.printed piece) hfind hk (by rw [hsame]; exact hlt)
  rw [hsame] at hover
  have hkp : k < piece.length := by
    have hnext : short next = true := List.find?_some hfind
    simp only [short, decide_eq_true_eq, decide_eq_false_iff_not] at hnext hlong
    omega
  have htext : (print (piece :: rest) w).text[w.start + k]? = piece[k]? := by
    rw [print_text, hexact, List.getElem?_append_right (Nat.le_add_right _ _),
      Nat.add_sub_cancel_left, List.flatten_cons, List.getElem?_append_left hkp]
  have hmemory := h.text.bytes _ _ hlt (htext.trans (List.getElem?_eq_getElem hkp))
  refine hdiff ((List.getElem?_eq_getElem hkp).trans ?_)
  rw [hover, ← hmemory]
  rfl

theorem fits_of_kept (pieces : List Text) : ∀ {w : Writer}, w.start = w.text.length →
    w.start ≤ bufferSize → Distinct pieces → Kept (print pieces w) →
      FitsFrom w.start pieces := by
  induction pieces with
  | nil => exact fun _ hle _ _ => hle
  | cons piece rest ih =>
      intro w hexact hle hdistinct h
      have hcall : (w.printed piece).start ≤ bufferSize :=
        h.position ⟨_, _, _⟩ (print_calls rest (w.printed piece) List.mem_cons_self)
      cases hshort : short piece with
      | true =>
          refine ⟨Or.inl hshort, ?_⟩
          rw [← printed_start]
          refine ih ?_ hcall hdistinct.2 h
          show (w.printed piece).start = (w.text ++ piece).length
          rw [printed_start, advance, if_pos hshort, List.length_append, hexact]
      | false =>
          have hfull : bufferSize - 1 ≤ w.start := by
            by_contra hlt
            exact not_kept_of_clash hexact hshort (hdistinct.1 hshort) (by omega) h
          refine ⟨Or.inr hfull, ?_⟩
          refine fitsFrom_of_full rest (Nat.le_trans hfull (Nat.le_add_right _ _)) ?_
          rw [← printed_start, ← print_start rest]
          exact print_start_of_kept hcall h

/-! ### In closed form -/

/--
The pieces that are not too long end within the buffer, and one that is too long comes behind its
byte 1023.
-/
structure Fits (pieces : List Text) : Prop where
  total : advances pieces ≤ bufferSize
  long : (∀ piece ∈ pieces, short piece = true) ∨
    bufferSize - 1 ≤ advances (pieces.takeWhile short)

theorem advances_cons (piece : Text) (rest : List Text) :
    advances (piece :: rest) = advance piece + advances rest := by
  rw [advances, List.map_cons, List.sum_cons]
  rfl

theorem fitsFrom_iff (pieces : List Text) : ∀ start, FitsFrom start pieces ↔
    start + advances pieces ≤ bufferSize ∧ ((∀ piece ∈ pieces, short piece = true) ∨
      bufferSize - 1 ≤ start + advances (pieces.takeWhile short)) := by
  induction pieces with
  | nil => exact fun start => ⟨fun h => ⟨h, Or.inl (by simp)⟩, fun h => h.1⟩
  | cons piece rest ih =>
      intro start
      rw [FitsFrom, ih, advances_cons, List.forall_mem_cons, Nat.add_assoc]
      cases hshort : short piece with
      | true =>
          rw [List.takeWhile_cons_of_pos hshort, advances_cons]
          simp only [true_or, true_and, Nat.add_assoc]
      | false =>
          rw [List.takeWhile_cons_of_neg (by simp [hshort])]
          simp only [Bool.false_eq_true, false_or, false_and]
          constructor
          · exact fun h => ⟨h.2.1, Nat.le_trans h.1 (Nat.le_add_right _ _)⟩
          · intro h
            have hfull : bufferSize - 1 ≤ start := h.2
            exact ⟨hfull, h.1, Or.inr (by omega)⟩

theorem fits_iff (pieces : List Text) : FitsFrom 0 pieces ↔ Fits pieces := by
  rw [fitsFrom_iff, Nat.zero_add, Nat.zero_add]
  exact ⟨fun h => ⟨h.1, h.2⟩, fun h => ⟨h.total, h.long⟩⟩

/-! ### The functions as pieces -/

/-- The function prints the pieces and returns the value. -/
def Prints {α : Type} (x : W α) (a : α) (pieces : List Text) : Prop :=
  ∀ w, x w = .ok a (print pieces w)

theorem prints_bprintf (piece : Text) : Prints (bprintf piece) () [piece] := fun _ => rfl

theorem prints_pure {α : Type} (a : α) : Prints (pure a) a [] := fun _ => rfl

theorem Prints.bind {α β : Type} {x : W α} {f : α → W β} {a : α} {b : β} {pieces more : List Text}
    (h : Prints x a pieces) (h' : Prints (f a) b more) : Prints (x >>= f) b (pieces ++ more) := by
  intro w
  rw [bind_of_ok (h w), h', print_append]

theorem prints_forM {α : Type} {f : α → W PUnit} {g : α → List Text} (l : List α)
    (h : ∀ a ∈ l, Prints (f a) ⟨⟩ (g a)) : Prints (forM l f) ⟨⟩ (l.flatMap g) := by
  induction l with
  | nil => exact prints_pure _
  | cons a rest ih =>
      rw [List.forM_cons, List.flatMap_cons]
      exact (h a List.mem_cons_self).bind (ih fun b hb => h b (List.mem_cons_of_mem _ hb))

def namePieces (keyword : String) : Option Text → List Text
  | none => []
  | some name => [keyword.toList ++ cstring name ++ "\n".toList]

theorem prints_printName (keyword : String) (name : Option Text) :
    Prints (printName keyword name) () (namePieces keyword name) := by
  cases name with
  | none => exact prints_pure _
  | some name => exact prints_bprintf _

def requestPieces (query : Query) : List Text :=
  "request netresolve 0.0.1\n".toList :: (namePieces "node " (backendGetNodename query) ++
    (namePieces "service " (backendGetServname query) ++ ["\n".toList]))

theorem prints_request (query : Query) : Prints (getRequestString query) () (requestPieces query) :=
  (prints_bprintf _).bind ((prints_printName _ _).bind ((prints_printName _ _).bind
    (prints_bprintf _)))

section

variable (libc : Libc) (clampTtl : Int) (query : Query)

/-- The pieces for the paths of a response. -/
def pathPieces : List Text :=
  (List.range query.response.paths.length).flatMap fun i =>
    match query.response.paths[i]? with
    | none => []
    | some path => [pathText libc clampTtl path.value, "\n".toList]

theorem prints_paths : Prints (forM (List.range query.response.paths.length) fun i => do
    addPath libc clampTtl query i
    bprintf "\n".toList) ⟨⟩ (pathPieces libc clampTtl query) := by
  refine prints_forM _ fun i hi => ?_
  rw [addPath, List.getElem?_eq_getElem (List.mem_range.mp hi)]
  exact (prints_bprintf _).bind (prints_bprintf _)

/-- The pieces for a DNS answer, and whether it could be turned into text. -/
def answerPieces (answer : List UInt8) : List Text × Bool :=
  if answer.length ≠ 0 then
    let hex := ("dns ".toList ++ decimal answer.length ++ " 0x".toList) ::
      (answer.map hexByte ++ ["\n".toList])
    match libc.pkt2str with
    | none => (hex, true)
    | some pkt2str =>
        match pkt2str answer with
        | none => (hex, false)
        | some text => (hex ++ [cstring text ++ "\n".toList], true)
  else ([], true)

theorem prints_hex (first last : Text) (answer : List UInt8) {x : W Bool} {a : Bool}
    {more : List Text} (h : Prints x a more) : Prints (do
      bprintf first
      forM answer fun byte => bprintf (hexByte byte)
      bprintf last
      x) a (first :: (answer.map hexByte ++ last :: more)) := by
  have hhex : Prints (forM answer fun byte => bprintf (hexByte byte)) ⟨⟩ (answer.map hexByte) := by
    rw [List.map_eq_flatMap]
    exact prints_forM _ fun _ _ => prints_bprintf _
  exact (prints_bprintf _).bind (hhex.bind ((prints_bprintf _).bind h))

theorem prints_answer (answer : List UInt8) :
    Prints (printAnswer libc answer) (answerPieces libc answer).2 (answerPieces libc answer).1 := by
  unfold printAnswer answerPieces
  split
  · dsimp only
    cases libc.pkt2str with
    | none => exact prints_hex _ _ answer (prints_pure true)
    | some pkt2str =>
        dsimp only
        cases pkt2str answer with
        | none => exact prints_hex _ _ answer (prints_pure false)
        | some text =>
            dsimp only
            rw [List.cons_append, List.append_assoc (answer.map hexByte)]
            refine prints_hex _ _ answer ?_
            exact (prints_bprintf _).bind (prints_pure true)
  · exact prints_pure true

/-- The pieces behind the names. -/
def tailPieces : List Text :=
  let answer := answerPieces libc (queryGetDnsAnswer query)
  pathPieces libc clampTtl query ++ (answer.1 ++
    (if answer.2 then
      (if query.response.security = .secure then ["secure\n".toList] else []) ++ ["\n".toList]
    else []))

def responsePieces : List Text :=
  "response netresolve 0.0.1\n".toList :: (namePieces "name " (queryGetNodeName query) ++
    (namePieces "service " (queryGetServiceName query) ++ tailPieces libc clampTtl query))

theorem prints_response : Prints (getResponseString libc clampTtl query)
    (answerPieces libc (queryGetDnsAnswer query)).2 (responsePieces libc clampTtl query) := by
  unfold getResponseString
  refine (prints_bprintf _).bind ((prints_printName _ _).bind ((prints_printName _ _).bind
    ((prints_paths libc clampTtl query).bind ((prints_answer libc _).bind ?_))))
  cases (answerPieces libc (queryGetDnsAnswer query)).2 with
  | false => exact prints_pure false
  | true =>
      rw [if_pos rfl, if_pos rfl]
      have hsecure : Prints (if query.response.security = .secure then bprintf "secure\n".toList
          else pure ()) () (if query.response.security = .secure then ["secure\n".toList]
          else []) := by
        split
        · exact prints_bprintf _
        · exact prints_pure _
      exact hsecure.bind ((prints_bprintf _).bind (prints_pure true))

end

/-! ### Lengths -/

theorem toCInt_bounds (n : Int) : -(2 ^ 31) ≤ toCInt n ∧ toCInt n < 2 ^ 31 := by
  unfold toCInt
  omega

theorem decimal_length (n : Int) : (decimal n).length ≤ 11 := by
  obtain ⟨hlow, hhigh⟩ := toCInt_bounds n
  unfold decimal
  rw [String.length_toList]
  cases h : toCInt n with
  | ofNat m =>
      rw [h] at hhigh
      have hm : m < 10 ^ 10 := by
        have hcast : (m : Int) < 2 ^ 31 := hhigh
        omega
      exact (Nat.repr_length m 10 (by omega) hm).trans (by omega)
  | negSucc m =>
      rw [h] at hlow
      have hm : m + 1 < 10 ^ 10 := by omega
      have hrepr := Nat.repr_length (m + 1) 10 (by omega) hm
      show ("-" ++ (m + 1).repr).length ≤ 11
      rw [String.length_append]
      have hone : "-".length = 1 := rfl
      omega

theorem socktypeToString_length (socktype : Int) : (socktypeToString socktype).length ≤ 9 := by
  unfold socktypeToString
  repeat' split
  all_goals decide

theorem protocolToString_length (proto : Int) : (protocolToString proto).length ≤ 7 := by
  unfold protocolToString
  repeat' split
  all_goals decide

theorem cstring_length (text : Text) : (cstring text).length ≤ text.length :=
  (List.takeWhile_prefix _).length_le

section

variable (libc : Libc) (clampTtl : Int)

theorem addrstr_length (path : Path) : (addrstr libc path).length < 1024 := by
  unfold addrstr
  split
  · dsimp only
    split
    · assumption
    · exact Nat.zero_lt_succ _
  · exact Nat.zero_lt_succ _

theorem ifname_length (path : Path) : (ifname libc path).length ≤ IF_NAMESIZE + 1 := by
  unfold ifname
  split
  · rw [List.length_cons]
    refine Nat.succ_le_succ ?_
    split
    · next name _ => exact Nat.le_of_lt name.2
    · exact List.length_take_le _ _
  · exact Nat.zero_le _

theorem unixAddress_length (path : Path) : (unixAddress path).length ≤ 1023 := by
  refine (cstring_length _).trans ?_
  rw [List.length_map]
  exact List.length_take_le _ _

theorem short_of_le {piece : Text} {n : Nat} (h : piece.length ≤ n) (hn : n ≤ 2147483647) :
    short piece = true := decide_eq_true (h.trans hn)

/-- The text of an IP path is its address and not much more. -/
theorem ipText_length {path : Path} (hfamily : path.family ≠ AF_UNIX) :
    (pathText libc clampTtl path).length ≤ (addrstr libc path).length + 86 := by
  have hifname := ifname_length libc path
  have hsocktype := socktypeToString_length path.socktype
  have hprotocol := protocolToString_length path.protocol
  have hport := decimal_length path.port
  have hpriority := decimal_length path.priority
  have hweight := decimal_length path.weight
  have httl := decimal_length (Addrinfo.auxTtl clampTtl path)
  have hword : "ip ".length = 3 := rfl
  have hblank : " ".length = 1 := rfl
  rw [pathText, if_neg hfamily]
  simp only [List.length_append, String.length_toList]
  unfold IF_NAMESIZE at hifname
  omega

/-- The text of a path is never too long. -/
theorem short_pathText (path : Path) : short (pathText libc clampTtl path) = true := by
  refine short_of_le (n := 1200) ?_ (by omega)
  by_cases hfamily : path.family = AF_UNIX
  · have hsocktype := socktypeToString_length path.socktype
    have hunix := unixAddress_length path
    have hword : "unix ".length = 5 := rfl
    have hblank : " ".length = 1 := rfl
    rw [pathText, if_pos hfamily]
    simp only [List.length_append, String.length_toList]
    omega
  · have haddr := addrstr_length libc path
    have htext := ipText_length libc clampTtl hfamily
    omega

theorem pathText_head (path : Path) : ∃ rest, pathText libc clampTtl path = 'u' :: rest ∨
    pathText libc clampTtl path = 'i' :: rest := by
  unfold pathText
  split
  · exact ⟨_, Or.inl rfl⟩
  · exact ⟨_, Or.inr rfl⟩

theorem short_answerPieces (answer : List UInt8) :
    ∀ piece ∈ (answerPieces libc answer).1, short piece = true := by
  have hdns : short ("dns ".toList ++ decimal answer.length ++ " 0x".toList) = true := by
    refine short_of_le (n := 18) ?_ (by omega)
    have hdecimal := decimal_length answer.length
    simp only [List.length_append, String.length_toList]
    have hword : "dns ".length = 4 := rfl
    have hprefix : " 0x".length = 3 := rfl
    omega
  have hhex : ∀ piece ∈ ("dns ".toList ++ decimal answer.length ++ " 0x".toList) ::
      (answer.map hexByte ++ ["\n".toList]), short piece = true := by
    intro piece hpiece
    rcases List.mem_cons.mp hpiece with rfl | hpiece
    · exact hdns
    · rcases List.mem_append.mp hpiece with hpiece | hpiece
      · obtain ⟨byte, -, rfl⟩ := List.mem_map.mp hpiece
        exact short_of_le (n := 2) (Nat.le_refl _) (by omega)
      · rw [List.mem_singleton.mp hpiece]
        exact short_of_le (n := 1) (Nat.le_refl _) (by omega)
  unfold answerPieces
  split
  · dsimp only
    cases libc.pkt2str with
    | none => exact hhex
    | some pkt2str =>
        dsimp only
        cases pkt2str answer with
        | none => exact hhex
        | some text =>
            intro piece hpiece
            rcases List.mem_append.mp hpiece with hpiece | hpiece
            · exact hhex piece hpiece
            · rw [List.mem_singleton.mp hpiece]
              refine short_of_le (n := 2147483647) ?_ (Nat.le_refl _)
              have htext := text.2
              have hcut := cstring_length text.1
              unfold INT_MAX at htext
              rw [List.length_append, String.length_toList]
              have hnewline : "\n".length = 1 := rfl
              omega
  · intro piece hpiece
    cases hpiece

theorem short_pathPieces (query : Query) :
    ∀ piece ∈ pathPieces libc clampTtl query, short piece = true := by
  intro piece hpiece
  obtain ⟨i, -, hi⟩ := List.mem_flatMap.mp hpiece
  split at hi
  · cases hi
  · rcases List.mem_cons.mp hi with rfl | hi
    · exact short_pathText libc clampTtl _
    · rw [List.mem_singleton.mp hi]
      exact short_of_le (n := 1) (Nat.le_refl _) (by omega)

theorem short_tailPieces (query : Query) :
    ∀ piece ∈ tailPieces libc clampTtl query, short piece = true := by
  intro piece hpiece
  rcases List.mem_append.mp hpiece with hpiece | hpiece
  · exact short_pathPieces libc clampTtl query piece hpiece
  · rcases List.mem_append.mp hpiece with hpiece | hpiece
    · exact short_answerPieces libc _ piece hpiece
    · refine short_of_le (n := 7) ?_ (by omega)
      split at hpiece
      · rcases List.mem_append.mp hpiece with hpiece | hpiece
        · split at hpiece
          · rw [List.mem_singleton.mp hpiece]
            decide
          · cases hpiece
        · rw [List.mem_singleton.mp hpiece]
          decide
      · cases hpiece

end

/-! ### What is written over a name -/

theorem distinct_of_short {pieces : List Text} (h : ∀ piece ∈ pieces, short piece = true) :
    Distinct pieces := by
  induction pieces with
  | nil => trivial
  | cons piece rest ih =>
      refine ⟨fun hlong => ?_, ih fun p hp => h p (List.mem_cons_of_mem _ hp)⟩
      rw [h piece List.mem_cons_self] at hlong
      cases hlong

/-- How the pieces behind the names begin. -/
def Leads (tail : List Text) : Prop :=
  (∃ c text rest, tail = (c :: text) :: rest ∧ c ≠ 'n' ∧ c ≠ 's') ∨
    tail = ["secure\n".toList, "\n".toList]

theorem Leads.find {tail : List Text} (h : Leads tail)
    (hshort : ∀ piece ∈ tail, short piece = true) :
    ∃ c text, tail.find? short = some (c :: text) ∧ c ≠ 'n' := by
  rcases h with ⟨c, text, rest, rfl, hn, -⟩ | rfl
  · refine ⟨c, text, ?_, hn⟩
    rw [List.find?_cons_of_pos (hshort _ List.mem_cons_self)]
  · refine ⟨'s', "ecure\n".toList, ?_, by decide⟩
    rw [List.find?_cons_of_pos (hshort _ List.mem_cons_self)]
    rfl

theorem clash_service {tail : List Text} (h : Leads tail)
    (hshort : ∀ piece ∈ tail, short piece = true) (name : Text) :
    Clash ("service ".toList ++ name) tail := by
  rcases h with ⟨c, text, rest, rfl, -, hs⟩ | rfl
  · refine ⟨c :: text, 0, ?_, Nat.zero_lt_succ _, ?_, Or.inl rfl⟩
    · rw [List.find?_cons_of_pos (hshort _ List.mem_cons_self)]
    · exact fun heq => hs (Option.some.inj heq).symm
  · refine ⟨"secure\n".toList, 2, ?_, by decide, ?_, Or.inr (by decide)⟩
    · rw [List.find?_cons_of_pos (hshort _ List.mem_cons_self)]
    · exact fun heq => absurd (Option.some.inj heq) (by decide)

/-- What follows a node name begins with another letter. -/
theorem clash_node {service : Option Text} {tail : List Text} (h : Leads tail)
    (hshort : ∀ piece ∈ tail, short piece = true) (text : Text) :
    Clash ('n' :: text) (namePieces "service " service ++ tail) := by
  obtain ⟨c, next, hfind, hc⟩ := h.find hshort
  have hskip : ∀ before : List Text, (∀ piece ∈ before, short piece = false) →
      Clash ('n' :: text) (before ++ tail) := by
    intro before hbefore
    refine ⟨c :: next, 0, ?_, Nat.zero_lt_succ _, ?_, Or.inl rfl⟩
    · rw [List.find?_append, List.find?_eq_none.mpr (by simpa using hbefore)]
      exact hfind
    · exact fun heq => hc (Option.some.inj heq).symm
  cases service with
  | none => exact hskip [] (by simp)
  | some name =>
      cases hname : short ("service ".toList ++ cstring name ++ "\n".toList) with
      | false =>
          refine hskip [_] fun piece hpiece => ?_
          rw [List.mem_singleton.mp hpiece]
          exact hname
      | true =>
          refine ⟨_, 0, List.find?_cons_of_pos hname, Nat.zero_lt_succ _, ?_, Or.inl rfl⟩
          exact fun heq => absurd (Option.some.inj heq) (by decide)

theorem distinct_names {header : Text} {keyword : String} {tail : List Text}
    (hheader : short header = true) (hkeyword : ∃ rest, keyword.toList = 'n' :: rest)
    (hlead : Leads tail) (htail : ∀ piece ∈ tail, short piece = true) (node service : Option Text) :
    Distinct (header :: (namePieces keyword node ++ (namePieces "service " service ++ tail))) := by
  refine ⟨fun hlong => ?_, ?_⟩
  · rw [hheader] at hlong
    cases hlong
  have hservice : Distinct (namePieces "service " service ++ tail) := by
    cases service with
    | none => exact distinct_of_short htail
    | some name =>
        refine ⟨fun _ => ?_, distinct_of_short htail⟩
        rw [List.append_assoc]
        exact clash_service hlead htail _
  cases node with
  | none => exact hservice
  | some name =>
      refine ⟨fun _ => ?_, hservice⟩
      obtain ⟨rest, hrest⟩ := hkeyword
      rw [hrest, List.cons_append, List.cons_append]
      exact clash_node hlead htail _

theorem request_distinct (query : Query) : Distinct (requestPieces query) := by
  refine distinct_names (short_of_le (n := 25) (by decide) (by omega)) ⟨_, rfl⟩ ?_ ?_ _ _
  · exact Or.inl ⟨'\n', [], [], rfl, by decide, by decide⟩
  · intro piece hpiece
    rw [List.mem_singleton.mp hpiece]
    exact short_of_le (n := 1) (by decide) (by omega)

section

variable (libc : Libc) (clampTtl : Int)

theorem pathPieces_cons {query : Query} {path : Sourced Path} {paths : List (Sourced Path)}
    (h : query.response.paths = path :: paths) :
    ∃ rest, pathPieces libc clampTtl query = pathText libc clampTtl path.value :: rest := by
  unfold pathPieces
  rw [h, List.length_cons, List.range_succ_eq_map, List.flatMap_cons]
  exact ⟨_, rfl⟩

theorem pathPieces_nil {query : Query} (h : query.response.paths = []) :
    pathPieces libc clampTtl query = [] := by
  unfold pathPieces
  rw [h]
  rfl

theorem answerPieces_cons {answer : List UInt8} (h : answer.length ≠ 0) :
    ∃ text rest, (answerPieces libc answer).1 = ('d' :: text) :: rest := by
  unfold answerPieces
  rw [if_pos h]
  dsimp only
  cases libc.pkt2str with
  | none => exact ⟨_, _, rfl⟩
  | some pkt2str =>
      dsimp only
      cases pkt2str answer with
      | none => exact ⟨_, _, rfl⟩
      | some text => exact ⟨_, _, rfl⟩

/-- The pieces behind the names of a response begin with a path, the answer or the end. -/
theorem leads_tailPieces (query : Query) : Leads (tailPieces libc clampTtl query) := by
  unfold tailPieces
  dsimp only
  cases hpaths : query.response.paths with
  | cons path paths =>
      obtain ⟨rest, hrest⟩ := pathPieces_cons libc clampTtl hpaths
      obtain ⟨text, htext⟩ := pathText_head libc clampTtl path.value
      rw [hrest, List.cons_append]
      rcases htext with htext | htext
      · rw [htext]
        exact Or.inl ⟨'u', text, _, rfl, by decide, by decide⟩
      · rw [htext]
        exact Or.inl ⟨'i', text, _, rfl, by decide, by decide⟩
  | nil =>
      rw [pathPieces_nil libc clampTtl hpaths, List.nil_append]
      by_cases hanswer : (queryGetDnsAnswer query).length ≠ 0
      · obtain ⟨text, rest, hrest⟩ := answerPieces_cons libc hanswer
        rw [hrest, List.cons_append]
        exact Or.inl ⟨'d', text, _, rfl, by decide, by decide⟩
      · unfold answerPieces
        rw [if_neg hanswer]
        by_cases hsecure : query.response.security = .secure
        · rw [if_pos hsecure]
          exact Or.inr rfl
        · rw [if_neg hsecure]
          exact Or.inl ⟨'\n', [], [], rfl, by decide, by decide⟩

end

theorem response_distinct (libc : Libc) (clampTtl : Int) (query : Query) :
    Distinct (responsePieces libc clampTtl query) :=
  distinct_names (short_of_le (n := 26) (by decide) (by omega)) ⟨_, rfl⟩
    (leads_tailPieces libc clampTtl query) (short_tailPieces libc clampTtl query) _ _

/-! ### The result -/

/-- One of the three functions, with the index of a path that is there. -/
inductive Getter (query : Query) where
  | request
  | path (i : Fin query.response.paths.length)
  | response

section

variable (libc : Libc) (clampTtl : Int) {query : Query}

/-- The buffer after the call, and what was done to it. -/
def Getter.run (memory : Nat → Char) : Getter query → Writer
  | .request => final (getRequestString query) { memory := memory }
  | .path i => final (getPathString libc clampTtl query i) { memory := memory }
  | .response => final (getResponseString libc clampTtl query) { memory := memory }

/-- What the function prints, a text for each call of `bprintf`. -/
def Getter.pieces : Getter query → List Text
  | .request => requestPieces query
  | .path i => [pathText libc clampTtl (query.response.paths.get i).value]
  | .response => responsePieces libc clampTtl query

theorem Getter.run_eq (memory : Nat → Char) (getter : Getter query) :
    getter.run libc clampTtl memory = print (getter.pieces libc clampTtl) { memory := memory } := by
  cases getter with
  | request => exact final_of_ok (prints_request query _)
  | path i =>
      refine final_of_ok (a := ()) ?_
      rw [getPathString, addPath, List.getElem?_eq_getElem i.2]
      rfl
  | response => exact final_of_ok (prints_response libc clampTtl query _)

theorem Getter.distinct (getter : Getter query) : Distinct (getter.pieces libc clampTtl) := by
  cases getter with
  | request => exact request_distinct query
  | path i =>
      refine distinct_of_short fun piece hpiece => ?_
      rw [List.mem_singleton.mp hpiece]
      exact short_pathText libc clampTtl _
  | response => exact response_distinct libc clampTtl query

theorem Getter.pieces_ne_nil (getter : Getter query) : getter.pieces libc clampTtl ≠ [] := by
  cases getter <;> exact List.cons_ne_nil _ _

theorem Getter.fits {memory : Nat → Char} {getter : Getter query}
    (h : Kept (getter.run libc clampTtl memory)) : Fits (getter.pieces libc clampTtl) := by
  rw [getter.run_eq] at h
  exact (fits_iff _).mp (fits_of_kept _ rfl (Nat.zero_le _) (getter.distinct libc clampTtl) h)

end

/-- **The buffer is kept, and holds the text, exactly if the pieces fit.** -/
theorem string_kept_iff (libc : Libc) (clampTtl : Int) (query : Query) (getter : Getter query)
    (memory : Nat → Char) :
    Kept (getter.run libc clampTtl memory) ↔ Fits (getter.pieces libc clampTtl) := by
  refine ⟨fun h => Getter.fits libc clampTtl h, fun h => ?_⟩
  rw [getter.run_eq]
  exact kept_of_fits (getter.pieces_ne_nil libc clampTtl) ((fits_iff _).mpr h) memory

/-- A query for a node name. -/
def nodeQuery (name : Text) : Query :=
  { id := 0
    request := { nodename := some (String.ofList name) } }

theorem requestPieces_nodeQuery (name : Text) : requestPieces (nodeQuery name) =
    ["request netresolve 0.0.1\n".toList, "node ".toList ++ cstring name ++ "\n".toList,
      "\n".toList] := by
  have hname : backendGetNodename (nodeQuery name) = some name :=
    congrArg some String.toList_ofList
  unfold requestPieces
  rw [hname]
  rfl

theorem advance_nodeQuery (name : Text) (hname : ∀ c ∈ name, c ≠ nul)
    (hshort : name.length ≤ 2147483641) :
    name.length + 6 ≤ advances (requestPieces (nodeQuery name)) := by
  have hall : cstring name = name := cstring_of_not_mem fun hmem => hname nul hmem rfl
  have hlength : ("node ".toList ++ name ++ "\n".toList).length = name.length + 6 := by
    rw [List.length_append, List.length_append, Nat.add_comm "node ".toList.length]
    rfl
  have hadvance : advance ("node ".toList ++ name ++ "\n".toList) = name.length + 6 := by
    rw [advance, if_pos (short_of_le (Nat.le_of_eq hlength) (by omega)), hlength]
  rw [requestPieces_nodeQuery, advances_cons, advances_cons, hall, hadvance]
  omega

/-- A node name of 1100 bytes moves the write position out of the buffer. -/
theorem long_name_not_kept :
    ¬ Kept ((Getter.request : Getter (nodeQuery (List.replicate 1100 'a'))).run
      { inetNtop := fun _ _ => [], ifIndextoname := fun _ => none } (-1) fun _ => nul) := by
  intro h
  have hfits : advances (requestPieces (nodeQuery (List.replicate 1100 'a'))) ≤ bufferSize :=
    (Getter.fits _ _ h).total
  have hlength : (List.replicate 1100 'a').length = 1100 := List.length_replicate
  have hadvance := advance_nodeQuery (List.replicate 1100 'a')
    (fun c hc => by rw [List.eq_of_mem_replicate hc]; decide) (by rw [hlength]; omega)
  have hbuffer : ¬ 1100 + 6 ≤ bufferSize := by decide
  rw [hlength] at hadvance
  exact hbuffer (hadvance.trans hfits)

end Netresolve.Print
