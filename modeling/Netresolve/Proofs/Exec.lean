/-
What the exec backend makes of the output of its subprocess.

`memmove` is asked for as many bytes as the buffer has free, not for as many as are left in it.  The
copy is whole if what is left is no longer than the free part.  With each line that is taken off
less is left and more is free, so only the first line of a read can go wrong.  A zero byte ends a
line for `received_line`, wherever it stands.
-/
import Netresolve.Backends.Exec
import Netresolve.Library.Lines

namespace Netresolve.Exec

open CString
open Lines (finished restOf line_cases finished_of_not_mem restOf_of_not_mem finished_newline
  restOf_newline finished_append restOf_append not_mem_restOf)

/-! ### The lines that count -/

/-- The lines up to the first empty one. -/
def upToEmpty : List Text → List Text
  | [] => []
  | line :: rest => if line = [] then [line] else line :: upToEmpty rest

theorem upToEmpty_of_mem {lines : List Text} (h : [] ∈ lines) (more : List Text) :
    upToEmpty (lines ++ more) = upToEmpty lines := by
  induction lines with
  | nil => cases h
  | cons line rest ih =>
      by_cases hline : line = []
      · rw [List.cons_append, upToEmpty, upToEmpty, if_pos hline, if_pos hline]
      · have hrest : [] ∈ rest := List.mem_of_ne_of_mem (Ne.symm hline) h
        rw [List.cons_append, upToEmpty, upToEmpty, if_neg hline, if_neg hline, ih hrest]

theorem upToEmpty_of_not_mem {lines : List Text} (h : [] ∉ lines) (more : List Text) :
    upToEmpty (lines ++ more) = lines ++ upToEmpty more := by
  induction lines with
  | nil => rfl
  | cons line rest ih =>
      have hline : line ≠ [] := fun heq => h (heq ▸ List.mem_cons_self)
      have hrest : [] ∉ rest := fun hmem => h (List.mem_cons_of_mem _ hmem)
      rw [List.cons_append, upToEmpty, if_neg hline, ih hrest, List.cons_append]

theorem upToEmpty_eq_self {lines : List Text} (h : [] ∉ lines) : upToEmpty lines = lines := by
  have happend := upToEmpty_of_not_mem h []
  rw [List.append_nil] at happend
  exact happend.trans (List.append_nil lines)

/-! ### The loop -/

/-- A buffer as `malloc` returned it, filled up to a place inside of it. -/
structure Sized (b : Outbuf) : Prop where
  memory : b.memory.length = capacity
  start : b.start ≤ capacity

theorem Sized.kept_length {b : Outbuf} (h : Sized b) : b.kept.length = b.start := by
  rw [Outbuf.kept, List.length_take, h.memory]
  exact Nat.min_eq_left h.start

/-- There is room for the rest of the bytes behind the first line, unless it is the last one. -/
def Roomy (text : Text) : Prop :=
  ∀ line ∈ (finished text).head?, line ≠ [] → 2 * text.length ≤ line.length + capacity + 1

instance (text : Text) : Decidable (Roomy text) :=
  inferInstanceAs (Decidable (∀ line ∈ (finished text).head?, _))

/-- None of the lines has a zero byte in it. -/
def NoNul (text : Text) : Prop := ∀ line ∈ upToEmpty (finished text), nul ∉ line

instance (text : Text) : Decidable (NoNul text) :=
  inferInstanceAs (Decidable (∀ line ∈ upToEmpty (finished text), _))

/-- What the loop leaves of a text, and whether it came to an empty line. -/
structure Leaves (text : Text) (last : Bool) (b : Outbuf) : Prop where
  sized : Sized b
  empty : last = true ↔ [] ∈ finished text
  kept : last = false → b.kept = restOf text

theorem moveFront_length {memory : Text} {src size : Nat} (h : src + size ≤ memory.length) :
    (moveFront memory src size).length = memory.length := by
  unfold moveFront
  rw [List.length_append, List.length_take, List.length_drop, List.length_drop]
  omega

/-- Bytes that are no more than are moved come to the front. -/
theorem moveFront_take {front bytes behind : Text} {size : Nat} (h : bytes.length ≤ size) :
    (moveFront (front ++ bytes ++ behind) front.length size).take bytes.length = bytes := by
  unfold moveFront
  rw [List.append_assoc, List.drop_left, List.take_append_of_le_length, List.take_take,
    Nat.min_eq_left h, List.take_left]
  rw [List.length_take, List.length_append]
  omega

theorem findIdx?_newline {line : Text} (h : '\n' ∉ line) (rest : Text) :
    (line ++ '\n' :: rest).findIdx? (fun c => decide (c = '\n')) = some line.length := by
  rw [List.findIdx?_append, List.findIdx?_eq_none_iff.mpr, List.findIdx?_cons]
  · simp
  · intro c hc
    simpa using fun heq : c = '\n' => h (heq ▸ hc)

/-- The line end becomes a zero byte. -/
theorem set_newline (line rest stale : Text) :
    (line ++ '\n' :: rest ++ stale).set line.length nul = line ++ nul :: rest ++ stale := by
  rw [List.append_assoc, List.set_append_right _ _ (Nat.le_refl _), Nat.sub_self, List.append_assoc]
  rfl

/-- With the first line the longest wait for room is over. -/
theorem Roomy.rest {line rest : Text} (hline : '\n' ∉ line) (hne : line ≠ [])
    (h : Roomy (line ++ '\n' :: rest)) : Roomy rest := by
  intro line' _ _
  have hroom := h line (by rw [finished_newline hline]; rfl) hne
  rw [List.length_append, List.length_cons] at hroom
  omega

theorem NoNul.split {line rest : Text} (hline : '\n' ∉ line)
    (h : NoNul (line ++ '\n' :: rest)) : nul ∉ line ∧ (line ≠ [] → NoNul rest) := by
  unfold NoNul at h
  rw [finished_newline hline, upToEmpty] at h
  by_cases hne : line = []
  · exact ⟨by simp [hne], fun hcon => absurd hne hcon⟩
  · rw [if_neg hne] at h
    exact ⟨h line List.mem_cons_self, fun _ line' hmem => h line' (List.mem_cons_of_mem _ hmem)⟩

/-- Behind a line there is room, and so its bytes are at the front of the buffer afterwards. -/
theorem moved_spec {line rest stale : Text} {start : Nat}
    (hsize : (line ++ nul :: rest ++ stale).length = capacity)
    (hlength : line.length + (rest.length + 1) = start) (hstart : start ≤ capacity)
    (hfits : 2 * (line.length + (rest.length + 1)) ≤ line.length + capacity + 1) :
    Sized ⟨moveFront (line ++ nul :: rest ++ stale) (line.length + 1) (capacity - start),
      start - (line.length + 1)⟩ ∧
    Outbuf.kept ⟨moveFront (line ++ nul :: rest ++ stale) (line.length + 1) (capacity - start),
      start - (line.length + 1)⟩ = rest := by
  have hmoved : (moveFront (line ++ nul :: rest ++ stale) (line.length + 1)
      (capacity - start)).length = (line ++ nul :: rest ++ stale).length :=
    moveFront_length (by rw [hsize]; omega)
  have hrest : start - (line.length + 1) = rest.length := by omega
  have hfront := @moveFront_take (line ++ [nul]) rest stale (capacity - start) (by omega)
  rw [List.length_append, List.length_singleton, List.append_assoc line, List.singleton_append]
    at hfront
  refine ⟨⟨hmoved.trans hsize, Nat.le_trans (Nat.sub_le _ _) hstart⟩, ?_⟩
  rw [Outbuf.kept, hrest]
  exact hfront

theorem lineLoop_spec (fuel : Nat) : ∀ b : Outbuf, Sized b → b.start < fuel → NoNul b.kept →
    Roomy b.kept → ∃ last b', lineLoop fuel b = some (upToEmpty (finished b.kept), last, b') ∧
      Leaves b.kept last b' := by
  induction fuel with
  | zero =>
      intro b _ hfuel
      exact absurd hfuel (Nat.not_lt_zero _)
  | succ fuel ih =>
      intro b hsized hfuel hnul hroom
      have hlength := hsized.kept_length
      rcases line_cases b.kept with hnone | ⟨line, rest, htext, hline⟩
      · have hfind : b.kept.findIdx? (fun c => decide (c = '\n')) = none := by
          rw [List.findIdx?_eq_none_iff]
          intro c hc
          simpa using fun heq : c = '\n' => hnone (heq ▸ hc)
        rw [finished_of_not_mem hnone, lineLoop, hfind]
        refine ⟨false, b, rfl, hsized, ?_, fun _ => (restOf_of_not_mem hnone).symm⟩
        rw [finished_of_not_mem hnone]
        simp
      · obtain ⟨stale, hmemory⟩ : ∃ stale, b.memory = line ++ '\n' :: rest ++ stale :=
          ⟨b.memory.drop b.start, by rw [← htext, Outbuf.kept, List.take_append_drop]⟩
        have hfind := htext ▸ findIdx?_newline hline rest
        have hset : b.memory.set line.length nul = line ++ nul :: rest ++ stale := by
          rw [hmemory, set_newline]
        rw [htext] at hnul hroom hlength ⊢
        obtain ⟨hlinenul, hrestnul⟩ := hnul.split hline
        have hstring : cstring (line ++ nul :: rest ++ stale) = line := by
          rw [List.append_assoc]
          exact cstring_append_nul hlinenul _
        have hsize : (line ++ nul :: rest ++ stale).length = capacity := by
          rw [← hset, List.length_set, hsized.memory]
        rw [finished_newline hline, upToEmpty, lineLoop, hfind]
        dsimp only
        rw [hset, hstring]
        by_cases hempty : line = []
        · rw [if_pos hempty, if_pos hempty]
          refine ⟨true, _, rfl, ⟨hsize, hsized.start⟩, ?_, fun hcon => by cases hcon⟩
          rw [finished_newline hline, hempty]
          simp
        · rw [if_neg hempty, if_neg hempty]
          have hfits := hroom line (by rw [finished_newline hline]; rfl) hempty
          have hstart := hsized.start
          rw [List.length_append, List.length_cons] at hlength hfits
          obtain ⟨hnext, hkept⟩ := moved_spec hsize hlength hstart hfits
          obtain ⟨last, b', hrun, hleaves⟩ := ih _ hnext
            (show b.start - (line.length + 1) < fuel by omega)
            (by rw [hkept]; exact hrestnul hempty) (by rw [hkept]; exact hroom.rest hline hempty)
          rw [hkept] at hrun hleaves
          refine ⟨last, b', by rw [hrun]; rfl, hleaves.sized, ?_, fun h => ?_⟩
          · rw [hleaves.empty, finished_newline hline, List.mem_cons]
            simp [Ne.symm hempty]
          · rw [hleaves.kept h, restOf_newline hline]

/-! ### Reading on and on -/

theorem read_kept {b : Outbuf} (h : Sized b) (chunk : Text) :
    (b.read chunk).kept = b.kept ++ chunk := by
  have hlength := h.kept_length
  unfold Outbuf.read Outbuf.kept at *
  dsimp only
  rw [List.take_append_of_le_length (by rw [List.length_append, hlength])]
  exact List.take_of_length_le (by rw [List.length_append, hlength])

theorem Sized.read {b : Outbuf} (h : Sized b) {chunk : Text}
    (hfits : b.start + chunk.length ≤ capacity) : Sized (b.read chunk) := by
  have hlength := h.kept_length
  refine ⟨?_, hfits⟩
  unfold Outbuf.read Outbuf.kept at *
  dsimp only
  rw [List.length_append, List.length_append, hlength, List.length_drop, h.memory]
  omega

/-- The reads of a run, which ends when a response does. -/
def readAll (b : Outbuf) : List Text → Option (List Text × Bool × Outbuf)
  | [] => some ([], false, b)
  | chunk :: rest =>
      match dispatchOutput b chunk with
      | none => none
      | some (lines, true, b) => some (lines, true, b)
      | some (lines, false, b) => (readAll b rest).map fun r => (lines ++ r.1, r.2)

/-- Every read of a run, with the state of the buffer before it. -/
def Along (P : Outbuf → Text → Prop) (b : Outbuf) : List Text → Prop
  | [] => True
  | chunk :: rest => P b chunk ∧
      match dispatchOutput b chunk with
      | some (_, false, b') => Along P b' rest
      | _ => True

instance Along.decidable (P : Outbuf → Text → Prop) [∀ b chunk, Decidable (P b chunk)] :
    ∀ (b : Outbuf) (chunks : List Text), Decidable (Along P b chunks)
  | _, [] => isTrue trivial
  | b, chunk :: rest =>
      have : Decidable (match dispatchOutput b chunk with
          | some (_, false, b') => Along P b' rest
          | _ => True) :=
        match dispatchOutput b chunk with
        | none => isTrue trivial
        | some (_, true, _) => isTrue trivial
        | some (_, false, b') => Along.decidable P b' rest
      inferInstanceAs (Decidable (P b chunk ∧ _))

theorem Along.rest {P : Outbuf → Text → Prop} {b b' : Outbuf} {chunk : Text} {rest : List Text}
    (h : Along P b (chunk :: rest)) {lines : List Text}
    (hcall : dispatchOutput b chunk = some (lines, false, b')) : Along P b' rest := by
  have hrest := h.2
  rw [hcall] at hrest
  exact hrest

/-- A read that delivers something, as much as the buffer has room for. -/
def Fits (b : Outbuf) (chunk : Text) : Prop := chunk ≠ [] ∧ b.start + chunk.length ≤ capacity

instance (b : Outbuf) (chunk : Text) : Decidable (Fits b chunk) := inferInstanceAs (Decidable (_ ∧ _))

/-- A read after which no line has a zero byte and what follows the first line can be moved. -/
def Lossless (b : Outbuf) (chunk : Text) : Prop := NoNul (b.kept ++ chunk) ∧ Roomy (b.kept ++ chunk)

instance (b : Outbuf) (chunk : Text) : Decidable (Lossless b chunk) :=
  inferInstanceAs (Decidable (_ ∧ _))

theorem dispatchOutput_spec {b : Outbuf} (h : Sized b) {chunk : Text} (hfits : Fits b chunk)
    (hlossless : Lossless b chunk) : ∃ last b', dispatchOutput b chunk =
        some (upToEmpty (finished (b.kept ++ chunk)), last, b') ∧
      Leaves (b.kept ++ chunk) last b' := by
  have hspec := lineLoop_spec ((b.read chunk).start + 1) (b.read chunk) (h.read hfits.2)
    (Nat.lt_succ_self _)
  rw [read_kept h] at hspec
  exact hspec hlossless.1 hlossless.2

theorem readAll_spec (chunks : List Text) : ∀ b : Outbuf, Sized b → '\n' ∉ b.kept →
    Along Fits b chunks → Along Lossless b chunks → ∃ last b',
      readAll b chunks = some (upToEmpty (finished (b.kept ++ chunks.flatten)), last, b') ∧
      Leaves (b.kept ++ chunks.flatten) last b' := by
  induction chunks with
  | nil =>
      intro b hsized hrest _ _
      rw [List.flatten_nil, List.append_nil, finished_of_not_mem hrest]
      refine ⟨false, b, rfl, hsized, ?_, fun _ => (restOf_of_not_mem hrest).symm⟩
      rw [finished_of_not_mem hrest]
      simp
  | cons chunk rest ih =>
      intro b hsized hrest hfits hlossless
      obtain ⟨last, b', hcall, hleaves⟩ := dispatchOutput_spec hsized hfits.1 hlossless.1
      rw [List.flatten_cons, ← List.append_assoc, finished_append]
      cases last with
      | true =>
          have hmem := hleaves.empty.mp rfl
          refine ⟨true, b', ?_, hleaves.sized, ?_, fun hcon => by cases hcon⟩
          · rw [readAll, hcall, upToEmpty_of_mem hmem]
          · rw [finished_append]
            exact iff_of_true rfl (List.mem_append_left _ hmem)
      | false =>
          have hnotmem : [] ∉ finished (b.kept ++ chunk) := fun hmem => by
            cases hleaves.empty.mpr hmem
          have hkept := hleaves.kept rfl
          obtain ⟨last, b'', hrun, hleaves'⟩ := ih b' hleaves.sized
            (by rw [hkept]; exact not_mem_restOf _) (hfits.rest hcall) (hlossless.rest hcall)
          rw [hkept] at hrun hleaves'
          refine ⟨last, b'', ?_, hleaves'.sized, ?_, fun h => ?_⟩
          · rw [readAll, hcall]
            dsimp only
            rw [hrun, upToEmpty_of_not_mem hnotmem, upToEmpty_eq_self hnotmem]
            rfl
          · rw [hleaves'.empty, finished_append (b.kept ++ chunk), List.mem_append,
              or_iff_right hnotmem]
          · rw [hleaves'.kept h, restOf_append (b.kept ++ chunk)]

/--
The strings `received_line` is called with are the finished lines of the stream up to the first
empty one, and before that one comes the buffer keeps the unfinished rest.
-/
def Faithful (junk : Text) (chunks : List Text) : Prop :=
  ∃ last b, readAll ⟨junk, 0⟩ chunks = some (upToEmpty (finished chunks.flatten), last, b) ∧
    (last = true ↔ [] ∈ finished chunks.flatten) ∧
    (last = false → b.kept = restOf chunks.flatten)

/-- Memory as it may come from `malloc`. -/
def fresh : Text := List.replicate capacity '?'

/-- Two lines and the empty one in two reads, cut in the middle of the second line. -/
def twoReads : List Text := ["address 1.2.3.4\nadd".toList, "ress 1.2.3.5\n\n".toList]

/-- A short line with 998 bytes behind it, and the end of the second line in a read of its own. -/
def crowded : List Text :=
  ["a\n".toList ++ List.replicate 600 'b' ++ List.replicate 398 'c', "\n".toList]

/-- The 24 bytes that are free are all that is moved, and the second line is not what it was. -/
theorem crowded_lines :
    (readAll ⟨fresh, 0⟩ crowded).map (·.1) =
      some ["a".toList, List.replicate 602 'b' ++ List.replicate 396 'c'] ∧
    upToEmpty (finished crowded.flatten) =
      ["a".toList, List.replicate 600 'b' ++ List.replicate 398 'c'] := by
  decide +kernel

end Netresolve.Exec
