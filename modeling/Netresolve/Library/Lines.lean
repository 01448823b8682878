/-
Reading a file line by line through a buffer.

The file comes in pieces, of any size that fits the free part of the buffer.  After each piece the
whole buffer is scanned: a comment sign becomes a zero byte, a line end does as well, and then the
string at the start of the buffer is handed to `item` and the bytes behind the line are moved to
the front.  An unfinished line stays in the buffer, and is scanned again after the next piece.

`item` may write to memory, as far as the string goes, and it may stop the program; `Contained` says
so, and that what it returns depends on the string.  Memory behind the bytes that were read holds
whatever was there before.
-/
import Netresolve.Library.CString

namespace Lines

open CString

variable {β ε : Type}

/-- The bytes that were read, and those behind them. -/
structure Buffer where
  kept : Text
  stale : Text
  deriving DecidableEq, Repr

def Buffer.memory (b : Buffer) : Text := b.kept ++ b.stale

/-- A loop that is cut off, or a program that is stopped by an item. -/
inductive Stop (ε : Type) where
  | fuel
  | fault (e : ε)
  deriving DecidableEq, Repr

/-- A comment sign becomes a zero byte. -/
def mask (c : Char) : Char := if c = '#' then nul else c

section

variable (item : Text → Except ε (List β × Text))

/--
The scan, with the bytes that were passed over, those that were not, and the memory behind them.
Each byte costs one unit of fuel.
-/
def scan : Nat → Text → Text → Text → Except (Stop ε) (List β × Buffer)
  | _, seen, [], stale => .ok ([], ⟨seen, stale⟩)
  | 0, _, _ :: _, _ => .error .fuel
  | fuel + 1, seen, c :: rest, stale =>
      if mask c = '\n' then
        match item (seen ++ nul :: rest ++ stale) with
        | .error e => .error (.fault e)
        | .ok taken =>
            let next := (taken.2.drop (seen.length + 1)).take rest.length
            (scan fuel [] next (taken.2.drop rest.length)).map fun more =>
              (taken.1 ++ more.1, more.2)
      else scan fuel (seen ++ [mask c]) rest stale

/-- The size of a piece: what the kernel likes, but no more than fits and at least one byte. -/
def pieceSize (choice free left : Nat) : Nat := max 1 (min choice (min free left))

/-- A piece is read and the buffer scanned. -/
def readPiece (b : Buffer) (piece : Text) : Except (Stop ε) (List β × Buffer) :=
  scan item (b.kept ++ piece).length [] (b.kept ++ piece) (b.stale.drop piece.length)

variable (after : Buffer → Except ε (List β × Buffer))

/-- One turn of the loop; `after` is what follows the scan. -/
def turn (b : Buffer) (piece : Text) : Except (Stop ε) (List β × Buffer) := do
  let scanned ← readPiece item b piece
  let more ← (after scanned.2).mapError .fault
  pure (scanned.1 ++ more.1, more.2)

/--
The loop, which ends with the file or with a full buffer.  The choice of the kernel may be another
one at each place of the file.
-/
def readLoop (capacity : Nat) (choice : Nat → Nat) :
    Nat → Nat → Text → Buffer → Except (Stop ε) (List β)
  | 0, _, _, _ => .error .fuel
  | fuel + 1, offset, left, b =>
      if b.kept.length = capacity ∨ left = [] then .ok []
      else do
        let size := pieceSize (choice offset) (capacity - b.kept.length) left.length
        let read ← turn item after b (left.take size)
        let rest ← readLoop capacity choice fuel (offset + size) (left.drop size) read.2
        pure (read.1 ++ rest)

end

/-! ### Lines -/

/-- The lines of a text; the last one is not finished. -/
def linesOf (text : Text) : List Text := text.splitOn '\n'

theorem linesOf_ne_nil (text : Text) : linesOf text ≠ [] := List.splitOn_ne_nil '\n' text

/-- The finished lines. -/
def finished (text : Text) : List Text := (linesOf text).dropLast

/-- The unfinished line. -/
def restOf (text : Text) : Text := (linesOf text).getLast (linesOf_ne_nil text)

theorem linesOf_eq (text : Text) : linesOf text = finished text ++ [restOf text] :=
  (List.dropLast_append_getLast (linesOf_ne_nil text)).symm

theorem linesOf_of_not_mem {text : Text} (h : '\n' ∉ text) : linesOf text = [text] :=
  List.splitOn_eq_singleton h

theorem linesOf_newline {line : Text} (h : '\n' ∉ line) (rest : Text) :
    linesOf (line ++ '\n' :: rest) = line :: linesOf rest :=
  List.splitOn_append_cons_self_of_not_mem h rest

theorem eq_of_linesOf {text : Text} (lines : List Text) (rest : Text)
    (h : linesOf text = lines ++ [rest]) : finished text = lines ∧ restOf text = rest := by
  unfold finished restOf
  simp [h]

theorem finished_of_not_mem {text : Text} (h : '\n' ∉ text) : finished text = [] :=
  (eq_of_linesOf [] text (linesOf_of_not_mem h)).1

theorem restOf_of_not_mem {text : Text} (h : '\n' ∉ text) : restOf text = text :=
  (eq_of_linesOf [] text (linesOf_of_not_mem h)).2

theorem finished_newline {line : Text} (h : '\n' ∉ line) (rest : Text) :
    finished (line ++ '\n' :: rest) = line :: finished rest := by
  refine (eq_of_linesOf (line :: finished rest) (restOf rest) ?_).1
  rw [linesOf_newline h, linesOf_eq rest, List.cons_append]

theorem restOf_newline {line : Text} (h : '\n' ∉ line) (rest : Text) :
    restOf (line ++ '\n' :: rest) = restOf rest := by
  refine (eq_of_linesOf (line :: finished rest) (restOf rest) ?_).2
  rw [linesOf_newline h, linesOf_eq rest, List.cons_append]

/-- A text has no line end, or it begins with a finished line. -/
theorem line_cases (text : Text) : '\n' ∉ text ∨
    ∃ line rest, text = line ++ '\n' :: rest ∧ '\n' ∉ line := by
  by_cases h : '\n' ∈ text
  · obtain ⟨line, rest, rfl, hline⟩ := List.eq_append_cons_of_mem h
    exact Or.inr ⟨line, rest, rfl, hline⟩
  · exact Or.inl h

/-- Induction over the lines of a text. -/
theorem line_induction {P : Text → Prop} (last : ∀ text, '\n' ∉ text → P text)
    (newline : ∀ line rest, '\n' ∉ line → P rest → P (line ++ '\n' :: rest)) (text : Text) :
    P text := by
  induction hn : text.length using Nat.strongRecOn generalizing text with
  | ind n ih =>
      rcases line_cases text with h | ⟨line, rest, rfl, hline⟩
      · exact last text h
      · refine newline line rest hline (ih rest.length ?_ rest rfl)
        rw [← hn, List.length_append, List.length_cons]
        omega

theorem not_mem_restOf (text : Text) : '\n' ∉ restOf text := by
  induction text using line_induction with
  | last text h =>
      rw [restOf_of_not_mem h]
      exact h
  | newline line rest h ih =>
      rw [restOf_newline h]
      exact ih

/-- Going on with a text goes on with its unfinished line. -/
theorem linesOf_append (text more : Text) :
    linesOf (text ++ more) = finished text ++ linesOf (restOf text ++ more) := by
  induction text using line_induction with
  | last text h =>
      rw [finished_of_not_mem h, restOf_of_not_mem h]
      rfl
  | newline line rest h ih =>
      rw [finished_newline h, restOf_newline h, List.append_assoc, List.cons_append,
        linesOf_newline h, ih]
      rfl

theorem finished_append (text more : Text) :
    finished (text ++ more) = finished text ++ finished (restOf text ++ more) := by
  refine (eq_of_linesOf _ (restOf (restOf text ++ more)) ?_).1
  rw [linesOf_append, linesOf_eq (restOf text ++ more), List.append_assoc]

theorem restOf_append (text more : Text) :
    restOf (text ++ more) = restOf (restOf text ++ more) := by
  refine (eq_of_linesOf (finished text ++ finished (restOf text ++ more)) _ ?_).2
  rw [linesOf_append, linesOf_eq (restOf text ++ more), List.append_assoc]

/-- The unfinished line begins one of the lines. -/
theorem restOf_prefix (text more : Text) :
    ∃ line ∈ linesOf (text ++ more), restOf text <+: line := by
  rw [linesOf_append]
  rcases line_cases more with h | ⟨line, rest, rfl, hline⟩
  · refine ⟨restOf text ++ more, List.mem_append_right _ ?_, List.prefix_append _ _⟩
    rw [linesOf_of_not_mem]
    · exact List.mem_singleton.mpr rfl
    · exact List.not_mem_append (not_mem_restOf text) h
  · refine ⟨restOf text ++ line, List.mem_append_right _ ?_, List.prefix_append _ _⟩
    rw [← List.append_assoc, linesOf_newline]
    · exact List.mem_cons_self
    · exact List.not_mem_append (not_mem_restOf text) hline

/-! ### Comments -/

theorem mask_eq_newline (c : Char) : mask c = '\n' ↔ c = '\n' := by
  unfold mask
  split
  · next h =>
      subst h
      decide
  · exact Iff.rfl

theorem mask_mask (c : Char) : mask (mask c) = mask c := by
  by_cases h : c = '#'
  · subst h
    rfl
  · have hmask : mask c = c := if_neg h
    rw [hmask, hmask]

theorem newline_mem_mask {text : Text} : '\n' ∈ text.map mask ↔ '\n' ∈ text := by
  rw [List.mem_map]
  constructor
  · rintro ⟨c, hc, heq⟩
    rw [(mask_eq_newline c).mp heq] at hc
    exact hc
  · exact fun h => ⟨'\n', h, rfl⟩

/-- A line without its comment, as a string. -/
def cut (line : Text) : Text := line.takeWhile fun c => c ≠ '#' && c ≠ nul

theorem cstring_mask (line : Text) : cstring (line.map mask) = cut line := by
  unfold cstring cut
  induction line with
  | nil => rfl
  | cons c line ih =>
      rw [List.map_cons, List.takeWhile_cons, List.takeWhile_cons, ih, mask]
      by_cases hc : c = '#'
      · simp [hc]
      · simp [hc]

theorem linesOf_mask (text : Text) :
    linesOf (text.map mask) = (linesOf text).map (List.map mask) := by
  induction text using line_induction with
  | last text h =>
      rw [linesOf_of_not_mem h, linesOf_of_not_mem (mt newline_mem_mask.mp h)]
      rfl
  | newline line rest h ih =>
      rw [linesOf_newline h, List.map_append, List.map_cons, List.map_cons, ← ih]
      exact linesOf_newline (mt newline_mem_mask.mp h) _

theorem finished_mask (text : Text) :
    finished (text.map mask) = (finished text).map (List.map mask) := by
  unfold finished
  rw [linesOf_mask, List.map_dropLast]

theorem restOf_mask (text : Text) : restOf (text.map mask) = (restOf text).map mask := by
  unfold restOf
  simp only [linesOf_mask, List.getLast_map]

/-! ### The scan -/

/-- What is due for the lines, up to the first that stops the program. -/
def collect (f : Text → Except ε (List β)) : List Text → Except ε (List β)
  | [] => .ok []
  | line :: lines => do
      let out ← f line
      let more ← collect f lines
      pure (out ++ more)

theorem collect_cons_ok_iff {f : Text → Except ε (List β)} {line : Text} {lines : List Text}
    {out : List β} : collect f (line :: lines) = .ok out ↔
      ∃ first more, f line = .ok first ∧ collect f lines = .ok more ∧ first ++ more = out := by
  rw [collect]
  constructor
  · intro h
    cases hline : f line with
    | error e =>
        rw [hline] at h
        cases h
    | ok first =>
        rw [hline] at h
        cases hlines : collect f lines with
        | error e =>
            rw [hlines] at h
            cases h
        | ok more =>
            rw [hlines] at h
            exact ⟨first, more, rfl, rfl, Except.ok.inj h⟩
  · rintro ⟨first, more, hline, hlines, rfl⟩
    rw [hline, hlines]
    rfl

theorem collect_cons_error_iff {f : Text → Except ε (List β)} {line : Text} {lines : List Text}
    {e : ε} : collect f (line :: lines) = .error e ↔
      f line = .error e ∨ (∃ first, f line = .ok first) ∧ collect f lines = .error e := by
  rw [collect]
  cases f line with
  | error e' =>
      refine ⟨Or.inl, ?_⟩
      rintro (h | ⟨⟨first, hfirst⟩, _⟩)
      · exact h
      · cases hfirst
  | ok first =>
      cases collect f lines with
      | error e' => exact ⟨fun h => Or.inr ⟨⟨first, rfl⟩, h⟩, fun h => (h.resolve_left nofun).2⟩
      | ok more => exact ⟨nofun, fun h => nomatch (h.resolve_left nofun).2⟩

theorem collect_append_error {f : Text → Except ε (List β)} {lines : List Text} {e : ε}
    (h : collect f lines = .error e) (more : List Text) : collect f (lines ++ more) = .error e := by
  induction lines with
  | nil => cases h
  | cons line lines ih =>
      rw [List.cons_append, collect_cons_error_iff]
      rcases collect_cons_error_iff.mp h with hline | ⟨hline, hlines⟩
      · exact Or.inl hline
      · exact Or.inr ⟨hline, ih hlines⟩

theorem collect_append_ok {f : Text → Except ε (List β)} {lines : List Text} {out : List β}
    (h : collect f lines = .ok out) (more : List Text) :
    collect f (lines ++ more) = (collect f more).map (out ++ ·) := by
  induction lines generalizing out with
  | nil =>
      cases h
      cases hmore : collect f more with
      | error e => exact hmore
      | ok rest => exact hmore
  | cons line lines ih =>
      obtain ⟨first, others, hline, hlines, rfl⟩ := collect_cons_ok_iff.mp h
      rw [List.cons_append, collect, hline, ih hlines]
      cases collect f more with
      | error e => rfl
      | ok rest => exact congrArg Except.ok (List.append_assoc first others rest).symm

theorem collect_ok_iff {f : Text → Except ε (List β)} {lines : List Text} :
    (∃ out, collect f lines = .ok out) ↔ ∀ line ∈ lines, ∃ out, f line = .ok out := by
  induction lines with
  | nil => exact ⟨fun _ line hline => absurd hline List.not_mem_nil, fun _ => ⟨[], rfl⟩⟩
  | cons line lines ih =>
      rw [List.forall_mem_cons, ← ih]
      constructor
      · rintro ⟨out, h⟩
        obtain ⟨first, more, hfirst, hmore, _⟩ := collect_cons_ok_iff.mp h
        exact ⟨⟨first, hfirst⟩, more, hmore⟩
      · rintro ⟨⟨first, hfirst⟩, more, hmore⟩
        exact ⟨first ++ more, collect_cons_ok_iff.mpr ⟨first, more, hfirst, hmore, rfl⟩⟩

/-- What the item returns depends on the string, and it writes to the string only. -/
structure Contained (f : Text → Except ε (List β)) (item : Text → Except ε (List β × Text)) :
    Prop where
  fails : ∀ {memory e}, f (cstring memory) = .error e → item memory = .error e
  takes : ∀ {memory out}, f (cstring memory) = .ok out →
    ∃ memory', item memory = .ok (out, memory') ∧
      ∀ n, (cstring memory).length ≤ n → memory'.drop n = memory.drop n

theorem cstring_append_cons_nul (seen rest : Text) :
    cstring (seen ++ nul :: rest) = cstring seen := by
  by_cases h : nul ∈ seen
  · exact cstring_append_of_mem h _
  · rw [cstring_append_nul h, cstring_of_not_mem h]

section

variable {f : Text → Except ε (List β)} {item : Text → Except ε (List β × Text)}

/-- After the item the bytes behind the line are as they were. -/
theorem Contained.line (h : Contained f item) (seen rest stale : Text) {out : List β}
    (hline : f (cstring seen) = .ok out) : ∃ memory',
    item (seen ++ nul :: rest ++ stale) = .ok (out, memory') ∧
      (memory'.drop (seen.length + 1)).take rest.length = rest := by
  have hstring : cstring (seen ++ nul :: rest ++ stale) = cstring seen := by
    rw [List.append_assoc, List.cons_append, cstring_append_cons_nul]
  obtain ⟨memory', hitem, hbehind⟩ := h.takes (hstring ▸ hline)
  refine ⟨memory', hitem, ?_⟩
  rw [hbehind, List.append_assoc, List.drop_length_add_append]
  · exact List.take_left
  · rw [hstring]
    exact ((List.takeWhile_prefix _).length_le).trans (Nat.le_succ _)

/-- The memory is as an item left it. -/
def Left (item : Text → Except ε (List β × Text)) (memory' : Text) : Prop :=
  ∃ memory out, item memory = .ok (out, memory')

/--
The scan hands the finished lines to the item and keeps the unfinished one.  If nothing is kept,
memory is as the item left it after the last line.
-/
theorem scan_spec (h : Contained f item) (fuel : Nat) : ∀ (seen rest stale : Text),
    '\n' ∉ seen → rest.length ≤ fuel →
    match collect (fun line => f (cstring line)) (finished (seen ++ rest.map mask)) with
    | .error e => scan item fuel seen rest stale = .error (.fault e)
    | .ok out => ∃ stale',
        scan item fuel seen rest stale = .ok (out, ⟨restOf (seen ++ rest.map mask), stale'⟩) ∧
        ('\n' ∈ rest → restOf (seen ++ rest.map mask) = [] → Left item stale') := by
  have hnil : ∀ (fuel : Nat) (seen stale : Text), '\n' ∉ seen →
      match collect (fun line => f (cstring line)) (finished (seen ++ [].map mask)) with
      | .error e => scan item fuel seen [] stale = .error (.fault e)
      | .ok out => ∃ stale',
          scan item fuel seen [] stale = .ok (out, ⟨restOf (seen ++ [].map mask), stale'⟩) ∧
          ('\n' ∈ ([] : Text) → restOf (seen ++ [].map mask) = [] → Left item stale') := by
    intro fuel seen stale hseen
    rw [List.map_nil, List.append_nil, finished_of_not_mem hseen, restOf_of_not_mem hseen]
    refine ⟨stale, ?_, fun hmem => absurd hmem List.not_mem_nil⟩
    cases fuel <;> rfl
  induction fuel with
  | zero =>
      intro seen rest stale hseen hle
      obtain rfl := List.eq_nil_of_length_eq_zero (Nat.le_zero.mp hle)
      exact hnil 0 seen stale hseen
  | succ fuel ih =>
      intro seen rest stale hseen hle
      cases rest with
      | nil => exact hnil (fuel + 1) seen stale hseen
      | cons c rest =>
          rw [List.length_cons] at hle
          by_cases hc : c = '\n'
          · -- a line ends: the item runs, and the scan starts again with the bytes behind the line
            subst hc
            have hmask : mask '\n' = '\n' := rfl
            rw [List.map_cons, hmask, finished_newline hseen, restOf_newline hseen, collect, scan,
              if_pos hmask]
            cases hline : f (cstring seen) with
            | error e =>
                have hstring : cstring (seen ++ nul :: rest ++ stale) = cstring seen := by
                  rw [List.append_assoc, List.cons_append, cstring_append_cons_nul]
                rw [h.fails (hstring ▸ hline)]
                rfl
            | ok out =>
                obtain ⟨memory', hitem, hnext⟩ := h.line seen rest stale hline
                rw [hitem]
                dsimp only
                rw [hnext]
                have hrest := ih [] rest (memory'.drop rest.length) List.not_mem_nil (by omega)
                rw [List.nil_append] at hrest
                cases hmore : collect (fun line => f (cstring line)) (finished (rest.map mask)) with
                | error e =>
                    rw [hmore] at hrest
                    rw [show scan item fuel [] rest (memory'.drop rest.length) = _ from hrest]
                    rfl
                | ok more =>
                    rw [hmore] at hrest
                    obtain ⟨stale', hscan, hleft⟩ := hrest
                    refine ⟨stale', ?_, fun _ hempty => ?_⟩
                    · rw [hscan]
                      rfl
                    · by_cases hmem : '\n' ∈ rest
                      · exact hleft hmem hempty
                      · rw [restOf_of_not_mem (mt newline_mem_mask.mp hmem),
                          List.map_eq_nil_iff] at hempty
                        subst hempty
                        have hsame : memory' = stale' := by
                          cases fuel <;>
                            exact congrArg (fun r => r.2.stale) (Except.ok.inj hscan)
                        exact ⟨_, out, hsame ▸ hitem⟩
          · have hmask : mask c ≠ '\n' := fun heq => hc ((mask_eq_newline c).mp heq)
            have hseen' : '\n' ∉ seen ++ [mask c] := by
              intro hmem
              rcases List.mem_append.mp hmem with hmem | hmem
              · exact hseen hmem
              · exact hmask (List.mem_singleton.mp hmem).symm
            have hrest := ih (seen ++ [mask c]) rest stale hseen' (by omega)
            rw [List.append_assoc, List.singleton_append] at hrest
            rw [List.map_cons, scan, if_neg hmask]
            cases hmore : collect (fun line => f (cstring line))
                (finished (seen ++ mask c :: rest.map mask)) with
            | error e =>
                rw [hmore] at hrest
                exact hrest
            | ok out =>
                rw [hmore] at hrest
                obtain ⟨stale', hscan, hleft⟩ := hrest
                exact ⟨stale', hscan, fun hmem => hleft (List.mem_of_ne_of_mem (Ne.symm hc) hmem)⟩

/-- A piece is scanned together with the unfinished line. -/
theorem readPiece_spec (h : Contained f item) (b : Buffer) (piece : Text) :
    match collect (fun line => f (cstring line)) (finished ((b.kept ++ piece).map mask)) with
    | .error e => readPiece item b piece = .error (.fault e)
    | .ok out => ∃ stale',
        readPiece item b piece = .ok (out, ⟨restOf ((b.kept ++ piece).map mask), stale'⟩) ∧
        ('\n' ∈ b.kept ++ piece → restOf ((b.kept ++ piece).map mask) = [] → Left item stale') :=
  scan_spec h _ [] (b.kept ++ piece) (b.stale.drop piece.length) List.not_mem_nil (Nat.le_refl _)

end

/-! ### The loop -/

theorem pieceSize_pos (choice free left : Nat) : 0 < pieceSize choice free left :=
  Nat.lt_of_lt_of_le Nat.zero_lt_one (Nat.le_max_left _ _)

theorem pieceSize_le (choice free : Nat) {left : Nat} (h : 0 < left) :
    pieceSize choice free left ≤ left :=
  Nat.max_le.mpr ⟨h, (Nat.min_le_right _ _).trans (Nat.min_le_right _ _)⟩

/-- What has been read after each piece. -/
def stops (capacity : Nat) (choice : Nat → Nat) : Nat → Text → Text → List Text
  | 0, _, _ => []
  | fuel + 1, consumed, left =>
      if left = [] then []
      else
        let size := pieceSize (choice consumed.length) (capacity - (restOf consumed).length)
          left.length
        (consumed ++ left.take size) ::
          stops capacity choice fuel (consumed ++ left.take size) (left.drop size)

theorem stops_fuel (capacity : Nat) (choice : Nat → Nat) (fuel : Nat) :
    ∀ (fuel' : Nat) (consumed : Text) {left : Text}, left.length < fuel → left.length < fuel' →
      stops capacity choice fuel consumed left = stops capacity choice fuel' consumed left := by
  induction fuel with
  | zero => exact fun _ _ _ h => absurd h (Nat.not_lt_zero _)
  | succ fuel ih =>
      intro fuel' consumed left h h'
      cases fuel' with
      | zero => exact absurd h' (Nat.not_lt_zero _)
      | succ fuel' =>
          rw [stops, stops]
          by_cases hleft : left = []
          · rw [if_pos hleft, if_pos hleft]
          · rw [if_neg hleft, if_neg hleft]
            have hpos := pieceSize_pos (choice consumed.length)
              (capacity - (restOf consumed).length) left.length
            have hlength := List.length_pos_iff.mpr hleft
            refine congrArg (List.cons _) (ih fuel' _ ?_ ?_) <;>
              rw [List.length_drop] <;> omega

/--
What holds between the pieces, with what has been read and returned so far: the buffer keeps as
much as the unfinished line has, what was due has been returned, and a piece adds what is due for
it, if it is a good place to stop at.
-/
structure Kept (item : Text → Except ε (List β × Text)) (after : Buffer → Except ε (List β × Buffer))
    (good : Text → Prop) (due : Text → Except ε (List β))
    (inv : Text → List β → Buffer → Prop) : Prop where
  length : ∀ {consumed out b}, inv consumed out b → b.kept.length = (restOf consumed).length
  paid : ∀ {consumed out b}, inv consumed out b → due consumed = .ok out
  fails : ∀ {consumed e} (more : Text), due consumed = .error e → due (consumed ++ more) = .error e
  stop : ∀ {consumed out b piece e}, inv consumed out b → piece ≠ [] → good (consumed ++ piece) →
    due (consumed ++ piece) = .error e → turn item after b piece = .error (.fault e)
  step : ∀ {consumed out b piece all}, inv consumed out b → piece ≠ [] → good (consumed ++ piece) →
    due (consumed ++ piece) = .ok all →
    ∃ more b', turn item after b piece = .ok (more, b') ∧ all = out ++ more ∧
      inv (consumed ++ piece) all b'

/-- If every line fits the buffer, the loop ends with the file, and has returned what is due. -/
theorem Kept.readLoop {item : Text → Except ε (List β × Text)}
    {after : Buffer → Except ε (List β × Buffer)} {good : Text → Prop}
    {due : Text → Except ε (List β)} {inv : Text → List β → Buffer → Prop}
    (h : Kept item after good due inv) (capacity : Nat) (choice : Nat → Nat) (fuel : Nat) :
    ∀ {consumed left : Text} {out : List β} {b : Buffer}, left.length < fuel → inv consumed out b →
      (∀ line ∈ linesOf (consumed ++ left), line.length < capacity) →
      (∀ stop ∈ stops capacity choice fuel consumed left, good stop) →
      match due (consumed ++ left) with
      | .error e =>
          readLoop item after capacity choice fuel consumed.length left b = .error (.fault e)
      | .ok all => ∃ rest,
          readLoop item after capacity choice fuel consumed.length left b = .ok rest ∧
            all = out ++ rest := by
  induction fuel with
  | zero =>
      intro consumed left out b hlt
      exact absurd hlt (Nat.not_lt_zero _)
  | succ fuel ih =>
      intro consumed left out b hlt hinv hlines hgood
      rw [Lines.readLoop]
      by_cases hleft : left = []
      · subst hleft
        rw [if_pos (Or.inr rfl), List.append_nil, h.paid hinv]
        exact ⟨[], rfl, (List.append_nil out).symm⟩
      · have hkept := h.length hinv
        have hroom : b.kept.length ≠ capacity := by
          obtain ⟨line, hline, hprefix⟩ := restOf_prefix consumed left
          have hshort := hlines line hline
          have hle := hprefix.length_le
          omega
        rw [if_neg fun hc => hc.elim hroom hleft, hkept]
        rw [stops, if_neg hleft] at hgood
        dsimp only at hgood ⊢
        generalize hsize : pieceSize (choice consumed.length)
          (capacity - (restOf consumed).length) left.length = size at hgood ⊢
        have hpos : 0 < size := hsize ▸ pieceSize_pos _ _ _
        have hle : size ≤ left.length := hsize ▸ pieceSize_le _ _ (List.length_pos_iff.mpr hleft)
        have hpiece : left.take size ≠ [] := by
          intro hnil
          rcases List.take_eq_nil_iff.mp hnil with hzero | hnil
          · omega
          · exact hleft hnil
        have hwhole : consumed ++ left.take size ++ left.drop size = consumed ++ left := by
          rw [List.append_assoc, List.take_append_drop]
        have hstop := hgood _ List.mem_cons_self
        cases hdue : due (consumed ++ left.take size) with
        | error e =>
            have hall := h.fails (left.drop size) hdue
            rw [hwhole] at hall
            rw [hall, h.stop hinv hpiece hstop hdue]
            rfl
        | ok all =>
            obtain ⟨more, b', hturn, rfl, hinv'⟩ := h.step hinv hpiece hstop hdue
            have htake : (consumed ++ left.take size).length = consumed.length + size := by
              rw [List.length_append, List.length_take, Nat.min_eq_left hle]
            have hshorter : (left.drop size).length < fuel := by
              rw [List.length_drop]
              omega
            have hrest := ih hshorter hinv' (by rw [hwhole]; exact hlines)
              fun stop hstop => hgood stop (List.mem_cons_of_mem _ hstop)
            rw [hwhole, htake] at hrest
            rw [hturn]
            cases hfinal : due (consumed ++ left) with
            | error e =>
                rw [hfinal] at hrest
                show (Lines.readLoop item after capacity choice fuel _ _ b' >>= fun rest =>
                  pure (more ++ rest)) = _
                rw [show Lines.readLoop item after capacity choice fuel _ _ b' = _ from hrest]
                rfl
            | ok final =>
                rw [hfinal] at hrest
                obtain ⟨rest, hloop, rfl⟩ := hrest
                refine ⟨more ++ rest, ?_, List.append_assoc out more rest⟩
                show (Lines.readLoop item after capacity choice fuel _ _ b' >>= fun rest =>
                  pure (more ++ rest)) = _
                rw [hloop]
                rfl

/-! ### What comes out -/

section

variable {item : Text → Except ε (List β × Text)} {P : β → Prop}

theorem scan_all (hitem : ∀ {memory out memory'}, item memory = .ok (out, memory') → ∀ x ∈ out, P x)
    (fuel : Nat) : ∀ {seen rest stale : Text} {out : List β} {b : Buffer},
      scan item fuel seen rest stale = .ok (out, b) → ∀ x ∈ out, P x := by
  have hnil : ∀ {fuel : Nat} {seen stale : Text} {out : List β} {b : Buffer},
      scan item fuel seen [] stale = .ok (out, b) → ∀ x ∈ out, P x := by
    intro fuel seen stale out b h x hx
    have hout : out = [] := by
      cases fuel <;> exact (congrArg Prod.fst (Except.ok.inj h)).symm
    rw [hout] at hx
    cases hx
  induction fuel with
  | zero =>
      intro seen rest stale out b h
      cases rest with
      | nil => exact hnil h
      | cons c rest => cases h
  | succ fuel ih =>
      intro seen rest stale out b h
      cases rest with
      | nil => exact hnil h
      | cons c rest =>
          rw [scan] at h
          split at h
          · cases hline : item (seen ++ nul :: rest ++ stale) with
            | error e =>
                rw [hline] at h
                cases h
            | ok taken =>
                rw [hline] at h
                dsimp only at h
                cases hmore : scan item fuel [] ((taken.2.drop (seen.length + 1)).take rest.length)
                    (taken.2.drop rest.length) with
                | error e =>
                    rw [hmore] at h
                    cases h
                | ok more =>
                    rw [hmore] at h
                    cases h
                    intro x hx
                    rcases List.mem_append.mp hx with hx | hx
                    · exact hitem hline x hx
                    · exact ih hmore x hx
          · exact ih h

/-- What holds of all that the item returns holds of all that the loop returns. -/
theorem readLoop_all
    (hitem : ∀ {memory out memory'}, item memory = .ok (out, memory') → ∀ x ∈ out, P x)
    (capacity : Nat) (choice : Nat → Nat) (fuel : Nat) :
    ∀ {offset : Nat} {left : Text} {b : Buffer} {out : List β},
      readLoop item (fun b => .ok ([], b)) capacity choice fuel offset left b = .ok out →
        ∀ x ∈ out, P x := by
  induction fuel with
  | zero =>
      intro offset left b out h
      cases h
  | succ fuel ih =>
      intro offset left b out h
      rw [readLoop] at h
      split at h
      · cases h
        exact fun x hx => absurd hx List.not_mem_nil
      · dsimp only at h
        generalize pieceSize (choice offset) (capacity - b.kept.length) left.length = size at h
        cases hread : readPiece item b (left.take size) with
        | error e =>
            unfold turn at h
            rw [hread] at h
            cases h
        | ok read =>
            unfold turn at h
            rw [hread] at h
            have hloop : (readLoop item (fun b => .ok ([], b)) capacity choice fuel (offset + size)
                (left.drop size) read.2 >>= fun rest => pure (read.1 ++ [] ++ rest)) = .ok out := h
            cases hrest : readLoop item (fun b => .ok ([], b)) capacity choice fuel (offset + size)
                (left.drop size) read.2 with
            | error e =>
                rw [hrest] at hloop
                cases hloop
            | ok rest =>
                rw [hrest] at hloop
                cases hloop
                intro x hx
                rw [List.append_nil] at hx
                rcases List.mem_append.mp hx with hx | hx
                · exact scan_all hitem _ hread x hx
                · exact ih hrest x hx

end

/-! ### Finished lines only -/

section

variable {f : Text → Except ε (List β)} {item : Text → Except ε (List β × Text)}

/-- What is due for the finished lines of a text. -/
def dueFinished (f : Text → Except ε (List β)) (text : Text) : Except ε (List β) :=
  collect (fun line => f (cut line)) (finished text)

theorem collect_mask (f : Text → Except ε (List β)) (lines : List Text) :
    collect (fun line => f (cstring line)) (lines.map (List.map mask)) =
      collect (fun line => f (cut line)) lines := by
  induction lines with
  | nil => rfl
  | cons line lines ih => rw [List.map_cons, collect, collect, ih, cstring_mask]

theorem map_mask_mask (text piece : Text) :
    (text.map mask ++ piece).map mask = (text ++ piece).map mask := by
  rw [List.map_append, List.map_append, List.map_map]
  refine congrArg (· ++ piece.map mask) (List.map_congr_left fun c _ => ?_)
  exact mask_mask c

theorem dueFinished_append {consumed piece : Text} {out : List β}
    (h : dueFinished f consumed = .ok out) : dueFinished f (consumed ++ piece) =
      (dueFinished f (restOf consumed ++ piece)).map (out ++ ·) := by
  unfold dueFinished at *
  rw [finished_append, collect_append_ok h]

/-- A turn of the loop with nothing behind the scan, for an unfinished line in the buffer. -/
theorem turn_finished (h : Contained f item) {consumed : Text} {b : Buffer}
    (hkept : b.kept = (restOf consumed).map mask) (piece : Text) :
    match dueFinished f (restOf consumed ++ piece) with
    | .error e => turn item (fun b => .ok ([], b)) b piece = .error (.fault e)
    | .ok more => ∃ b', turn item (fun b => .ok ([], b)) b piece = .ok (more, b') ∧
        b'.kept = (restOf (consumed ++ piece)).map mask := by
  have hspec := readPiece_spec h b piece
  rw [hkept, map_mask_mask, finished_mask, restOf_mask, collect_mask, ← restOf_append] at hspec
  unfold turn
  unfold dueFinished
  cases hdue : collect (fun line => f (cut line)) (finished (restOf consumed ++ piece)) with
  | error e =>
      rw [hdue] at hspec
      rw [show readPiece item b piece = _ from hspec]
      rfl
  | ok more =>
      rw [hdue] at hspec
      obtain ⟨stale', hread, -⟩ := hspec
      refine ⟨⟨(restOf (consumed ++ piece)).map mask, stale'⟩, ?_, rfl⟩
      rw [hread]
      show Except.ok (more ++ [], _) = _
      rw [List.append_nil]

theorem Contained.kept (h : Contained f item) : Kept item (fun b => .ok ([], b)) (fun _ => True)
    (dueFinished f) fun consumed out b =>
      b.kept = (restOf consumed).map mask ∧ dueFinished f consumed = .ok out where
  length hinv := by rw [hinv.1, List.length_map]
  paid hinv := hinv.2
  fails more hdue := by
    unfold dueFinished at *
    rw [finished_append]
    exact collect_append_error hdue _
  stop {consumed out b piece e} hinv _ _ hdue := by
    have hturn := turn_finished h hinv.1 piece
    rw [dueFinished_append hinv.2] at hdue
    cases hmore : dueFinished f (restOf consumed ++ piece) with
    | error e' =>
        rw [hmore] at hdue hturn
        cases hdue
        exact hturn
    | ok more =>
        rw [hmore] at hdue
        cases hdue
  step {consumed out b piece all} hinv _ _ hdue := by
    have hturn := turn_finished h hinv.1 piece
    have hall := hdue
    rw [dueFinished_append hinv.2] at hdue
    cases hmore : dueFinished f (restOf consumed ++ piece) with
    | error e' =>
        rw [hmore] at hdue
        cases hdue
    | ok more =>
        rw [hmore] at hdue hturn
        obtain ⟨b', hb', hkept⟩ := hturn
        exact ⟨more, b', hb', (Except.ok.inj hdue).symm, hkept, hall⟩

end

end Lines
