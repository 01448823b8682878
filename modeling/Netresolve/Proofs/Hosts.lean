/-
What is read from the hosts file.

`itemsOf` says on the string itself what `read_item` does in memory.  After each piece `read_item`
is also called for what is left in the buffer.  If nothing is left, it finds the string of the line
before, of which its first call has kept the address only.  If a comment has begun, the string ends
where it has to, and the names are cut off for good when they are added.  Otherwise the line is not
finished and not terminated: names may be cut short, and bytes of older lines be taken for names.
-/
import Netresolve.Backends.Hosts

namespace Netresolve.Hosts

open CString Lines
open ServiceFile (blank)

variable (lits : Literals)

/-! ### A line -/

/-- `read_item`, on the string. -/
def itemsOf (line : Text) : List Item :=
  match words blank line with
  | [] => []
  | string :: names =>
      match parseAddress lits (some string) with
      | none => []
      | some address => addNodes address names

theorem itemsOf_nil : itemsOf lits [] = [] := rfl

/-- A string with one token has no names in it. -/
theorem itemsOf_firstToken (line : Text) : itemsOf lits (firstToken blank line) = [] := by
  unfold itemsOf
  rw [words_firstToken]
  cases words blank line with
  | nil => rfl
  | cons string names =>
      dsimp only [List.take_succ_cons, List.take_zero]
      cases parseAddress lits (some string) with
      | none => rfl
      | some address => rfl

/-- What one call adds, and what it does to memory. -/
structure Does (memory : Text) (result : List Item × Text) : Prop where
  items : result.1 = itemsOf lits (cstring memory)
  behind : ∀ n, (cstring memory).length ≤ n → result.2.drop n = memory.drop n
  wiped : Wiped memory result.2
  again : itemsOf lits (cstring result.2) = []

theorem readItem_does (memory : Text) : Does lits memory (readItem lits memory) := by
  obtain ⟨behind, hmemory, hends, hstart⟩ := within_start memory
  obtain ⟨hstring, hafter⟩ := hstart.strtok blank rfl hends
  have hwiped := strtok_wiped blank ⟨[], memory⟩
  obtain ⟨hfirst, hall⟩ := @cstring_strtok blank rfl memory _ (Nat.lt_succ_self _)
  unfold readItem
  rcases hcall : Tape.strtok blank ⟨[], memory⟩ with ⟨string, t⟩
  rw [hcall] at hstring hafter hwiped hfirst hall
  have hbehind : ∀ {t text}, Within (cstring memory) behind t text →
      ∀ n, (cstring memory).length ≤ n → t.memory.drop n = memory.drop n := by
    intro t text ht n hn
    rw [ht.drop hn, ← hmemory]
  have hitems := @words_eq_split blank (cstring memory)
  cases hsplit : splitToken blank (cstring memory) with
  | none =>
      rw [hsplit] at hstring hitems
      subst hstring
      refine ⟨?_, hbehind hafter, hwiped, ?_⟩
      · unfold itemsOf
        rw [hitems]
        rfl
      · show itemsOf lits (cstring t.memory) = []
        rw [show cstring t.memory = _ from hfirst]
        exact itemsOf_firstToken lits _
  | some split =>
      obtain ⟨token, rest⟩ := split
      rw [hsplit] at hstring hitems
      rw [hsplit, Option.map_some, Option.getD_some] at hafter
      subst hstring
      dsimp only [Option.map_some] at hitems ⊢
      cases haddress : parseAddress lits (some token) with
      | none =>
          refine ⟨?_, hbehind hafter, hwiped, ?_⟩
          · unfold itemsOf
            rw [hitems]
            dsimp only
            rw [haddress]
          · show itemsOf lits (cstring t.memory) = []
            rw [show cstring t.memory = _ from hfirst]
            exact itemsOf_firstToken lits _
      | some address =>
          have hfuel : rest.length < t.after.length + 1 := by
            rw [hafter.after, List.length_append]
            exact Nat.lt_succ_of_le (Nat.le_add_right _ _)
          obtain ⟨hnames, hend⟩ := hafter.tokens blank rfl hends hfuel
          refine ⟨?_, hbehind hend, hwiped.trans (tokens_wiped blank _ t), ?_⟩
          · unfold itemsOf
            rw [hitems]
            dsimp only
            rw [haddress, hnames]
          · show itemsOf lits (cstring (t.tokens blank (t.after.length + 1)).2.memory) = []
            rw [show cstring (t.tokens blank (t.after.length + 1)).2.memory = _ from hall]
            exact itemsOf_firstToken lits _

theorem readItem_contained : Contained (ε := Empty) (fun line => .ok (itemsOf lits line))
    (fun line => .ok (readItem lits line)) := by
  constructor
  · intro memory e
    exact e.elim
  · intro memory out h
    have hdoes := readItem_does lits memory
    obtain rfl : itemsOf lits (cstring memory) = out := Except.ok.inj h
    exact ⟨(readItem lits memory).2, congrArg Except.ok (Prod.ext hdoes.items rfl), hdoes.behind⟩

/-! ### The lines of the file -/

/-- The items of a line, which ends where its comment begins. -/
def lineItems (line : Text) : List Item := itemsOf lits (line.takeWhile (· ≠ '#'))

/-- The items of all lines. -/
def entries (content : Text) : List Item := (linesOf content).flatMap (lineItems lits)

/-- The items `read_item` finds in the lines; a zero byte ends a line for it. -/
def due (content : Text) : List Item :=
  (linesOf content).flatMap fun line => itemsOf lits (cut line)

theorem collect_items (lines : List Text) :
    collect (ε := Empty) (fun line => .ok (itemsOf lits (cstring line))) lines =
      .ok (lines.flatMap fun line => itemsOf lits (cstring line)) := by
  induction lines with
  | nil => rfl
  | cons line lines ih =>
      rw [collect, ih, List.flatMap_cons]
      rfl

theorem due_eq (text : Text) : due lits text =
    ((finished text).flatMap fun line => itemsOf lits (cut line)) ++
      itemsOf lits (cut (restOf text)) := by
  unfold due
  rw [linesOf_eq, List.flatMap_append, List.flatMap_singleton]

theorem due_append (text more : Text) : due lits (text ++ more) =
    ((finished text).flatMap fun line => itemsOf lits (cut line)) ++
      due lits (restOf text ++ more) := by
  unfold due
  rw [linesOf_append, List.flatMap_append]

/-- The comment of a line hides what follows. -/
theorem cut_append {line : Text} (h : '#' ∈ line) (more : Text) :
    cut (line ++ more) = cut line := by
  unfold cut
  rw [List.takeWhile_append, if_neg]
  intro hall
  have hmem := (List.takeWhile_prefix fun c => c ≠ '#' && c ≠ nul).eq_of_length hall ▸ h
  simpa using List.mem_takeWhile_imp hmem

/-! ### Between the pieces -/

/-- Nothing is left to be masked. -/
def Clean (kept : Text) : Prop := '#' ∉ kept ∧ '\n' ∉ kept

theorem Clean.map_mask {kept : Text} (h : Clean kept) : kept.map mask = kept := by
  refine (List.map_congr_left fun c hc => ?_).trans (List.map_id kept)
  exact if_neg fun heq : c = '#' => h.1 (heq ▸ hc)

theorem clean_mask {text : Text} (h : '\n' ∉ text) : Clean (text.map mask) := by
  refine ⟨fun hmem => ?_, mt newline_mem_mask.mp h⟩
  obtain ⟨c, -, heq⟩ := List.mem_map.mp hmem
  unfold mask at heq
  split at heq
  · cases heq
  · next hc => exact hc heq

/--
The buffer has an unfinished line in it with all of its names added already.  Its string is the
address alone.
-/
structure Held (consumed : Text) (b : Buffer) : Prop where
  length : b.kept.length = (restOf consumed).length
  clean : Clean b.kept
  hidden : restOf consumed ≠ [] → '#' ∈ restOf consumed
  ended : restOf consumed ≠ [] → nul ∈ b.kept
  added : itemsOf lits (cstring b.kept) = []

/-- A place in the file where no line is open, or one whose comment has begun. -/
def Settled (stop : Text) : Prop := restOf stop = [] ∨ '#' ∈ restOf stop

/--
What the scan returns and keeps: all that is due, but for the line it keeps.
-/
structure Scanned (consumed piece : Text) (out : List Item) (kept : Text) : Prop where
  length : kept.length = (restOf (consumed ++ piece)).length
  clean : Clean kept
  ended : '#' ∈ restOf (consumed ++ piece) → nul ∈ kept
  items : due lits (consumed ++ piece) = due lits consumed ++ out ++ itemsOf lits (cstring kept)

/-- Lines that the buffer has the whole of. -/
theorem scanned_whole {consumed piece whole : Text}
    (hrest : restOf (consumed ++ piece) = restOf whole)
    (hdue : due lits (consumed ++ piece) = due lits consumed ++ due lits whole) :
    Scanned lits consumed piece
      ((finished (whole.map mask)).flatMap fun line => itemsOf lits (cstring line))
      (restOf (whole.map mask)) := by
  rw [restOf_mask]
  constructor
  · rw [List.length_map, hrest]
  · exact clean_mask (not_mem_restOf whole)
  · intro hhash
    rw [hrest] at hhash
    exact List.mem_map.mpr ⟨'#', hhash, rfl⟩
  · have hmask : ∀ lines : List Text,
        (lines.map (List.map mask)).flatMap (fun line => itemsOf lits (cstring line)) =
          lines.flatMap fun line => itemsOf lits (cut line) := by
      intro lines
      rw [List.flatMap_map]
      exact congrArg (List.flatMap · lines) (funext fun line => congrArg _ (cstring_mask line))
    rw [hdue, due_eq lits whole, finished_mask, hmask, cstring_mask, List.append_assoc]

theorem Held.scanned {consumed : Text} {b : Buffer} (h : Held lits consumed b) (piece : Text) :
    Scanned lits consumed piece
      ((finished ((b.kept ++ piece).map mask)).flatMap fun line => itemsOf lits (cstring line))
      (restOf ((b.kept ++ piece).map mask)) := by
  by_cases hrest : restOf consumed = []
  · have hkept : b.kept = [] := by
      have hlength := h.length
      rw [hrest] at hlength
      exact List.eq_nil_of_length_eq_zero hlength
    rw [hkept, List.nil_append]
    refine scanned_whole lits ?_ ?_
    · rw [restOf_append, hrest, List.nil_append]
    · rw [due_append, due_eq lits consumed, hrest, List.nil_append]
      show _ = _ ++ itemsOf lits [] ++ _
      rw [itemsOf_nil, List.append_nil]
  · -- the line is open, and nothing that follows it is seen
    have hhash := h.hidden hrest
    have hnul := h.ended hrest
    have hclean : (b.kept ++ piece).map mask = b.kept ++ piece.map mask := by
      rw [List.map_append, h.clean.map_mask]
    have hopen : ∀ more, cstring (b.kept ++ more) = cstring b.kept :=
      cstring_append_of_mem hnul
    rcases line_cases piece with hpiece | ⟨line, rest, rfl, hline⟩
    · have hnew := List.not_mem_append h.clean.2 (mt newline_mem_mask.mp hpiece)
      have hnew' := List.not_mem_append (not_mem_restOf consumed) hpiece
      rw [hclean, finished_of_not_mem hnew, restOf_of_not_mem hnew]
      constructor
      · rw [restOf_append, restOf_of_not_mem hnew', List.length_append, List.length_append,
          List.length_map, h.length]
      · exact ⟨List.not_mem_append h.clean.1 (clean_mask hpiece).1, hnew⟩
      · exact fun _ => List.mem_append_left _ hnul
      · rw [hopen, h.added, List.flatMap_nil, List.append_nil, List.append_nil, due_append,
          due_eq lits consumed, due_eq lits (restOf consumed ++ piece), finished_of_not_mem hnew',
          restOf_of_not_mem hnew', cut_append hhash]
        rfl
    · have hnew := List.not_mem_append h.clean.2 (mt newline_mem_mask.mp hline)
      have hnew' := List.not_mem_append (not_mem_restOf consumed) hline
      have hmask : mask '\n' = '\n' := rfl
      rw [hclean, List.map_append, List.map_cons, hmask, ← List.append_assoc,
        finished_newline hnew, restOf_newline hnew, List.flatMap_cons, hopen, h.added,
        List.nil_append]
      refine scanned_whole lits ?_ ?_
      · rw [restOf_append, ← List.append_assoc, restOf_newline hnew']
      · have hfirst : due lits (restOf consumed ++ line ++ '\n' :: rest) =
            itemsOf lits (cut (restOf consumed)) ++ due lits rest := by
          unfold due
          rw [linesOf_newline hnew', List.flatMap_cons, cut_append hhash]
        rw [due_append, ← List.append_assoc, hfirst, due_eq lits consumed, List.append_assoc]

/-- The call behind the scan, with nothing left in the buffer. -/
theorem readRest_empty {memory : Text} (h : itemsOf lits (cstring memory) = []) :
    ∃ stale, readRest lits ⟨[], memory⟩ = ([], ⟨[], stale⟩) := by
  have hdoes := readItem_does lits memory
  refine ⟨(readItem lits memory).2, ?_⟩
  unfold readRest
  refine Prod.ext (hdoes.items.trans h) ?_
  show (⟨(readItem lits memory).2.take 0, (readItem lits memory).2.drop 0⟩ : Buffer) = _
  rw [List.take_zero, List.drop_zero]

/-- The call behind the scan, with a line whose comment has begun. -/
theorem readRest_ended {kept : Text} (stale : Text) (hnul : nul ∈ kept) (hclean : Clean kept) :
    ∃ b, readRest lits ⟨kept, stale⟩ = (itemsOf lits (cstring kept), b) ∧
      b.kept.length = kept.length ∧ Clean b.kept ∧ nul ∈ b.kept ∧
      itemsOf lits (cstring b.kept) = [] := by
  have hdoes := readItem_does lits (kept ++ stale)
  have hitems := hdoes.items
  rw [cstring_append_of_mem hnul] at hitems
  have htake := hdoes.wiped.take kept.length
  rw [List.take_left] at htake
  have hended := htake.nul_mem hnul
  refine ⟨_, Prod.ext hitems rfl, htake.length, ⟨fun hmem => ?_, fun hmem => ?_⟩, hended, ?_⟩
  · rcases htake.mem hmem with hmem | heq
    · exact hclean.1 hmem
    · cases heq
  · rcases htake.mem hmem with hmem | heq
    · exact hclean.2 hmem
    · cases heq
  · have hsame := cstring_append_of_mem hended
      ((readItem lits (kept ++ stale)).2.drop kept.length)
    rw [List.take_append_drop] at hsame
    show itemsOf lits (cstring ((readItem lits (kept ++ stale)).2.take kept.length)) = []
    rw [← hsame]
    exact hdoes.again

/-- A turn of the loop, up to a place where no line is open without a comment. -/
theorem Held.turn {consumed piece : Text} {b : Buffer} (h : Held lits consumed b)
    (hpiece : piece ≠ []) (hstop : Settled (consumed ++ piece)) : ∃ more b',
    turn (ε := Empty) (fun line => .ok (readItem lits line)) (fun b => .ok (readRest lits b)) b
        piece = .ok (more, b') ∧
      due lits (consumed ++ piece) = due lits consumed ++ more ∧
      Held lits (consumed ++ piece) b' := by
  have hscanned := h.scanned lits piece
  have hspec := readPiece_spec (readItem_contained lits) b piece
  rw [collect_items] at hspec
  obtain ⟨stale, hread, hleft⟩ := hspec
  generalize hout : ((finished ((b.kept ++ piece).map mask)).flatMap fun line =>
    itemsOf lits (cstring line)) = out at hscanned hread
  generalize hkept : restOf ((b.kept ++ piece).map mask) = kept at hscanned hread hleft
  have hturn : ∀ {rest b'}, readRest lits ⟨kept, stale⟩ = (rest, b') →
      Lines.turn (ε := Empty) (fun line => .ok (readItem lits line))
        (fun b => .ok (readRest lits b)) b piece = .ok (out ++ rest, b') := by
    intro rest b' hrest
    unfold Lines.turn
    rw [hread]
    show (Except.ok (out ++ (readRest lits ⟨kept, stale⟩).1, (readRest lits ⟨kept, stale⟩).2) :
      Except (Stop Empty) (List Item × Buffer)) = _
    rw [hrest]
  rcases hstop with hempty | hhash
  · -- nothing is left, and the memory is as the last line left it
    obtain rfl : kept = [] := by
      refine List.eq_nil_of_length_eq_zero (hscanned.length.trans ?_)
      rw [hempty, List.length_nil]
    have hnew : '\n' ∈ b.kept ++ piece := by
      by_contra hnone
      have hnone' : '\n' ∉ (b.kept ++ piece).map mask := mt newline_mem_mask.mp hnone
      rw [restOf_of_not_mem hnone', List.map_eq_nil_iff, List.append_eq_nil_iff] at hkept
      exact hpiece hkept.2
    obtain ⟨memory, out', hitem⟩ := hleft hnew rfl
    have hagain : itemsOf lits (cstring stale) = [] := by
      have hdoes := (readItem_does lits memory).again
      rw [Except.ok.inj hitem] at hdoes
      exact hdoes
    obtain ⟨stale', hrest⟩ := readRest_empty lits hagain
    refine ⟨out ++ [], _, hturn hrest, ?_, ?_⟩
    · rw [hscanned.items, List.append_nil]
      show _ ++ itemsOf lits [] = _
      rw [itemsOf_nil, List.append_nil]
    · exact ⟨hscanned.length, hscanned.clean, fun hne => absurd hempty hne,
        fun hne => absurd hempty hne, itemsOf_nil lits⟩
  · obtain ⟨b', hrest, hlength, hclean, hnul, hadded⟩ :=
      readRest_ended lits stale (hscanned.ended hhash) hscanned.clean
    refine ⟨_, b', hturn hrest, ?_, ?_⟩
    · rw [hscanned.items, List.append_assoc]
    · exact ⟨hlength.trans hscanned.length, hclean, fun _ => hhash, fun _ => hnul, hadded⟩

theorem held_kept : Lines.Kept (ε := Empty) (fun line => .ok (readItem lits line))
    (fun b => .ok (readRest lits b)) Settled (fun content => .ok (due lits content))
    fun consumed out b => Held lits consumed b ∧ out = due lits consumed where
  length hinv := hinv.1.length
  paid hinv := by rw [hinv.2]
  fails {consumed e} _ _ := e.elim
  stop {consumed out b piece e} _ _ _ _ := e.elim
  step {consumed out b piece all} hinv hpiece hstop hall := by
    obtain ⟨more, b', hturn, hdue, hheld⟩ := hinv.1.turn lits hpiece hstop
    have hall' := Except.ok.inj hall
    refine ⟨more, b', hturn, ?_, hheld, hall'.symm⟩
    rw [← hall', hdue, hinv.2]

/-! ### The whole file -/

theorem cut_of_free {line : Text} (h : nul ∉ line.takeWhile (· ≠ '#')) :
    cut line = line.takeWhile (· ≠ '#') := by
  unfold cut
  induction line with
  | nil => rfl
  | cons c line ih =>
      by_cases hc : c = '#'
      · subst hc
        rfl
      · have hpos : decide (c ≠ '#') = true := decide_eq_true hc
        rw [List.takeWhile_cons, if_pos hpos, List.mem_cons, not_or] at h
        have hboth : (decide (c ≠ '#') && decide (c ≠ nul)) = true := by
          rw [hpos, Bool.true_and]
          exact decide_eq_true (Ne.symm h.1)
        rw [List.takeWhile_cons, List.takeWhile_cons, if_pos hpos, if_pos hboth, ih h.2]

/--
**If no piece ends in a line whose comment has not begun, the list has the items of all lines.**
-/
theorem read_list_entries (choice : Nat → Nat) (memory content : Text)
    (hlines : ∀ line ∈ linesOf content, line.length ≤ 1023)
    (hfree : ∀ line ∈ linesOf content, nul ∉ line.takeWhile (· ≠ '#'))
    (hstops : ∀ stop ∈ stops 1024 choice (content.length + 1) [] content, Settled stop) :
    ∀ fuel, content.length < fuel → readList lits choice memory fuel (some content) =
      .ok (entries lits content ++ [terminator]) := by
  intro fuel hfuel
  have hstart : Held lits [] ⟨[], memory⟩ :=
    ⟨rfl, ⟨List.not_mem_nil, List.not_mem_nil⟩, fun hne => absurd rfl hne,
      fun hne => absurd rfl hne, itemsOf_nil lits⟩
  have hloop := (held_kept lits).readLoop 1024 choice fuel hfuel ⟨hstart, rfl⟩
    (fun line hline => Nat.lt_succ_of_le (hlines line hline)) ?_
  · obtain ⟨rest, hrun, hall⟩ := hloop
    have hentries : due lits content = entries lits content := by
      refine List.flatMap_congr fun line hline => ?_
      rw [lineItems, cut_of_free (hfree line hline)]
    rw [List.nil_append, hentries] at hall
    unfold readList
    dsimp only
    rw [show readLoop _ _ 1024 choice fuel 0 content ⟨[], memory⟩ = _ from hrun, hall]
    rfl
  · rw [stops_fuel 1024 choice fuel _ [] hfuel (Nat.lt_succ_self _)]
    exact hstops

/-- The addresses of the two files below. -/
def someLits : Literals where
  inetPton family text :=
    if family = AF_INET ∧ text = "1.2.3.4".toList then some [1, 2, 3, 4] else none
  ifNametoindex _ := 0

/-- A file in two pieces, of which the first ends in a comment. -/
def commented : Text := "# names\n1.2.3.4 a bc # comment\n".toList

theorem read_list_commented :
    ((∀ line ∈ linesOf commented, line.length ≤ 1023) ∧
      (∀ line ∈ linesOf commented, nul ∉ line.takeWhile (· ≠ '#')) ∧
      ∀ stop ∈ stops 1024 (fun offset => if offset = 0 then 25 else 1024) (commented.length + 1) []
        commented, Settled stop) ∧
    entries someLits commented = [⟨some "a".toList, AF_INET, [1, 2, 3, 4], 0⟩,
      ⟨some "bc".toList, AF_INET, [1, 2, 3, 4], 0⟩] ∧
    ∀ fuel, commented.length < fuel →
      readList someLits (fun offset => if offset = 0 then 25 else 1024) (List.replicate 1024 nul)
        fuel (some commented) = .ok (entries someLits commented ++ [terminator]) := by
  have hlines : ∀ line ∈ linesOf commented, line.length ≤ 1023 := by decide
  have hfree : ∀ line ∈ linesOf commented, nul ∉ line.takeWhile (· ≠ '#') := by decide
  have hstops : ∀ stop ∈ stops 1024 (fun offset => if offset = 0 then 25 else 1024)
      (commented.length + 1) [] commented, Settled stop := by
    unfold Settled
    decide
  exact ⟨⟨hlines, hfree, hstops⟩, by decide,
    read_list_entries someLits _ _ commented hlines hfree hstops⟩

/-- A name that is read in two pieces is cut short. -/
theorem read_list_cuts_name :
    (∀ line ∈ linesOf "1.2.3.4 abc\n".toList, line.length ≤ 1023) ∧
    entries someLits "1.2.3.4 abc\n".toList = [⟨some "abc".toList, AF_INET, [1, 2, 3, 4], 0⟩] ∧
    readList someLits (fun offset => if offset = 0 then 10 else 1024) (List.replicate 1024 nul) 13
        (some "1.2.3.4 abc\n".toList) =
      .ok [⟨some "ab".toList, AF_INET, [1, 2, 3, 4], 0⟩, terminator] ∧
    ¬ ∀ fuel, "1.2.3.4 abc\n".toList.length < fuel →
      readList someLits (fun offset => if offset = 0 then 10 else 1024) (List.replicate 1024 nul)
        fuel (some "1.2.3.4 abc\n".toList) =
          .ok (entries someLits "1.2.3.4 abc\n".toList ++ [terminator]) := by
  have hrun : readList someLits (fun offset => if offset = 0 then 10 else 1024)
      (List.replicate 1024 nul) 13 (some "1.2.3.4 abc\n".toList) =
        .ok [⟨some "ab".toList, AF_INET, [1, 2, 3, 4], 0⟩, terminator] := by decide +kernel
  have hentries : entries someLits "1.2.3.4 abc\n".toList =
      [⟨some "abc".toList, AF_INET, [1, 2, 3, 4], 0⟩] := by decide
  refine ⟨by decide, hentries, hrun, fun hall => ?_⟩
  have hwrong := hall 13 (by decide)
  rw [hrun, hentries] at hwrong
  exact absurd (Except.ok.inj hwrong) (by decide)

end Netresolve.Hosts
