/-
What `netresolve_set_backend_string` installs.

At each character the loop has the complete tokens of the group it is in, and the array of the
backends of the groups before.  The cells up to the terminator are all that is known of the array:
the one behind it is left over from a backend that did not load, or has never been written.  The
end of the string closes the last token and the last group, as a separator does.
-/
import Netresolve.Core.BackendString

namespace Netresolve.BackendString

open CString

/-! ### What is expected -/

/-- The name of a backend, without the mark of a mandatory one. -/
def backendName (first : Text) : Text := if ['+'].isPrefixOf first then first.tail else first

/-- The backend of a group of tokens, unless the first is empty or it does not load. -/
def wanted (linker : Linker) (tokens : List Text) : Option Loaded :=
  match tokens with
  | [] => none
  | first :: _ =>
      if first = [] then none
      else (linker.dlopen (filename (backendName first))).map fun dlHandle =>
        { mandatory := ['+'].isPrefixOf first, settings := tokens, dlHandle }

/-- The groups of a string, and their tokens. -/
def groups (s : Text) : List (List Text) := (s.splitOn '|').map (·.splitOn ' ')

/-- The backends are those of the groups, and there is a terminator after every character. -/
structure Installs (linker : Linker) (variant : Option Dns.Variant) (s : Text) : Prop where
  backends : readBackends (setBackendString linker variant (some s)) =
    some ((groups s).filterMap (wanted linker))
  terminated : ∀ p, p <+: s →
    (readBackends (p.foldl (Scan.step linker) {}).backends).isSome = true

/-! ### The array -/

/-- The loop has these tokens of a group and these backends. -/
structure Holds (s : Scan) (tokens : List Text) (bs : List Loaded) : Prop where
  settings : s.settings.getD [] = tokens
  count : s.nbackends = bs.length
  array : s.backends = none ∧ bs = [] ∨
    ∃ rest, s.backends = some (bs.map Slot.backend ++ Slot.null :: rest)

theorem readSlots_append (bs : List Loaded) (rest : List Slot) :
    readSlots (bs.map Slot.backend ++ Slot.null :: rest) = some bs := by
  induction bs with
  | nil => rfl
  | cons b bs ih =>
      rw [List.map_cons, List.cons_append, readSlots, ih]
      rfl

theorem Holds.read {s : Scan} {tokens : List Text} {bs : List Loaded} (h : Holds s tokens bs) :
    readBackends s.backends = some bs := by
  rcases h.array with ⟨hnone, rfl⟩ | ⟨rest, hsome⟩
  · rw [hnone]
    rfl
  · rw [hsome]
    exact readSlots_append bs rest

/-- There is room for one more backend and the terminator. -/
theorem Holds.realloc {s : Scan} {tokens : List Text} {bs : List Loaded} (h : Holds s tokens bs) :
    ∃ x y, realloc s.backends (s.nbackends + 2) = bs.map Slot.backend ++ [x, y] := by
  rw [h.count]
  rcases h.array with ⟨hnone, rfl⟩ | ⟨rest, hsome⟩
  · rw [hnone]
    exact ⟨.uninitialized, .uninitialized, rfl⟩
  · have hlength : (bs.map Slot.backend).length = bs.length := List.length_map _
    unfold BackendString.realloc
    rw [hsome, Option.getD_some, List.take_append, hlength, List.length_append, hlength,
      List.take_of_length_le (by omega), Nat.add_sub_cancel_left]
    cases rest with
    | nil =>
        have hmore : bs.length + 2 - (bs.length + [Slot.null].length) = 1 := by
          rw [List.length_singleton]
          omega
        rw [hmore, List.append_assoc]
        exact ⟨.null, .uninitialized, rfl⟩
    | cons r rest =>
        have hmore : bs.length + 2 - (bs.length + (Slot.null :: r :: rest).length) = 0 := by
          rw [List.length_cons, List.length_cons]
          omega
        rw [hmore, List.append_assoc]
        exact ⟨.null, r, rfl⟩

/-! ### One step of the loop -/

theorem Holds.addSetting {s : Scan} {tokens : List Text} {bs : List Loaded}
    (h : Holds s tokens bs) : Holds s.addSetting (tokens ++ [s.token]) bs :=
  ⟨by rw [Scan.addSetting, Option.getD_some, h.settings], h.count, h.array⟩

theorem Holds.named {s : Scan} {tokens : List Text} {bs : List Loaded} (h : Holds s tokens bs) :
    s.named = if tokens.head?.getD [] = [] then none else some tokens := by
  obtain ⟨rfl, _, _⟩ := h
  unfold Scan.named
  cases s.settings with
  | none => rfl
  | some settings =>
      cases settings with
      | nil => rfl
      | cons first rest =>
          by_cases hfirst : first = []
          · simp [hfirst]
          · simp [hfirst]

theorem loadBackend_eq (linker : Linker) {tokens : List Text}
    (h : tokens.head?.getD [] ≠ []) : loadBackend linker tokens = wanted linker tokens := by
  cases tokens with
  | nil => rfl
  | cons first rest =>
      have hfirst : first ≠ [] := h
      unfold wanted
      dsimp only
      rw [if_neg hfirst]
      cases first with
      | nil => exact absurd rfl hfirst
      | cons c name =>
          unfold loadBackend backendName
          by_cases hc : c = '+'
          · subst hc
            rfl
          · have hne : ('+' == c) = false := beq_eq_false_iff_ne.mpr (Ne.symm hc)
            simp [hc, hne, List.isPrefixOf]

theorem wanted_of_unnamed (linker : Linker) {tokens : List Text}
    (h : tokens.head?.getD [] = []) : wanted linker tokens = none := by
  cases tokens with
  | nil => rfl
  | cons first rest =>
      have hfirst : first = [] := h
      exact if_pos hfirst

/-- A cell is written behind the backends there are. -/
theorem set_behind (bs : List Loaded) (slot x : Slot) (rest : List Slot) :
    (bs.map Slot.backend ++ x :: rest).set bs.length slot =
      bs.map Slot.backend ++ slot :: rest := by
  rw [List.set_append_right _ _ (by rw [List.length_map]), List.length_map, Nat.sub_self]
  rfl

/-- The end of a group. -/
theorem Holds.addBackend (linker : Linker) {s : Scan} {tokens : List Text} {bs : List Loaded}
    (h : Holds s tokens bs) :
    Holds (s.addBackend linker) [] (bs ++ (wanted linker tokens).toList) := by
  unfold Scan.addBackend
  rw [h.named]
  by_cases hunnamed : tokens.head?.getD [] = []
  · rw [if_pos hunnamed, wanted_of_unnamed linker hunnamed, Option.toList_none, List.append_nil]
    exact ⟨rfl, h.count, h.array⟩
  rw [if_neg hunnamed]
  obtain ⟨x, y, hslots⟩ := h.realloc
  dsimp only
  rw [loadBackend_eq linker hunnamed, hslots]
  cases wanted linker tokens with
  | none =>
      -- The terminator is written once more.
      refine ⟨rfl, ?_, Or.inr ⟨[y], ?_⟩⟩
      · rw [Option.toList_none, List.append_nil]
        exact h.count
      · dsimp only
        rw [Option.toList_none, List.append_nil, h.count, set_behind]
  | some b =>
      have hcells : bs.map Slot.backend ++ [Slot.backend b, y] =
          (bs ++ [b]).map Slot.backend ++ [y] := by
        rw [List.map_append, List.append_assoc]
        rfl
      have hcount : s.nbackends + 1 = (bs ++ [b]).length := by
        rw [h.count, List.length_append, List.length_singleton]
      refine ⟨rfl, hcount, Or.inr ⟨[], ?_⟩⟩
      dsimp only
      rw [hcount, h.count, set_behind, hcells, set_behind, Option.toList_some]

theorem addBackend_token (linker : Linker) (s : Scan) : (s.addBackend linker).token = s.token := by
  unfold Scan.addBackend
  split
  · rfl
  dsimp only
  split <;> rfl

/-- At every place the array can be read. -/
theorem scan_holds (linker : Linker) (p : Text) : ∀ {s : Scan} {tokens : List Text}
    {bs : List Loaded}, Holds s tokens bs →
    ∃ tokens' bs', Holds (p.foldl (Scan.step linker) s) tokens' bs' := by
  induction p with
  | nil => exact fun h => ⟨_, _, h⟩
  | cons c rest ih =>
      intro s tokens bs h
      rw [List.foldl_cons, Scan.step]
      split
      · exact ih h.addSetting
      split
      · exact ih (h.addSetting.addBackend linker)
      · exact ih ⟨h.settings, h.count, h.array⟩

theorem holds_start : Holds {} [] [] := ⟨rfl, rfl, Or.inl ⟨rfl, rfl⟩⟩

/-! ### The whole string -/

/-- The tokens of the groups, when the first has some tokens already and a part of the next. -/
def groupsFrom (tokens : List Text) (token s : Text) : List (List Text) :=
  match s.splitOn '|' with
  | [] => []
  | g :: rest => (tokens ++ (token ++ g).splitOn ' ') :: rest.map (·.splitOn ' ')

theorem groupsFrom_start (s : Text) : groupsFrom [] [] s = groups s := by
  unfold groupsFrom groups
  cases s.splitOn '|' <;> rfl

theorem groupsFrom_space (tokens : List Text) {token : Text} (htoken : ' ' ∉ token) (s : Text) :
    groupsFrom tokens token (' ' :: s) = groupsFrom (tokens ++ [token]) [] s := by
  unfold groupsFrom
  rw [List.splitOn_cons_eq_if_modifyHead, if_neg (by decide)]
  cases s.splitOn '|' with
  | nil => rfl
  | cons g rest =>
      rw [List.modifyHead_cons]
      dsimp only
      rw [List.splitOn_append_cons_self_of_not_mem htoken, List.append_assoc]
      rfl

theorem groupsFrom_bar (tokens : List Text) {token : Text} (htoken : ' ' ∉ token) (s : Text) :
    groupsFrom tokens token ('|' :: s) = (tokens ++ [token]) :: groupsFrom [] [] s := by
  rw [groupsFrom_start]
  unfold groupsFrom groups
  rw [List.splitOn_cons_eq_if_modifyHead, if_pos (by decide)]
  dsimp only
  rw [List.append_nil, List.splitOn_eq_singleton htoken]

theorem groupsFrom_char (tokens : List Text) (token : Text) {c : Char} (hc : c ≠ '|') (s : Text) :
    groupsFrom tokens token (c :: s) = groupsFrom tokens (token ++ [c]) s := by
  unfold groupsFrom
  rw [List.splitOn_cons_eq_if_modifyHead, if_neg (by simpa using hc)]
  cases s.splitOn '|' with
  | nil => rfl
  | cons g rest =>
      rw [List.modifyHead_cons]
      dsimp only
      rw [List.append_assoc]
      rfl

theorem groupsFrom_nil (tokens : List Text) {token : Text} (htoken : ' ' ∉ token) :
    groupsFrom tokens token [] = [tokens ++ [token]] := by
  unfold groupsFrom
  rw [List.splitOn_nil]
  dsimp only
  rw [List.append_nil, List.splitOn_eq_singleton htoken]
  rfl

theorem toList_append_filterMap {f : List Text → Option Loaded} (tokens : List Text)
    (rest : List (List Text)) :
    (f tokens).toList ++ rest.filterMap f = (tokens :: rest).filterMap f := by
  rw [List.filterMap_cons]
  cases f tokens <;> rfl

/-- From any place in the string on, the loop installs the backends of what is left. -/
theorem scan_spec (linker : Linker) (string : Text) : ∀ {s : Scan} {tokens : List Text}
    {bs : List Loaded}, Holds s tokens bs → ' ' ∉ s.token →
    readBackends ((string.foldl (Scan.step linker) s).finish linker).backends =
      some (bs ++ (groupsFrom tokens s.token string).filterMap (wanted linker)) := by
  induction string with
  | nil =>
      intro s tokens bs h htoken
      rw [groupsFrom_nil tokens htoken, ← toList_append_filterMap, List.filterMap_nil,
        List.append_nil]
      exact (h.addSetting.addBackend linker).read
  | cons c rest ih =>
      intro s tokens bs h htoken
      rw [List.foldl_cons, Scan.step]
      by_cases hspace : c = ' '
      · subst hspace
        rw [if_pos rfl, groupsFrom_space tokens htoken]
        exact ih h.addSetting List.not_mem_nil
      rw [if_neg hspace]
      by_cases hbar : c = '|'
      · subst hbar
        rw [if_pos rfl, groupsFrom_bar tokens htoken, ← toList_append_filterMap,
          ← List.append_assoc]
        have htokens := addBackend_token linker s.addSetting
        have hrest := ih (h.addSetting.addBackend linker)
          (by rw [htokens]; exact List.not_mem_nil)
        rwa [htokens] at hrest
      · rw [if_neg hbar, groupsFrom_char tokens s.token hbar]
        refine ih ⟨h.settings, h.count, h.array⟩ ?_
        intro hmem
        rcases List.mem_append.mp hmem with hmem | hmem
        · exact htoken hmem
        · exact hspace (List.mem_singleton.mp hmem).symm

theorem installs (linker : Linker) (variant : Option Dns.Variant) {s : Text} (hs : s ≠ []) :
    Installs linker variant s where
  backends := by
    unfold setBackendString
    rw [Option.getD_some]
    dsimp only
    rw [if_neg hs, scan_spec linker s holds_start List.not_mem_nil, groupsFrom_start,
      List.nil_append]
  terminated p _ := by
    obtain ⟨tokens, bs, h⟩ := scan_holds linker p holds_start
    rw [h.read]
    rfl

/-! ### The string of a list of backends -/

/-- A backend as it is asked for. -/
structure Entry where
  mandatory : Bool
  name : Text
  settings : List Text
  deriving DecidableEq, Repr

/-- The first token has the mark and the name. -/
def Entry.first (e : Entry) : Text := if e.mandatory then '+' :: e.name else e.name

def Entry.tokens (e : Entry) : List Text := e.first :: e.settings

/-- The string for a list of backends. -/
def render (entries : List Entry) : Text :=
  ['|'].intercalate (entries.map fun e => [' '].intercalate e.tokens)

/-- The backend that was asked for. -/
def Loaded.entry (b : Loaded) : Entry where
  mandatory := b.mandatory
  name := backendName (b.settings.head?.getD [])
  settings := b.settings.tail

/-- A text without separators. -/
def Plain (text : Text) : Prop := ' ' ∉ text ∧ '|' ∉ text

/-- The name is that of a backend that can be loaded, and nothing has a separator in it. -/
structure Entry.Valid (linker : Linker) (e : Entry) : Prop where
  nonempty : e.name ≠ []
  unmarked : e.name.head? ≠ some '+'
  loads : (linker.dlopen (filename e.name)).isSome = true
  name : Plain e.name
  settings : ∀ setting ∈ e.settings, Plain setting

theorem Entry.Valid.tokens {linker : Linker} {e : Entry} (h : e.Valid linker) :
    ∀ token ∈ e.tokens, Plain token := by
  intro token htoken
  rcases List.mem_cons.mp htoken with rfl | htoken
  · unfold Entry.first
    split
    · exact ⟨by simpa using h.name.1, by simpa using h.name.2⟩
    · exact h.name
  · exact h.settings token htoken

theorem not_mem_intercalate {c d : Char} (hne : c ≠ d) {ls : List Text} (h : ∀ l ∈ ls, c ∉ l) :
    c ∉ [d].intercalate ls := by
  induction ls with
  | nil => simp
  | cons l rest ih =>
      have hl := h l List.mem_cons_self
      have hrest := ih fun l hl => h l (List.mem_cons_of_mem _ hl)
      by_cases hnil : rest = []
      · rw [hnil, List.intercalate_singleton]
        exact hl
      · rw [List.intercalate_cons_of_ne_nil hnil]
        simp [hl, hne, hrest]

theorem groups_render {linker : Linker} {entries : List Entry}
    (h : ∀ e ∈ entries, e.Valid linker) (hne : entries ≠ []) :
    groups (render entries) = entries.map Entry.tokens := by
  unfold groups render
  rw [List.splitOn_intercalate '|' ?_ (by simpa using hne), List.map_map]
  · refine List.map_congr_left fun e he => ?_
    exact List.splitOn_intercalate ' ' (fun token htoken => ((h e he).tokens token htoken).1)
      (List.cons_ne_nil _ _)
  · intro group hgroup
    obtain ⟨e, he, rfl⟩ := List.mem_map.mp hgroup
    exact not_mem_intercalate (by decide) fun token htoken =>
      ((h e he).tokens token htoken).2

/-- The first token can be taken apart again. -/
theorem Entry.Valid.first {linker : Linker} {e : Entry} (h : e.Valid linker) :
    e.first ≠ [] ∧ ['+'].isPrefixOf e.first = e.mandatory ∧ backendName e.first = e.name := by
  obtain ⟨mandatory, name, settings⟩ := e
  cases name with
  | nil => exact absurd rfl h.nonempty
  | cons c name =>
      have hc : c ≠ '+' := fun heq => h.unmarked (by rw [heq]; rfl)
      have hmark : ('+' == c) = false := beq_eq_false_iff_ne.mpr hc.symm
      unfold backendName Entry.first
      cases mandatory with
      | true => simp [List.isPrefixOf]
      | false => simp [List.isPrefixOf, hmark]

/-- The backend of an entry, and the entry of the backend. -/
theorem Entry.Valid.wanted {linker : Linker} {e : Entry} (h : e.Valid linker) :
    ∃ b, wanted linker e.tokens = some b ∧ b.entry = e := by
  obtain ⟨hne, hmandatory, hname⟩ := h.first
  obtain ⟨dlHandle, hopen⟩ := Option.isSome_iff_exists.mp h.loads
  refine ⟨{ mandatory := e.mandatory, settings := e.tokens, dlHandle }, ?_, ?_⟩
  · unfold BackendString.wanted Entry.tokens
    dsimp only
    rw [if_neg hne, hname, hopen, hmandatory]
    rfl
  · show Entry.mk e.mandatory (backendName e.first) e.settings = e
    rw [hname]

theorem filterMap_wanted {linker : Linker} {entries : List Entry}
    (h : ∀ e ∈ entries, e.Valid linker) :
    ((entries.map Entry.tokens).filterMap (wanted linker)).map Loaded.entry = entries := by
  induction entries with
  | nil => rfl
  | cons e rest ih =>
      obtain ⟨b, hb, hentry⟩ := (h e List.mem_cons_self).wanted
      rw [List.map_cons, List.filterMap_cons_some hb, List.map_cons, hentry,
        ih fun e he => h e (List.mem_cons_of_mem _ he)]

theorem render_ne_nil {linker : Linker} {entries : List Entry}
    (h : ∀ e ∈ entries, e.Valid linker) (hne : entries ≠ []) : render entries ≠ [] := by
  intro hnil
  have hgroups := groups_render h hne
  rw [hnil] at hgroups
  change [[[]]] = entries.map Entry.tokens at hgroups
  obtain ⟨e, he⟩ := List.exists_mem_of_ne_nil entries hne
  have hmem : e.tokens ∈ [[([] : Text)]] := hgroups ▸ List.mem_map_of_mem he
  exact (h e he).first.1 (List.cons.inj (List.mem_singleton.mp hmem)).1

/-- What the string of the entries installs stands for the entries. -/
theorem render_installs {linker : Linker} (variant : Option Dns.Variant) {entries : List Entry}
    (h : ∀ e ∈ entries, e.Valid linker) :
    (readBackends (setBackendString linker variant (some (render entries)))).map
      (List.map Loaded.entry) = some entries := by
  by_cases hne : entries = []
  · subst hne
    rfl
  · rw [(installs linker variant (render_ne_nil h hne)).backends, groups_render h hne,
      Option.map_some, filterMap_wanted h]

/--
**The backend string is read group by group.**  A string that is not empty installs the backends
of its groups, with the array terminated after every character, and the string that is rendered
for a list of backends installs that list.
-/
theorem backend_string_installs (linker : Linker) (variant : Option Dns.Variant) {s : Text}
    (hs : s ≠ []) {entries : List Entry} (hentries : ∀ e ∈ entries, e.Valid linker) :
    Installs linker variant s ∧
      (readBackends (setBackendString linker variant (some (render entries)))).map
        (List.map Loaded.entry) = some entries :=
  ⟨installs linker variant hs, render_installs variant hentries⟩

/-- A linker that knows two modules. -/
def twoModules : Linker where
  dlopen file :=
    if file = filename "hosts".toList then some 1
    else if file = filename "exec".toList then some 2
    else none

/-- The entries of `hosts|+exec a b`. -/
def twoEntries : List Entry :=
  [⟨false, "hosts".toList, []⟩, ⟨true, "exec".toList, ["a".toList, "b".toList]⟩]

theorem twoEntries_installed : render twoEntries = "hosts|+exec a b".toList ∧
    readBackends (setBackendString twoModules none (some "| hosts||dns x|+exec a ".toList)) =
      some [⟨true, ["+exec".toList, "a".toList, []], 2⟩] ∧
    (readBackends (setBackendString twoModules none (some (render twoEntries)))).map
      (List.map Loaded.entry) = some twoEntries := by
  have hvalid : ∀ e ∈ twoEntries, e.Valid twoModules := by
    intro e he
    rcases List.mem_pair.mp he with rfl | rfl
    · exact ⟨by decide, by decide, by decide, ⟨by decide, by decide⟩, by unfold Plain; decide⟩
    · exact ⟨by decide, by decide, by decide, ⟨by decide, by decide⟩, by unfold Plain; decide⟩
  obtain ⟨hinstalls, hrender⟩ := backend_string_installs twoModules none
    (s := "| hosts||dns x|+exec a ".toList) (by decide) hvalid
  exact ⟨by decide, hinstalls.backends, hrender⟩

end Netresolve.BackendString
