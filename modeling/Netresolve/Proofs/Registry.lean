/-
What the select loop stands for.

A registry tells for each descriptor whether it is watched, for which events, and by which watch.
The loop keeps it in two sets of bits, in a bound, and in an array that has a place for each
descriptor below the bound.  The places of descriptors that are not watched may hold anything.
What ties the bound to the sets is that the descriptor below the bound is watched: this is what
the shrinking loop restores after a removal, and it makes the bound exact.
-/
import Netresolve.Proofs.Select
import Mathlib.Order.Bounds.Basic

namespace Netresolve.Loop

/-! ### Registries -/

/-- The watch that a descriptor has, and its events. -/
structure Registration where
  address : Nat
  events : Nat
  deriving DecidableEq, Repr

/-- The registrations by their descriptors. -/
abbrev Registry := Nat → Option Registration

/-- A watch is added or removed. -/
inductive Edit where
  | add (fd events address : Nat)
  | remove (fd : Nat)
  deriving DecidableEq, Repr

/-- What a change comes to for the registry. -/
def Edit.apply (registry : Registry) : Edit → Registry
  | .add fd events address => Function.update registry fd (some ⟨address, events⟩)
  | .remove fd => Function.update registry fd none

@[simp] theorem apply_add_self (registry : Registry) (fd events address : Nat) :
    (Edit.add fd events address).apply registry fd = some ⟨address, events⟩ :=
  Function.update_self fd _ registry

@[simp] theorem apply_add_of_ne (registry : Registry) {fd n : Nat} (events address : Nat)
    (h : n ≠ fd) : (Edit.add fd events address).apply registry n = registry n :=
  Function.update_of_ne h _ registry

@[simp] theorem apply_remove_self (registry : Registry) (fd : Nat) :
    (Edit.remove fd).apply registry fd = none :=
  Function.update_self fd _ registry

@[simp] theorem apply_remove_of_ne (registry : Registry) {fd n : Nat} (h : n ≠ fd) :
    (Edit.remove fd).apply registry n = registry n :=
  Function.update_of_ne h _ registry

/-- What a change does to the descriptors that are watched. -/
theorem apply_add_some {registry : Registry} {fd n events address : Nat} {w : Registration}
    (h : (Edit.add fd events address).apply registry n = some w) :
    n = fd ∧ w = ⟨address, events⟩ ∨ n ≠ fd ∧ registry n = some w := by
  by_cases hn : n = fd
  · rw [hn, apply_add_self] at h
    exact Or.inl ⟨hn, (Option.some.inj h).symm⟩
  · rw [apply_add_of_ne registry events address hn] at h
    exact Or.inr ⟨hn, h⟩

theorem apply_remove_some {registry : Registry} {fd n : Nat} {w : Registration}
    (h : (Edit.remove fd).apply registry n = some w) : n ≠ fd ∧ registry n = some w := by
  by_cases hn : n = fd
  · rw [hn, apply_remove_self] at h
    cases h
  · rw [apply_remove_of_ne registry hn] at h
    exact ⟨hn, h⟩

theorem apply_add_watched {registry : Registry} {fd n events address : Nat}
    (h : (Edit.add fd events address).apply registry n ≠ none) : n = fd ∨ registry n ≠ none := by
  obtain ⟨w, hw⟩ := Option.ne_none_iff_exists'.mp h
  rcases apply_add_some hw with ⟨hn, _⟩ | ⟨_, hw⟩
  · exact Or.inl hn
  · exact Or.inr (hw ▸ Option.some_ne_none w)

theorem apply_remove_watched {registry : Registry} {fd n : Nat}
    (h : (Edit.remove fd).apply registry n ≠ none) : n ≠ fd ∧ registry n ≠ none := by
  obtain ⟨w, hw⟩ := Option.ne_none_iff_exists'.mp h
  obtain ⟨hn, hw⟩ := apply_remove_some hw
  exact ⟨hn, hw ▸ Option.some_ne_none w⟩

/-- A descriptor is added only while it is not watched, and removed only while it is. -/
def Edit.Legal (registry : Registry) : Edit → Prop
  | .add fd events _ =>
      fd < fdSetSize ∧ registry fd = none ∧ events &&& (pollin ||| pollout) ≠ 0
  | .remove fd => registry fd ≠ none

instance (registry : Registry) : (edit : Edit) → Decidable (edit.Legal registry)
  | .add fd events _ => inferInstanceAs
      (Decidable (fd < fdSetSize ∧ registry fd = none ∧ events &&& (pollin ||| pollout) ≠ 0))
  | .remove fd => inferInstanceAs (Decidable (registry fd ≠ none))

/-- What a change comes to for the loop.  Memory is taken to be there. -/
def Edit.perform (l : Select) : Edit → Except Fault Select
  | .add fd events address => (Select.addWatch true fd events address l).map (·.2)
  | .remove fd => Select.removeWatch true fd none l

/-- Every change of the list is legal when its turn comes. -/
def LegalFrom : Registry → List Edit → Prop
  | _, [] => True
  | registry, edit :: rest => edit.Legal registry ∧ LegalFrom (edit.apply registry) rest

instance decidableLegalFrom : (registry : Registry) → (edits : List Edit) →
    Decidable (LegalFrom registry edits)
  | _, [] => isTrue trivial
  | registry, edit :: rest =>
      @instDecidableAnd _ _ inferInstance (decidableLegalFrom (edit.apply registry) rest)

/-! ### The invariant -/

/-- The loop keeps the registry. -/
structure Represents (l : Select) (registry : Registry) : Prop where
  events : ∀ fd w, registry fd = some w → w.events &&& (pollin ||| pollout) ≠ 0
  size : ∀ fd, registry fd ≠ none → fd < fdSetSize
  rfds : ∀ fd, l.rfds fd = true ↔ ∃ w, registry fd = some w ∧ w.events &&& pollin ≠ 0
  wfds : ∀ fd, l.wfds fd = true ↔ ∃ w, registry fd = some w ∧ w.events &&& pollout ≠ 0
  below : ∀ fd, registry fd ≠ none → fd < l.nfds
  top : ∀ fd, l.nfds = fd + 1 → registry fd ≠ none
  length : l.sources.length = l.nfds
  source : ∀ fd w, registry fd = some w → l.sources[fd]? = some (some w.address)

theorem represents_start : Represents {} fun _ => none := by
  refine ⟨?_, ?_, ?_, ?_, ?_, ?_, rfl, ?_⟩ <;> simp

/-- A descriptor has a bit if and only if it is watched. -/
theorem Represents.bit_iff {l : Select} {registry : Registry} (h : Represents l registry)
    (fd : Nat) : (l.rfds fd = true ∨ l.wfds fd = true) ↔ registry fd ≠ none := by
  rw [h.rfds, h.wfds]
  constructor
  · rintro (⟨w, hw, _⟩ | ⟨w, hw, _⟩) <;> rw [hw] <;> exact Option.some_ne_none w
  · intro hne
    obtain ⟨w, hw⟩ := Option.ne_none_iff_exists'.mp hne
    rcases polls_in_or_out (h.events fd w hw) with hin | hout
    · exact Or.inl ⟨w, hw, hin⟩
    · exact Or.inr ⟨w, hw, hout⟩

theorem Represents.unused {l : Select} {registry : Registry} (h : Represents l registry)
    {fd : Nat} (hfree : registry fd = none) : l.rfds fd = false ∧ l.wfds fd = false := by
  have hbit : ¬ (l.rfds fd = true ∨ l.wfds fd = true) := fun hbit =>
    (h.bit_iff fd).mp hbit hfree
  simpa using hbit

/-! ### An addition -/

/-- The loop after `add_watch`. -/
def Select.added (l : Select) (fd events address : Nat) : Select :=
  let nfds := if l.nfds ≤ fd then fd + 1 else l.nfds
  { rfds := if events &&& pollin ≠ 0 then setBit l.rfds fd true else l.rfds
    wfds := if events &&& pollout ≠ 0 then setBit l.wfds fd true else l.wfds
    nfds
    sources := (resize l.sources nfds).set fd (some address) }

theorem addWatch_eq {l : Select} {fd events address : Nat} (hfd : fd < fdSetSize)
    (hunused : l.rfds fd = false ∧ l.wfds fd = false)
    (hevents : events &&& (pollin ||| pollout) ≠ 0) :
    Select.addWatch true fd events address l = .ok (none, l.added fd events address) := by
  unfold Select.addWatch
  rw [if_neg (Nat.not_le.mpr hfd), if_neg (by simp [hunused]), if_neg hevents]
  rfl

/-- A bit that is set for the events it belongs to. -/
theorem setBit_iff {fds : Nat → Bool} {registry : Registry} {mask fd events address : Nat}
    (hfds : ∀ n, fds n = true ↔ ∃ w, registry n = some w ∧ w.events &&& mask ≠ 0)
    (hfree : registry fd = none) (n : Nat) :
    (if events &&& mask ≠ 0 then setBit fds fd true else fds) n = true ↔
      ∃ w, (Edit.add fd events address).apply registry n = some w ∧ w.events &&& mask ≠ 0 := by
  by_cases hn : n = fd
  · subst hn
    rw [apply_add_self]
    have hunused : fds n = false := by
      rw [← Bool.not_eq_true, hfds, hfree]
      simp
    by_cases hmask : events &&& mask = 0
    · simp [hmask, hunused]
    · simp [hmask, setBit_self]
  · rw [apply_add_of_ne registry events address hn, ← hfds]
    split
    · rw [setBit_of_ne _ _ hn]
    · exact Iff.rfl

theorem Represents.added {l : Select} {registry : Registry} (h : Represents l registry)
    {fd events address : Nat} (hfd : fd < fdSetSize) (hfree : registry fd = none)
    (hevents : events &&& (pollin ||| pollout) ≠ 0) :
    Represents (l.added fd events address) ((Edit.add fd events address).apply registry) := by
  have hadds : Adds fd address l (l.added fd events address) :=
    Select.adds (addWatch_eq hfd (h.unused hfree) hevents)
  refine ⟨?_, ?_, setBit_iff h.rfds hfree, setBit_iff h.wfds hfree, ?_, ?_, ?_, ?_⟩
  · intro n w hw
    rcases apply_add_some hw with ⟨_, rfl⟩ | ⟨_, hw⟩
    · exact hevents
    · exact h.events n w hw
  · intro n hne
    rcases apply_add_watched hne with rfl | hne
    · exact hfd
    · exact h.size n hne
  · intro n hne
    rcases apply_add_watched hne with rfl | hne
    · exact hadds.nfds.1
    · exact (h.below n hne).trans_le hadds.nfds.2
  · intro n hn
    by_cases heq : n = fd
    · rw [heq, apply_add_self]
      exact Option.some_ne_none _
    · rw [apply_add_of_ne registry events address heq]
      change (if l.nfds ≤ fd then fd + 1 else l.nfds) = n + 1 at hn
      split at hn
      · omega
      · exact h.top n hn
  · exact List.length_set.trans (resize_length _ _)
  · intro n w hw
    rcases apply_add_some hw with ⟨rfl, rfl⟩ | ⟨hn, hw⟩
    · exact hadds.source
    · exact hadds.kept n _ hn (h.below n (hw ▸ Option.some_ne_none w)) (h.source n w hw)

/-! ### A removal -/

/-- The loop after `remove_watch`. -/
def Select.removed (l : Select) (fd : Nat) : Select :=
  let rfds := setBit l.rfds fd false
  let wfds := setBit l.wfds fd false
  let nfds := shrink rfds wfds l.nfds
  { rfds, wfds, nfds, sources := resize l.sources nfds }

theorem removeWatch_eq (answer : Bool) {l : Select} {fd : Nat} (hfd : fd < fdSetSize)
    (hused : l.rfds fd = true ∨ l.wfds fd = true) :
    Select.removeWatch answer fd none l = .ok (l.removed fd) := by
  unfold Select.removeWatch
  rw [if_neg (Nat.not_le.mpr hfd), if_neg (not_not.mpr hused), if_neg (by simp)]
  rfl

/-- The descriptor below the new bound has a bit. -/
theorem bit_of_shrink {rfds wfds : Nat → Bool} {n m : Nat} (h : shrink rfds wfds n = m + 1) :
    rfds m = true ∨ wfds m = true := by
  induction n with
  | zero => cases h
  | succ n ih =>
      unfold shrink at h
      split at h
      · rename_i hbit
        obtain rfl := Nat.succ.inj h
        exact hbit
      · exact ih h

theorem clearBit_iff {fds : Nat → Bool} {registry : Registry} {mask fd : Nat}
    (hfds : ∀ n, fds n = true ↔ ∃ w, registry n = some w ∧ w.events &&& mask ≠ 0) (n : Nat) :
    setBit fds fd false n = true ↔
      ∃ w, (Edit.remove fd).apply registry n = some w ∧ w.events &&& mask ≠ 0 := by
  by_cases hn : n = fd
  · subst hn
    simp [setBit_self]
  · rw [setBit_of_ne _ _ hn, apply_remove_of_ne registry hn, hfds]

theorem Represents.removed {l : Select} {registry : Registry} (h : Represents l registry)
    {fd : Nat} (hwatched : registry fd ≠ none) :
    Represents (l.removed fd) ((Edit.remove fd).apply registry) := by
  have hrun : Select.callbacks.removeWatch true fd none l = .ok (l.removed fd) :=
    removeWatch_eq true (h.size fd hwatched) ((h.bit_iff fd).mpr hwatched)
  have hdrops := Select.drops hrun
  have hbit : ∀ {n}, n ≠ fd → registry n ≠ none →
      (l.removed fd).rfds n = true ∨ (l.removed fd).wfds n = true := by
    intro n hn hne
    rw [(hdrops.others n hn).1, (hdrops.others n hn).2]
    exact (h.bit_iff n).mpr hne
  refine ⟨?_, ?_, clearBit_iff h.rfds, clearBit_iff h.wfds, ?_, ?_, resize_length _ _, ?_⟩
  · exact fun n w hw => h.events n w (apply_remove_some hw).2
  · exact fun n hne => h.size n (apply_remove_watched hne).2
  · intro n hne
    obtain ⟨hn, hne⟩ := apply_remove_watched hne
    exact lt_shrink (hbit hn hne) l.nfds (h.below n hne)
  · intro n hn
    have hbit := bit_of_shrink hn
    have heq : n ≠ fd := by
      rintro rfl
      change (l.removed n).rfds n = true ∨ (l.removed n).wfds n = true at hbit
      rw [hdrops.bit.1, hdrops.bit.2] at hbit
      simp at hbit
    rw [apply_remove_of_ne registry heq, ← h.bit_iff]
    change (l.removed fd).rfds n = true ∨ (l.removed fd).wfds n = true at hbit
    rwa [(hdrops.others n heq).1, (hdrops.others n heq).2] at hbit
  · intro n w hw
    obtain ⟨hn, hw⟩ := apply_remove_some hw
    have hne : registry n ≠ none := hw ▸ Option.some_ne_none w
    exact (hdrops.kept n _ (hbit hn hne) (h.below n hne) (h.source n w hw)).2

/-! ### Runs -/

/-- A legal change goes through, and the loop keeps up with the registry. -/
theorem Represents.step {l : Select} {registry : Registry} (h : Represents l registry)
    {edit : Edit} (hlegal : edit.Legal registry) :
    ∃ l', edit.perform l = .ok l' ∧ Represents l' (edit.apply registry) := by
  cases edit with
  | add fd events address =>
      obtain ⟨hfd, hfree, hevents⟩ := hlegal
      refine ⟨l.added fd events address, ?_, h.added hfd hfree hevents⟩
      show (Select.addWatch true fd events address l).map (·.2) = _
      rw [addWatch_eq hfd (h.unused hfree) hevents]
      rfl
  | remove fd =>
      exact ⟨l.removed fd, removeWatch_eq true (h.size fd hlegal) ((h.bit_iff fd).mpr hlegal),
        h.removed hlegal⟩

theorem represents_run (edits : List Edit) : ∀ {l : Select} {registry : Registry},
    Represents l registry → LegalFrom registry edits →
    ∃ l', edits.foldlM Edit.perform l = .ok l' ∧ Represents l' (edits.foldl Edit.apply registry) := by
  induction edits with
  | nil => exact fun h _ => ⟨_, rfl, h⟩
  | cons edit rest ih =>
      intro l registry h hlegal
      obtain ⟨l₁, hok, h₁⟩ := h.step hlegal.1
      obtain ⟨l', hrest, h'⟩ := ih h₁ hlegal.2
      refine ⟨l', ?_, h'⟩
      rw [List.foldlM_cons, hok]
      exact hrest

/-! ### What is seen from outside -/

/-- The events that a dispatch is for. -/
def Slot.mask (slot : Slot) : Nat := if slot.read then pollin else pollout

/--
The loop with the registry it stands for: the bound, the array and the sets, what
`netresolve_select_apply_fds` makes of two sets of the caller, and where a dispatch goes.
-/
structure Serves (l : Select) (registry : Registry) : Prop where
  nfds : (l.nfds = 0 ∧ ∀ fd, registry fd = none) ∨
    ∃ fd, IsGreatest {fd | registry fd ≠ none} fd ∧ l.nfds = fd + 1
  length : l.sources.length = l.nfds
  source : ∀ fd w, registry fd = some w → l.sources[fd]? = some (some w.address)
  rfds : ∀ fds fd, l.applyFds l.rfds fds fd = true ↔
    fds fd = true ∨ ∃ w, registry fd = some w ∧ w.events &&& pollin ≠ 0
  wfds : ∀ fds fd, l.applyFds l.wfds fds fd = true ↔
    fds fd = true ∨ ∃ w, registry fd = some w ∧ w.events &&& pollout ≠ 0
  dispatch : ∀ (act : Callback Select Slot) (c : Context Select Slot) (slot : Slot) (w : Registration),
    c.loop = l → registry slot.fd = some w → w.events &&& slot.mask ≠ 0 →
    selectDispatch act slot c = Loop.dispatch Select.callbacks act w.address slot.mask c

/-- The loop over the descriptors goes as far as there are bits. -/
theorem applyFds_iff {l : Select} {own fds : Nat → Bool} {fd : Nat}
    (hbelow : own fd = true → fd < l.nfds) :
    l.applyFds own fds fd = true ↔ fds fd = true ∨ own fd = true := by
  simp only [Select.applyFds, Bool.or_eq_true, Bool.and_eq_true, decide_eq_true_eq]
  exact or_congr_right ⟨fun h => h.2, fun h => ⟨hbelow h, h⟩⟩

theorem Represents.fds_iff {l : Select} {registry : Registry} (h : Represents l registry)
    (slot : Slot) : l.fds slot slot.fd = true ↔
      ∃ w, registry slot.fd = some w ∧ w.events &&& slot.mask ≠ 0 := by
  unfold Select.fds Slot.mask
  split
  · exact h.rfds slot.fd
  · exact h.wfds slot.fd

theorem Represents.serves {l : Select} {registry : Registry} (h : Represents l registry) :
    Serves l registry where
  nfds := by
    cases hnfds : l.nfds with
    | zero =>
        refine Or.inl ⟨rfl, fun fd => ?_⟩
        by_contra hne
        have hbelow := h.below fd hne
        omega
    | succ fd =>
        refine Or.inr ⟨fd, ⟨h.top fd hnfds, fun n hn => ?_⟩, rfl⟩
        have hbelow := h.below n hn
        omega
  length := h.length
  source := h.source
  rfds fds fd := by
    rw [← h.rfds]
    exact applyFds_iff fun hbit => h.below fd ((h.bit_iff fd).mp (Or.inl hbit))
  wfds fds fd := by
    rw [← h.wfds]
    exact applyFds_iff fun hbit => h.below fd ((h.bit_iff fd).mp (Or.inr hbit))
  dispatch act c slot w hc hw hmask := by
    subst hc
    have hbelow := h.below slot.fd (hw ▸ Option.some_ne_none w)
    have hbit := (h.fds_iff slot).mpr ⟨w, hw, hmask⟩
    unfold selectDispatch
    rw [Outcome.bind_of_ok (show (get : M Select Slot (Context Select Slot)) c = .ok c c from rfl)]
    rw [if_neg (by simp [hbit, hbelow]), h.source slot.fd w hw]
    rfl

/--
**The select loop keeps its registry.**  After every legal sequence of additions and removals, in
which nothing fails: the bound is zero or one more than the largest watched descriptor, the array
has that many places with the latest watch of each watched descriptor, the sets of the caller get
the watched descriptors and no others, and a dispatch goes to the watch of its descriptor.
-/
theorem select_serves (edits : List Edit) (hlegal : LegalFrom (fun _ => none) edits) :
    ∃ l, edits.foldlM Edit.perform {} = .ok l ∧
      Serves l (edits.foldl Edit.apply fun _ => none) := by
  obtain ⟨l, hok, h⟩ := represents_run edits represents_start hlegal
  exact ⟨l, hok, h.serves⟩

/-- A gap is left behind, and a descriptor in it is added again. -/
def gapEdits : List Edit :=
  [.add 3 pollin 16, .add 9 pollout 32, .remove 3, .add 5 (pollin ||| pollout) 48, .remove 9,
    .add 4 pollin 64]

theorem select_serves_gap : ∃ l, gapEdits.foldlM Edit.perform {} = .ok l ∧ l.nfds = 6 ∧
    Serves l (gapEdits.foldl Edit.apply fun _ => none) := by
  obtain ⟨l, hok, hserves⟩ := select_serves gapEdits (by decide)
  refine ⟨l, hok, ?_, hserves⟩
  have hnfds : (gapEdits.foldlM Edit.perform {}).map (·.nfds) = .ok 6 := by decide
  rw [hok] at hnfds
  exact Except.ok.inj hnfds

end Netresolve.Loop
