/-
The select loop and the watches that its callbacks remove.

The loop goes by the sets it gets from `select`, and by `sources` for the watch of a descriptor.
Both belong together as long as the watch stays registered.  A removal by an earlier callback is
not taken back from the sets that are still to be gone through, as the epoll loop does it with
its batch: the descriptor then fails an assertion, or goes to a watch added meanwhile.
-/
import Netresolve.Proofs.Loop

namespace Netresolve.Loop

open Outcome Relation

/-! ### What the loop knows of a watch -/

/-- Each watch has a bit and its place in `sources`, and each bit has a watch. -/
structure Tracked (c : Context Select Slot) : Prop extends Sound c where
  bit : ∀ w ∈ c.watches, c.loop.rfds w.fd = true ∨ c.loop.wfds w.fd = true
  below : ∀ w ∈ c.watches, w.fd < c.loop.nfds
  source : ∀ w ∈ c.watches, c.loop.sources[w.fd]? = some (some w.address)
  owner : ∀ fd, c.loop.rfds fd = true ∨ c.loop.wfds fd = true → ∃ w ∈ c.watches, w.fd = fd

theorem Tracked.eq_of_fd {c : Context Select Slot} (h : Tracked c) {v w : Watch}
    (hv : v ∈ c.watches) (hw : w ∈ c.watches) (heq : v.fd = w.fd) : v = w := by
  have hsource := h.source v hv
  rw [heq, h.source w hw] at hsource
  simp only [Option.some.injEq] at hsource
  exact h.eq_of_address hv hw hsource.symm

theorem resize_length (sources : List (Option Nat)) (n : Nat) : (resize sources n).length = n := by
  simp only [resize, List.length_append, List.length_take, List.length_replicate]
  omega

theorem resize_get {sources : List (Option Nat)} {n fd : Nat} {s : Option Nat} (hfd : fd < n)
    (h : sources[fd]? = some s) : (resize sources n)[fd]? = some s := by
  obtain ⟨hlt, hget⟩ := List.getElem?_eq_some_iff.mp h
  unfold resize
  rw [List.getElem?_append_left (by simp; omega), List.getElem?_take_of_lt hfd, h]

theorem lt_shrink {rfds wfds : Nat → Bool} {fd : Nat} (hbit : rfds fd = true ∨ wfds fd = true)
    (n : Nat) (hfd : fd < n) : fd < shrink rfds wfds n := by
  induction n with
  | zero => omega
  | succ n ih =>
      unfold shrink
      split
      · exact hfd
      · rename_i hn
        have hne : fd ≠ n := by
          intro heq
          exact hn (heq ▸ hbit)
        exact ih (by omega)

theorem setBit_self (fds : Nat → Bool) (fd : Nat) (b : Bool) : setBit fds fd b fd = b := by
  simp [setBit]

theorem setBit_of_ne (fds : Nat → Bool) {fd n : Nat} (b : Bool) (h : n ≠ fd) :
    setBit fds fd b n = fds n := by
  simp [setBit, h]

/-! ### One change -/

/-- What `add_watch` returns when it does not stop. -/
structure Adds (fd address : Nat) (l l' : Select) : Prop where
  unused : l.rfds fd = false ∧ l.wfds fd = false
  bit : l'.rfds fd = true ∨ l'.wfds fd = true
  others : ∀ n, n ≠ fd → l'.rfds n = l.rfds n ∧ l'.wfds n = l.wfds n
  nfds : fd < l'.nfds ∧ l.nfds ≤ l'.nfds
  source : l'.sources[fd]? = some (some address)
  kept : ∀ n s, n ≠ fd → n < l.nfds → l.sources[n]? = some s → l'.sources[n]? = some s

/-- What `remove_watch` returns when it does not stop. -/
structure Drops (fd : Nat) (l l' : Select) : Prop where
  bit : l'.rfds fd = false ∧ l'.wfds fd = false
  others : ∀ n, n ≠ fd → l'.rfds n = l.rfds n ∧ l'.wfds n = l.wfds n
  kept : ∀ n s, l'.rfds n = true ∨ l'.wfds n = true → n < l.nfds → l.sources[n]? = some s →
    n < l'.nfds ∧ l'.sources[n]? = some s

theorem polls_in_or_out {events : Nat} (h : events &&& (pollin ||| pollout) ≠ 0) :
    events &&& pollin ≠ 0 ∨ events &&& pollout ≠ 0 := by
  rw [Nat.and_or_distrib_left] at h
  by_cases hin : events &&& pollin = 0
  · rw [hin, Nat.zero_or] at h
    exact Or.inr h
  · exact Or.inl hin

theorem Select.adds {answer : Bool} {fd events address : Nat} {l l' : Select}
    {handle : Option Nat}
    (h : Select.callbacks.addWatch answer fd events address l = .ok (handle, l')) :
    Adds fd address l l' := by
  simp only [Select.callbacks, Select.addWatch] at h
  split at h
  · cases h
  split at h
  · cases h
  rename_i hunused
  split at h
  · cases h
  rename_i hevents
  split at h
  rotate_left
  · cases h
  simp only [Except.ok.injEq, Prod.mk.injEq] at h
  obtain ⟨_, rfl⟩ := h
  simp only [not_or, Bool.not_eq_true] at hunused
  refine ⟨hunused, ?_, ?_, ?_, ?_, ?_⟩
  · rcases polls_in_or_out hevents with hin | hout
    · simp [hin, setBit_self]
    · simp [hout, setBit_self]
  · intro n hn
    constructor
    · show (if _ then _ else _ : Nat → Bool) n = _
      split
      · exact setBit_of_ne _ _ hn
      · rfl
    · show (if _ then _ else _ : Nat → Bool) n = _
      split
      · exact setBit_of_ne _ _ hn
      · rfl
  · constructor
    · show fd < if l.nfds ≤ fd then fd + 1 else l.nfds
      split <;> omega
    · show l.nfds ≤ if l.nfds ≤ fd then fd + 1 else l.nfds
      split <;> omega
  · rw [List.getElem?_set_self]
    rw [resize_length]
    split <;> omega
  · intro n s hn hlt hs
    rw [List.getElem?_set_ne (Ne.symm hn)]
    apply resize_get _ hs
    split <;> omega

theorem Select.drops {answer : Bool} {fd : Nat} {handle : Option Nat} {l l' : Select}
    (h : Select.callbacks.removeWatch answer fd handle l = .ok l') : Drops fd l l' := by
  simp only [Select.callbacks, Select.removeWatch] at h
  split at h
  · cases h
  split at h
  · cases h
  split at h
  · cases h
  simp only [Except.ok.injEq] at h
  obtain rfl := h
  refine ⟨⟨setBit_self _ _ _, setBit_self _ _ _⟩,
    fun n hn => ⟨setBit_of_ne _ _ hn, setBit_of_ne _ _ hn⟩, ?_⟩
  intro n s hbit hlt hs
  have hshrink := lt_shrink hbit l.nfds hlt
  exact ⟨hshrink, resize_get hshrink hs⟩

theorem Select.addWatch_fault {answer : Bool} {fd events address : Nat} {l : Select} {e : Fault}
    (h : Select.addWatch answer fd events address l = .error e) :
    e = .overflow ∨ e = .assertion .addWatch := by
  simp only [Select.addWatch] at h
  split at h
  · exact Or.inl (Except.error.inj h).symm
  split at h
  · exact Or.inr (Except.error.inj h).symm
  split at h
  · exact Or.inr (Except.error.inj h).symm
  split at h
  · cases h
  · exact Or.inr (Except.error.inj h).symm

theorem Select.removeWatch_fault {answer : Bool} {fd : Nat} {handle : Option Nat} {l : Select}
    {e : Fault} (h : Select.removeWatch answer fd handle l = .error e) :
    e = .overflow ∨ e = .assertion .removeWatch := by
  unfold Select.removeWatch at h
  split_ifs at h
  · exact Or.inl (Except.error.inj h).symm
  · exact Or.inr (Except.error.inj h).symm
  · exact Or.inr (Except.error.inj h).symm

theorem Select.blame {e : Fault} (h : Blame Select.callbacks e) :
    e ≠ .assertion .dispatchRead ∧ e ≠ .assertion .dispatchWrite ∧ e ≠ .dangling := by
  cases h with
  | watchAdd => decide
  | add h => rcases Select.addWatch_fault h with rfl | rfl <;> decide
  | @remove answer fd handle l e h =>
      have hremove : Select.removeWatch answer fd handle l = .error e := h
      rcases Select.removeWatch_fault hremove with rfl | rfl <;> decide

theorem Tracked.fd_ne {c : Context Select Slot} (hc : Tracked c) {fd : Nat}
    (hunused : c.loop.rfds fd = false ∧ c.loop.wfds fd = false) {v : Watch}
    (hv : v ∈ c.watches) : v.fd ≠ fd := by
  intro heq
  have hbit := hc.bit v hv
  rw [heq, hunused.1, hunused.2] at hbit
  simp at hbit

theorem Tracked.added {c : Context Select Slot} (hc : Tracked c) {w : Watch} {loop : Select}
    (hsound : Sound (c.added w loop)) (hadds : Adds w.fd w.address c.loop loop) :
    Tracked (c.added w loop) := by
  refine ⟨hsound, ?_, ?_, ?_, ?_⟩
  · intro v hv
    rcases List.mem_cons.mp hv with rfl | hv
    · exact hadds.bit
    · obtain ⟨hr, hw⟩ := hadds.others v.fd (hc.fd_ne hadds.unused hv)
      show loop.rfds v.fd = true ∨ loop.wfds v.fd = true
      rw [hr, hw]
      exact hc.bit v hv
  · intro v hv
    rcases List.mem_cons.mp hv with rfl | hv
    · exact hadds.nfds.1
    · exact Nat.lt_of_lt_of_le (hc.below v hv) hadds.nfds.2
  · intro v hv
    rcases List.mem_cons.mp hv with rfl | hv
    · exact hadds.source
    · exact hadds.kept v.fd _ (hc.fd_ne hadds.unused hv) (hc.below v hv) (hc.source v hv)
  · intro fd hbit
    by_cases hfd : fd = w.fd
    · exact ⟨w, List.mem_cons_self, hfd.symm⟩
    · obtain ⟨hr, hw⟩ := hadds.others fd hfd
      change loop.rfds fd = true ∨ loop.wfds fd = true at hbit
      rw [hr, hw] at hbit
      obtain ⟨v, hv, hvfd⟩ := hc.owner fd hbit
      exact ⟨v, List.mem_cons_of_mem _ hv, hvfd⟩

theorem Tracked.dropped {c : Context Select Slot} (hc : Tracked c) {w : Watch} {loop : Select}
    (hw : w ∈ c.watches) (hsound : Sound (c.dropped w loop)) (hdrops : Drops w.fd c.loop loop) :
    Tracked (c.dropped w loop) := by
  have hleft : ∀ v ∈ c.watches.erase w, v ∈ c.watches ∧ v.fd ≠ w.fd := by
    intro v hv
    obtain ⟨hne, hmem⟩ := hc.nodup.mem_erase_iff.mp hv
    exact ⟨hmem, fun heq => hne (hc.eq_of_fd hmem hw heq)⟩
  have hbits : ∀ v ∈ c.watches.erase w, loop.rfds v.fd = true ∨ loop.wfds v.fd = true := by
    intro v hv
    obtain ⟨hr, hw⟩ := hdrops.others v.fd (hleft v hv).2
    rw [hr, hw]
    exact hc.bit v (hleft v hv).1
  have hkept : ∀ v ∈ c.watches.erase w,
      v.fd < loop.nfds ∧ loop.sources[v.fd]? = some (some v.address) := by
    intro v hv
    have hmem := (hleft v hv).1
    exact hdrops.kept v.fd _ (hbits v hv) (hc.below v hmem) (hc.source v hmem)
  refine ⟨hsound, hbits, fun v hv => (hkept v hv).1, fun v hv => (hkept v hv).2, ?_⟩
  intro fd hbit
  change loop.rfds fd = true ∨ loop.wfds fd = true at hbit
  by_cases hfd : fd = w.fd
  · rw [hfd, hdrops.bit.1, hdrops.bit.2] at hbit
    simp at hbit
  · obtain ⟨hr, hwr⟩ := hdrops.others fd hfd
    rw [hr, hwr] at hbit
    obtain ⟨v, hv, hvfd⟩ := hc.owner fd hbit
    have hne : v ≠ w := by
      intro heq
      exact hfd (by rw [← hvfd, heq])
    exact ⟨v, (List.mem_erase_of_ne hne).mpr hv, hvfd⟩

theorem Change.tracked {c c' : Context Select Slot} (h : Change Select.callbacks c c')
    (hc : Tracked c) : Tracked c' := by
  have hsound := h.sound hc.toSound
  cases h with
  | add haddress hserial hrun => exact hc.added hsound (Select.adds hrun)
  | remove haddress hrun => exact hc.dropped (at_mem haddress) hsound (Select.drops hrun)

/-- The bits of a watch stay as they are while it is registered. -/
theorem Change.bits {c c' : Context Select Slot} (h : Change Select.callbacks c c')
    (hc : Tracked c) {v : Watch} (hv : v ∈ c.watches) (hv' : v ∈ c'.watches) :
    c'.loop.rfds v.fd = c.loop.rfds v.fd ∧ c'.loop.wfds v.fd = c.loop.wfds v.fd := by
  cases h with
  | add haddress hserial hrun =>
      have hadds := Select.adds hrun
      exact hadds.others v.fd (hc.fd_ne hadds.unused hv)
  | @remove w loop answer haddress hrun =>
      have hne := (hc.nodup.mem_erase_iff.mp hv').1
      exact (Select.drops hrun).others v.fd fun heq =>
        hne (hc.eq_of_fd hv (at_mem haddress) heq)

theorem Change.removed {σ κ : Type} {cb : Callbacks σ} {c c' : Context σ κ}
    (h : Change cb c c') {w : Watch} (hw : w ∈ c.removed) : w ∈ c'.removed := by
  cases h with
  | add haddress hserial hrun => exact hw
  | remove haddress hrun => exact List.mem_cons_of_mem _ hw

/-! ### The turns of a round -/

/-- A round that started in `c₀` has come to `c`. -/
structure Round (c₀ c : Context Select Slot) : Prop extends Tracked c where
  known : ∀ w ∈ c₀.watches, w ∈ c.watches ∨ w ∈ c.removed
  bits : ∀ w ∈ c₀.watches, w ∈ c.watches →
    c.loop.rfds w.fd = c₀.loop.rfds w.fd ∧ c.loop.wfds w.fd = c₀.loop.wfds w.fd

theorem Change.round {c₀ c c' : Context Select Slot} (h : Change Select.callbacks c c')
    (hc : Round c₀ c) : Round c₀ c' := by
  have htracked := h.tracked hc.toTracked
  refine ⟨htracked, fun w hw => h.known (hc.known w hw), ?_⟩
  intro w hw hw'
  have hlive : w ∈ c.watches := by
    refine (hc.known w hw).resolve_right fun hgone => ?_
    exact htracked.gone w hw' (h.removed hgone)
  obtain ⟨hr, hwr⟩ := h.bits hc.toTracked hlive hw'
  obtain ⟨hr₀, hwr₀⟩ := hc.bits w hw hlive
  exact ⟨hr.trans hr₀, hwr.trans hwr₀⟩

theorem Round.turn {c₀ c : Context Select Slot} (h : Round c₀ c) (slot : Slot) :
    Round c₀ (c.turn slot) :=
  ⟨⟨⟨h.apart, h.total, h.share, h.old, h.gone⟩, h.bit, h.below, h.source, h.owner⟩, h.known,
    h.bits⟩

theorem Round.called {c₀ c : Context Select Slot} (h : Round c₀ c) (d : Dispatch) :
    Round c₀ (c.called d) :=
  ⟨⟨⟨h.apart, h.total, h.share, h.old, h.gone⟩, h.bit, h.below, h.source, h.owner⟩, h.known,
    h.bits⟩

/--
A turn that calls a watch.  The watch is the one the descriptor had when the round started,
unless that has been removed.
-/
def Spent (c₀ : Context Select Slot) (t : Turn Slot) : Prop :=
  ∃ w events, t.calls = [⟨w, events⟩] ∧ w ∈ t.watches ∧ w ∉ t.removed ∧
    ∃ v ∈ c₀.watches, v.fd = t.key.fd ∧ (v ∈ t.removed ∨ v = w)

/-- The watch that the descriptor of the turn had is gone. -/
def Broken (c₀ : Context Select Slot) (t : Turn Slot) : Prop :=
  ∃ v ∈ c₀.watches, v.fd = t.key.fd ∧ v ∈ t.removed

/-- `select` reports only descriptors that were watched. -/
def Watched (c₀ : Context Select Slot) (slot : Slot) : Prop :=
  c₀.loop.fds slot slot.fd = true

theorem Watched.owner {c₀ : Context Select Slot} (h₀ : Tracked c₀) {slot : Slot}
    (h : Watched c₀ slot) : ∃ v ∈ c₀.watches, v.fd = slot.fd := by
  refine h₀.owner slot.fd ?_
  unfold Watched Select.fds at h
  split at h
  · exact Or.inl h
  · exact Or.inr h

theorem Round.fds {c₀ c : Context Select Slot} (h : Round c₀ c) {slot : Slot}
    (hslot : Watched c₀ slot) {v : Watch} (hv : v ∈ c₀.watches) (hfd : v.fd = slot.fd)
    (hlive : v ∈ c.watches) : c.loop.fds slot slot.fd = true := by
  obtain ⟨hr, hw⟩ := h.bits v hv hlive
  rw [hfd] at hr hw
  unfold Watched Select.fds at hslot
  unfold Select.fds
  by_cases hread : slot.read
  · rw [if_pos hread] at hslot ⊢
    rw [hr, hslot]
  · rw [if_neg hread] at hslot ⊢
    rw [hw, hslot]

/-- The assertions that a turn can fail. -/
def Slot.site (slot : Slot) : Site := if slot.read then .dispatchRead else .dispatchWrite

/-- All turns so far have called a watch. -/
structure Going (c₀ c : Context Select Slot) : Prop extends Round c₀ c where
  spent : ∀ t ∈ c.turns, Spent c₀ t

/-- How a round can stop: in a callback, or because a descriptor has lost its watch. -/
inductive Ended (c₀ : Context Select Slot) (f : Fault) (c : Context Select Slot) : Prop
  | callback (hf : Blame Select.callbacks f) (hc : Going c₀ c)
  | lost (slot : Slot) (hf : f = .assertion slot.site) (t : Turn Slot) (ht : t ∈ c.turns)
      (hbroken : Broken c₀ t)

theorem selectDispatch_sat (act : Callback Select Slot) {c₀ c : Context Select Slot}
    (h₀ : Tracked c₀) (hc : Going c₀ c) {slot : Slot} (hslot : Watched c₀ slot) :
    Sat (selectDispatch act slot) (c.turn slot) (fun _ c' => Going c₀ c')
      (fun f c' => Ended c₀ f c') := by
  obtain ⟨v, hv, hvfd⟩ := Watched.owner h₀ hslot
  simp only [selectDispatch, sat_bind, sat_get]
  have hloop : (c.turn slot).loop = c.loop := rfl
  rw [hloop]
  split
  · rename_i hassert
    refine .lost slot rfl _ List.mem_cons_self ⟨v, hv, hvfd, ?_⟩
    refine (hc.known v hv).resolve_left fun hlive => ?_
    rcases hassert with hbelow | hbit
    · have := hc.below v hlive
      omega
    · exact hbit (hc.toRound.fds hslot hv hvfd hlive)
  · rename_i hassert
    simp only [not_or, not_not] at hassert
    obtain ⟨w, hw, hwfd⟩ := Watched.owner hc.toTracked hassert.2
    have hsource := hc.source w hw
    rw [hwfd] at hsource
    simp only [hsource]
    -- The watch the descriptor has now is the one it had, or a later one in its place.
    have hspent : ∀ events, Spent c₀ ⟨slot, c.watches, c.removed, [⟨w, events⟩]⟩ := by
      intro events
      refine ⟨w, events, rfl, hw, hc.gone w hw, v, hv, hvfd, ?_⟩
      rcases hc.known v hv with hlive | hgone
      · exact Or.inr (hc.eq_of_fd hlive hw (hvfd.trans hwfd.symm))
      · exact Or.inl hgone
    have hafter : ∀ events c', Changes Select.callbacks ((c.turn slot).called ⟨w, events⟩) c' →
        Going c₀ c' := by
      intro events c' h
      refine ⟨h.keep (fun _ _ hstep => hstep.round) ((hc.toRound.turn slot).called _), ?_⟩
      intro t ht
      rw [h.turns] at ht
      rcases List.mem_cons.mp ht with rfl | ht
      · exact hspent events
      · exact hc.spent t ht
    exact (dispatch_sat (hc.toRound.turn slot).toSound hw _).mono (fun _ c' h => hafter _ c' h)
      (fun _ c' h => .callback h.2 (hafter _ c' h.1))

theorem serve_sat (act : Callback Select Slot) {c₀ c : Context Select Slot} (h₀ : Tracked c₀)
    (hc : Going c₀ c) {fds : Nat → Bool} {slot : Slot}
    (hfds : fds slot.fd = true → Watched c₀ slot) :
    Sat (serve act fds slot) c (fun _ c' => Going c₀ c') (fun f c' => Ended c₀ f c') := by
  unfold serve
  split
  · rename_i hbit
    simp only [sat_bind, sat_modify]
    exact selectDispatch_sat act h₀ hc (hfds hbit)
  · exact hc

theorem serveFrom_sat (act : Callback Select Slot) {c₀ : Context Select Slot} (h₀ : Tracked c₀)
    {rfds wfds : Nat → Bool} (hrfds : ∀ fd, rfds fd = true → Watched c₀ ⟨fd, true⟩)
    (hwfds : ∀ fd, wfds fd = true → Watched c₀ ⟨fd, false⟩) (left : Nat) :
    ∀ (fd : Nat) (c : Context Select Slot), Going c₀ c →
      Sat (serveFrom act rfds wfds left fd) c (fun _ c' => Going c₀ c')
        (fun f c' => Ended c₀ f c') := by
  induction left with
  | zero => intro fd c hc; exact hc
  | succ left ih =>
      intro fd c hc
      simp only [serveFrom, sat_bind]
      refine (serve_sat act h₀ hc (hrfds fd)).mono (fun _ c₁ h₁ => ?_) (fun _ _ h => h)
      refine (serve_sat act h₀ h₁ (hwfds fd)).mono (fun _ c₂ h₂ => ?_) (fun _ _ h => h)
      exact ih (fd + 1) c₂ h₂

theorem applyFds_watched {l : Select} {own : Nat → Bool} {fd : Nat} {b : Bool}
    (h : (l.applyFds own (fun _ => false) fd && b) = true) : own fd = true := by
  simp only [Select.applyFds, Bool.and_eq_true, Bool.false_or] at h
  exact h.1.2

theorem selectWait_sat (act : Callback Select Slot) (ready : Slot → Bool)
    {c : Context Select Slot} (hc : Tracked c) :
    Sat (selectWait act ready) c (fun _ c' => Going c c') (fun f c' => Ended c f c') := by
  simp only [selectWait, sat_bind, sat_modify, sat_get]
  refine serveFrom_sat act hc (fun fd h => applyFds_watched h) (fun fd h => applyFds_watched h) _
    0 _ ?_
  refine ⟨⟨⟨⟨hc.apart, hc.total, hc.share, hc.old, hc.gone⟩, hc.bit, hc.below, hc.source,
    hc.owner⟩, fun w hw => Or.inl hw, fun w _ _ => ⟨rfl, rfl⟩⟩, ?_⟩
  simp

theorem Select.Reached.tracked {c : Context Select Slot} (h : Select.Reached c) : Tracked c := by
  induction h with
  | start =>
      exact ⟨⟨.nil, rfl, fun _ => rfl, by simp, by simp⟩, by simp, by simp, by simp, by simp⟩
  | operate _ op hrun ih =>
      exact ((perform_sat ih.toSound op).of_ok hrun).keep (fun _ _ hstep => hstep.tracked) ih
  | wait _ act ready hrun ih => exact ((selectWait_sat act ready ih).of_ok hrun).toTracked

/-! ### When a round keeps to its watches -/

/--
A round of `netresolve_select_wait` fails none of the assertions made for its descriptors, and
calls the watch that a descriptor had when `select` was called, while it is still registered.
-/
structure Faithful (act : Callback Select Slot) (ready : Slot → Bool) (c : Context Select Slot) :
    Prop where
  asserts : ∀ f, fails (selectWait act ready) c = some f →
    f ≠ .assertion .dispatchRead ∧ f ≠ .assertion .dispatchWrite ∧ f ≠ .dangling
  owners : ∀ t ∈ (final (selectWait act ready) c).turns, ∀ d ∈ t.calls,
    d.watch ∈ c.watches ∧ d.watch.fd = t.key.fd ∧ d.watch ∈ t.watches

/--
No turn of the round comes after the removal of the watch that its descriptor had when `select`
was called.
-/
def Undisturbed (act : Callback Select Slot) (ready : Slot → Bool) (c : Context Select Slot) :
    Prop :=
  ∀ t ∈ (final (selectWait act ready) c).turns, ∀ w ∈ c.watches, w.fd = t.key.fd → w ∉ t.removed

theorem Going.faithful_iff {c₀ c : Context Select Slot} (h₀ : Tracked c₀) (hc : Going c₀ c) :
    (∀ t ∈ c.turns, ∀ d ∈ t.calls,
        d.watch ∈ c₀.watches ∧ d.watch.fd = t.key.fd ∧ d.watch ∈ t.watches) ↔
      ∀ t ∈ c.turns, ∀ w ∈ c₀.watches, w.fd = t.key.fd → w ∉ t.removed := by
  constructor
  · intro h t ht w hw hwfd hgone
    obtain ⟨x, events, hcalls, hlive, hpresent, v, hv, hvfd, hor⟩ := hc.spent t ht
    obtain ⟨hx, hxfd, _⟩ := h t ht ⟨x, events⟩ (hcalls ▸ List.mem_singleton.mpr rfl)
    have hxw : x = w := h₀.eq_of_fd hx hw (hxfd.trans hwfd.symm)
    exact hpresent (hxw ▸ hgone)
  · intro h t ht d hd
    obtain ⟨x, events, hcalls, hlive, hpresent, v, hv, hvfd, hor⟩ := hc.spent t ht
    rw [hcalls] at hd
    rw [List.mem_singleton.mp hd]
    have hvx : v = x := hor.resolve_left (h t ht v hv hvfd)
    exact ⟨hvx ▸ hv, hvx ▸ hvfd, hlive⟩

theorem Slot.site_cases (slot : Slot) : slot.site = .dispatchRead ∨ slot.site = .dispatchWrite := by
  unfold Slot.site
  split
  · exact Or.inl rfl
  · exact Or.inr rfl

/--
**A round of the select loop is faithful if and only if it is not disturbed.**  In every state a
program can reach, for every set of descriptors that `select` reports and all callbacks: the
assertions of `netresolve_select_dispatch_read` and `netresolve_select_dispatch_write` hold and
each ready descriptor goes to the watch it had when `select` was called, exactly when no watch
is removed before the turn of its descriptor.
-/
theorem faithful_iff_undisturbed {c : Context Select Slot} (hc : Select.Reached c)
    (act : Callback Select Slot) (ready : Slot → Bool) :
    Faithful act ready c ↔ Undisturbed act ready c := by
  have h₀ := hc.tracked
  have hsat := selectWait_sat act ready h₀
  unfold Undisturbed
  cases hrun : selectWait act ready c with
  | ok _ c' =>
      have hgoing := hsat.of_ok hrun
      have hiff := hgoing.faithful_iff h₀
      have hfinal := final_of_ok hrun
      rw [hfinal]
      refine ⟨fun h => hiff.mp (hfinal ▸ h.owners), fun h => ⟨?_, hfinal ▸ hiff.mpr h⟩⟩
      intro f hf
      unfold fails at hf
      rw [hrun] at hf
      cases hf
  | error f c' =>
      have hfails : fails (selectWait act ready) c = some f := by
        unfold fails
        rw [hrun]
      have hfinal : final (selectWait act ready) c = c' := by
        unfold final
        rw [hrun]
      rw [hfinal]
      cases hsat.of_error hrun with
      | callback hf hgoing =>
          have hiff := hgoing.faithful_iff h₀
          refine ⟨fun h => hiff.mp (hfinal ▸ h.owners), fun h => ⟨?_, hfinal ▸ hiff.mpr h⟩⟩
          intro f' hf'
          rw [hfails] at hf'
          obtain rfl := Option.some.inj hf'
          exact Select.blame hf
      | lost slot hf t ht hbroken =>
          constructor
          · intro h
            obtain ⟨hread, hwrite, _⟩ := h.asserts f hfails
            rcases slot.site_cases with hsite | hsite
            · exact absurd (hsite ▸ hf) hread
            · exact absurd (hsite ▸ hf) hwrite
          · intro h
            obtain ⟨v, hv, hvfd, hgone⟩ := hbroken
            exact absurd hgone (h t ht v hv hvfd)

/-- Two watches for reading, of two queries. -/
def twoDescriptors : Context Select Slot :=
  final (performAll Select.callbacks [.add 16 0 3 pollin true, .add 32 1 4 pollin true])
    { loop := {} }

theorem twoDescriptors_reached : Select.Reached twoDescriptors := by
  have hfirst := Select.Reached.operate .start (.add 16 0 3 pollin true) (ok_of_returns rfl)
  exact Select.Reached.operate hfirst (.add 32 1 4 pollin true) (ok_of_returns rfl)

theorem undisturbed_round_faithful :
    Select.Reached twoDescriptors ∧
      Faithful (fun _ w _ => [.remove w.address true]) (fun _ => true) twoDescriptors := by
  refine ⟨twoDescriptors_reached, (faithful_iff_undisturbed twoDescriptors_reached _ _).mpr ?_⟩
  unfold Undisturbed
  decide +kernel

/--
Both descriptors are ready, and the callback of the first ends the query that the second belongs
to, so that its watch is removed.
-/
theorem removed_watch_fails_assertion :
    Select.Reached twoDescriptors ∧
      ¬ Faithful (fun _ _ _ => [.remove 32 true]) (fun _ => true) twoDescriptors := by
  refine ⟨twoDescriptors_reached, fun h => ?_⟩
  have hfails : fails (selectWait (fun _ _ _ => [.remove 32 true]) fun _ => true) twoDescriptors =
      some (.assertion .dispatchRead) := by
    decide +kernel
  exact (h.asserts _ hfails).1 rfl

end Netresolve.Loop
