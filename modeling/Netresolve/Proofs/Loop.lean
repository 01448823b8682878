/-
What the callbacks of one turn can do to the watches, and the epoll loop over it.

Everything a callback does is a sequence of changes, each of which adds or removes one watch.
The loop never finds out about them from the callback.  What it relies on is that the removal of
a watch clears the entries of the batch that point to it, before its address can be given out
again: an entry that is not clear points to the watch it was written for.
-/
import Netresolve.Core.Loop
import Mathlib.Logic.Relation
import Mathlib.Data.List.Forall2

namespace Netresolve.Loop

open Outcome Relation

variable {σ κ : Type} {cb : Callbacks σ}

/-! ### What one operation does -/

/-- One watch is added or removed. -/
inductive Change (cb : Callbacks σ) : Context σ κ → Context σ κ → Prop
  | add {c : Context σ κ} {w : Watch} {loop : σ} {events : Nat} {answer : Bool}
      (haddress : c.at w.address = none) (hserial : w.serial = c.next)
      (hrun : cb.addWatch answer w.fd events w.address c.loop = .ok (w.handle, loop)) :
      Change cb c (c.added w loop)
  | remove {c : Context σ κ} {w : Watch} {loop : σ} {answer : Bool}
      (haddress : c.at w.address = some w)
      (hrun : cb.removeWatch answer w.fd w.handle c.loop = .ok loop) :
      Change cb c (c.dropped w loop)

/-- The faults an operation can end in. -/
inductive Blame (cb : Callbacks σ) : Fault → Prop
  | watchAdd : Blame cb (.assertion .watchAdd)
  | add {answer : Bool} {fd events address : Nat} {loop : σ} {e : Fault}
      (h : cb.addWatch answer fd events address loop = .error e) : Blame cb e
  | remove {answer : Bool} {fd : Nat} {handle : Option Nat} {loop : σ} {e : Fault}
      (h : cb.removeWatch answer fd handle loop = .error e) : Blame cb e

abbrev Changes (cb : Callbacks σ) : Context σ κ → Context σ κ → Prop :=
  ReflTransGen (Change cb)

theorem watchAdd_sat {c : Context σ κ} {address query fd events : Nat} {answer : Bool}
    (haddress : c.at address = none) :
    Sat (watchAdd cb address query fd events answer) c (fun _ c' => Changes cb c c')
      (fun e c' => Changes cb c c' ∧ Blame cb e) := by
  unfold watchAdd
  simp only [sat_bind, sat_get]
  split
  · exact ⟨.refl, .watchAdd⟩
  · cases hrun : cb.addWatch answer fd events address c.loop with
    | error e => exact ⟨.refl, .add hrun⟩
    | ok r =>
        exact .single (.add (w := ⟨c.next, address, query, fd, r.1⟩) haddress rfl hrun)

theorem at_address {c : Context σ κ} {address : Nat} {w : Watch} (h : c.at address = some w) :
    w.address = address := by
  simpa using List.find?_some h

theorem at_mem {c : Context σ κ} {address : Nat} {w : Watch} (h : c.at address = some w) :
    w ∈ c.watches :=
  List.mem_of_find?_eq_some h

/-! ### The watches of a context -/

/-- The watches are allocated blocks that are counted, and a removed watch never comes back. -/
structure Sound (c : Context σ κ) : Prop where
  apart : c.watches.Pairwise fun v w => v.address ≠ w.address
  total : c.nfds = c.watches.length
  share : ∀ q, c.queryNfds q = c.watches.countP (·.query = q)
  old : ∀ w, w ∈ c.watches ∨ w ∈ c.removed → w.serial < c.next
  gone : ∀ w ∈ c.watches, w ∉ c.removed

theorem find_address {watches : List Watch} {w : Watch} (hw : w ∈ watches)
    (hapart : watches.Pairwise fun v w => v.address ≠ w.address) :
    watches.find? (·.address = w.address) = some w := by
  induction watches with
  | nil => simp at hw
  | cons v rest ih =>
      obtain ⟨hv, hrest⟩ := List.pairwise_cons.mp hapart
      rw [List.find?_cons]
      by_cases hc : v.address = w.address
      · rcases List.mem_cons.mp hw with rfl | hmem
        · simp
        · exact absurd hc (hv w hmem)
      · have hmem : w ∈ rest := by
          rcases List.mem_cons.mp hw with rfl | hmem
          · exact absurd rfl hc
          · exact hmem
        simp only [hc, decide_false]
        exact ih hmem hrest

theorem Sound.at_of_mem {c : Context σ κ} (h : Sound c) {w : Watch} (hw : w ∈ c.watches) :
    c.at w.address = some w :=
  find_address hw h.apart

/-- The assertions of `netresolve_watch_remove` hold for a watch of the context. -/
theorem Sound.removable {c : Context σ κ} (h : Sound c) {w : Watch} (hw : w ∈ c.watches) :
    ¬ (c.queryNfds w.query = 0 ∨ c.nfds = 0) := by
  have hlength : 0 < c.watches.length := List.length_pos_of_mem hw
  have hcount : 0 < c.watches.countP (·.query = w.query) :=
    List.countP_pos_iff.mpr ⟨w, hw, by simp⟩
  rw [h.total, h.share]
  omega

theorem Sound.eq_of_address {c : Context σ κ} (h : Sound c) {v w : Watch} (hv : v ∈ c.watches)
    (hw : w ∈ c.watches) (heq : v.address = w.address) : v = w := by
  have h₁ := h.at_of_mem hv
  rw [heq, h.at_of_mem hw] at h₁
  exact (Option.some.inj h₁).symm

theorem Sound.nodup {c : Context σ κ} (h : Sound c) : c.watches.Nodup :=
  h.apart.imp fun hne heq => hne (congrArg Watch.address heq)

theorem address_ne_of_at_none {c : Context σ κ} {address : Nat} (h : c.at address = none) {w : Watch}
    (hw : w ∈ c.watches) : address ≠ w.address := by
  intro heq
  have := List.find?_eq_none.mp h w hw
  simp [heq] at this

theorem Change.sound {c c' : Context σ κ} (h : Change cb c c') (hc : Sound c) : Sound c' := by
  cases h with
  | @add w loop events answer haddress hserial hrun =>
      refine ⟨?_, ?_, ?_, ?_, ?_⟩
      · exact List.pairwise_cons.mpr
          ⟨fun v hv => address_ne_of_at_none haddress hv, hc.apart⟩
      · exact congrArg (· + 1) hc.total
      · intro q
        simp only [Context.added, List.countP_cons, hc.share q]
        by_cases hq : q = w.query
        · simp [hq]
        · simp [hq, Ne.symm hq]
      · intro v hv
        show v.serial < c.next + 1
        rcases hv with hv | hv
        · rcases List.mem_cons.mp hv with rfl | hv
          · omega
          · exact Nat.lt_succ_of_lt (hc.old v (Or.inl hv))
        · exact Nat.lt_succ_of_lt (hc.old v (Or.inr hv))
      · intro v hv hgone
        rcases List.mem_cons.mp hv with rfl | hv
        · have := hc.old v (Or.inr hgone)
          omega
        · exact hc.gone v hv hgone
  | @remove w loop answer haddress hrun =>
      have hw := at_mem haddress
      refine ⟨?_, ?_, ?_, ?_, ?_⟩
      · exact hc.apart.sublist List.erase_sublist
      · simp only [Context.dropped, List.length_erase_of_mem hw, hc.total]
      · intro q
        have hcount := (List.perm_cons_erase hw).countP_eq (·.query = q)
        rw [List.countP_cons] at hcount
        simp only [Context.dropped, hc.share q]
        by_cases hq : q = w.query
        · simp only [hq, decide_true, if_true] at hcount ⊢
          omega
        · simp only [hq, Ne.symm hq, decide_false, Bool.false_eq_true, if_false] at hcount ⊢
          omega
      · intro v hv
        rcases hv with hv | hv
        · exact hc.old v (Or.inl (List.mem_of_mem_erase hv))
        · rcases List.mem_cons.mp hv with rfl | hv
          · exact hc.old v (Or.inl hw)
          · exact hc.old v (Or.inr hv)
      · intro v hv hgone
        obtain ⟨hne, hmem⟩ := (hc.nodup.mem_erase_iff).mp hv
        rcases List.mem_cons.mp hgone with rfl | hgone
        · exact hne rfl
        · exact hc.gone v hmem hgone

theorem Change.turns {c c' : Context σ κ} (h : Change cb c c') : c'.turns = c.turns := by
  cases h <;> rfl

/-- A watch goes from the watches there are to the watches removed, or it stays. -/
theorem Change.known {c c' : Context σ κ} (h : Change cb c c') {w : Watch}
    (hw : w ∈ c.watches ∨ w ∈ c.removed) : w ∈ c'.watches ∨ w ∈ c'.removed := by
  cases h with
  | add haddress hserial hrun =>
      rcases hw with hw | hw
      · exact Or.inl (List.mem_cons_of_mem _ hw)
      · exact Or.inr hw
  | @remove v loop answer haddress hrun =>
      rcases hw with hw | hw
      · by_cases hv : w = v
        · exact Or.inr (hv ▸ List.mem_cons_self)
        · exact Or.inl ((List.mem_erase_of_ne hv).mpr hw)
      · exact Or.inr (List.mem_cons_of_mem _ hw)

theorem Changes.sound {c c' : Context σ κ} (h : Changes cb c c') (hc : Sound c) : Sound c' := by
  induction h with
  | refl => exact hc
  | tail _ hstep ih => exact hstep.sound ih

theorem Changes.turns {c c' : Context σ κ} (h : Changes cb c c') : c'.turns = c.turns := by
  induction h with
  | refl => rfl
  | tail _ hstep ih => rw [hstep.turns, ih]

/-- What every change keeps is kept by all of them. -/
theorem Changes.keep {P : Context σ κ → Prop} (hP : ∀ c c', Change cb c c' → P c → P c')
    {c c' : Context σ κ} (h : Changes cb c c') (hc : P c) : P c' := by
  induction h with
  | refl => exact hc
  | tail _ hstep ih => exact hP _ _ hstep ih

theorem watchRemove_sat {c : Context σ κ} (hc : Sound c) {w : Watch} {answer : Bool}
    (haddress : c.at w.address = some w) :
    Sat (watchRemove cb w answer) c (fun _ c' => Changes cb c c')
      (fun e c' => Changes cb c c' ∧ Blame cb e) := by
  unfold watchRemove
  simp only [sat_bind, sat_get]
  rw [if_neg (hc.removable (at_mem haddress))]
  cases hrun : cb.removeWatch answer w.fd w.handle c.loop with
  | error e => exact ⟨.refl, .remove hrun⟩
  | ok loop => exact .single (.remove haddress hrun)

theorem perform_sat {c : Context σ κ} (hc : Sound c) (op : Op) :
    Sat (perform cb op) c (fun _ c' => Changes cb c c')
      (fun e c' => Changes cb c c' ∧ Blame cb e) := by
  cases op with
  | add address query fd events answer =>
      simp only [perform, sat_bind, sat_get]
      cases h : c.at address with
      | some w => exact .refl
      | none => exact watchAdd_sat h
  | remove address answer =>
      simp only [perform, sat_bind, sat_get]
      cases h : c.at address with
      | some w => exact watchRemove_sat hc (by rw [at_address h]; exact h)
      | none => exact .refl

theorem performAll_sat (ops : List Op) : ∀ {c : Context σ κ}, Sound c →
    Sat (performAll cb ops) c (fun _ c' => Changes cb c c')
      (fun e c' => Changes cb c c' ∧ Blame cb e) := by
  induction ops with
  | nil => intro c _; exact .refl
  | cons op rest ih =>
      intro c hc
      rw [performAll, sat_bind]
      refine (perform_sat hc op).mono (fun _ c' h => ?_) (fun _ _ h => h)
      exact (ih (h.sound hc)).mono (fun _ _ h' => h.trans h')
        (fun _ _ h' => ⟨h.trans h'.1, h'.2⟩)

/-! ### The turns of a batch -/

/-- The entries of the batch point to the watches that have not been removed. -/
structure Following (batch : List Ready) (c : Context Epoll Nat) : Prop extends Sound c where
  handles : ∀ w ∈ c.watches, w.handle = some w.address
  events : c.loop.events = batch.map fun e =>
    ⟨if e.watch ∈ c.removed then none else some e.watch.address, e.events⟩
  known : ∀ e ∈ batch, e.watch ∈ c.watches ∨ e.watch ∈ c.removed

/-- The turn of an entry calls its watch, unless that has been removed. -/
structure Served (e : Ready × Nat) (t : Turn Nat) : Prop where
  key : t.key = e.2
  calls : t.calls = if e.1.watch ∈ t.removed then [] else [⟨e.1.watch, e.1.events⟩]
  live : ∀ d ∈ t.calls, d.watch ∈ t.watches

theorem addWatch_ok {answer : Bool} {fd events address : Nat} {l l' : Epoll}
    {handle : Option Nat} (h : Epoll.callbacks.addWatch answer fd events address l = .ok (handle, l')) :
    handle = some address ∧ l'.events = l.events := by
  simp only [Epoll.callbacks, Epoll.addWatch] at h
  split at h
  · cases h
    exact ⟨rfl, rfl⟩
  · cases h

theorem removeWatch_ok {answer : Bool} {fd : Nat} {handle : Option Nat} {l l' : Epoll}
    (h : Epoll.callbacks.removeWatch answer fd handle l = .ok l') :
    l'.events = l.events.map (·.disable handle) := by
  simp only [Epoll.callbacks, Epoll.removeWatch] at h
  split at h
  · cases h
    rfl
  · cases h

theorem Epoll.blame {e : Fault} (h : Blame Epoll.callbacks e) :
    e = .abort ∨ e = .assertion .watchAdd := by
  cases h with
  | watchAdd => exact Or.inr rfl
  | add h =>
      refine Or.inl ?_
      simp only [Epoll.callbacks, Epoll.addWatch] at h
      split at h <;> cases h
      rfl
  | remove h =>
      refine Or.inl ?_
      simp only [Epoll.callbacks, Epoll.removeWatch] at h
      split at h <;> cases h
      rfl

theorem Change.handles {c c' : Context Epoll Nat} (h : Change Epoll.callbacks c c')
    (hc : ∀ w ∈ c.watches, w.handle = some w.address) :
    ∀ w ∈ c'.watches, w.handle = some w.address := by
  intro w hw
  cases h with
  | add haddress hserial hrun =>
      rcases List.mem_cons.mp hw with rfl | hw
      · exact (addWatch_ok hrun).1
      · exact hc w hw
  | remove haddress hrun => exact hc w (List.mem_of_mem_erase hw)

/-- Removing a watch clears exactly the entries that were written for it. -/
theorem Change.following {batch : List Ready} {c c' : Context Epoll Nat}
    (h : Change Epoll.callbacks c c') (hc : Following batch c) : Following batch c' := by
  refine ⟨h.sound hc.toSound, h.handles hc.handles, ?_, fun e he => h.known (hc.known e he)⟩
  cases h with
  | add haddress hserial hrun => exact (addWatch_ok hrun).2.trans hc.events
  | @remove w loop answer haddress hrun =>
      have hw := at_mem haddress
      show loop.events = _
      rw [removeWatch_ok hrun, hc.events, List.map_map, hc.handles w hw]
      apply List.map_congr_left
      intro e he
      simp only [Function.comp_apply, Pending.disable, Context.dropped, List.mem_cons]
      by_cases hgone : e.watch ∈ c.removed
      · simp [hgone]
      · have hlive := (hc.known e he).resolve_right hgone
        by_cases hew : e.watch = w
        · simp [hew]
        · have hne : w.address ≠ e.watch.address := fun heq =>
            hew (hc.eq_of_address hw hlive heq).symm
          simp [hew, hgone, hne]

theorem Following.turn {batch : List Ready} {c : Context Epoll Nat} (h : Following batch c)
    (i : Nat) : Following batch (c.turn i) :=
  ⟨⟨h.apart, h.total, h.share, h.old, h.gone⟩, h.handles, h.events, h.known⟩

theorem Following.called {batch : List Ready} {c : Context Epoll Nat} (h : Following batch c)
    (d : Dispatch) : Following batch (c.called d) :=
  ⟨⟨h.apart, h.total, h.share, h.old, h.gone⟩, h.handles, h.events, h.known⟩

/-- What holds after the turn of an entry, whether or not its callback stops the process. -/
def Turned (batch : List Ready) (e : Ready × Nat) (turns : List (Turn Nat))
    (c : Context Epoll Nat) : Prop :=
  Following batch c ∧ ∃ t, c.turns = t :: turns ∧ Served e t

/-- A call of `netresolve_dispatch` finds the watch at the address. -/
theorem dispatch_sat {act : Callback σ κ} {c : Context σ κ} (hc : Sound c) {w : Watch}
    (hw : w ∈ c.watches) (events : Nat) :
    Sat (dispatch cb act w.address events) c
      (fun _ c' => Changes cb (c.called ⟨w, events⟩) c')
      (fun e c' => Changes cb (c.called ⟨w, events⟩) c' ∧ Blame cb e) := by
  have hsound : Sound (c.called ⟨w, events⟩) :=
    ⟨hc.apart, hc.total, hc.share, hc.old, hc.gone⟩
  simp only [dispatch, sat_bind, sat_get, hc.at_of_mem hw, sat_modify]
  exact performAll_sat _ hsound

theorem dispatchEvent_sat (act : Callback Epoll Nat) {batch : List Ready}
    {c : Context Epoll Nat} (hc : Following batch c) {i : Nat} {e : Ready × Nat}
    (he : batch.zipIdx[i]? = some e) :
    Sat (dispatchEvent act i) c (fun _ c' => Turned batch e c.turns c')
      (fun f c' => Turned batch e c.turns c' ∧ Blame Epoll.callbacks f) := by
  have hget : batch[i]? = some e.1 ∧ e.2 = i := by
    rw [List.getElem?_zipIdx] at he
    cases hb : batch[i]? with
    | none => simp [hb] at he
    | some r =>
        rw [hb] at he
        simp only [Option.map_some, Option.some.injEq] at he
        rw [← he]
        exact ⟨rfl, by simp⟩
  obtain ⟨hbatch, hkey⟩ := hget
  have hevent : c.loop.events[i]? =
      some ⟨if e.1.watch ∈ c.removed then none else some e.1.watch.address, e.1.events⟩ := by
    rw [hc.events, List.getElem?_map, hbatch, Option.map_some]
  have hturn : (c.turn i).loop.events[i]? = c.loop.events[i]? := rfl
  simp only [dispatchEvent, sat_bind, sat_modify, sat_get, hturn, hevent]
  by_cases hgone : e.1.watch ∈ c.removed
  · simp only [hgone, if_true, sat_pure]
    refine ⟨hc.turn i, _, rfl, hkey.symm, ?_, ?_⟩
    · simp [hgone]
    · simp
  · have hlive : e.1.watch ∈ c.watches :=
      (hc.known e.1 (List.mem_of_getElem? hbatch)).resolve_right hgone
    simp only [hgone, if_false]
    -- The callback can change the watches, but not what the turn has called.
    have hafter : ∀ c', Changes Epoll.callbacks
        ((c.turn i).called ⟨e.1.watch, e.1.events⟩) c' → Turned batch e c.turns c' := by
      intro c' h
      refine ⟨h.keep (fun _ _ hstep => hstep.following) ((hc.turn i).called _), ?_⟩
      refine ⟨_, h.turns, hkey.symm, ?_, ?_⟩
      · simp [hgone]
      · intro d hd
        rw [List.mem_singleton.mp hd]
        exact hlive
    exact (dispatch_sat (hc.turn i).toSound hlive e.1.events).mono (fun _ c' h => hafter c' h)
      (fun _ c' h => ⟨hafter c' h.1, h.2⟩)

theorem dispatchFrom_sat (act : Callback Epoll Nat) {batch : List Ready} (left : Nat) :
    ∀ (i : Nat) (c : Context Epoll Nat), i + left = batch.length → Following batch c →
      List.Forall₂ Served (batch.zipIdx.take i) c.turns.reverse →
      Sat (dispatchFrom act left i) c
        (fun _ c' => Following batch c' ∧ List.Forall₂ Served batch.zipIdx c'.turns.reverse)
        (fun f c' => Blame Epoll.callbacks f ∧
          ∃ n, List.Forall₂ Served (batch.zipIdx.take n) c'.turns.reverse) := by
  induction left with
  | zero =>
      intro i c hi hc hturns
      refine ⟨hc, ?_⟩
      rwa [List.take_of_length_le (by simp; omega)] at hturns
  | succ left ih =>
      intro i c hi hc hturns
      have hlt : i < batch.zipIdx.length := by simp; omega
      have hnext : ∀ c', Turned batch batch.zipIdx[i] c.turns c' →
          List.Forall₂ Served (batch.zipIdx.take (i + 1)) c'.turns.reverse := by
        intro c' h
        obtain ⟨_, t, ht, hserved⟩ := h
        rw [ht, List.reverse_cons, List.take_succ_eq_append_getElem hlt]
        exact List.rel_append hturns (.cons hserved .nil)
      rw [dispatchFrom, sat_bind]
      refine (dispatchEvent_sat act hc (List.getElem?_eq_getElem hlt)).mono
        (fun _ c' h => ?_) (fun f c' h => ⟨h.2, i + 1, hnext c' h.1⟩)
      exact ih (i + 1) c' (by omega) h.1 (hnext c' h)

theorem dispatchEvents_sat (act : Callback Epoll Nat) {batch : List Ready}
    {c : Context Epoll Nat} (hc : Sound c) (hhandles : ∀ w ∈ c.watches, w.handle = some w.address)
    (hbatch : ∀ e ∈ batch, e.watch ∈ c.watches) :
    Sat (dispatchEvents act (some batch)) c
      (fun _ c' => Following batch c' ∧ List.Forall₂ Served batch.zipIdx c'.turns.reverse)
      (fun f c' => Blame Epoll.callbacks f ∧
        ∃ n, List.Forall₂ Served (batch.zipIdx.take n) c'.turns.reverse) := by
  simp only [dispatchEvents, sat_bind, sat_modify, sat_get, sat_pure]
  refine dispatchFrom_sat act batch.length 0 _ (by omega) ?_ (by simp)
  refine ⟨⟨hc.apart, hc.total, hc.share, hc.old, hc.gone⟩, hhandles, ?_, ?_⟩
  · apply List.map_congr_left
    intro e he
    simp [hc.gone e.watch (hbatch e he)]
  · intro e he
    exact Or.inl (hbatch e he)

theorem Epoll.Reached.sound {c : Context Epoll Nat} (h : Epoll.Reached c) :
    Sound c ∧ ∀ w ∈ c.watches, w.handle = some w.address := by
  induction h with
  | start => exact ⟨⟨.nil, rfl, fun _ => rfl, by simp, by simp⟩, by simp⟩
  | operate _ op hrun ih =>
      have hchanges := (perform_sat ih.1 op).of_ok hrun
      exact ⟨hchanges.sound ih.1, hchanges.keep (fun _ _ hstep => hstep.handles) ih.2⟩
  | batch _ act batch hbatch hrun ih =>
      have hfollowing := ((dispatchEvents_sat act ih.1 ih.2 hbatch).of_ok hrun).1
      exact ⟨hfollowing.toSound, hfollowing.handles⟩

/--
**A batch is dispatched in order to the watches that are left.**  In every state a program can
reach, for every batch of registered watches and all callbacks: the turns of the batch follow
its entries one by one, and a turn calls `netresolve_dispatch` once, with the watch the entry
was written for, if that watch has not been removed before the turn, and not at all if it has.
A watch that is called is registered at that moment.  All the turns take place unless a
callback stops the process.
-/
theorem batch_dispatched_to_registered {c : Context Epoll Nat} (h : Epoll.Reached c)
    (act : Callback Epoll Nat) (batch : List Ready)
    (hbatch : ∀ e ∈ batch, e.watch ∈ c.watches) :
    Sat (dispatchEvents act (some batch)) c
      (fun _ c' => List.Forall₂ Served batch.zipIdx c'.turns.reverse)
      (fun f c' => (f = .abort ∨ f = .assertion .watchAdd) ∧
        ∃ n, List.Forall₂ Served (batch.zipIdx.take n) c'.turns.reverse) :=
  (dispatchEvents_sat act h.sound.1 h.sound.2 hbatch).mono (fun _ _ h => h.2)
    (fun _ _ h => ⟨Epoll.blame h.1, h.2⟩)

/-- Two watches, of two queries. -/
def twoWatches : Context Epoll Nat :=
  final (performAll Epoll.callbacks [.add 16 0 3 pollin true, .add 32 1 4 pollin true])
    { loop := {} }

theorem twoWatches_reached : Epoll.Reached twoWatches := by
  have hfirst := Epoll.Reached.operate .start (.add 16 0 3 pollin true) (ok_of_returns rfl)
  exact Epoll.Reached.operate hfirst (.add 32 1 4 pollin true) (ok_of_returns rfl)

/-- The first callback removes the other watch and gives its address to a new one. -/
def reuseAddress : Callback Epoll Nat := fun _ w _ =>
  if w.address = 16 then [.remove 32 true, .add 32 0 5 pollin true] else []

theorem reused_address_not_dispatched :
    Epoll.Reached twoWatches ∧
      ∃ batch : List Ready, batch.map (·.watch.address) = [16, 32] ∧
        (∀ e ∈ batch, e.watch ∈ twoWatches.watches) ∧
        (final (dispatchEvents reuseAddress (some batch)) twoWatches).watches.map
          (fun w => (w.serial, w.address)) = [(2, 32), (0, 16)] ∧
        Sat (dispatchEvents reuseAddress (some batch)) twoWatches
          (fun _ c' => List.Forall₂ Served batch.zipIdx c'.turns.reverse)
          (fun f c' => (f = .abort ∨ f = .assertion .watchAdd) ∧
            ∃ n, List.Forall₂ Served (batch.zipIdx.take n) c'.turns.reverse) :=
  ⟨twoWatches_reached, twoWatches.watches.reverse.map (⟨·, pollin⟩), by decide +kernel,
    by decide +kernel, by decide +kernel,
    batch_dispatched_to_registered twoWatches_reached _ _ (by decide +kernel)⟩

end Netresolve.Loop
