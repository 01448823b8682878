/-
The watch list, the counters and the timers agree.

`Ledger R L s` says that the query has exactly the watches numbered in `L`, that its
own counter is their number, and that the counters of the context and of the loop are
that number plus the watches `R` of other queries.  `Books` closes it off: the
watches are those of the three timers and those the running backend remembers in its
private data, and no other entry of the backend list has private data.

Each function of `lib/event.c` is a lemma here.  `cleanupQuery_clean` is the one the
rest rests on: leaving a backend leaves no watch behind.
-/
import Netresolve.Proofs.Frame
import Mathlib.Data.List.Nodup

namespace Netresolve

open Outcome

/-- The numbers of the timers that are set. -/
def Query.timers (q : Query) : List Nat :=
  q.delayed.toList ++ q.requestTimeout.toList ++ q.resultTimeout.toList

/-- The watches the running backend remembers. -/
def St.owned (s : St) : List Nat :=
  ((backendGetPriv s).map (·.watches)).getD []

/-- The watches of the query are those numbered in `L`, and all counters count them. -/
structure Ledger (R : List Nat) (L : List Nat) (s : St) : Prop where
  count : s.query.nfds = s.query.watches.length
  total : s.context.nfds = R.length + s.query.nfds
  loop : s.context.loop.count = s.context.nfds
  registered : s.context.loop.registered.Perm (R ++ L)
  ids : (s.query.watches.map (·.id)).Perm L
  nodup : L.Nodup
  fresh : ∀ w ∈ L, w < s.context.next

/-- A watch is that of a timer exactly if the timer refers to it. -/
def Kinds (s : St) : Prop :=
  ∀ x ∈ s.query.watches, ∀ t, x.callback = .timeout t ↔ s.query.timeout t = some x.id

/-- Every other watch was added by the running backend. -/
def Mine (s : St) : Prop :=
  ∀ x ∈ s.query.watches, ∀ i, x.callback = .backend i → i = s.query.cursor

/-- Only the entry under the cursor has private data, and it is the query's own. -/
def OwnData (s : St) : Prop :=
  ∀ i b block, s.backends[i]? = some b → b.data = some block →
    i = s.query.cursor ∧ block.query = s.query.id ∧ b.cleanup = true

/-- Every watch belongs to a timer or to the running backend. -/
structure Books (R : List Nat) (s : St) : Prop where
  ledger : Ledger R (s.query.timers ++ s.owned) s
  kinds : Kinds s
  mine : Mine s
  data : OwnData s

/-- A run stops only where the source calls `abort()` after a failed system call. -/
def OnlyAbort (e : Fault) (_ : St) : Prop := e = .abort

/-! ### The three timers -/

theorem timers_setTimeout (q : Query) (t : Timer) (w : Nat) (h : q.timeout t = none) :
    (q.setTimeout t (some w)).timers.Perm (w :: q.timers) := by
  cases t <;> simp only [Query.timeout] at h
  · simp [Query.timers, Query.setTimeout, h]
  · simp only [Query.timers, Query.setTimeout, h, Option.toList_some, Option.toList_none,
      List.append_nil]
    exact List.perm_append_comm.append_right _
  · simp only [Query.timers, Query.setTimeout, h, Option.toList_some, Option.toList_none,
      List.append_nil]
    exact List.perm_append_comm

theorem timers_clear (q : Query) (t : Timer) (w : Nat) (h : q.timeout t = some w) :
    q.timers.Perm (w :: (q.setTimeout t none).timers) := by
  have hq : q = (q.setTimeout t none).setTimeout t (some w) := by
    cases t <;> simp only [Query.timeout] at h <;> cases q <;> simp_all [Query.setTimeout]
  have hnone : (q.setTimeout t none).timeout t = none := by cases t <;> rfl
  have hperm := timers_setTimeout (q.setTimeout t none) t w hnone
  rwa [← hq] at hperm

theorem mem_timers {q : Query} {t : Timer} {w : Nat} (h : q.timeout t = some w) :
    w ∈ q.timers := by
  cases t <;> simp only [Query.timeout] at h <;> simp [Query.timers, h]

theorem timeout_setTimeout_self (q : Query) (t : Timer) (w : Option Nat) :
    (q.setTimeout t w).timeout t = w := by cases t <;> rfl

theorem timeout_setTimeout_ne (q : Query) {t t' : Timer} (w : Option Nat) (h : t' ≠ t) :
    (q.setTimeout t w).timeout t' = q.timeout t' := by
  cases t <;> cases t' <;> first | rfl | exact absurd rfl h

theorem setTimeout_watches (q : Query) (t : Timer) (w : Option Nat) :
    (q.setTimeout t w).watches = q.watches ∧ (q.setTimeout t w).nfds = q.nfds := by
  cases t <;> exact ⟨rfl, rfl⟩

theorem timers_eq_nil {q : Query} (h : ∀ t, q.timeout t = none) : q.timers = [] := by
  have h1 := h .delayed
  have h2 := h .requestTimeout
  have h3 := h .resultTimeout
  simp only [Query.timeout] at h1 h2 h3
  simp [Query.timers, h1, h2, h3]

/-! ### Adding and removing a watch -/

/-- The state after `netresolve_watch_add`. -/
def St.link (s : St) (fd : Fd) (callback : WatchCallback) : St :=
  { s with
    query := { s.query with
      watches := s.query.watches ++ [⟨s.context.next, fd, callback⟩], nfds := s.query.nfds + 1 }
    context := { s.context with
      nfds := s.context.nfds + 1
      loop := { s.context.loop with
        registered := s.context.next :: s.context.loop.registered
        count := s.context.loop.count + 1 }
      next := s.context.next + 1 } }

theorem sat_watchAdd (env : Env) (fd : Fd) (callback : WatchCallback) (s : St)
    (Q : Nat → St → Prop) (hQ : Q s.context.next (s.link fd callback)) :
    Sat (watchAdd env fd callback) s Q OnlyAbort := by
  simp only [watchAdd, epollAddWatch, modifyContext, modifyQuery, sat_bind, sat_get, sat_ite,
    sat_modify, sat_throw, sat_pure]
  exact ⟨fun _ => hQ, fun _ => rfl⟩

theorem Ledger.link {R : List Nat} {L : List Nat} {s : St} (h : Ledger R L s) (fd : Fd)
    (callback : WatchCallback) : Ledger R (s.context.next :: L) (s.link fd callback) := by
  refine ⟨?_, ?_, ?_, ?_, ?_, ?_, ?_⟩
  · simp [St.link, h.count]
  · simp only [St.link, h.total]; omega
  · simp [St.link, h.loop]
  · exact (h.registered.cons _).trans List.perm_middle.symm
  · simp only [St.link, List.map_append, List.map_cons, List.map_nil]
    exact (h.ids.append_right _).trans List.perm_append_comm
  · exact List.nodup_cons.mpr ⟨fun hw => Nat.lt_irrefl _ (h.fresh _ hw), h.nodup⟩
  · intro w hw
    rcases List.mem_cons.mp hw with rfl | hw'
    · exact Nat.lt_succ_self _
    · exact Nat.lt_succ_of_lt (h.fresh w hw')

theorem Ledger.perm {R : List Nat} {L L' : List Nat} {s : St} (h : Ledger R L s) (hp : L.Perm L') :
    Ledger R L' s :=
  ⟨h.count, h.total, h.loop, h.registered.trans (hp.append_left R), h.ids.trans hp, hp.nodup_iff.mp h.nodup,
    fun w hw => h.fresh w (hp.mem_iff.mpr hw)⟩

/-- The state after `netresolve_watch_remove`, up to the descriptors that are open. -/
structure Unlinked (w : Nat) (s s' : St) : Prop where
  query : s'.query = { s.query with
    watches := s.query.watches.eraseP (·.id = w), nfds := s.query.nfds - 1 }
  backends : s'.backends = s.backends
  trace : s'.trace = s.trace
  nfds : s'.context.nfds = s.context.nfds - 1
  loop : s'.context.loop.count = s.context.loop.count - 1
  registered : s'.context.loop.registered = s.context.loop.registered.erase w
  next : s'.context.next = s.context.next

theorem map_id_eraseP (ws : List Watch) (w : Nat) :
    (ws.eraseP (·.id = w)).map (·.id) = (ws.map (·.id)).erase w := by
  induction ws with
  | nil => rfl
  | cons x rest ih =>
      by_cases hx : x.id = w
      · simp [hx]
      · simp [hx, ih]

theorem Ledger.unlink {R : List Nat} {L : List Nat} {w : Nat} {s s' : St}
    (h : Ledger R (w :: L) s) (hu : Unlinked w s s') : Ledger R L s' := by
  have hmem : w ∈ s.query.watches.map (·.id) := h.ids.mem_iff.mpr List.mem_cons_self
  have hids : ((s.query.watches.eraseP (·.id = w)).map (·.id)).Perm L := by
    rw [map_id_eraseP]
    simpa using h.ids.erase w
  have hpos : s.query.watches.length = L.length + 1 := by
    simpa using h.ids.length_eq
  have hlen : (s.query.watches.eraseP (·.id = w)).length = L.length := by
    simpa using hids.length_eq
  have hc := h.count
  have ht := h.total
  have hl := h.loop
  have hreg : s.context.loop.registered.Perm (w :: (R ++ L)) :=
    h.registered.trans List.perm_middle
  refine ⟨?_, ?_, ?_, ?_, ?_, (List.nodup_cons.mp h.nodup).2, ?_⟩
  · rw [hu.query]
    show s.query.nfds - 1 = (s.query.watches.eraseP (·.id = w)).length
    omega
  · rw [hu.query, hu.nfds]
    show s.context.nfds - 1 = R.length + (s.query.nfds - 1)
    omega
  · rw [hu.loop, hu.nfds]
    omega
  · rw [hu.registered]
    simpa using hreg.erase w
  · rw [hu.query]; exact hids
  · intro x hx
    rw [hu.next]
    exact h.fresh x (List.mem_cons_of_mem _ hx)

theorem sat_watchRemove (env : Env) {R : List Nat} {L : List Nat} {w : Nat} {s : St}
    (doClose : Bool) (h : Ledger R (w :: L) s) :
    Sat (watchRemove env w doClose) s (fun _ s' => Unlinked w s s') OnlyAbort := by
  have hlen : s.query.watches.length = L.length + 1 := by simpa using h.ids.length_eq
  have hn : ¬ (s.query.nfds = 0 ∨ s.context.nfds = 0) := by
    have := h.count
    have := h.total
    omega
  obtain ⟨x, hx, hid⟩ : ∃ x ∈ s.query.watches, x.id = w := by
    simpa using h.ids.mem_iff.mpr (List.mem_cons_self (a := w) (l := L))
  have hfind : (s.query.watches.find? (·.id = w)).isSome := by
    rw [List.find?_isSome]
    exact ⟨x, hx, by simpa using hid⟩
  obtain ⟨watch, hwatch⟩ := Option.isSome_iff_exists.mp hfind
  simp only [watchRemove, sat_bind, sat_get, hwatch, epollRemoveWatch, modifyContext,
    modifyQuery, sat_modify, sat_ite, sat_throw, sat_pure]
  refine ⟨fun hc => absurd hc hn, fun _ => ⟨fun _ => ⟨fun _ => ?_, fun _ => ?_⟩, fun _ => rfl⟩⟩
  · exact ⟨rfl, rfl, rfl, rfl, rfl, rfl, rfl⟩
  · exact ⟨rfl, rfl, rfl, rfl, rfl, rfl, rfl⟩

theorem Unlinked.mem {w : Nat} {s s' : St} (hu : Unlinked w s s') {x : Watch}
    (hx : x ∈ s'.query.watches) : x ∈ s.query.watches := by
  rw [hu.query] at hx
  exact List.mem_of_mem_eraseP hx

theorem Unlinked.kinds {w : Nat} {s s' : St} (hu : Unlinked w s s') (h : Kinds s) : Kinds s' := by
  intro x hx t
  have hq : s'.query.timeout t = s.query.timeout t := by rw [hu.query]; cases t <;> rfl
  rw [hq]
  exact h x (hu.mem hx) t

/-! ### Setting and clearing a timer -/

theorem owned_eq {s s' : St} (hb : s'.backends = s.backends)
    (hc : s'.query.cursor = s.query.cursor) : s'.owned = s.owned := by
  unfold St.owned backendGetPriv
  rw [hb, hc]

theorem ownData_eq {s s' : St} (hb : s'.backends = s.backends)
    (hc : s'.query.cursor = s.query.cursor) (hi : s'.query.id = s.query.id) (h : OwnData s) :
    OwnData s' := by
  unfold OwnData
  rw [hb, hc, hi]
  exact h

/-- What a timer operation does besides keeping the books. -/
structure TimerFrame (t : Timer) (s s' : St) : Prop extends Frame s s' where
  others : ∀ t', t' ≠ t → s'.query.timeout t' = s.query.timeout t'
  backends : s'.backends = s.backends

theorem Ledger.congr {R : List Nat} {L : List Nat} {s s' : St} (h : Ledger R L s)
    (hw : s'.query.watches = s.query.watches) (hn : s'.query.nfds = s.query.nfds)
    (hc : s'.context.nfds = s.context.nfds)
    (hl : s'.context.loop = s.context.loop)
    (hx : s.context.next ≤ s'.context.next) : Ledger R L s' := by
  refine ⟨?_, ?_, ?_, ?_, ?_, h.nodup, fun w hw' => Nat.lt_of_lt_of_le (h.fresh w hw') hx⟩
  · rw [hn, hw]; exact h.count
  · rw [hc, hn]; exact h.total
  · rw [hl, hc]; exact h.loop
  · rw [hl]; exact h.registered
  · rw [hw]; exact h.ids

section

variable {R L : List Nat} {s s' : St} {t : Timer}

/-- The timers and other watches, after a timer has come to refer to a watch just added for it. -/
theorem Ledger.armed (h : Ledger R (s.query.timers ++ L) s) (fd : Fd)
    (hnone : s.query.timeout t = none)
    (hq : s'.query = (s.link fd (.timeout t)).query.setTimeout t (some s.context.next))
    (hc : s'.context.nfds = (s.link fd (.timeout t)).context.nfds)
    (hl : s'.context.loop = (s.link fd (.timeout t)).context.loop)
    (hx : s'.context.next = (s.link fd (.timeout t)).context.next) :
    Ledger R (s'.query.timers ++ L) s' := by
  have hw : s'.query.watches = (s.link fd (.timeout t)).query.watches := by
    rw [hq]; exact (setTimeout_watches _ t _).1
  have hn : s'.query.nfds = (s.link fd (.timeout t)).query.nfds := by
    rw [hq]; exact (setTimeout_watches _ t _).2
  have htimers : s'.query.timers.Perm (s.context.next :: s.query.timers) := by
    rw [hq]
    exact timers_setTimeout (s.link fd (.timeout t)).query t s.context.next
      (by cases t <;> exact hnone)
  refine ((h.link fd (.timeout t)).congr hw hn hc hl (Nat.le_of_eq hx.symm)).perm ?_
  exact (htimers.append_right L).symm

theorem Kinds.armed (hkinds : Kinds s) (h : Ledger R (s.query.timers ++ L) s) (fd : Fd)
    (hnone : s.query.timeout t = none)
    (hq : s'.query = (s.link fd (.timeout t)).query.setTimeout t (some s.context.next)) :
    Kinds s' := by
  intro x hx' t'
  have hw : s'.query.watches = (s.link fd (.timeout t)).query.watches := by
    rw [hq]; exact (setTimeout_watches _ t _).1
  rw [hw] at hx'
  have hold : ∀ x ∈ s.query.watches, x.id ≠ s.context.next := by
    intro y hy hc'
    have hlt := h.fresh y.id (h.ids.mem_iff.mp (List.mem_map_of_mem hy))
    omega
  rcases List.mem_append.mp hx' with hxs | hxn
  · by_cases ht : t' = t
    · subst ht
      rw [hq, timeout_setTimeout_self]
      constructor
      · intro hcb
        have := (hkinds x hxs t').mp hcb
        rw [hnone] at this
        exact absurd this (by simp)
      · intro hid'
        exact absurd (Option.some.inj hid').symm (hold x hxs)
    · rw [hq, timeout_setTimeout_ne _ _ ht]
      exact hkinds x hxs t'
  · have hxe : x = ⟨s.context.next, fd, .timeout t⟩ := by simpa using hxn
    subst hxe
    by_cases ht : t' = t
    · subst ht
      rw [hq, timeout_setTimeout_self]
      simp
    · rw [hq, timeout_setTimeout_ne _ _ ht]
      constructor
      · intro hcb
        exact absurd (WatchCallback.timeout.inj hcb).symm ht
      · intro hid'
        have hid'' : s.query.timeout t' = some s.context.next := hid'
        have hlt := h.fresh s.context.next (List.mem_append_left _ (mem_timers hid''))
        omega

/-- The ledger without the watch of a timer that is cleared. -/
theorem Ledger.cleared {w : Nat} (h : Ledger R (s.query.timers ++ L) s)
    (hw : s.query.timeout t = some w) (hu : Unlinked w s s') :
    Ledger R ((s'.query.setTimeout t none).timers ++ L)
      { s' with query := s'.query.setTimeout t none } := by
  have hl : Ledger R (w :: ((s.query.setTimeout t none).timers ++ L)) s :=
    h.perm ((timers_clear s.query t w hw).append_right L)
  have htimers : (s'.query.setTimeout t none).timers = (s.query.setTimeout t none).timers := by
    rw [hu.query]; cases t <;> rfl
  rw [htimers]
  exact (hl.unlink hu).congr (setTimeout_watches _ t none).1 (setTimeout_watches _ t none).2
    rfl rfl (Nat.le_refl _)

theorem Kinds.cleared {w : Nat} (hkinds : Kinds s) (h : Ledger R (s.query.timers ++ L) s)
    (hw : s.query.timeout t = some w) (hu : Unlinked w s s') :
    Kinds { s' with query := s'.query.setTimeout t none } := by
  have hl : Ledger R (w :: ((s.query.setTimeout t none).timers ++ L)) s :=
    h.perm ((timers_clear s.query t w hw).append_right L)
  intro x hx t'
  have hxs : x ∈ s'.query.watches := by
    rw [← (setTimeout_watches s'.query t none).1]; exact hx
  by_cases ht : t' = t
  · -- The only watch the timer could refer to is gone.
    subst ht
    rw [show (s'.query.setTimeout t' none).timeout t' = none from
      timeout_setTimeout_self _ _ _]
    constructor
    · intro hcb
      have hxw : s.query.timeout t' = some x.id := (hkinds x (hu.mem hxs) t').mp hcb
      have hids := (hl.unlink hu).ids.mem_iff.mp (List.mem_map_of_mem hxs)
      rw [hw] at hxw
      rw [← Option.some.inj hxw] at hids
      exact absurd hids (List.nodup_cons.mp hl.nodup).1
    · intro hc
      exact absurd hc (by simp)
  · rw [show (s'.query.setTimeout t none).timeout t' = s'.query.timeout t' from
      timeout_setTimeout_ne _ _ ht]
    exact hu.kinds hkinds x hxs t'

end

/-- A timer that was not set comes to refer to the watch just added for it. -/
theorem Books.armed {R : List Nat} {s s' : St} {t : Timer} (h : Books R s) (fd : Fd)
    (hnone : s.query.timeout t = none)
    (hq : s'.query = (s.link fd (.timeout t)).query.setTimeout t (some s.context.next))
    (hb : s'.backends = s.backends)
    (hc : s'.context.nfds = (s.link fd (.timeout t)).context.nfds)
    (hl : s'.context.loop = (s.link fd (.timeout t)).context.loop)
    (hx : s'.context.next = (s.link fd (.timeout t)).context.next) : Books R s' := by
  have hw : s'.query.watches = (s.link fd (.timeout t)).query.watches := by
    rw [hq]; exact (setTimeout_watches _ t _).1
  have hcur : s'.query.cursor = s.query.cursor := by
    rw [hq]; exact (setTimeout_framed t _ _).2.2.1
  have hid : s'.query.id = s.query.id := by
    rw [hq]; exact (setTimeout_framed t _ _).1
  refine ⟨?_, h.kinds.armed h.ledger fd hnone hq, ?_, ownData_eq hb hcur hid h.data⟩
  · rw [owned_eq hb hcur]
    exact h.ledger.armed fd hnone hq hc hl hx
  · intro x hx' i hcb
    rw [hw] at hx'
    rw [hcur]
    rcases List.mem_append.mp hx' with hxs | hxn
    · exact h.mine x hxs i hcb
    · have hxe : x = ⟨s.context.next, fd, .timeout t⟩ := by simpa using hxn
      subst hxe
      exact absurd hcb (by simp)

theorem setTimeout_books (env : Env) {R : List Nat} {s : St} (t : Timer) (h : Books R s)
    (hnone : s.query.timeout t = none) :
    Sat (setTimeout env t) s (fun _ s' => Books R s' ∧ TimerFrame t s s') OnlyAbort := by
  have hframe := keeps_setTimeout env t s
  refine Sat.mono (Sat.and hframe (T := fun _ s' => Books R s' ∧
      (∀ t', t' ≠ t → s'.query.timeout t' = s.query.timeout t') ∧ s'.backends = s.backends)
      (F := OnlyAbort) ?_)
    (fun _ s' h' => ⟨h'.2.1, ⟨h'.1, h'.2.2.1, h'.2.2.2⟩⟩) (fun _ _ h' => h'.2)
  simp only [setTimeout, timeoutAdd, sat_bind, sat_get, sat_ite, modifyQuery, modifyContext,
    sat_modify, sat_pure]
  refine ⟨fun _ => sat_watchAdd env _ _ _ _ ⟨?_, ?_, rfl⟩, fun _ => ⟨?_, ?_, trivial⟩⟩
  · exact h.armed (.core s.context.next) hnone rfl rfl rfl rfl rfl
  · intro t' ht
    exact timeout_setTimeout_ne _ _ ht
  · -- No descriptor, no timer: the field stays NULL.
    have hq : s.query.setTimeout t none = s.query := by
      cases t <;> simp only [Query.timeout] at hnone <;> rw [Query.setTimeout, ← hnone]
    rw [hq]
    exact h
  · intro t' ht
    exact timeout_setTimeout_ne _ _ ht

theorem clearTimeout_books (env : Env) {R : List Nat} {s : St} (t : Timer) (h : Books R s) :
    Sat (clearTimeout env t) s
      (fun _ s' => Books R s' ∧ TimerFrame t s s' ∧ s'.query.timeout t = none) OnlyAbort := by
  have hframe := keeps_clearTimeout env t s
  refine Sat.mono (Sat.and hframe (T := fun _ s' => Books R s' ∧
      (∀ t', t' ≠ t → s'.query.timeout t' = s.query.timeout t') ∧ s'.backends = s.backends ∧
      s'.query.timeout t = none) (F := OnlyAbort) ?_)
    (fun _ s' h' => ⟨h'.2.1, ⟨h'.1, h'.2.2.1, h'.2.2.2.1⟩, h'.2.2.2.2⟩) (fun _ _ h' => h'.2)
  simp only [clearTimeout, sat_bind, sat_get]
  cases hw : s.query.timeout t with
  | none => exact ⟨h, fun _ _ => rfl, rfl, hw⟩
  | some w =>
      have hl : Ledger R (w :: ((s.query.setTimeout t none).timers ++ s.owned)) s :=
        h.ledger.perm ((timers_clear s.query t w hw).append_right s.owned)
      simp only [sat_bind, timeoutRemove, modifyQuery, sat_modify]
      refine (sat_watchRemove env true hl).mono (fun _ s' hu => ?_) (fun _ _ he => he)
      have hcur : (s'.query.setTimeout t none).cursor = s.query.cursor := by
        rw [hu.query]; exact (setTimeout_framed t none _).2.2.1
      have hid : (s'.query.setTimeout t none).id = s.query.id := by
        rw [hu.query]; exact (setTimeout_framed t none _).1
      refine ⟨⟨?_, h.kinds.cleared h.ledger hw hu, ?_, ?_⟩, ?_, hu.backends,
        timeout_setTimeout_self _ _ _⟩
      · have howned : St.owned { s' with query := s'.query.setTimeout t none } = s.owned :=
          owned_eq hu.backends hcur
        rw [howned]
        exact h.ledger.cleared hw hu
      · intro x hx i hcb
        have hxs : x ∈ s'.query.watches := by
          rw [← (setTimeout_watches s'.query t none).1]; exact hx
        exact (h.mine x (hu.mem hxs) i hcb).trans hcur.symm
      · exact ownData_eq (s := s) hu.backends hcur hid h.data
      · intro t' ht
        rw [show (s'.query.setTimeout t none).timeout t' = s'.query.timeout t' from
          timeout_setTimeout_ne _ _ ht, hu.query]
        cases t' <;> rfl

end Netresolve
