/-
Whether every watch of a backend is removed once.

`Sustained` follows a backend through its events: at each point of them the query may end, and
then something has to be right.  What is right is left open here, and so is the backend.  The
watches themselves are kept in the ledger of `Proofs/Ledger.lean`: those of the timers, which come
and go, and the others, which are the backend's.
-/
import Netresolve.Backends.Watching
import Netresolve.Proofs.Ledger
import Netresolve.Proofs.Books
import Netresolve.Proofs.Reliable

namespace Netresolve.Watching

open Outcome

/-! ### At every point of a run -/

section

variable {P ε : Type} {hooks : Hooks P ε} {env : Env} {Good : P → St → Prop} {E : Fault → St → Prop}

variable (hooks env Good E)

/-- Wherever the events stop, the private data and the query are good. -/
def Sustained (p : P) (s : St) (moments : List (Moment ε)) : Prop :=
  ∀ n, Sat (play hooks env p (moments.take n)) s Good E

variable {hooks env Good E}

theorem sustained_nil {p : P} {s : St} : Sustained hooks env Good E p s [] ↔ Good p s := by
  unfold Sustained
  simp only [List.take_nil]
  exact ⟨fun h => h 0, fun h _ => h⟩

theorem forall_take {ε : Type} {Q : List ε → Prop} {m : ε} {rest : List ε} :
    (∀ n, Q ((m :: rest).take n)) ↔ Q [] ∧ ∀ n, Q (m :: rest.take n) := by
  constructor
  · exact fun h => ⟨h 0, fun n => h (n + 1)⟩
  · rintro ⟨hnil, hcons⟩ n
    cases n with
    | zero => exact hnil
    | succ n => exact hcons n

/-- The backend has reported, or its events follow. -/
theorem sustained_unless {r : P × Bool} {s : St} {moments : List (Moment ε)} :
    (∀ n, Sat (if r.2 then pure r.1 else play hooks env r.1 (moments.take n)) s Good E) ↔
      if r.2 then Good r.1 s else Sustained hooks env Good E r.1 s moments := by
  cases r.2 with
  | true => exact ⟨fun h => h 0, fun h _ => h⟩
  | false => exact Iff.rfl

theorem sustained_event {p : P} {s : St} {e : ε} {rest : List (Moment ε)} :
    Sustained hooks env Good E p s (.event e :: rest) ↔
      Good p s ∧ Sat (hooks.dispatch p e) s (fun r s' =>
        if r.2 then Good r.1 s' else Sustained hooks env Good E r.1 s' rest) E := by
  refine (forall_take (Q := fun l => Sat (play hooks env p l) s Good E)).trans
    (and_congr Iff.rfl ?_)
  simp only [play, sat_bind]
  rw [sat_forall]
  exact sat_congr fun r s' => sustained_unless

theorem sustained_arm {p : P} {s : St} {t : Timer} {rest : List (Moment ε)} :
    Sustained hooks env Good E p s (.arm t :: rest) ↔
      Good p s ∧ Sat (arm env t) s (fun _ s' => Sustained hooks env Good E p s' rest) E := by
  refine (forall_take (Q := fun l => Sat (play hooks env p l) s Good E)).trans
    (and_congr Iff.rfl ?_)
  simp only [play, sat_bind]
  exact sat_forall

theorem sustained_clear {p : P} {s : St} {t : Timer} {rest : List (Moment ε)} :
    Sustained hooks env Good E p s (.clear t :: rest) ↔
      Good p s ∧
        Sat (clearTimeout env t) s (fun _ s' => Sustained hooks env Good E p s' rest) E := by
  refine (forall_take (Q := fun l => Sat (play hooks env p l) s Good E)).trans
    (and_congr Iff.rfl ?_)
  simp only [play, sat_bind]
  exact sat_forall

theorem start_iff {s : St} {moments : List (Moment ε)} :
    (∀ n, Sat (start hooks env (moments.take n)) s Good E) ↔
      Sat hooks.setup s (fun r s' =>
        if r.2 then Good r.1 s' else Sustained hooks env Good E r.1 s' moments) E := by
  simp only [start, sat_bind]
  rw [sat_forall]
  exact sat_congr fun r s' => sustained_unless

end

/-! ### The watches of a backend -/

/-- The ledger has the timers and the watches of the backend, and nothing else. -/
structure Holding (R : List Nat) (s : St) : Prop where
  ledger : Ledger R ((own s).map (·.id) ++ s.query.timers) s
  kinds : Kinds s

theorem Holding.of_clean {R : List Nat} {s : St} (h : Clean R s) : Holding R s ∧ own s = [] := by
  have hown : own s = [] := by
    unfold own
    rw [h.watches]
    rfl
  have hledger := h.books.ledger
  rw [owned_eq_nil h.data, List.append_nil] at hledger
  refine ⟨⟨?_, h.books.kinds⟩, hown⟩
  rw [hown]
  exact hledger

section

variable {env : Env} {R : List Nat} {s : St}

theorem mem_own {x : Watch} : x ∈ own s ↔ x ∈ s.query.watches ∧ isBackend x = true :=
  List.mem_filter

theorem addFor_ok (hadd : ∀ w, env.epollAdd w = true) (h : Holding R s) (fd : Nat) :
    ∃ w s', addFor env fd s = .ok w s' ∧ Holding R s' ∧
      own s' = own s ++ [⟨w, .backend fd, .backend s.query.cursor⟩] ∧
      ∀ x ∈ own s, x.id ≠ w := by
  have hrun : addFor env fd s =
      .ok s.context.next (s.link (.backend fd) (.backend s.query.cursor)) := by
    unfold addFor watchAdd epollAddWatch
    simp only [hadd, if_true]
    rfl
  have hown : own (s.link (.backend fd) (.backend s.query.cursor)) =
      own s ++ [⟨s.context.next, .backend fd, .backend s.query.cursor⟩] := by
    unfold own St.link
    rw [List.filter_append]
    rfl
  have hfresh : ∀ x ∈ s.query.watches, x.id ≠ s.context.next := by
    intro x hx heq
    have hlt := h.ledger.fresh x.id (h.ledger.ids.mem_iff.mp (List.mem_map_of_mem hx))
    omega
  refine ⟨_, _, hrun, ⟨?_, ?_⟩, hown, fun x hx => hfresh x (mem_own.mp hx).1⟩
  · rw [hown, List.map_append, List.append_assoc]
    exact (h.ledger.link _ _).perm List.perm_middle.symm
  · intro x hx t
    rcases List.mem_append.mp hx with hold | hnew
    · exact h.kinds x hold t
    · rw [List.mem_singleton.mp hnew]
      refine iff_of_false WatchCallback.noConfusion fun htimer => ?_
      have hlt := h.ledger.fresh s.context.next (List.mem_append_right _ (mem_timers htimer))
      omega

theorem filter_eraseP_of_imp {α : Type} {p q : α → Bool} {l : List α}
    (h : ∀ x ∈ l, q x = true → p x = true) : (l.eraseP q).filter p = (l.filter p).eraseP q := by
  induction l with
  | nil => rfl
  | cons x rest ih =>
      have ih := ih fun y hy => h y (List.mem_cons_of_mem _ hy)
      by_cases hq : q x = true
      · rw [List.eraseP_cons_of_pos hq, List.filter_cons_of_pos (h x List.mem_cons_self hq),
          List.eraseP_cons_of_pos hq]
      · rw [List.eraseP_cons_of_neg hq]
        by_cases hp : p x = true
        · rw [List.filter_cons_of_pos hp, List.filter_cons_of_pos hp, List.eraseP_cons_of_neg hq, ih]
        · rw [List.filter_cons_of_neg hp, List.filter_cons_of_neg hp, ih]

/-- A watch of the backend, and the number of one. -/
theorem isBackend_of_id (h : Holding R s) {w : Nat} (hw : w ∈ (own s).map (·.id)) :
    ∀ y ∈ s.query.watches, (decide (y.id = w)) = true → isBackend y = true := by
  intro y hy hyw
  have hids : (s.query.watches.map (·.id)).Nodup := h.ledger.ids.nodup_iff.mpr h.ledger.nodup
  obtain ⟨x, hx, hxw⟩ := List.mem_map.mp hw
  obtain ⟨hx, hback⟩ := mem_own.mp hx
  rw [List.inj_on_of_nodup_map hids hy hx ((of_decide_eq_true hyw).trans hxw.symm)]
  exact hback

/-- Removing a watch keeps the others. -/
theorem Holding.unlinked {w : Nat} {s' : St} (h : Holding R s) (hu : Unlinked w s s')
    (hw : w ∈ (own s).map (·.id)) :
    Holding R s' ∧ own s' = (own s).eraseP (·.id = w) ∧ ∀ y ∈ s'.query.watches, y.id ≠ w := by
  have hids : (s.query.watches.map (·.id)).Nodup := h.ledger.ids.nodup_iff.mpr h.ledger.nodup
  have hwatches : s'.query.watches = s.query.watches.eraseP (·.id = w) := by
    rw [hu.query]
  have hown : own s' = (own s).eraseP (·.id = w) := by
    unfold own
    rw [hwatches]
    exact filter_eraseP_of_imp (isBackend_of_id h hw)
  have htimers : s'.query.timers = s.query.timers := by
    rw [hu.query]
    rfl
  refine ⟨⟨?_, hu.kinds h.kinds⟩, hown, fun y hy heq => ?_⟩
  · rw [hown, map_id_eraseP, htimers]
    exact (h.ledger.perm ((List.perm_cons_erase hw).append_right _)).unlink hu
  · have hmem : w ∈ (s.query.watches.map (·.id)).erase w := by
      rw [← map_id_eraseP, ← hwatches]
      exact List.mem_map.mpr ⟨y, hy, heq⟩
    exact (hids.mem_erase_iff.mp hmem).1 rfl

theorem removeAt_ok (hdel : ∀ w, env.epollDel w = true) (h : Holding R s) {w : Nat}
    (hw : w ∈ (own s).map (·.id)) (doClose : Bool) :
    ∃ s', removeAt env (some w) doClose s = .ok () s' ∧ Holding R s' ∧
      own s' = (own s).eraseP (·.id = w) ∧ ∀ y ∈ s'.query.watches, y.id ≠ w := by
  have hledger : Ledger R (w :: (((own s).map (·.id)).erase w ++ s.query.timers)) s :=
    h.ledger.perm ((List.perm_cons_erase hw).append_right _)
  have hsat : Sat (removeAt env (some w) doClose) s (fun _ s' => Unlinked w s s')
      (fun _ _ => False) := by
    -- With no other system call at play the environment may as well be reliable.
    have hreliable : Env.Reliable { epollDel := env.epollDel } :=
      ⟨fun _ => rfl, fun _ => rfl, fun _ => rfl, hdel⟩
    have hsafe : Safe (removeAt env (some w) doClose) := safe_watchRemove hreliable w doClose
    exact ((sat_watchRemove env doClose hledger).and (hsafe s)).mono (fun _ _ hboth => hboth.1)
      fun e _ hboth => hboth.2.2 hboth.1
  obtain ⟨_, s', hrun, hu⟩ := hsat.exists_ok
  obtain ⟨hholding, hown, hgone⟩ := h.unlinked hu hw
  exact ⟨s', hrun, hholding, hown, hgone⟩

/-- A watch that is gone cannot be removed again. -/
theorem removeAt_dangling {w : Nat} (h : Holding R s) (hgone : ∀ y ∈ s.query.watches, y.id ≠ w)
    (hsome : s.query.watches ≠ []) (doClose : Bool) :
    removeAt env (some w) doClose s = .error .dangling s := by
  have hpos : 0 < s.query.watches.length := List.length_pos_iff.mpr hsome
  have hcount := h.ledger.count
  have htotal := h.ledger.total
  have hnone : s.query.watches.find? (·.id = w) = none :=
    List.find?_eq_none.mpr fun y hy hyw => hgone y hy (of_decide_eq_true hyw)
  have hsat : Sat (removeAt env (some w) doClose) s (fun _ _ => False)
      (fun e s' => e = .dangling ∧ s' = s) := by
    simp only [removeAt, watchRemove, sat_bind, sat_get, sat_ite, hnone]
    exact ⟨fun hzero => by omega, fun _ => ⟨rfl, rfl⟩⟩
  unfold Sat at hsat
  cases hrun : removeAt env (some w) doClose s with
  | ok a s' =>
      rw [hrun] at hsat
      exact hsat.elim
  | error e s' =>
      rw [hrun] at hsat
      rw [hsat.1, hsat.2]

/-! ### Timers -/

theorem filter_eraseP_of_not {α : Type} {p q : α → Bool} {l : List α}
    (h : ∀ x ∈ l, q x = true → p x = false) : (l.eraseP q).filter p = l.filter p := by
  induction l with
  | nil => rfl
  | cons x rest ih =>
      have ih := ih fun y hy => h y (List.mem_cons_of_mem _ hy)
      by_cases hq : q x = true
      · rw [List.eraseP_cons_of_pos hq,
          List.filter_cons_of_neg (by rw [h x List.mem_cons_self hq]; exact Bool.false_ne_true)]
      · rw [List.eraseP_cons_of_neg hq, List.filter_cons, List.filter_cons, ih]

/-- An operation on a timer leaves the watches of the backend alone. -/
theorem Holding.of_timers {s' : St} (hledger : Ledger R (s'.query.timers ++ (own s).map (·.id)) s')
    (hkinds : Kinds s') (hown : own s' = own s) : Holding R s' ∧ own s' = own s := by
  refine ⟨⟨?_, hkinds⟩, hown⟩
  rw [hown]
  exact hledger.perm List.perm_append_comm

theorem own_append_timer {s' : St} {n : Nat} {fd : Fd} {t : Timer}
    (h : s'.query.watches = s.query.watches ++ [⟨n, fd, .timeout t⟩]) : own s' = own s := by
  unfold own
  rw [h, List.filter_append]
  exact List.append_nil _

theorem arm_ok (hadd : ∀ w, env.epollAdd w = true) (h : Holding R s) (t : Timer) :
    ∃ s', arm env t s = .ok () s' ∧ Holding R s' ∧ own s' = own s := by
  have hledger : Ledger R (s.query.timers ++ (own s).map (·.id)) s :=
    h.ledger.perm List.perm_append_comm
  have hsat : Sat (arm env t) s (fun _ s' => Holding R s' ∧ own s' = own s)
      (fun _ _ => False) := by
    simp only [arm, setTimeout, timeoutAdd, watchAdd, epollAddWatch, hadd, modifyContext,
      modifyQuery, sat_bind, sat_get, sat_ite, sat_modify, sat_pure, Option.isNone_iff_eq_none]
    refine ⟨fun hnone => ⟨fun _ => ⟨fun _ => ?_, fun hnot => absurd trivial hnot⟩, fun _ => ?_⟩,
      fun _ => ⟨h, trivial⟩⟩
    · exact Holding.of_timers (hledger.armed (.core s.context.next) hnone rfl rfl rfl rfl)
        (h.kinds.armed hledger (.core s.context.next) hnone rfl)
        (own_append_timer (setTimeout_watches _ t _).1)
    · -- No descriptor, no timer: the field stays NULL.
      have hquery : s.query.setTimeout t none = s.query := by
        cases t <;> simp only [Query.timeout] at hnone <;> rw [Query.setTimeout, ← hnone]
      rw [hquery]
      exact ⟨h, rfl⟩
  obtain ⟨_, s', hrun, hs'⟩ := hsat.exists_ok
  exact ⟨s', hrun, hs'⟩

theorem clearTimeout_ok (hdel : ∀ w, env.epollDel w = true) (h : Holding R s) (t : Timer) :
    ∃ s', clearTimeout env t s = .ok () s' ∧ Holding R s' ∧ own s' = own s := by
  have hledger : Ledger R (s.query.timers ++ (own s).map (·.id)) s :=
    h.ledger.perm List.perm_append_comm
  have hreliable : Env.Reliable { epollDel := env.epollDel } :=
    ⟨fun _ => rfl, fun _ => rfl, fun _ => rfl, hdel⟩
  have hsafe : Safe (clearTimeout env t) := safe_clearTimeout hreliable t
  have hsat : Sat (clearTimeout env t) s (fun _ s' => Holding R s' ∧ own s' = own s)
      OnlyAbort := by
    simp only [clearTimeout, sat_bind, sat_get]
    cases hw : s.query.timeout t with
    | none => exact ⟨h, rfl⟩
    | some w =>
        have hl : Ledger R (w :: ((s.query.setTimeout t none).timers ++ (own s).map (·.id))) s :=
          hledger.perm ((timers_clear s.query t w hw).append_right _)
        simp only [sat_bind, timeoutRemove, modifyQuery, sat_modify]
        refine (sat_watchRemove env true hl).mono (fun _ s' hu => ?_) (fun _ _ he => he)
        refine Holding.of_timers (hledger.cleared hw hu) (h.kinds.cleared hledger hw hu) ?_
        unfold own
        rw [(setTimeout_watches _ t none).1, hu.query]
        refine filter_eraseP_of_not fun y hy hyw => ?_
        have htimer : y.callback = .timeout t :=
          (h.kinds y hy t).mpr (by rw [hw, of_decide_eq_true hyw])
        rw [isBackend, htimer]
  obtain ⟨_, s', hrun, hs'⟩ := ((hsat.and (hsafe s)).mono (fun _ _ hboth => hboth.1)
    fun e _ hboth => hboth.2.2 hboth.1 : Sat (clearTimeout env t) s
      (fun _ s' => Holding R s' ∧ own s' = own s) (fun _ _ => False)).exists_ok
  exact ⟨s', hrun, hs'⟩

end

/-! ### The exec backend -/

/-- The loop over the lines ends, because each of them shortens what is left. -/
theorem lineLoop_isSome (fuel : Nat) : ∀ b : Exec.Outbuf, b.start < fuel →
    (Exec.lineLoop fuel b).isSome := by
  induction fuel with
  | zero => exact fun b h => absurd h (Nat.not_lt_zero _)
  | succ fuel ih =>
      intro b h
      unfold Exec.lineLoop
      cases hnl : b.kept.findIdx? (· = '\n') with
      | none => rfl
      | some nl =>
          have hlt : nl < b.start := by
            have hlength := (List.findIdx?_eq_some_iff_findIdx_eq.mp hnl).1
            rw [Exec.Outbuf.kept, List.length_take] at hlength
            omega
          dsimp only
          split
          · rfl
          · rw [Option.isSome_map]
            exact ih _ (by dsimp only; omega)

theorem reading_isSome (outbuf : Option Exec.Outbuf) (hangUp : Bool) (memory : Option CString.Text)
    (chunk : CString.Text) : ∃ r, reading outbuf hangUp memory chunk = some r := by
  refine Option.isSome_iff_exists.mp ?_
  unfold reading
  split
  · rfl
  · split
    · rfl
    · split
      · rfl
      · rw [Option.isSome_map]
        exact lineLoop_isSome _ _ (Nat.lt_succ_self _)

/-- Cleaning up removes what is left of the watches, and nothing that is not there. -/
def Cleaned {P : Type} (cleanup : P → M Unit) (p : P) (s : St) : Prop :=
  Sat (cleanup p) s (fun _ s' => own s' = []) (fun _ _ => False)

/-- The two watches and the two pointers to them. -/
structure Paired (R : List Nat) (p : PrivExec) (s : St) : Prop where
  holding : Holding R s
  pair : ∃ x y, own s = [x, y] ∧ p.input = some x.id ∧ p.output = some y.id

/--
Until the backend reports, a watch for input that is ready finds something of the request that
is left to write, and some of it is written.
-/
def Careful (left : CString.Text) (outbuf : Option Exec.Outbuf) :
    List (Moment ExecEvent) → Prop
  | [] => True
  | .arm _ :: rest | .clear _ :: rest => Careful left outbuf rest
  | .event (.input size) :: rest =>
      (left ≠ [] ∧ 0 < size) ∧ Careful (left.drop size.toNat) outbuf rest
  | .event (.output hangUp memory chunk) :: rest =>
      match reading outbuf hangUp memory chunk with
      | some (.goesOn b) => Careful left (some b) rest
      | _ => True

section

variable {env : Env} {R : List Nat} {p : PrivExec} {s : St}

theorem linked_of_mem {x : Watch} (hx : x ∈ own s) : linked s (some x.id) = true :=
  List.any_eq_true.mpr ⟨x, (mem_own.mp hx).1, decide_eq_true rfl⟩

theorem eraseP_head (x : Watch) (rest : List Watch) :
    (x :: rest).eraseP (·.id = x.id) = rest :=
  List.eraseP_cons_of_pos (decide_eq_true rfl)

theorem Paired.cleaned (hdel : ∀ w, env.epollDel w = true) (h : Paired R p s) :
    Cleaned (execCleanup env) p s := by
  obtain ⟨x, y, hown, hinput, houtput⟩ := h.pair
  obtain ⟨s₁, hrun₁, hholding₁, hown₁, _⟩ := removeAt_ok hdel h.holding (w := x.id)
    (by rw [hown]; exact List.mem_cons_self) true
  rw [hown, eraseP_head] at hown₁
  obtain ⟨s₂, hrun₂, _, hown₂, _⟩ := removeAt_ok hdel hholding₁ (w := y.id)
    (by rw [hown₁]; exact List.mem_cons_self) true
  rw [hown₁, eraseP_head] at hown₂
  unfold Cleaned execCleanup
  rw [hinput, houtput]
  rw [sat_bind, Option.isSome_some, if_pos rfl, sat_of_eq hrun₁, Option.isSome_some, if_pos rfl,
    sat_of_eq hrun₂]
  exact hown₂

/-- Once `dispatch_input` has removed its watch there is no cleaning up any more. -/
theorem Paired.removed (hdel : ∀ w, env.epollDel w = true) (h : Paired R p s) : ∃ s',
    removeAt env p.input true s = .ok () s' ∧ ¬ Cleaned (execCleanup env) p s' := by
  obtain ⟨x, y, hown, hinput, _⟩ := h.pair
  obtain ⟨s₁, hrun, hholding, hown₁, hgone⟩ := removeAt_ok hdel h.holding (w := x.id)
    (by rw [hown]; exact List.mem_cons_self) true
  rw [hown, eraseP_head] at hown₁
  refine ⟨s₁, by rw [hinput]; exact hrun, fun hcleaned => ?_⟩
  have hsome : s₁.query.watches ≠ [] := by
    have hy : y ∈ own s₁ := by
      rw [hown₁]
      exact List.mem_cons_self
    exact List.ne_nil_of_mem (mem_own.mp hy).1
  unfold Cleaned execCleanup at hcleaned
  rw [sat_bind, hinput, Option.isSome_some, if_pos rfl] at hcleaned
  exact hcleaned.of_error (removeAt_dangling hholding hgone hsome true)

/-- The private data may change in its buffers, and the timers may come and go. -/
theorem Paired.congr {p' : PrivExec} {s' : St} (h : Paired R p s) (hholding : Holding R s')
    (hown : own s' = own s) (hinput : p'.input = p.input) (houtput : p'.output = p.output) :
    Paired R p' s' := by
  refine ⟨hholding, ?_⟩
  rw [hown, hinput, houtput]
  exact h.pair

variable {infd outfd : Nat} {request : Option CString.Text}
  (hadd : ∀ w, env.epollAdd w = true) (hdel : ∀ w, env.epollDel w = true)
include hadd hdel

/-- **The exec backend is careful as long as its request is being written.** -/
theorem exec_sustained_iff (moments : List (Moment ExecEvent)) : ∀ {p : PrivExec} {s : St},
    Paired R p s →
    (Sustained (exec env infd outfd request) env (Cleaned (execCleanup env)) OnlyAbort p s moments ↔
      Careful p.inbuf p.outbuf moments) := by
  induction moments with
  | nil =>
      intro p s h
      rw [sustained_nil]
      exact iff_of_true (h.cleaned hdel) trivial
  | cons m rest ih =>
      intro p s h
      have hgood := h.cleaned hdel
      cases m with
      | arm t =>
          obtain ⟨s', hrun, hholding, hown⟩ := arm_ok hadd h.holding t
          rw [sustained_arm, sat_of_eq hrun, and_iff_right hgood]
          exact ih (h.congr hholding hown rfl rfl)
      | clear t =>
          obtain ⟨s', hrun, hholding, hown⟩ := clearTimeout_ok hdel h.holding t
          rw [sustained_clear, sat_of_eq hrun, and_iff_right hgood]
          exact ih (h.congr hholding hown rfl rfl)
      | event e =>
          obtain ⟨x, y, hown, hinput, houtput⟩ := h.pair
          rw [sustained_event, and_iff_right hgood]
          show Sat (execDispatch env p e) s _ _ ↔ _
          unfold execDispatch
          cases e with
          | input size =>
              have hlinked : linked s p.input = true := by
                rw [hinput]
                exact linked_of_mem (by rw [hown]; exact List.mem_cons_self)
              simp only [sat_bind, sat_get, hlinked, if_true]
              unfold Careful dispatchInput
              by_cases hwrites : p.inbuf ≠ [] ∧ size > 0
              · rw [if_pos hwrites, sat_pure, sat_pure, and_iff_right hwrites]
                exact ih (h.congr h.holding rfl rfl rfl)
              · obtain ⟨s', hrun, hnot⟩ := h.removed hdel
                rw [if_neg hwrites, sat_bind, sat_of_eq hrun, sat_pure, sat_pure]
                exact iff_of_false (fun hs => hnot (hs 0)) fun hc => hwrites hc.1
          | output hangUp memory chunk =>
              have hlinked : linked s p.output = true := by
                rw [houtput]
                exact linked_of_mem (by rw [hown]; exact List.mem_cons_of_mem _ List.mem_cons_self)
              simp only [sat_bind, sat_get, hlinked, if_true]
              unfold Careful dispatchOutput
              obtain ⟨r, hr⟩ := reading_isSome p.outbuf hangUp memory chunk
              rw [hr]
              cases r with
              | aborts => exact iff_of_true rfl trivial
              | reports => exact iff_of_true hgood trivial
              | goesOn b => exact ih (h.congr h.holding rfl rfl rfl)

/-- The setup of the exec backend on a query without watches, and what may follow. -/
theorem exec_start_iff (hclean : Clean R s) (moments : List (Moment ExecEvent)) :
    (∀ n, Sat (start (exec env infd outfd request) env (moments.take n)) s
      (Cleaned (execCleanup env)) OnlyAbort) ↔
        ∀ text, request = some text → Careful text none moments := by
  obtain ⟨hholding, hown⟩ := Holding.of_clean hclean
  rw [start_iff]
  show Sat (execSetup env infd outfd request) s _ _ ↔ _
  unfold execSetup
  cases request with
  | none => exact iff_of_true hown fun text htext => (by cases htext)
  | some text =>
      obtain ⟨i, s₁, hrun₁, hholding₁, hown₁, _⟩ := addFor_ok hadd hholding infd
      obtain ⟨o, s₂, hrun₂, hholding₂, hown₂, _⟩ := addFor_ok hadd hholding₁ outfd
      rw [hown, List.nil_append] at hown₁
      rw [hown₁] at hown₂
      dsimp only
      rw [sat_bind, sat_of_eq hrun₁, sat_bind, sat_of_eq hrun₂, sat_pure]
      have hpaired : Paired R { inbuf := text, input := some i, output := some o } s₂ :=
        ⟨hholding₂, _, _, hown₂, rfl, rfl⟩
      refine (exec_sustained_iff hadd hdel moments hpaired).trans ⟨fun h text' htext => ?_, fun h =>
        h text rfl⟩
      rw [← Option.some.inj htext]
      exact h

omit hdel in
/-- The asyncns backend forgets its watch as soon as it has one. -/
theorem asyncns_start_iff (hclean : Clean R s) (fd : Nat) (created asked : Bool)
    (moments : List (Moment Bool)) :
    (∀ n, Sat (start (asyncns env fd created asked) env (moments.take n)) s
      (Cleaned fun _ => pure ()) OnlyAbort) ↔ ¬ (created = true ∧ asked = true) := by
  obtain ⟨hholding, hown⟩ := Holding.of_clean hclean
  rw [start_iff]
  unfold asyncns
  cases created with
  | false => exact iff_of_true hown fun h => Bool.false_ne_true h.1
  | true =>
      cases asked with
      | false => exact iff_of_true hown fun h => Bool.false_ne_true h.2
      | true =>
          obtain ⟨w, s₁, hrun, hholding₁, hown₁, _⟩ := addFor_ok hadd hholding fd
          refine iff_of_false (fun h => ?_) fun h => h ⟨rfl, rfl⟩
          dsimp only at h
          rw [Bool.not_true, if_neg Bool.false_ne_true, if_neg Bool.false_ne_true, sat_bind,
            sat_of_eq hrun, sat_pure] at h
          have hleft : own s₁ = [] := h 0
          rw [hown₁] at hleft
          exact List.append_ne_nil_of_right_ne_nil _ (List.cons_ne_nil _ _) hleft

end

/-! ### Both backends -/

/-- One of the two backends with what it was set up with and the events of a run. -/
inductive Exchange where
  | exec (infd outfd : Nat) (request : Option CString.Text) (moments : List (Moment ExecEvent))
  | asyncns (fd : Nat) (created asked : Bool) (moments : List (Moment Bool))

/--
Wherever the query comes to its end, the cleanup function removes every watch the backend has left
and no watch that was removed before.
-/
def Exchange.Right (env : Env) (s : St) : Exchange → Prop
  | .exec infd outfd request moments =>
      ∀ n, Sat (start (Watching.exec env infd outfd request) env (moments.take n)) s
        (Cleaned (execCleanup env)) OnlyAbort
  | .asyncns fd created asked moments =>
      ∀ n, Sat (start (Watching.asyncns env fd created asked) env (moments.take n)) s
        (Cleaned (Watching.asyncns env fd created asked).cleanup) OnlyAbort

/-- `dispatch_input` never gets to remove its watch, and the asyncns backend has none. -/
def Exchange.Sound : Exchange → Prop
  | .exec _ _ request moments => ∀ text, request = some text → Careful text none moments
  | .asyncns _ created asked _ => ¬ (created = true ∧ asked = true)

/--
**A watch is removed once or not at all, twice if the request was written first.**  Every watch is
removed exactly once, wherever the query comes to its end, if and only if the exec backend never
finds its request written or fails to write it, and the asyncns backend fails before it adds a watch.
-/
theorem watches_removed_iff {env : Env} (hadd : ∀ w, env.epollAdd w = true)
    (hdel : ∀ w, env.epollDel w = true) {R : List Nat} {s : St} (hclean : Clean R s)
    (exchange : Exchange) : exchange.Right env s ↔ exchange.Sound := by
  cases exchange with
  | exec infd outfd request moments => exact exec_start_iff hadd hdel hclean moments
  | asyncns fd created asked moments => exact asyncns_start_iff hadd hclean fd created asked moments

/-- A query that is about to set up its backend. -/
def ready : St := { query := { id := 0, state := .setup }, backends := [{}] }

theorem ready_clean : Clean [] ready where
  watches := rfl
  nfds := rfl
  timeout t := by cases t <;> rfl
  data b hb := by
    rw [List.mem_singleton.mp hb]
  total := rfl
  loop := rfl
  registered := List.Perm.refl _

/-- Half of the request is written when the subprocess hangs up. -/
theorem watches_removed_hang_up : (Exchange.exec 5 6 (some "ip".toList)
    [.arm .requestTimeout, .event (.input 1), .event (.output true none [])]).Right {} ready := by
  refine (watches_removed_iff (fun _ => rfl) (fun _ => rfl) ready_clean _).mpr fun text htext => ?_
  rw [← Option.some.inj htext]
  exact ⟨⟨by decide, by decide⟩, trivial⟩

/-- The request is written, and the subprocess is ready for more. -/
theorem written_request_is_removed_twice : ¬ (Exchange.exec 5 6 (some "ip".toList)
    [.event (.input 2), .event (.input 0)]).Right {} ready := by
  intro hright
  have hcareful := (exec_start_iff (fun _ => rfl) (fun _ => rfl) ready_clean _).mp hright _ rfl
  exact hcareful.2.1.1 rfl

end Netresolve.Watching
