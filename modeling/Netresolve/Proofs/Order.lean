/-
Backends run one after the other.

On a list without mandatory entries a query sets its backends up in the order of the
list, each of them once and only after the one before it has failed, until one of
them is done or the list is exhausted.  Then the application is called, once, and
nothing follows.  All of it is read off the trace: `Ordered` and `Final` say of an
entry of the trace what its past has to look like.
-/
import Netresolve.Proofs.Timers
import Netresolve.Proofs.Trace

namespace Netresolve

open Outcome Past

/-! ### Reading a trace -/

/-- The query has entered DONE, or FAILED with no backend left of `n`. -/
def Over (n : Nat) (tr : List Obs) : Prop :=
  (∃ i, Entered .done i tr) ∨ ∃ i, i + 1 = n ∧ Entered .failed i tr

/-- The state entered last, with the cursor then. -/
def lastEntered : List Obs → Option (QueryState × Nat)
  | [] => none
  | .enter state i _ :: _ => some (state, i)
  | _ :: past => lastEntered past

/--
Backends are set up in order, each after the one before it failed and none after one
was done; the application is called once, on entering DONE or on entering FAILED with
no backend left, and then the cursor stands on the terminator of the list.
-/
def Ordered (n : Nat) (o : Obs) (past : List Obs) : Prop :=
  match o with
  | .enter .setup i _ =>
      (∀ j, Entered .setup j past → j < i) ∧ (i = 0 ∨ Entered .failed (i - 1) past) ∧
        ∀ j, ¬ Entered .done j past
  | .callback state i _ =>
      i = n ∧ ¬ CalledBack past ∧ ∃ j, lastEntered past = some (state, j) ∧
        (state = .done ∨ state = .failed ∧ j + 1 = n)
  | _ => True

/-- Once the query is over nothing happens but one call of the application. -/
def Final (n : Nat) (o : Obs) (past : List Obs) : Prop :=
  Over n past → match o with
    | .callback _ _ _ => ¬ CalledBack past
    | .error _ => True
    | _ => False

theorem over_plain {o : Obs} (ho : o.plain) (n : Nat) (tr : List Obs) :
    Over n (o :: tr) ↔ Over n tr := by
  simp only [Over, entered_plain ho (Or.inr (Or.inl rfl)), entered_plain ho (Or.inr (Or.inr rfl))]

theorem ordered_plain {o : Obs} (ho : o.plain) (n : Nat) (past : List Obs) : Ordered n o past := by
  cases o with
  | enter state i r => cases state <;> trivial
  | callback state i r => simp [Obs.plain] at ho
  | _ => trivial

/-! ### The stages of the trace -/

/-- The trace while backend `c` is running, or about to be set up. -/
structure Open (n c : Nat) (tr : List Obs) : Prop where
  ordered : Always (Ordered n) tr
  final : Always (Final n) tr
  ended : ¬ Over n tr
  called : ¬ CalledBack tr
  setups : ∀ j, Entered .setup j tr → j ≤ c
  fails : ∀ j, j < c → Entered .failed j tr

/-- The trace of a query that is over. -/
structure Closed (n : Nat) (callback : Bool) (tr : List Obs) : Prop where
  ordered : Always (Ordered n) tr
  final : Always (Final n) tr
  ended : Over n tr
  called : callback → CalledBack tr

theorem Open.plain {n c : Nat} {tr : List Obs} {o : Obs} (h : Open n c tr) (ho : o.plain) :
    Open n c (o :: tr) := by
  refine ⟨⟨ordered_plain ho n tr, h.ordered⟩, ⟨fun hover => absurd hover h.ended, h.final⟩, ?_, ?_,
    ?_, ?_⟩
  · rw [over_plain ho]; exact h.ended
  · rw [calledBack_plain ho]; exact h.called
  · intro j hj
    rw [entered_plain ho (Or.inl rfl)] at hj
    exact h.setups j hj
  · intro j hj
    rw [entered_plain ho (Or.inr (Or.inr rfl))]
    exact h.fails j hj

theorem Open.setup {n c : Nat} {tr : List Obs} (h : Open n c tr)
    (hnew : ∀ j, Entered .setup j tr → j < c) (r : Response) :
    Open n c (.enter .setup c r :: tr) := by
  refine ⟨⟨⟨hnew, ?_, fun j hj => h.ended (Or.inl ⟨j, hj⟩)⟩, h.ordered⟩,
    ⟨fun hover => absurd hover h.ended, h.final⟩, ?_, ?_, ?_, ?_⟩
  · rcases Nat.eq_zero_or_pos c with h0 | hpos
    · exact Or.inl h0
    · exact Or.inr (h.fails _ (by omega))
  · simpa [Over] using h.ended
  · simpa using h.called
  · intro j hj
    simp only [entered_enter, true_and] at hj
    rcases hj with rfl | hj
    · exact Nat.le_refl _
    · exact h.setups j hj
  · intro j hj
    simpa using h.fails j hj

/-- Entering DONE, or FAILED with no backend left, and calling the application closes the trace. -/
theorem Open.close {n c : Nat} {tr past : List Obs} {state : QueryState} {r : Response}
    (h : Open n c tr)
    (hpast : past = .enter state c r :: tr ∨ ∃ text, past = .error text :: .enter state c r :: tr)
    (hstate : state = .done ∨ state = .failed ∧ c + 1 = n) (callback : Bool) (r' : Response) :
    Closed n callback
      (if callback then .callback state n r' :: past else past) := by
  have hlast : lastEntered past = some (state, c) := by
    rcases hpast with rfl | ⟨text, rfl⟩ <;> rfl
  have hcalled : ¬ CalledBack past := by
    rcases hpast with rfl | ⟨text, rfl⟩ <;> simpa using h.called
  have hover : Over n past := by
    have hent : Entered state c past := by
      rcases hpast with rfl | ⟨text, rfl⟩ <;> simp
    rcases hstate with rfl | ⟨rfl, hc⟩
    · exact Or.inl ⟨c, hent⟩
    · exact Or.inr ⟨c, hc, hent⟩
  have hord : Always (Ordered n) past := by
    have h₁ : Ordered n (.enter state c r) tr := by
      rcases hstate with rfl | ⟨rfl, -⟩ <;> trivial
    rcases hpast with rfl | ⟨text, rfl⟩
    · exact ⟨h₁, h.ordered⟩
    · exact ⟨trivial, h₁, h.ordered⟩
  have hfin : Always (Final n) past := by
    have h₁ : Final n (.enter state c r) tr := fun hov => absurd hov h.ended
    rcases hpast with rfl | ⟨text, rfl⟩
    · exact ⟨h₁, h.final⟩
    · exact ⟨fun _ => trivial, h₁, h.final⟩
  cases callback with
  | true =>
      refine ⟨⟨⟨rfl, hcalled, c, hlast, hstate⟩, hord⟩, ⟨fun _ => hcalled, hfin⟩, ?_, ?_⟩
      · rcases hover with ⟨i, r₁, hi⟩ | ⟨i, hi, r₁, hi'⟩
        · exact Or.inl ⟨i, r₁, List.mem_cons_of_mem _ hi⟩
        · exact Or.inr ⟨i, hi, r₁, List.mem_cons_of_mem _ hi'⟩
      · exact fun _ => ⟨state, n, r', List.mem_cons_self⟩
  | false => exact ⟨hord, hfin, hover, fun hc => absurd hc (by simp)⟩

/-- Entering FAILED with a backend left. -/
theorem Open.next {n c : Nat} {tr past : List Obs} {r : Response} (h : Open n c tr)
    (hpast : past = .enter .failed c r :: tr ∨
      ∃ text, past = .error text :: .enter .failed c r :: tr) (hc : c + 1 ≠ n) :
    Open n (c + 1) past ∧ ∀ j, Entered .setup j past → j < c + 1 := by
  have h₁ : Open n (c + 1) (.enter .failed c r :: tr) := by
    refine ⟨⟨trivial, h.ordered⟩, ⟨fun hov => absurd hov h.ended, h.final⟩, ?_, ?_, ?_, ?_⟩
    · rintro (⟨i, hi⟩ | ⟨i, hin, hi⟩)
      · exact h.ended (Or.inl ⟨i, by simpa using hi⟩)
      · simp only [entered_enter, true_and] at hi
        rcases hi with rfl | hi
        · exact hc hin
        · exact h.ended (Or.inr ⟨i, hin, hi⟩)
    · simpa using h.called
    · intro j hj
      simp only [entered_enter, reduceCtorEq, false_and, false_or] at hj
      exact Nat.le_succ_of_le (h.setups j hj)
    · intro j hj
      simp only [entered_enter, true_and]
      rcases Nat.lt_succ_iff_lt_or_eq.mp hj with hlt | heq
      · exact Or.inr (h.fails j hlt)
      · exact Or.inl heq.symm
  have h₂ : ∀ j, Entered .setup j (.enter .failed c r :: tr) → j < c + 1 := by
    intro j hj
    simp only [entered_enter, reduceCtorEq, false_and, false_or] at hj
    exact Nat.lt_succ_of_le (h.setups j hj)
  rcases hpast with rfl | ⟨text, rfl⟩
  · exact ⟨h₁, h₂⟩
  · exact ⟨h₁.plain rfl, fun j hj => h₂ j (by simpa using hj)⟩

/-! ### A list without mandatory entries -/

theorem nextMandatory_none : ∀ (bs : List Backend) (i : Nat), (∀ b ∈ bs, b.mandatory = false) →
    nextMandatory bs i = (i + bs.length, false) := by
  intro bs
  induction bs with
  | nil => intro i _; rfl
  | cons b rest ih =>
      intro i h
      have hb : b.mandatory = false := h b List.mem_cons_self
      simp only [nextMandatory, hb, Bool.false_eq_true, if_false]
      rw [ih (i + 1) fun b' hb' => h b' (List.mem_cons_of_mem _ hb'), List.length_cons]
      congr 1
      omega

theorem mandatory_of_shape {bs bs' : List Backend}
    (hshape : bs'.map Backend.shape = bs.map Backend.shape) (h : ∀ b ∈ bs, b.mandatory = false) :
    ∀ b ∈ bs', b.mandatory = false := by
  intro b hb
  have hmem : b.shape ∈ bs.map Backend.shape := by
    rw [← hshape]
    exact List.mem_map_of_mem hb
  obtain ⟨b₀, hb₀, heq⟩ := List.mem_map.mp hmem
  rw [← h b₀ hb₀]
  exact (congrArg Prod.fst heq).symm

/-- With no mandatory entry left, DONE moves the cursor to the terminator of the list. -/
theorem afterDone_none {s : St} (h : ∀ b ∈ s.backends, b.mandatory = false)
    (hc : s.query.cursor < s.backends.length) : s.afterDone = (s.backends.length, false) := by
  unfold St.afterDone
  rw [nextMandatory_none _ _ fun b hb => h b (List.mem_of_mem_drop hb), List.length_drop]
  congr 1
  omega

/-- What the trace looks like at each stage; no call of the application is ever owed. -/
def chain (n : Nat) : Stages where
  ready k s := k = 0 ∧ Open n s.query.cursor s.trace ∧
    ∀ j, Entered .setup j s.trace → j < s.query.cursor
  run k _ _ s := k = 0 ∧ Open n s.query.cursor s.trace
  fin k _ s := k = 0 ∧ Open n s.query.cursor s.trace
  rest k s := k = 0 ∧ (s.query.cursor < n → Open n s.query.cursor s.trace) ∧
    (s.query.cursor = n → Closed n s.query.callback s.trace)
  bold _ _ _ := True

section

variable {env : Env} {R : List Nat} {s₀ : St}

theorem called_of_end {n : Nat} {s : St} (hc : s.query.cursor = n)
    (hclosed : Closed n s.query.callback (if s.query.callback then
      .callback s.query.state n s.query.response :: s.trace else s.trace)) :
    (chain n).rest 0 s.called := by
  unfold St.called
  cases hcb : s.query.callback with
  | true =>
      rw [hcb] at hclosed
      refine ⟨rfl, fun hlt => absurd hlt (by simp [hc]), fun _ => ?_⟩
      rw [if_pos rfl, hc, hcb]
      exact hclosed
  | false =>
      rw [hcb] at hclosed
      refine ⟨rfl, fun hlt => absurd hlt (by simp [hc]), fun _ => ?_⟩
      rw [if_neg (by simp), hcb]
      exact hclosed

theorem Open.reported {n : Nat} {s : St} (h : Open n s.query.cursor s.trace) (call : Call) :
    Open n (s.reported call).query.cursor (s.reported call).trace := h.plain rfl

theorem Open.toResolved {n : Nat} {s : St} (h : Open n s.query.cursor s.trace) :
    Open n s.toResolved.query.cursor s.toResolved.trace := by
  unfold St.toResolved
  split
  · exact h
  · exact h.plain rfl

theorem Open.toError {n : Nat} {s : St} (h : Open n s.query.cursor s.trace) :
    Open n s.toError.query.cursor s.toError.trace := by
  unfold St.toError
  split
  · exact h
  · exact h.plain rfl

theorem chain_rest_of_open {s : St} {n : Nat} (hc : s.query.cursor < n)
    (h : Open n s.query.cursor s.trace) : (chain n).rest 0 s :=
  ⟨rfl, fun _ => h, fun he => absurd he (Nat.ne_of_lt hc)⟩

theorem chain_frame {n k : Nat} {ph : Phase} {rest : List Call} {s s' : St} (hf : Frame s s')
    (h : (chain n).run k ph rest s) : (chain n).run k ph rest s' := by
  refine ⟨h.1, ?_⟩
  rw [hf.cursor, hf.trace]
  exact h.2

theorem chain_fin_of_rest {k : Nat} {state : QueryState} {s : St}
    (hP : (stages env R s₀).rest k s) (h : (chain s₀.backends.length).rest k s)
    (hs : s.query.state = .resolved ∨ s.query.state = .error) :
    (chain s₀.backends.length).fin k state s := by
  obtain ⟨hfix, hw | he⟩ := hP
  · exact ⟨h.1, h.2.1 (by rw [← hfix.length]; exact hw.cursor)⟩
  · rcases he.state with h' | h' <;> rw [h'] at hs <;> simp at hs

theorem chain_extends (hno : ∀ b ∈ s₀.backends, b.mandatory = false) :
    Extends env (stages env R s₀) (chain s₀.backends.length) fun _ => True where
  frame_stop _ _ := trivial
  run_stop _ := trivial
  report_stop _ _ := trivial
  resolve_stop _ := trivial
  rest_stop _ := trivial
  setUp _ h _ := ⟨fun _ => ⟨h.1, h.2.1.setup h.2.2 _⟩, fun _ => ⟨h.1, h.2.1.setup h.2.2 _⟩⟩
  waiting hP h _ _ s' hf _ := by
    obtain ⟨rfl, hopen⟩ := h
    refine chain_rest_of_open ?_ ?_
    · rw [hf.cursor, ← hP.1.length]
      exact hP.2.1.cursor
    · rw [hf.cursor, hf.trace]
      exact hopen.plain rfl
  impatient _ h _ _ := h
  finished _ h _ hf _ := chain_frame hf ⟨h.1, (h.2.reported _).toResolved⟩
  failed _ h := ⟨h.1, (h.2.reported _).toError⟩
  alloc := by
    intro k ph rest s allocated _ h s' hf
    have hrun : (chain s₀.backends.length).run k ph rest s' :=
      chain_frame hf ⟨h.1, h.2.reported _⟩
    cases allocated with
    | true => exact hrun
    | false => exact ⟨hrun.1, hrun.2.toError⟩
  watchAdd h _ hf _ := chain_frame hf ⟨h.1, h.2.reported _⟩
  watchRemove h _ hf := chain_frame hf ⟨h.1, h.2.reported _⟩
  write _ h := ⟨h.1, h.2.plain rfl⟩
  addPath h := ⟨⟨h.1, h.2.plain rfl⟩, fun _ => trivial⟩
  store _ _ _ h _ := ⟨⟨h.1, h.2.plain rfl⟩, trivial⟩
  more _ _ h _ _ _ _ hf := ⟨chain_frame hf ⟨h.1, h.2.plain rfl⟩, trivial⟩
  zero _ hbold _ _ hw hz := by
    rcases hbold with h | h
    · exact absurd hz h
    · exact absurd hw h
  done := by
    intro k s hP h
    obtain ⟨rfl, hopen⟩ := h
    obtain ⟨hfix, -, -, hd, -⟩ := hP
    refine ⟨fun hs => absurd hs hd, fun _ => ⟨trivial, fun s₁ hf => ⟨trivial, fun hlt => ?_⟩⟩⟩
    have hfix₁ := (hfix.entered .done).frame hf
    rw [afterDone_none (mandatory_of_shape hfix₁.shape hno) hlt, hfix₁.length]
    have htrace : s₁.trace = .enter .done s.query.cursor s.query.response :: s.trace := hf.trace
    have hstate : s₁.query.state = .done := hf.state
    refine called_of_end (s := s₁.moved _) rfl ?_
    show Closed _ s₁.query.callback (if s₁.query.callback then
      .callback s₁.query.state _ _ :: s₁.trace else s₁.trace)
    rw [hstate, htrace]
    exact hopen.close (Or.inl rfl) (Or.inl rfl) _ _
  leave := by
    intro k s hP h
    obtain ⟨rfl, hopen⟩ := h
    obtain ⟨hfix, -, -, -, hd⟩ := hP
    refine ⟨fun hs => absurd hs hd, fun _ => ⟨trivial, fun s₁ hf => ⟨trivial, fun hle => ?_⟩⟩⟩
    have hwarn : (s.entered .failed).warned.query = (s.entered .failed).query ∧
        (s.entered .failed).warned.backends = s.backends ∧
        ((s.entered .failed).warned.trace = (s.entered .failed).trace ∨
          ∃ text, (s.entered .failed).warned.trace = .error text :: (s.entered .failed).trace) := by
      rcases warned_cases (s.entered .failed) with hw | hw <;> rw [hw]
      · exact ⟨rfl, rfl, Or.inl rfl⟩
      · exact ⟨rfl, rfl, Or.inr ⟨_, rfl⟩⟩
    obtain ⟨hq, hb, htrace⟩ := hwarn
    have hcur : s₁.query.cursor = s.query.cursor := by rw [hf.cursor, hq]; rfl
    have hstate : s₁.query.state = .failed := by rw [hf.state, hq]; rfl
    have hlen : s₁.backends.length = s₀.backends.length := by
      rw [hf.length, hb, hfix.length]
    rw [← hf.trace] at htrace
    rw [hcur, hlen] at hle ⊢
    split
    · rename_i hlt
      obtain ⟨h₁, h₂⟩ := hopen.next htrace (Nat.ne_of_lt hlt)
      exact ⟨rfl, h₁, h₂⟩
    · have heq : s.query.cursor + 1 = s₀.backends.length := by omega
      refine called_of_end (s := s₁.moved _) heq ?_
      show Closed _ s₁.query.callback (if s₁.query.callback then
        .callback s₁.query.state _ _ :: s₁.trace else s₁.trace)
      rw [hstate]
      exact hopen.close htrace (Or.inr ⟨rfl, heq⟩) _ _
  called _ h := absurd h.1 (by simp)
  settled hP h _ _ := by
    obtain ⟨rfl, hopen⟩ := h
    refine chain_rest_of_open ?_ hopen
    rw [← hP.1.length]
    exact hP.2.1.cursor
  woken hP h _ _ := by
    obtain ⟨rfl, hopen⟩ := h
    refine chain_rest_of_open ?_ hopen
    rw [← hP.1.length]
    exact hP.2.1.cursor
  succeeded _ h _ := h
  broken h hs := by
    rcases h with ⟨-, h⟩ | ⟨hP, h⟩
    · exact h
    · exact chain_fin_of_rest hP h (Or.inr hs)

end

/-! ### Whole runs -/

theorem Fresh.chain {s₀ : St} (hfresh : Fresh s₀) :
    (chain s₀.backends.length).ready 0 s₀ := by
  have hsetup : ∀ state j, ¬ Entered state j s₀.trace := by
    rintro state j ⟨r, hr⟩
    rw [hfresh.trace] at hr
    simp at hr
  refine ⟨rfl, ⟨?_, ?_, ?_, ?_, ?_, ?_⟩, fun j hj => absurd hj (hsetup _ j)⟩
  · rw [hfresh.trace]; trivial
  · rw [hfresh.trace]; trivial
  · rintro (⟨i, hi⟩ | ⟨i, -, hi⟩)
    · exact hsetup _ i hi
    · exact hsetup _ i hi
  · rintro ⟨state, i, r, hr⟩
    rw [hfresh.trace] at hr
    simp at hr
  · exact fun j hj => absurd hj (hsetup _ j)
  · intro j hj
    rw [hfresh.cursor] at hj
    omega

theorem Reachable.chain {s₀ s : St} (hfresh : Fresh s₀)
    (hno : ∀ b ∈ s₀.backends, b.mandatory = false)
    (h : Reachable Env.WellBehaved Tame s₀ s) :
    (Fixed s₀ s ∧ (Waits s₀.context.loop.registered s ∨ Ended s₀.context.loop.registered s)) ∧
      (chain s₀.backends.length).rest 0 s := by
  refine Reachable.invariant (W := fun _ => Netresolve.chain s₀.backends.length) hfresh (fun h => h)
    (fun h => h) (fun _ => chain_extends hno) (fun _ => chain_extends hno) (fun _ => hfresh.chain)
    (fun _ _ => Iff.rfl) ?_ h
  intro s env w x hfix hw hI _ _ _
  have hopen := hI.2.1 (by rw [← hfix.length]; exact hw.cursor)
  cases x.callback with
  | backend i => exact ⟨rfl, hopen⟩
  | timeout t =>
      refine ⟨fun _ s' hf => ⟨rfl, ?_⟩, fun s' hP h hr => chain_fin_of_rest hP h (Or.inl hr)⟩
      rw [hf.cursor, hf.trace]
      exact hopen

/-- The trace of a query at rest, whether it is over or not. -/
theorem Reachable.trace {s₀ s : St} (hfresh : Fresh s₀)
    (hno : ∀ b ∈ s₀.backends, b.mandatory = false)
    (h : Reachable Env.WellBehaved Tame s₀ s) :
    Always (Ordered s₀.backends.length) s.trace ∧ Always (Final s₀.backends.length) s.trace ∧
      (Over s₀.backends.length s.trace →
        Ended s₀.context.loop.registered s ∧ (s₀.query.callback → CalledBack s.trace)) := by
  obtain ⟨⟨hfix, hw | he⟩, hrest⟩ := h.chain hfresh hno
  · have hopen := hrest.2.1 (by rw [← hfix.length]; exact hw.cursor)
    exact ⟨hopen.ordered, hopen.final, fun hover => absurd hover hopen.ended⟩
  · have hclosed := hrest.2.2 (by rw [← hfix.length]; exact he.cursor)
    refine ⟨hclosed.ordered, hclosed.final, fun _ => ⟨he, fun hcb => hclosed.called ?_⟩⟩
    rw [hfix.callback]
    exact hcb

/--
**Backends run in the order of the list**, each at most once, and the application is
called once, on entering DONE or on entering FAILED with no backend left, with the
cursor on the terminator of the list.
-/
theorem backends_run_in_order {s₀ s : St} (hfresh : Fresh s₀)
    (hno : ∀ b ∈ s₀.backends, b.mandatory = false)
    (hresult : s₀.query.request.resultTimeout ≠ 0)
    (hrun : Reachable Env.WellBehaved Orderly s₀ s) :
    Always (Ordered s₀.backends.length) s.trace ∧
      (Over s₀.backends.length s.trace → s₀.query.callback → CalledBack s.trace) := by
  obtain ⟨hordered, -, hover⟩ := (hrun.tame hfresh hresult).trace hfresh hno
  exact ⟨hordered, fun h => (hover h).2⟩

/-- Two backends, of which the first fails and the second asks somebody else. -/
def secondAnswersLater : Env where
  setup i := if i = 0 then [.failed] else [.newPriv true, .watchAdd 5]
  dispatch _ := [.finished]

def twoBackends : St := { query := { id := 0 }, backends := [{}, {}] }

/-- The query while it waits, and when it has its answer. -/
def twoBackendsWaiting : St := final (queryStart secondAnswersLater) twoBackends

def twoBackendsDone : St := final (queryDispatch secondAnswersLater 1) twoBackendsWaiting

theorem twoBackends_fresh : Fresh twoBackends := by
  refine ⟨⟨rfl, rfl, rfl, rfl, fun t => by cases t <;> rfl, rfl, rfl, fun b hb => ?_⟩, rfl, rfl⟩
  obtain rfl : b = {} := by simpa [twoBackends] using hb
  rfl

theorem secondAnswersLater_wellBehaved : secondAnswersLater.WellBehaved :=
  ⟨fun i => by show keepsWatches false (ite _ _ _) = true; split <;> rfl, fun _ => rfl⟩

theorem backends_run_in_order_two : ∃ s, Reachable Env.WellBehaved Orderly twoBackends s ∧
    s.query.cursor = 2 ∧ Always (Ordered 2) s.trace ∧ CalledBack s.trace := by
  obtain ⟨s, hs⟩ : ∃ s, twoBackendsDone = s := ⟨_, rfl⟩
  have hstart : queryStart secondAnswersLater twoBackends = .ok () twoBackendsWaiting :=
    ok_of_returns (by decide +kernel)
  have hdispatch : queryDispatch secondAnswersLater 1 twoBackendsWaiting = .ok () s := by
    rw [← hs]
    exact ok_of_returns (by decide +kernel)
  have hw : ∃ x ∈ twoBackendsWaiting.query.watches, x.id = 1 := by decide +kernel
  have hrun : Reachable Env.WellBehaved Orderly twoBackends s :=
    .step (.start _ secondAnswersLater_wellBehaved hstart)
      ⟨_, 1, secondAnswersLater_wellBehaved, hw, hdispatch⟩
  have hover : Over twoBackends.backends.length s.trace := by
    rw [← hs]
    exact Or.inl ⟨1, {}, by decide +kernel⟩
  have hcursor : s.query.cursor = 2 := by
    rw [← hs]
    decide +kernel
  have h := backends_run_in_order twoBackends_fresh (by simp [twoBackends]) (by decide) hrun
  exact ⟨s, hrun, hcursor, h.1, h.2 hover rfl⟩

/--
**The end of a query is final**, as long as no dispatch function ends it before it has
reported: nothing but the call of the application follows in the trace, the query has
no watch left, and no event moves the cursor behind the terminator of the list.
-/
theorem ended_is_final {s₀ s : St} (hfresh : Fresh s₀)
    (hno : ∀ b ∈ s₀.backends, b.mandatory = false)
    (hrun : Reachable Env.WellBehaved Tame s₀ s) :
    Always (Final s₀.backends.length) s.trace ∧
    s.query.cursor ≤ s.backends.length ∧
    (Over s₀.backends.length s.trace → s.query.cursor = s.backends.length ∧
      (s.query.state = .done ∨ s.query.state = .failed) ∧ s.query.watches = []) ∧
    ∀ env w, Tame s env w → (∃ x ∈ s.query.watches, x.id = w) →
      ∀ e s', queryDispatch env w s = .error e s' → e = .abort := by
  obtain ⟨-, hfinal, hover⟩ := hrun.trace hfresh hno
  have hrest := hrun.rest hfresh
  refine ⟨hfinal, ?_, fun h => ?_, fun env w htame hw e s' herr => ?_⟩
  · rcases hrest.2 with hwaits | hended
    · exact Nat.le_of_lt hwaits.cursor
    · exact Nat.le_of_eq hended.cursor
  · have hended := (hover h).1
    exact ⟨hended.cursor, hended.state, hended.clean.watches⟩
  · exact (queryDispatch_rest env hrest htame hw).of_error herr

/-- The query on one backend after that has reported. -/
def oneBackendDone : St where
  query := { oneBackend.query with state := .done, cursor := 1 }
  backends := [{ cleanup := true, history := [.cleanup 0 (some 0), .alloc 0 0, .setup 0 true] }]
  trace := [.callback .done 1 {}, .enter .done 0 {}, .enter .resolved 0 {}, .report 0 .finished] ++
    oneBackendWaiting.trace
  context := { next := 3 }

/-- The query on one backend with a result timeout of zero, and where it waits. -/
def zeroResult : St :=
  { oneBackend with query := { oneBackend.query with request := { resultTimeout := 0 } } }

def zeroResultWaiting : St :=
  { oneBackendWaiting with
    query := { oneBackendWaiting.query with request := { resultTimeout := 0 } } }

def zeroResultDone : St :=
  { oneBackendDone with
    query := { oneBackendDone.query with request := { resultTimeout := 0 } } }

theorem zeroResult_fresh : Fresh zeroResult :=
  ⟨⟨rfl, rfl, rfl, rfl, fun t => by cases t <;> rfl, rfl, rfl, oneBackend_fresh.data⟩, rfl, rfl⟩

/-- Without a path the result timeout of zero does no harm. -/
theorem ended_is_final_zero :
    Reachable Env.WellBehaved Tame zeroResult zeroResultDone ∧
      Always (Final 1) zeroResultDone.trace ∧ zeroResultDone.query.watches = [] := by
  have hrun : Reachable Env.WellBehaved Tame zeroResult zeroResultDone := by
    refine .step (s := zeroResultWaiting) (.start answersLater answersLater_wellBehaved rfl)
      ⟨answersLater, 1, ⟨answersLater_wellBehaved, Or.inr (Or.inr rfl)⟩, ?_, rfl⟩
    exact ⟨⟨1, .backend 5, .backend 0⟩, by simp [zeroResultWaiting, oneBackendWaiting], rfl⟩
  have h := ended_is_final zeroResult_fresh (by simp [zeroResult, oneBackend]) hrun
  exact ⟨hrun, h.1, (h.2.2.1 (Or.inl ⟨0, {}, by simp [zeroResultDone, oneBackendDone]⟩)).2.2⟩

/-- The backend answers with a path and reports success, all from one dispatch. -/
def addsThenFinishes : Env :=
  { answersLater with
    dispatch := fun _ => [.addPath oneAddress, .finished] }

/--
With a result timeout of zero the path alone makes the query DONE.  The report of
success that follows takes it out of DONE, into RESOLVED and into DONE again, with the
cursor behind the terminator of the list.
-/
theorem late_report_leaves_done :
    Reachable Env.WellBehaved Orderly zeroResult zeroResultWaiting ∧
    addsThenFinishes.WellBehaved ∧
    ∃ s response, queryDispatch addsThenFinishes 1 zeroResultWaiting = .error .outOfBounds s ∧
      s.query.cursor = 2 ∧ s.backends.length = 1 ∧
      s.trace = [.enter .done 1 response, .enter .resolved 1 response, .report 1 .finished,
        .callback .done 1 response, .enter .done 0 response, .enter .waitingMore 0 response,
        .path 0 onePath,
        .report 0 (.addPath oneAddress)] ++
        zeroResultWaiting.trace := by
  refine ⟨.start answersLater answersLater_wellBehaved rfl,
    ⟨fun _ => rfl, fun _ => rfl⟩, _, { paths := [⟨{ onePath with reachable := true }, 0⟩] }, rfl,
    rfl, rfl, rfl⟩

end Netresolve
