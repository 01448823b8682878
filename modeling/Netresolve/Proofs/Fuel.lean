/-
The nesting of state changes is bounded.

Every restart moves the cursor on, and between two restarts at most three calls of
`netresolve_query_set_state` are nested: SETUP, WAITING_MORE and DONE, or fewer.  So
the fuel `querySetState` gives is never used up, whatever the backends do, and a run
of the model that stops has stopped where the program does.
-/
import Netresolve.Proofs.Visible

namespace Netresolve

open Outcome

/-- The cursor never moves back and the list keeps its length. -/
structure Forward (s s' : St) : Prop where
  cursor : s.query.cursor ≤ s'.query.cursor
  length : s'.backends.length = s.backends.length

theorem Forward.refl (s : St) : Forward s s := ⟨Nat.le_refl _, rfl⟩

theorem Forward.trans {s s' s'' : St} (h : Forward s s') (h' : Forward s' s'') : Forward s s'' :=
  ⟨Nat.le_trans h.cursor h'.cursor, h'.length.trans h.length⟩

theorem Frame.forward {s s' : St} (h : Frame s s') : Forward s s' :=
  ⟨Nat.le_of_eq h.cursor.symm, h.length⟩

/-- The number of backends from the cursor on. -/
def room (s : St) : Nat := s.backends.length - s.query.cursor

theorem Forward.room_le {s s' : St} (h : Forward s s') : room s' ≤ room s := by
  have := h.cursor
  have := h.length
  unfold room
  omega

/-- How deep entering a state can nest with that many backends left. -/
def levels : QueryState → Nat → Nat
  | .setup, r => 3 * r + 3
  | .waitingMore, r => 3 * r + 2
  | .done, r | .failed, r => 3 * r + 1
  | _, _ => 1

/-- `x` moves forward and does not run out of fuel. -/
def Fueled {α : Type} (x : M α) (s : St) : Prop :=
  Sat x s (fun _ s' => Forward s s') (fun e _ => e ≠ .fuel)

theorem Keeps.fueled {α : Type} {x : M α} (h : Keeps x) (s : St) : Fueled x s :=
  (h s).mono (fun _ _ hf => hf.forward) (fun _ _ he => he.2)

theorem Fueled.bind {α β : Type} {x : M α} {f : α → M β} {s : St} (hx : Fueled x s)
    (hf : ∀ a s', Forward s s' → Fueled (f a) s') : Fueled (x >>= f) s := by
  unfold Fueled
  rw [sat_bind]
  refine hx.mono (fun a s' h => ?_) (fun _ _ he => he)
  exact (hf a s' h).mono (fun _ _ h' => h.trans h') (fun _ _ he => he)

theorem Fueled.pure {α : Type} (a : α) (s : St) : Fueled (pure a : M α) s := Forward.refl s

theorem Fueled.get (s : St) : Fueled (get : M St) s := Forward.refl s

theorem Fueled.throw {α : Type} {e : Fault} (he : e ≠ .fuel) (s : St) :
    Fueled (throw e : M α) s := he

theorem Fueled.ite {α : Type} {c : Prop} [Decidable c] {x y : M α} {s : St} (hx : Fueled x s)
    (hy : Fueled y s) : Fueled (if c then x else y) s := by
  split
  · exact hx
  · exact hy

theorem Fueled.forM {α : Type} {f : α → M PUnit} {s : St} (l : List α)
    (hf : ∀ a s', Forward s s' → Fueled (f a) s') : Fueled (forM l f) s := by
  refine sat_forM (fun _ s' => Forward s s') (fun a rest s' h => ?_) l s (Forward.refl s)
  exact (hf a s' h).mono (fun _ _ h' => h.trans h') (fun _ _ he => he)

theorem fueled_whenState {state : QueryState} {x : M Unit} {s : St} (hx : Fueled x s) :
    Fueled (whenState state x) s := by
  unfold Fueled
  rw [sat_whenState]
  exact ⟨fun _ => hx, fun _ => Forward.refl s⟩

/-- The fuel of `f` is enough for every state, from every state on. -/
def Enough (n : Nat) (f : QueryState → M Unit) : Prop :=
  ∀ state s, levels state (room s) ≤ n → Fueled (f state) s

theorem levels_mono (state : QueryState) {r r' : Nat} (h : r' ≤ r) :
    levels state r' ≤ levels state r := by
  cases state <;> simp only [levels] <;> omega

/-- Entering a state a backend may ask for nests less deep than SETUP. -/
theorem Enough.after {n : Nat} {f : QueryState → M Unit} (h : Enough n f) {s s' : St}
    (hn : 3 * room s + 2 ≤ n) (hs : Forward s s') {state : QueryState} (hne : state ≠ .setup) :
    Fueled (f state) s' := by
  have hr := hs.room_le
  refine h state s' ?_
  cases state <;> simp only [levels] <;> first | omega | exact absurd rfl hne

section

variable {env : Env} {n : Nat} {f : QueryState → M Unit}

theorem backendAddPath_fueled (h : Enough n f) {s : St} (s₀ : St) (hn : 3 * room s₀ + 2 ≤ n)
    (hs : Forward s₀ s) (a : PathArgs) : Fueled (backendAddPath env f a) s := by
  refine Fueled.bind (Fueled.get s) fun _ s₃ h₃ => Fueled.forM _ fun path s₄ h₄ => ?_
  refine Fueled.bind ?_ fun _ s₅ h₅ => Fueled.bind (Fueled.get s₅) fun t s₆ h₆ => ?_
  · refine Fueled.bind (Fueled.get s₄) fun _ s₅ h₅ => Fueled.bind ?_ fun _ s₆ h₆ => ?_
    · exact ⟨Nat.le_refl _, rfl⟩
    · exact ⟨Nat.le_refl _, rfl⟩
  · split
    · exact h.after hn ((hs.trans h₃).trans (h₄.trans (h₅.trans h₆))) (by decide)
    · exact Fueled.pure _ _

theorem runCall_fueled (h : Enough n f) {s : St} (s₀ : St) (hn : 3 * room s₀ + 2 ≤ n)
    (hs : Forward s₀ s) (call : Call) : Fueled (runCall env f call) s := by
  have hobs : ∀ o, Fueled (observe o) s := fun o => ⟨Nat.le_refl _, rfl⟩
  have hwrite : ∀ (g : Query → Query) (s' : St), (∀ q, (g q).cursor = q.cursor) →
      Fueled (modifyQuery g) s' := fun g s' hg => ⟨Nat.le_of_eq (hg s'.query).symm, rfl⟩
  refine Fueled.bind (Fueled.get s) fun s₁ s₂ h₂ => Fueled.bind ?_ fun _ s' h' => ?_
  · exact ⟨Nat.le_refl _, rfl⟩
  have hs' : Forward s₀ s' := hs.trans (h₂.trans h')
  cases call with
  | addPath a => exact backendAddPath_fueled h s₀ hn hs' a
  | setCanonicalName name => exact hwrite _ _ fun _ => rfl
  | addNameInfo nodename => exact hwrite _ _ fun q => by split <;> rfl
  | setDnsAnswer answer => exact hwrite _ _ fun _ => rfl
  | setSecure => exact hwrite _ _ fun _ => rfl
  | newPriv allocated =>
      refine Fueled.bind ((keeps_allocPriv allocated).fueled s') fun _ s₃ h₃ => ?_
      split
      · exact Fueled.pure _ _
      · exact h.after hn (hs'.trans h₃) (by decide)
  | watchAdd fd => exact (keeps_callWatchAdd env fd).fueled s'
  | watchRemove k doClose => exact (keeps_callWatchRemove env k doClose).fueled s'
  | finished => exact h.after hn hs' (by decide)
  | failed => exact h.after hn hs' (by decide)

theorem enterSetup_fueled (h : Enough n f) (s : St) (hn : 3 * room s + 2 ≤ n) :
    Fueled (enterSetup env f) s := by
  refine Fueled.bind (keeps_currentBackend.fueled s) fun backend s₁ h₁ => ?_
  cases backend with
  | none => exact Fueled.throw (by decide) s₁
  | some backend =>
      refine Fueled.bind ?_ fun _ s₂ h₂ => Fueled.bind (Fueled.get s₂) fun t s₃ h₃ =>
        Fueled.bind ?_ fun _ s₄ h₄ => ?_
      · exact ⟨Nat.le_refl _, rfl⟩
      · refine Keeps.fueled ?_ s₃
        exact keeps_modifyBackend fun b => rfl
      have hs₄ := (h₁.trans h₂).trans (h₃.trans h₄)
      split
      · refine Fueled.bind (Fueled.forM _ fun call s₅ h₅ =>
          runCall_fueled h s hn (hs₄.trans h₅) call) fun _ s₆ h₆ => ?_
        have hs₆ := hs₄.trans h₆
        refine Fueled.bind (fueled_whenState (Fueled.bind (Fueled.get s₆)
          fun t s₇ h₇ => ?_)) fun _ s₈ h₈ => fueled_whenState ?_
        · refine h.after hn (hs₆.trans h₇) ?_
          split <;> decide
        · exact h.after hn (hs₆.trans h₈) (by decide)
      · exact h.after hn hs₄ (by decide)

theorem nextMandatory_spec : ∀ (bs : List Backend) (i : Nat),
    i ≤ (nextMandatory bs i).1 ∧ (nextMandatory bs i).1 ≤ i + bs.length ∧
    ((nextMandatory bs i).2 = true → (nextMandatory bs i).1 < i + bs.length) ∧
    ((nextMandatory bs i).2 = false → (nextMandatory bs i).1 = i + bs.length) := by
  intro bs
  induction bs with
  | nil => intro i; simp [nextMandatory]
  | cons b rest ih =>
      intro i
      by_cases hb : b.mandatory
      · simp [nextMandatory, hb]
      · obtain ⟨h1, h2, h3, h4⟩ := ih (i + 1)
        simp only [nextMandatory, hb, Bool.false_eq_true, if_false, List.length_cons]
        refine ⟨by omega, by omega, fun hf => ?_, fun hf => ?_⟩
        · have := h3 hf
          omega
        · have := h4 hf
          omega

/-- Leaving a backend moves the cursor, and onto an entry if a restart is to follow. -/
def Leaves (s : St) (found : Bool) (s' : St) : Prop :=
  Forward s s' ∧ (found = true → room s' < room s)

theorem leaveDone_spec (s : St) :
    Sat (leaveDone env) s (Leaves s) (fun e _ => e ≠ .fuel) := by
  refine (leaveDone_visible s).mono (fun found s' h => ?_) (fun _ _ he => he.1)
  obtain ⟨s₁, hf, hlt, rfl, rfl⟩ := h
  have hc := hf.cursor
  have hl := hf.length
  obtain ⟨h1, -, h3, -⟩ := nextMandatory_spec (s₁.backends.drop (s₁.query.cursor + 1))
    (s₁.query.cursor + 1)
  refine ⟨⟨?_, hl⟩, fun hfound => ?_⟩
  · show s.query.cursor ≤ (nextMandatory _ _).1
    omega
  · have := h3 hfound
    rw [List.length_drop] at this
    show s₁.backends.length - (nextMandatory _ _).1 < s.backends.length - s.query.cursor
    omega

theorem warned_forward (s : St) : Forward s s.warned := by
  unfold St.warned
  split
  · exact ⟨Nat.le_refl _, rfl⟩
  · exact Forward.refl s

theorem leaveFailed_spec (s : St) :
    Sat (leaveFailed env) s (Leaves s) (fun e _ => e ≠ .fuel) := by
  refine (leaveFailed_visible s).mono (fun found s' h => ?_) (fun _ _ he => he.1)
  obtain ⟨s₁, hf, hle, rfl, rfl⟩ := h
  have hforward := (warned_forward s).trans hf.forward
  have hc := hforward.cursor
  have hl := hforward.length
  refine ⟨⟨Nat.le_succ_of_le hc, hl⟩, fun hfound => ?_⟩
  have := of_decide_eq_true hfound
  show s₁.backends.length - (s₁.query.cursor + 1) < s.backends.length - s.query.cursor
  omega

theorem invokeCallback_fueled (s : St) : Fueled invokeCallback s := by
  unfold Fueled
  rw [sat_invokeCallback]
  unfold St.called
  split
  · exact ⟨Nat.le_refl _, rfl⟩
  · exact Forward.refl s

theorem enterState_fueled (h : Enough n f) (old state : QueryState) (s : St)
    (hn : levels state (room s) ≤ n + 1) : Fueled (enterState env f old state) s := by
  cases state with
  | none => exact ⟨Nat.le_refl _, rfl⟩
  | setup => exact enterSetup_fueled h s (by simp only [levels] at hn; omega)
  | waiting => exact keeps_enterWaiting.fueled s
  | waitingMore =>
      refine Fueled.bind (Fueled.get s) fun t s₁ h₁ => Fueled.bind ?_ fun _ s₂ h₂ =>
        Fueled.bind (Fueled.get s₂) fun t' s₃ _ => Keeps.fueled ?_ s₃
      · split
        · refine h .done s₁ (Nat.le_trans (levels_mono _ h₁.room_le) ?_)
          simp only [levels] at hn ⊢
          omega
        · exact Fueled.pure _ _
      · exact .ite (keeps_setTimeout env _) (.pure _)
  | resolved => exact (keeps_enterResolved old).fueled s
  | error => exact Fueled.pure _ _
  | done =>
      show Fueled (enterDone env f) s
      simp only [Fueled, enterDone, sat_bind]
      refine (leaveDone_spec s).mono (fun found s₁ h₁ => ?_) (fun _ _ he => he)
      refine Sat.mono (Q := fun _ s₂ => Forward s₁ s₂) (E := fun e _ => e ≠ .fuel) ?_
        (fun _ s₂ h₂ => ?_) (fun _ _ he => he)
      · cases found with
        | true =>
            refine h .setup s₁ ?_
            have := h₁.2 rfl
            simp only [levels] at hn ⊢
            omega
        | false => exact Forward.refl s₁
      · exact (invokeCallback_fueled s₂).mono
          (fun _ _ h₃ => (h₁.1.trans h₂).trans h₃) (fun _ _ he => he)
  | failed =>
      show Fueled (enterFailed env f) s
      simp only [Fueled, enterFailed, sat_bind]
      refine (leaveFailed_spec s).mono (fun found s₁ h₁ => ?_) (fun _ _ he => he)
      cases found with
      | true =>
          refine (h .setup s₁ ?_).mono (fun _ _ h₂ => h₁.1.trans h₂) (fun _ _ he => he)
          have := h₁.2 rfl
          simp only [levels] at hn ⊢
          omega
      | false =>
          exact (invokeCallback_fueled s₁).mono (fun _ _ h₂ => h₁.1.trans h₂) (fun _ _ he => he)

end

theorem setState_enough (env : Env) : ∀ n, Enough n (setState env n) := by
  intro n
  induction n with
  | zero =>
      intro state s hn
      cases state <;> simp [levels] at hn
  | succ n ih =>
      intro state s hn
      refine Fueled.bind (Fueled.get s) fun old s₁ h₁ => Fueled.ite ?_ ?_
      · exact Fueled.pure _ _
      · refine Fueled.bind ⟨Nat.le_refl _, rfl⟩ fun _ s₂ h₂ => Fueled.bind (Fueled.get s₂)
          fun q s₃ h₃ => Fueled.bind ⟨Nat.le_refl _, rfl⟩ fun _ s₄ h₄ => ?_
        have hs₄ := (h₁.trans h₂).trans (h₃.trans h₄)
        exact enterState_fueled ih _ _ _ (Nat.le_trans (levels_mono _ hs₄.room_le) hn)

theorem querySetState_fueled (env : Env) (state : QueryState) (s : St) :
    Fueled (querySetState env state) s := by
  have hn : levels state (room s) ≤ nesting s := by
    unfold room nesting
    cases state <;> simp only [levels] <;> omega
  simpa only [Fueled, querySetState, sat_bind, sat_get] using
    setState_enough env (nesting s) state s hn

theorem querySetState_enough (env : Env) (s : St) :
    Enough (3 * room s + 2) (querySetState env) := fun state s' _ => querySetState_fueled env state s'

/-- **No event runs out of fuel.** -/
theorem queryDispatch_fueled (env : Env) (w : Nat) (s : St) : Fueled (queryDispatch env w) s := by
  have hcalls : ∀ calls s', Fueled (runCalls env (querySetState env) calls) s' := by
    intro calls s'
    refine Fueled.forM _ fun call s₁ _ => ?_
    exact runCall_fueled (querySetState_enough env s₁) s₁ (Nat.le_refl _) (Forward.refl _) call
  have htimer : ∀ t state s', Fueled (dispatchTimeout env t state) s' := by
    intro t state s'
    refine Fueled.bind (Fueled.get s') fun _ s₁ _ => ?_
    split
    · exact Fueled.throw (by decide) s₁
    · exact Fueled.bind ((keeps_clearTimeout env t).fueled s₁) fun _ s₂ _ =>
        querySetState_fueled env state s₂
  refine Fueled.bind (Fueled.get s) fun t s₁ _ => ?_
  split
  · exact Fueled.throw (by decide) s₁
  · rename_i watch _
    refine Fueled.bind ?_ fun _ s₂ _ => Fueled.bind (fueled_whenState (querySetState_fueled ..))
      fun _ s₃ _ => fueled_whenState (querySetState_fueled ..)
    cases watch.callback with
    | backend i => exact hcalls _ _
    | timeout t =>
        cases t <;>
        · refine Fueled.bind (Fueled.get _) fun _ s₃ _ => Fueled.ite ?_ ?_
          · exact htimer _ _ _
          · exact Fueled.throw (by decide) _

theorem queryStart_fueled (env : Env) (s : St) : Fueled (queryStart env) s := by
  refine Fueled.bind (Fueled.get s) fun t s₁ _ => ?_
  split
  · exact Fueled.throw (by decide) s₁
  · exact querySetState_fueled ..

theorem queryFree_fueled (env : Env) (s : St) : Fueled (queryFree env) s := by
  refine Fueled.bind ((keeps_cleanupQuery env).fueled s) fun _ s₁ _ =>
    Fueled.bind (querySetState_fueled ..) fun _ s₂ _ => Fueled.bind (Fueled.get s₂)
      fun t s₃ _ => ?_
  exact Fueled.ite (Fueled.pure _ _) (Fueled.throw (by decide) _)

end Netresolve
