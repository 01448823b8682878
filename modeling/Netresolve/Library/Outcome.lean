/-
What running a stateful computation that may stop early comes to.

The computations are those of `EStateM`: a run either returns a value or stops
with an exception, and both keep the state they ended in.  `Sat x s Q E` says of
the one run of `x` from `s` that a return satisfies `Q` and an early stop
satisfies `E`.  Both are read with the final state, because a program that is
killed by a failed assertion has still done everything it did before.

A program is taken apart by rewriting: the `simp` lemmas here turn `Sat` of a
block into `Sat` of its parts, one for each way the monad has of building a
block.  A call of a function that has a specification of its own is not unfolded;
`Sat.mono` replaces it by the specification.
-/
import Mathlib.Data.List.Basic
import Mathlib.Order.Defs.Unbundled

namespace Outcome

variable {ε σ α β : Type}

/-- The run of `x` from `s` returns into `Q` or stops into `E`. -/
def Sat (x : EStateM ε σ α) (s : σ) (Q : α → σ → Prop) (E : ε → σ → Prop) : Prop :=
  match x s with
  | .ok a s' => Q a s'
  | .error e s' => E e s'

/-! ### Taking a block apart -/

@[simp] theorem sat_pure (a : α) (s : σ) (Q : α → σ → Prop) (E : ε → σ → Prop) :
    Sat (pure a) s Q E ↔ Q a s := Iff.rfl

@[simp] theorem sat_get (s : σ) (Q : σ → σ → Prop) (E : ε → σ → Prop) :
    Sat get s Q E ↔ Q s s := Iff.rfl

@[simp] theorem sat_modify (f : σ → σ) (s : σ) (Q : PUnit → σ → Prop) (E : ε → σ → Prop) :
    Sat (modify f) s Q E ↔ Q ⟨⟩ (f s) := Iff.rfl

@[simp] theorem sat_throw (e : ε) (s : σ) (Q : α → σ → Prop) (E : ε → σ → Prop) :
    Sat (throw e) s Q E ↔ E e s := Iff.rfl

@[simp] theorem sat_bind (x : EStateM ε σ α) (f : α → EStateM ε σ β) (s : σ)
    (Q : β → σ → Prop) (E : ε → σ → Prop) :
    Sat (x >>= f) s Q E ↔ Sat x s (fun a s' => Sat (f a) s' Q E) E := by
  show Sat (EStateM.bind x f) s Q E ↔ _
  unfold Sat EStateM.bind
  cases x s <;> exact Iff.rfl

theorem sat_ite (c : Prop) [Decidable c] (x y : EStateM ε σ α) (s : σ)
    (Q : α → σ → Prop) (E : ε → σ → Prop) :
    Sat (if c then x else y) s Q E ↔ (c → Sat x s Q E) ∧ (¬ c → Sat y s Q E) := by
  by_cases h : c <;> simp [h]

/-! ### Using what is known of a part -/

theorem Sat.mono {x : EStateM ε σ α} {s : σ} {Q Q' : α → σ → Prop} {E E' : ε → σ → Prop}
    (h : Sat x s Q E) (hQ : ∀ a s', Q a s' → Q' a s') (hE : ∀ e s', E e s' → E' e s') :
    Sat x s Q' E' := by
  unfold Sat at *
  cases hx : x s with
  | ok a s' => rw [hx] at h; exact hQ a s' h
  | error e s' => rw [hx] at h; exact hE e s' h

theorem sat_trivial (x : EStateM ε σ α) (s : σ) :
    Sat x s (fun _ _ => True) (fun _ _ => True) := by
  unfold Sat
  cases x s <;> trivial

/-- Two things known of one run hold of it together. -/
theorem Sat.and {x : EStateM ε σ α} {s : σ} {Q T : α → σ → Prop} {E F : ε → σ → Prop}
    (h : Sat x s Q E) (h' : Sat x s T F) :
    Sat x s (fun a t => Q a t ∧ T a t) (fun e t => E e t ∧ F e t) := by
  unfold Sat at *
  cases hx : x s with
  | ok a s' => rw [hx] at h h'; exact ⟨h, h'⟩
  | error e s' => rw [hx] at h h'; exact ⟨h, h'⟩

theorem Sat.of_ok {x : EStateM ε σ α} {s s' : σ} {a : α} {Q : α → σ → Prop}
    {E : ε → σ → Prop} (h : Sat x s Q E) (hx : x s = .ok a s') : Q a s' := by
  unfold Sat at h
  rwa [hx] at h

/-- What a run that returns satisfies. -/
theorem sat_of_eq {x : EStateM ε σ α} {s s' : σ} {a : α} {Q : α → σ → Prop} {E : ε → σ → Prop}
    (h : x s = .ok a s') : Sat x s Q E ↔ Q a s' := by
  unfold Sat
  rw [h]

/-- A run that cannot stop returns. -/
theorem Sat.exists_ok {x : EStateM ε σ α} {s : σ} {Q : α → σ → Prop}
    (h : Sat x s Q (fun _ _ => False)) : ∃ a s', x s = .ok a s' ∧ Q a s' := by
  unfold Sat at h
  cases hx : x s with
  | ok a s' => rw [hx] at h; exact ⟨a, s', rfl, h⟩
  | error e s' => rw [hx] at h; exact h.elim

theorem sat_congr {x : EStateM ε σ α} {s : σ} {Q Q' : α → σ → Prop} {E : ε → σ → Prop}
    (h : ∀ a s', Q a s' ↔ Q' a s') : Sat x s Q E ↔ Sat x s Q' E :=
  ⟨fun hx => hx.mono (fun a s' => (h a s').mp) fun _ _ he => he,
    fun hx => hx.mono (fun a s' => (h a s').mpr) fun _ _ he => he⟩

/-- Many things known of one run. -/
theorem sat_forall {ι : Sort*} [Nonempty ι] {x : EStateM ε σ α} {s : σ} {Q : ι → α → σ → Prop}
    {E : ε → σ → Prop} : (∀ i, Sat x s (Q i) E) ↔ Sat x s (fun a s' => ∀ i, Q i a s') E := by
  unfold Sat
  cases x s with
  | ok a s' => exact Iff.rfl
  | error e s' => exact ⟨fun h => h (Classical.arbitrary ι), fun h _ => h⟩

theorem Sat.of_error {x : EStateM ε σ α} {s s' : σ} {e : ε} {Q : α → σ → Prop}
    {E : ε → σ → Prop} (h : Sat x s Q E) (hx : x s = .error e s') : E e s' := by
  unfold Sat at h
  rwa [hx] at h

theorem bind_of_ok {x : EStateM ε σ α} {f : α → EStateM ε σ β} {s s' : σ} {a : α}
    (h : x s = .ok a s') : (x >>= f) s = f a s' := by
  show EStateM.bind x f s = f a s'
  unfold EStateM.bind
  rw [h]

theorem bind_eq_ok {x : EStateM ε σ α} {f : α → EStateM ε σ β} {s s'' : σ} {b : β}
    (h : (x >>= f) s = .ok b s'') : ∃ a s', x s = .ok a s' ∧ f a s' = .ok b s'' := by
  change EStateM.bind x f s = .ok b s'' at h
  unfold EStateM.bind at h
  cases hx : x s with
  | ok a s' => rw [hx] at h; exact ⟨a, s', rfl, h⟩
  | error e s' => rw [hx] at h; cases h

/-- The state the run of `x` from `s` ends in, by a return or by a stop. -/
def final (x : EStateM ε σ α) (s : σ) : σ :=
  match x s with
  | .ok _ s' => s'
  | .error _ s' => s'

theorem final_of_ok {x : EStateM ε σ α} {s s' : σ} {a : α} (h : x s = .ok a s') :
    final x s = s' := by
  unfold final
  rw [h]

/-- The run of `x` from `s` returns. -/
def returns (x : EStateM ε σ α) (s : σ) : Bool :=
  match x s with
  | .ok _ _ => true
  | .error _ _ => false

theorem ok_of_returns {x : EStateM ε σ PUnit} {s : σ} (h : returns x s = true) :
    x s = .ok ⟨⟩ (final x s) := by
  unfold returns at h
  unfold final
  cases hx : x s with
  | ok a s' => rfl
  | error e s' => rw [hx] at h; cases h

/-- The exception the run of `x` from `s` stops with, if it stops. -/
def fails (x : EStateM ε σ α) (s : σ) : Option ε :=
  match x s with
  | .ok _ _ => none
  | .error e _ => some e

theorem error_of_fails {x : EStateM ε σ α} {s : σ} {e : ε} (h : fails x s = some e) :
    x s = .error e (final x s) := by
  unfold fails at h
  unfold final
  cases hx : x s with
  | ok a s' => rw [hx] at h; cases h
  | error e' s' =>
      rw [hx] at h
      injection h with h
      rw [h]

theorem Sat.final {x : EStateM ε σ α} {s : σ} {P : σ → Prop}
    (h : Sat x s (fun _ => P) (fun _ => P)) : P (final x s) := by
  unfold Sat at h
  unfold Outcome.final
  cases hx : x s with
  | ok a s' => rw [hx] at h; exact h
  | error e s' => rw [hx] at h; exact h

/-! ### Loops

`forM` runs its body once for each element.  The rule asks for an invariant that
knows which elements are still to come.
-/

theorem sat_forM {f : α → EStateM ε σ PUnit} {E : ε → σ → Prop} (I : List α → σ → Prop)
    (hstep : ∀ a rest s, I (a :: rest) s → Sat (f a) s (fun _ => I rest) E) :
    ∀ (l : List α) (s : σ), I l s → Sat (forM l f) s (fun _ => I []) E := by
  intro l
  induction l with
  | nil => intro s h; exact h
  | cons a rest ih =>
      intro s h
      rw [List.forM_cons, sat_bind]
      exact (hstep a rest s h).mono (fun _ s' h' => ih s' h') (fun _ _ he => he)

/-! ### Relations a computation keeps to

`Stays F G x` says that every run of `x` ends in a state related to the one it started
from, and stops only with an exception in `G`.  For a preorder the parts of a block are
enough.
-/

def Stays (F : σ → σ → Prop) (G : ε → Prop) (x : EStateM ε σ α) : Prop :=
  ∀ s, Sat x s (fun _ s' => F s s') (fun e s' => F s s' ∧ G e)

namespace Stays

variable {F : σ → σ → Prop} [IsPreorder σ F] {G : ε → Prop}

theorem pure (a : α) : Stays F G (pure a : EStateM ε σ α) := fun s => refl_of F s

theorem throw {e : ε} (he : G e) : Stays F G (throw e : EStateM ε σ α) :=
  fun s => ⟨refl_of F s, he⟩

theorem get : Stays F G (get : EStateM ε σ σ) := fun s => refl_of F s

omit [IsPreorder σ F] in
theorem modify {f : σ → σ} (hf : ∀ s, F s (f s)) :
    Stays F G (modify f : EStateM ε σ PUnit) := fun s => hf s

theorem bind {x : EStateM ε σ α} {f : α → EStateM ε σ β} (hx : Stays F G x)
    (hf : ∀ a, Stays F G (f a)) : Stays F G (x >>= f) := by
  intro s
  rw [sat_bind]
  refine (hx s).mono (fun a s' h => ?_) (fun _ _ h => h)
  exact (hf a s').mono (fun _ _ h' => trans_of F h h') (fun _ _ h' => ⟨trans_of F h h'.1, h'.2⟩)

omit [IsPreorder σ F] in
theorem ite {c : Prop} [Decidable c] {x y : EStateM ε σ α} (hx : Stays F G x)
    (hy : Stays F G y) : Stays F G (if c then x else y) := by
  split
  · exact hx
  · exact hy

theorem forM {f : α → EStateM ε σ PUnit} (hf : ∀ a, Stays F G (f a)) (l : List α) :
    Stays F G (forM l f) := by
  intro s
  refine (sat_forM (fun _ s' => F s s') (fun a rest s' h => ?_) l s (refl_of F s)).mono
    (fun _ _ h => h) (fun _ _ h => h)
  exact (hf a s').mono (fun _ _ h' => trans_of F h h') (fun _ _ h' => ⟨trans_of F h h'.1, h'.2⟩)

end Stays

/-- A computation that keeps to more keeps to less. -/
theorem Stays.weaken {F F' : σ → σ → Prop} {G G' : ε → Prop} {x : EStateM ε σ α}
    (h : Stays F G x) (hF : ∀ s s', F s s' → F' s s') (hG : ∀ e, G e → G' e) : Stays F' G' x :=
  fun s => (h s).mono (fun _ s' hs => hF s s' hs) (fun e s' he => ⟨hF s s' he.1, hG e he.2⟩)

/-- Keeping a predicate is such a relation. -/
def Kept (I : σ → Prop) (s s' : σ) : Prop := I s → I s'

instance (I : σ → Prop) : IsPreorder σ (Kept I) where
  refl _ h := h
  trans _ _ _ h₁ h₂ h := h₂ (h₁ h)

theorem Stays.kept {I : σ → Prop} {x : EStateM ε σ α} (h : Stays (Kept I) (fun _ => True) x)
    {s : σ} (hs : I s) : Sat x s (fun _ => I) (fun _ => I) :=
  (h s).mono (fun _ _ hk => hk hs) (fun _ _ hk => hk.1 hs)

theorem Stays.of_kept {I : σ → Prop} {x : EStateM ε σ α}
    (h : ∀ s, I s → Sat x s (fun _ => I) (fun _ => I)) : Stays (Kept I) (fun _ => True) x := by
  intro s
  unfold Sat
  cases hx : x s with
  | ok a s' => exact fun hs => (h s hs).of_ok hx
  | error e s' => exact ⟨fun hs => (h s hs).of_error hx, trivial⟩

end Outcome
