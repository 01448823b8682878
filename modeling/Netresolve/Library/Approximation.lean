/-
Recursion that is cut off.

A function that calls itself is modelled by a function `F` of what the inner calls do, and run to a
depth: at depth zero it stops with an exception of its own.  `Below e x y` says that `x` does what
`y` does wherever it does not stop with that exception.  If `F` respects this, a greater depth goes
on doing what a smaller one did, so a run that is not cut off at some depth is the run of the
recursion itself.
-/
import Netresolve.Library.Outcome

namespace Outcome

variable {ε σ α β : Type}

/-- `x` does what `y` does, unless it is cut off. -/
def Below (e : ε) (x y : EStateM ε σ α) : Prop := ∀ s, (∃ s', x s = .error e s') ∨ x s = y s

namespace Below

variable {e : ε} {x y : EStateM ε σ α}

theorem refl (x : EStateM ε σ α) : Below e x x := fun _ => Or.inr rfl

theorem trans {z : EStateM ε σ α} (h : Below e x y) (h' : Below e y z) : Below e x z := by
  intro s
  rcases h s with hcut | hxy
  · exact Or.inl hcut
  · rw [hxy]
    exact h' s

theorem cut (y : EStateM ε σ α) : Below e (throw e) y := fun s => Or.inl ⟨s, rfl⟩

theorem bind {f g : α → EStateM ε σ β} (h : Below e x y) (h' : ∀ a, Below e (f a) (g a)) :
    Below e (x >>= f) (y >>= g) := by
  intro s
  show (∃ s', EStateM.bind x f s = .error e s') ∨ EStateM.bind x f s = EStateM.bind y g s
  unfold EStateM.bind
  rcases h s with ⟨s', hcut⟩ | hxy
  · rw [hcut]
    exact Or.inl ⟨s', rfl⟩
  · rw [hxy]
    cases y s with
    | ok a s' => exact h' a s'
    | error e' s' => exact Or.inr rfl

theorem ite {c : Prop} [Decidable c] {x' y' : EStateM ε σ α} (h : Below e x y)
    (h' : Below e x' y') : Below e (if c then x else x') (if c then y else y') := by
  split
  · exact h
  · exact h'

theorem forM {f g : α → EStateM ε σ PUnit} (h : ∀ a, Below e (f a) (g a)) (l : List α) :
    Below e (forM l f) (forM l g) := by
  induction l with
  | nil => exact refl _
  | cons a rest ih =>
      rw [List.forM_cons, List.forM_cons]
      exact (h a).bind fun _ => ih

end Below

/-- The recursion, cut off at a depth. -/
structure Cut (e : ε) (F : EStateM ε σ α → EStateM ε σ α) (rec : Nat → EStateM ε σ α) : Prop where
  zero : rec 0 = throw e
  succ : ∀ n, rec (n + 1) = F (rec n)
  mono : ∀ {x y}, Below e x y → Below e (F x) (F y)

namespace Cut

variable {e : ε} {F : EStateM ε σ α → EStateM ε σ α} {rec : Nat → EStateM ε σ α}

theorem below_succ (h : Cut e F rec) : ∀ n, Below e (rec n) (rec (n + 1)) := by
  intro n
  induction n with
  | zero =>
      rw [h.zero]
      exact Below.cut _
  | succ n ih =>
      rw [h.succ, h.succ (n + 1)]
      exact h.mono ih

theorem below (h : Cut e F rec) {n m : Nat} (hle : n ≤ m) : Below e (rec n) (rec m) := by
  induction hle with
  | refl => exact Below.refl _
  | step _ ih => exact ih.trans (h.below_succ _)

/-- What is not cut off at some depth is the same at every greater one. -/
theorem stable (h : Cut e F rec) {G : EStateM ε σ α → EStateM ε σ β}
    (hG : ∀ {x y}, Below e x y → Below e (G x) (G y)) {n m : Nat} (hle : n ≤ m) {s : σ}
    (hn : ∀ s', G (rec n) s ≠ .error e s') : G (rec m) s = G (rec n) s := by
  rcases hG (h.below hle) s with ⟨s', hcut⟩ | hsame
  · exact absurd hcut (hn s')
  · exact hsame.symm

end Cut

end Outcome
