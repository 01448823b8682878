/-
Statements about what came before.

A trace is a list with the newest entry first, so the tail of a trace is its own
past.  `Always P tr` says that every entry of the trace stands in the relation `P`
to the past it happened in.  That is how an order of events is stated here: "`b`
only after `a`" is `Always` of "if this is `b` then `a` is in its past".
-/
import Mathlib.Data.List.Basic

namespace Past

variable {α : Type}

/-- Every entry of the trace satisfies `P` together with its past. -/
def Always (P : α → List α → Prop) : List α → Prop
  | [] => True
  | o :: past => P o past ∧ Always P past

@[simp] theorem always_nil (P : α → List α → Prop) : Always P [] := trivial

@[simp] theorem always_cons (P : α → List α → Prop) (o : α) (past : List α) :
    Always P (o :: past) ↔ P o past ∧ Always P past := Iff.rfl

instance Always.decidable (P : α → List α → Prop) [∀ o past, Decidable (P o past)] :
    ∀ tr : List α, Decidable (Always P tr)
  | [] => isTrue trivial
  | o :: past =>
      have := Always.decidable P past
      inferInstanceAs (Decidable (P o past ∧ Always P past))

/-- `Always` read at one entry of the trace. -/
theorem Always.at {P : α → List α → Prop} {tr later past : List α} {o : α}
    (h : Always P tr) (htr : tr = later ++ o :: past) : P o past := by
  subst htr
  induction later with
  | nil => exact h.1
  | cons a rest ih => exact ih h.2

theorem always_append {P : α → List α → Prop} {later past : List α} :
    Always P (later ++ past) → Always P past := by
  induction later with
  | nil => exact fun h => h
  | cons o rest ih => exact fun h => ih h.2

theorem Always.mono {P Q : α → List α → Prop} {tr : List α} (h : Always P tr)
    (hPQ : ∀ o past, P o past → Q o past) : Always Q tr := by
  induction tr with
  | nil => trivial
  | cons o past ih => exact ⟨hPQ o past h.1, ih h.2⟩

end Past
