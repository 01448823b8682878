/-
A frontier that is walked in any order.

Visiting a member of the frontier takes it away and puts its children in its place.  A
walk that ends with nothing left has chosen a member at every step, and the choices may
all have been different: it has visited the same members all the same.
-/
import Mathlib.Data.Multiset.AddSub

namespace Frontier

variable {α : Type} (children : α → Multiset α)

/-- A walk from the frontier `s` to its end, with everything it visits. -/
inductive Walk : Multiset α → Multiset α → Prop
  | done : Walk 0 0
  | visit {x : α} {s visited : Multiset α} (h : Walk (s + children x) visited) :
      Walk (x ::ₘ s) (x ::ₘ visited)

variable {children}

/-- Any member of the frontier might as well have been the first. -/
theorem Walk.first {t visited : Multiset α} (h : Walk children t visited) :
    ∀ {x : α} {s : Multiset α}, t = x ::ₘ s →
      ∃ later, visited = x ::ₘ later ∧ Walk children (s + children x) later := by
  induction h with
  | done =>
      intro x s hs
      exact absurd hs.symm Multiset.cons_ne_zero
  | @visit y r visited hwalk ih =>
      intro x s hs
      rcases Multiset.cons_eq_cons.mp hs with ⟨rfl, rfl⟩ | ⟨-, rest, hr, rfl⟩
      · exact ⟨visited, rfl, hwalk⟩
      · -- `y` was visited first and `x` later: the two are exchanged
        obtain ⟨later, rfl, hlater⟩ := ih (x := x) (s := rest + children y) (by
          rw [hr, Multiset.cons_add])
        refine ⟨y ::ₘ later, Multiset.cons_swap _ _ _, ?_⟩
        rw [Multiset.cons_add]
        refine Walk.visit ?_
        rw [Multiset.add_assoc, Multiset.add_comm (children x), ← Multiset.add_assoc]
        exact hlater

/-- **Two complete walks from one frontier visit the same members.** -/
theorem Walk.unique {s visited visited' : Multiset α} (h : Walk children s visited)
    (h' : Walk children s visited') : visited = visited' := by
  induction h generalizing visited' with
  | done =>
      generalize ht : (0 : Multiset α) = t at h'
      cases h' with
      | done => rfl
      | visit _ => exact absurd ht.symm Multiset.cons_ne_zero
  | visit _ ih =>
      obtain ⟨later, rfl, hlater⟩ := h'.first rfl
      rw [ih hlater]

end Frontier
