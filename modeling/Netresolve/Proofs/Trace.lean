/-
Reading a trace.

What a query has been through is in its trace, newest entry first.  Statements about
runs ask which states were entered, with the cursor on which backend, and whether the
application was called; most entries of a trace have no say in that.
-/
import Netresolve.Proofs.Visible
import Netresolve.Library.Past

namespace Netresolve

open Outcome Past

/-- The state was entered with the cursor on backend `i`. -/
def Entered (state : QueryState) (i : Nat) (tr : List Obs) : Prop :=
  ∃ response, Obs.enter state i response ∈ tr

/-- The application was called. -/
def CalledBack (tr : List Obs) : Prop :=
  ∃ state i response, Obs.callback state i response ∈ tr

/-- The entries that neither start nor end a backend. -/
def Obs.plain : Obs → Bool
  | .enter .setup _ _ | .enter .done _ _ | .enter .failed _ _ | .callback _ _ _ => false
  | _ => true

theorem entered_cons (state : QueryState) (i : Nat) (o : Obs) (tr : List Obs) :
    Entered state i (o :: tr) ↔ (∃ r, o = .enter state i r) ∨ Entered state i tr := by
  constructor
  · rintro ⟨r, hr⟩
    rcases List.mem_cons.mp hr with h | h
    · exact Or.inl ⟨r, h.symm⟩
    · exact Or.inr ⟨r, h⟩
  · rintro (⟨r, rfl⟩ | ⟨r, hr⟩)
    · exact ⟨r, List.mem_cons_self⟩
    · exact ⟨r, List.mem_cons_of_mem _ hr⟩

@[simp] theorem entered_enter (state state' : QueryState) (i j : Nat) (r : Response)
    (tr : List Obs) : Entered state i (.enter state' j r :: tr) ↔
      (state' = state ∧ j = i) ∨ Entered state i tr := by
  rw [entered_cons]
  simp

@[simp] theorem entered_error (state : QueryState) (i : Nat) (text : String) (tr : List Obs) :
    Entered state i (.error text :: tr) ↔ Entered state i tr := by
  rw [entered_cons]
  simp

theorem calledBack_cons (o : Obs) (tr : List Obs) :
    CalledBack (o :: tr) ↔ (∃ state i r, o = .callback state i r) ∨ CalledBack tr := by
  constructor
  · rintro ⟨state, i, r, h⟩
    rcases List.mem_cons.mp h with h | h
    · exact Or.inl ⟨state, i, r, h.symm⟩
    · exact Or.inr ⟨state, i, r, h⟩
  · rintro (⟨state, i, r, rfl⟩ | ⟨state, i, r, h⟩)
    · exact ⟨state, i, r, List.mem_cons_self⟩
    · exact ⟨state, i, r, List.mem_cons_of_mem _ h⟩

@[simp] theorem calledBack_enter (state : QueryState) (i : Nat) (r : Response) (tr : List Obs) :
    CalledBack (.enter state i r :: tr) ↔ CalledBack tr := by
  rw [calledBack_cons]
  simp

@[simp] theorem calledBack_error (text : String) (tr : List Obs) :
    CalledBack (.error text :: tr) ↔ CalledBack tr := by
  rw [calledBack_cons]
  simp

theorem entered_plain {o : Obs} (ho : o.plain) {state : QueryState}
    (hs : state = .setup ∨ state = .done ∨ state = .failed) (i : Nat) (tr : List Obs) :
    Entered state i (o :: tr) ↔ Entered state i tr := by
  rw [entered_cons]
  constructor
  · rintro (⟨r, rfl⟩ | h)
    · rcases hs with rfl | rfl | rfl <;> simp [Obs.plain] at ho
    · exact h
  · exact Or.inr

theorem calledBack_plain {o : Obs} (ho : o.plain) (tr : List Obs) :
    CalledBack (o :: tr) ↔ CalledBack tr := by
  rw [calledBack_cons]
  constructor
  · rintro (⟨state, i, r, rfl⟩ | h)
    · simp [Obs.plain] at ho
    · exact h
  · exact Or.inr

/-- Entering FAILED, as far as it can be seen: the message is all that can follow the entry. -/
theorem warned_cases (s : St) : s.warned = s ∨
    s.warned = { s with trace := .error "Failed reply has data." :: s.trace } := by
  unfold St.warned
  split
  · exact Or.inr rfl
  · exact Or.inl rfl

end Netresolve
