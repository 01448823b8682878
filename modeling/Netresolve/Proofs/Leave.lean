/-
A report ends the backend.

A backend that calls `netresolve_backend_finished` or `netresolve_backend_failed` from the
dispatch of a watch is left before the dispatch returns: the query has gone on to another
backend or to the end of the list.  This is what a backend relies on when it reports.
-/
import Netresolve.Proofs.Loose

namespace Netresolve

open Outcome

/-- The calls that end a backend. -/
def Call.reports : Call → Bool
  | .finished | .failed => true
  | _ => false

/-- A report is still to come, or has just been made. -/
def Due (calls : List Call) (s : St) : Prop :=
  (∃ call ∈ calls, call.reports = true) ∨ s.query.state = .resolved ∨ s.query.state = .error

/-- The backend at position `c` is left, or about to be. -/
def leaving (c : Nat) : Stages where
  ready _ s := c < s.query.cursor
  run _ ph calls s := c < s.query.cursor ∨ ph = .dispatch ∧ c = s.query.cursor ∧ Due calls s
  fin _ state s := c < s.query.cursor ∨ c = s.query.cursor ∧ s.query.state ≠ state
  rest _ s := c < s.query.cursor
  bold _ _ _ := True

/-- A call that is no report leaves the report to come. -/
theorem Due.next {call : Call} {rest : List Call} {s s' : St} (h : Due (call :: rest) s)
    (hcall : call.reports = false) (hstate : s'.query.state = s.query.state) : Due rest s' := by
  rcases h with ⟨report, hmem, hreport⟩ | hstates
  · rcases List.mem_cons.mp hmem with rfl | hmem
    · rw [hcall] at hreport
      cases hreport
    · exact Or.inl ⟨report, hmem, hreport⟩
  · exact Or.inr (by rw [hstate]; exact hstates)

variable {env : Env} {c : Nat}

/-- A step that moves neither the cursor nor the state. -/
theorem leaving_next {k : Nat} {ph : Phase} {call : Call} {rest : List Call} {s s' : St}
    (h : (leaving c).run k ph (call :: rest) s) (hcall : call.reports = false)
    (hcursor : s'.query.cursor = s.query.cursor) (hstate : s'.query.state = s.query.state) :
    (leaving c).run k ph rest s' := by
  rcases h with h | ⟨hph, hc, hdue⟩
  · exact Or.inl (by rw [hcursor]; exact h)
  · exact Or.inr ⟨hph, by rw [hcursor]; exact hc, hdue.next hcall hstate⟩

/-- A step that brings the query to a state backends report by. -/
theorem leaving_report {k : Nat} {ph : Phase} {calls rest : List Call} {s s' : St}
    (h : (leaving c).run k ph calls s) (hcursor : s'.query.cursor = s.query.cursor)
    (hstate : s'.query.state = .resolved ∨ s'.query.state = .error) :
    (leaving c).run k ph rest s' := by
  rcases h with h | ⟨hph, hc, -⟩
  · exact Or.inl (by rw [hcursor]; exact h)
  · exact Or.inr ⟨hph, by rw [hcursor]; exact hc, Or.inr hstate⟩

theorem toError_reads (s : St) :
    s.toError.query.cursor = s.query.cursor ∧ s.toError.query.state = .error := by
  unfold St.toError
  split
  · next h => exact ⟨rfl, h⟩
  · exact ⟨rfl, rfl⟩

theorem toResolved_reads (s : St) :
    s.toResolved.query.cursor = s.query.cursor ∧ s.toResolved.query.state = .resolved := by
  unfold St.toResolved
  split
  · next h => exact ⟨rfl, h⟩
  · exact ⟨rfl, rfl⟩

theorem called_cursor (s : St) : s.called.query.cursor = s.query.cursor := by
  unfold St.called
  split <;> rfl

theorem warned_cursor (s : St) : s.warned.query.cursor = s.query.cursor := by
  unfold St.warned
  split <;> rfl

/-- About to be left, whatever it is left for. -/
theorem leaving_le {k : Nat} {state : QueryState} {s : St} (h : (leaving c).fin k state s) :
    c ≤ s.query.cursor := by
  rcases h with h | ⟨h, -⟩
  · exact Nat.le_of_lt h
  · exact Nat.le_of_eq h

/-- In the state that it is left for, it has been left. -/
theorem leaving_lt {k : Nat} {state : QueryState} {s : St} (h : (leaving c).fin k state s)
    (hs : s.query.state = state) : c < s.query.cursor := h.resolve_right fun h => h.2 hs

theorem leaving_extends : Extends env loose (leaving c) (fun _ => True) where
  frame_stop _ _ := trivial
  run_stop _ := trivial
  report_stop _ _ := trivial
  resolve_stop _ := trivial
  rest_stop _ := trivial
  setUp _ h _ := ⟨fun _ => Or.inl h, fun _ => Or.inl h⟩
  waiting := by
    intro k s _ h _ _ s' hf _
    rcases h with h | ⟨hph, -⟩
    · show c < s'.query.cursor
      rw [hf.cursor]
      exact h
    · cases hph
  impatient := by
    intro k s _ h _ _
    rcases h with h | ⟨hph, -⟩
    · exact Or.inl h
    · cases hph
  finished := by
    intro k ph rest s _ h s' hf _
    obtain ⟨hcursor, hstate⟩ := toResolved_reads (s.reported .finished)
    exact leaving_report h (hf.cursor.trans hcursor) (Or.inl (hf.state.trans hstate))
  failed := by
    intro k ph rest s _ h
    obtain ⟨hcursor, hstate⟩ := toError_reads (s.reported .failed)
    exact leaving_report h hcursor (Or.inr hstate)
  alloc := by
    intro k ph rest s allocated _ h s' hf
    cases allocated with
    | true => exact leaving_next h rfl hf.cursor hf.state
    | false =>
        obtain ⟨hcursor, hstate⟩ := toError_reads s'
        exact leaving_report h (hcursor.trans hf.cursor) (Or.inr hstate)
  watchAdd h _ hf _ := leaving_next h rfl hf.cursor hf.state
  watchRemove h _ hf := leaving_next h rfl hf.cursor hf.state
  write := by
    intro k ph call rest s hd h
    refine leaving_next h ?_ rfl rfl
    cases call <;> first | rfl | simp [Call.data] at hd
  addPath h := ⟨leaving_next h rfl rfl rfl, fun _ => trivial⟩
  store path _ _ h _ := ⟨h, trivial⟩
  more := by
    intro k ph rest s _ _ h _ hw _ s' hf
    refine ⟨?_, trivial⟩
    rcases h with h | ⟨hph, hc, hdue⟩
    · exact Or.inl (by rw [hf.cursor]; exact h)
    · refine Or.inr ⟨hph, by rw [hf.cursor]; exact hc, Or.inl (hdue.resolve_right ?_)⟩
      rw [hw]
      simp
  zero := by
    intro k ph rest s _ _ h _ _ _
    refine ⟨?_, fun s' s'' _ hrest hf => ⟨Or.inl (by rw [hf.cursor]; exact hrest), trivial⟩⟩
    rcases h with h | ⟨-, hc, -⟩
    · exact Or.inl h
    · exact Or.inr ⟨hc, QueryState.noConfusion⟩
  done := by
    intro k s _ h
    refine ⟨leaving_lt h, fun _ => ⟨trivial, fun s₁ hf => ⟨trivial, fun _ => ?_⟩⟩⟩
    · have hle : c ≤ s₁.query.cursor := by
        rw [hf.cursor]
        exact show c ≤ s.query.cursor from leaving_le h
      have hmoves : c < s₁.afterDone.1 :=
        Nat.lt_of_lt_of_le (Nat.lt_succ_of_le hle) (nextMandatory_spec _ _).1
      split
      · exact hmoves
      · show c < (s₁.moved s₁.afterDone.1).called.query.cursor
        rw [called_cursor]
        exact hmoves
  leave := by
    intro k s _ h
    refine ⟨leaving_lt h, fun _ => ⟨trivial, fun s₁ hf => ⟨trivial, fun _ => ?_⟩⟩⟩
    · have hle : c ≤ s₁.query.cursor := by
        rw [hf.cursor, warned_cursor]
        exact show c ≤ s.query.cursor from leaving_le h
      split
      · exact Nat.lt_succ_of_le hle
      · show c < (s₁.moved (s₁.query.cursor + 1)).called.query.cursor
        rw [called_cursor]
        exact Nat.lt_succ_of_le hle
  called := by
    intro k s _ h
    show c < s.called.query.cursor
    rw [called_cursor]
    exact h
  settled := by
    intro k s _ h _ _
    rcases h with h | ⟨hph, -⟩
    · exact h
    · cases hph
  woken := by
    intro k s _ h hr he
    rcases h with h | ⟨-, -, hdue⟩
    · exact h
    · rcases hdue with ⟨call, hmem, -⟩ | hs | hs
      · cases hmem
      · exact absurd hs hr
      · exact absurd hs he
  succeeded := by
    intro k s _ h hs
    rcases h with h | ⟨-, hc, -⟩
    · exact Or.inl h
    · exact Or.inr ⟨hc, by rw [hs]; exact QueryState.noConfusion⟩
  broken := by
    intro k ph s hor hs
    rcases hor with ⟨-, h⟩ | ⟨-, h⟩
    · rcases h with h | ⟨-, hc, -⟩
      · exact Or.inl h
      · exact Or.inr ⟨hc, by rw [hs]; exact QueryState.noConfusion⟩
    · exact Or.inl h

/-- **A dispatch function that reports is the last of its backend.** -/
theorem dispatch_leaves {s s' : St} {w : Nat} {x : Watch} {i : Nat}
    (hx : s.query.watches.find? (·.id = w) = some x) (hcb : x.callback = .backend i)
    (hreport : ∃ call ∈ env.dispatch i, call.reports = true)
    (hok : queryDispatch env w s = .ok () s') : s.query.cursor < s'.query.cursor := by
  have hstart : Starts env loose (leaving s.query.cursor) s x.callback := by
    rw [hcb]
    exact Or.inr ⟨rfl, rfl, Or.inl hreport⟩
  exact (loose_dispatch leaving_extends hx hstart trivial).of_ok hok

end Netresolve
