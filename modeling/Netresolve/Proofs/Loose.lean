/-
Runs with any backends at all.

What is shown of the visible part of a query often needs no assumption on the backends:
they may leave watches behind, report after the query has ended, and make the program
stop.  `loose` knows no more of a query than it takes to go on, and the statements
shown over it hold of every run, also where it stops.
-/
import Netresolve.Proofs.Trace
import Netresolve.Proofs.Fuel

namespace Netresolve

open Outcome Past

/-- What is known of every query: a restart finds a backend, and does not come from SETUP. -/
def loose : Stages where
  ready _ s := s.query.cursor < s.backends.length ∧ s.query.state ≠ .setup
  run _ _ _ _ := True
  fin _ _ _ := True
  rest _ _ := True
  bold _ _ _ := True

/-- The entry `m` of the list is mandatory. -/
def Mandatory (bs : List Backend) (m : Nat) : Prop := ∃ b, bs[m]? = some b ∧ b.mandatory = true

theorem nextMandatory_skips : ∀ (bs : List Backend) (i j : Nat), i + j < (nextMandatory bs i).1 →
    ¬ Mandatory bs j := by
  intro bs
  induction bs with
  | nil =>
      rintro i j - ⟨b, hb, -⟩
      simp at hb
  | cons b rest ih =>
      intro i j hj
      by_cases hb : b.mandatory
      · simp only [nextMandatory, hb, if_true] at hj
        omega
      · simp only [nextMandatory, hb, Bool.false_eq_true, if_false] at hj
        cases j with
        | zero =>
            rintro ⟨b', hb', hm⟩
            obtain rfl : b = b' := by simpa using hb'
            exact hb hm
        | succ j =>
            rintro ⟨b', hb', hm⟩
            exact ih (i + 1) j (by omega) ⟨b', by simpa using hb', hm⟩

theorem nextMandatory_found : ∀ (bs : List Backend) (i : Nat), (nextMandatory bs i).2 = true →
    ∃ j, (nextMandatory bs i).1 = i + j ∧ Mandatory bs j := by
  intro bs
  induction bs with
  | nil => intro i h; simp [nextMandatory] at h
  | cons b rest ih =>
      intro i h
      by_cases hb : b.mandatory
      · exact ⟨0, by simp [nextMandatory, hb], b, by simp, hb⟩
      · simp only [nextMandatory, hb, Bool.false_eq_true, if_false] at h ⊢
        obtain ⟨j, hj, b', hb', hm⟩ := ih (i + 1) h
        exact ⟨j + 1, by omega, b', by simpa using hb', hm⟩

/-- DONE passes over the entries that are not mandatory. -/
theorem afterDone_skips {s : St} {m : Nat} (hc : s.query.cursor < m) (hm : m < s.afterDone.1) :
    ¬ Mandatory s.backends m := by
  have hskip := nextMandatory_skips (s.backends.drop (s.query.cursor + 1)) (s.query.cursor + 1)
    (m - (s.query.cursor + 1)) (by unfold St.afterDone at hm; omega)
  rintro ⟨b, hb, hmand⟩
  refine hskip ⟨b, ?_, hmand⟩
  rw [List.getElem?_drop, ← hb]
  congr 1
  omega

/-- The restart DONE finds is a mandatory entry behind the backend that is left. -/
theorem afterDone_found {s : St} (h : s.afterDone.2 = true) :
    s.query.cursor < s.afterDone.1 ∧ s.afterDone.1 < s.backends.length ∧
      Mandatory s.backends s.afterDone.1 := by
  obtain ⟨j, hj, b, hb, hm⟩ := nextMandatory_found (s.backends.drop (s.query.cursor + 1))
    (s.query.cursor + 1) h
  rw [List.getElem?_drop] at hb
  have hlt := (List.getElem?_eq_some_iff.mp hb).1
  have hj' : s.afterDone.1 = s.query.cursor + 1 + j := hj
  rw [hj']
  exact ⟨by omega, hlt, b, hb, hm⟩

theorem mandatory_congr {bs bs' : List Backend}
    (h : bs'.map Backend.shape = bs.map Backend.shape) (m : Nat) :
    Mandatory bs' m ↔ Mandatory bs m := by
  have hiff : ∀ bs : List Backend, Mandatory bs m ↔
      ∃ shape, (bs.map Backend.shape)[m]? = some shape ∧ shape.1 = true := by
    intro bs
    rw [List.getElem?_map]
    constructor
    · rintro ⟨b, hb, hm⟩
      exact ⟨b.shape, by rw [hb]; rfl, hm⟩
    · rintro ⟨shape, hb, hm⟩
      obtain ⟨b, hb', rfl⟩ := Option.map_eq_some_iff.mp hb
      exact ⟨b, hb', hm⟩
  rw [hiff, hiff, h]

theorem loose_sound (env : Env) : Sound env (fun _ _ => True) loose where
  fuel _ := trivial
  setUp k s h := by
    obtain ⟨hc, hne⟩ := h
    exact ⟨hne, s.backends[s.query.cursor], List.getElem?_eq_getElem hc, fun _ => trivial,
      fun _ => trivial⟩
  waiting _ _ _ _ _ := sat_trivial _ _
  impatient _ _ _ _ _ := trivial
  finished _ _ _ _ _ := ⟨fun _ => trivial, fun _ => sat_trivial _ _⟩
  failed _ _ _ _ _ := trivial
  alloc _ _ _ _ _ _ := sat_trivial _ _
  quiet _ _ _ _ _ _ _ := sat_trivial _ _
  addPath _ _ _ _ _ _ := ⟨trivial, fun _ => trivial⟩
  store _ _ _ _ _ _ _ := ⟨trivial, trivial⟩
  more _ _ _ _ _ _ _ _ := (sat_trivial _ _).mono (fun _ _ _ => ⟨trivial, trivial⟩) (fun _ _ h => h)
  zero _ _ _ _ _ _ _ _ := ⟨trivial, fun _ _ =>
    (sat_trivial _ _).mono (fun _ _ _ => ⟨trivial, trivial⟩) (fun _ _ h => h)⟩
  done k s _ := by
    refine ⟨fun _ => trivial, fun _ => ?_⟩
    refine (leaveDone_visible _).mono (fun found s' h => ?_) (fun _ _ _ => trivial)
    obtain ⟨s₁, hf, -, rfl, rfl⟩ := h
    cases hnext : s₁.afterDone.2 with
    | true =>
        refine ⟨(afterDone_found hnext).2.1, ?_⟩
        show s₁.query.state ≠ .setup
        rw [hf.state]
        exact QueryState.noConfusion
    | false => trivial
  leave k s _ := by
    refine ⟨fun _ => trivial, fun _ => ?_⟩
    refine (leaveFailed_visible _).mono (fun found s' h => ?_) (fun _ _ _ => trivial)
    obtain ⟨s₁, hf, -, rfl, rfl⟩ := h
    by_cases hlt : s₁.query.cursor + 1 < s₁.backends.length
    · rw [decide_eq_true hlt]
      refine ⟨hlt, ?_⟩
      show s₁.query.state ≠ .setup
      rw [hf.state]
      rcases warned_cases (s.entered .failed) with hw | hw <;> rw [hw] <;>
        exact QueryState.noConfusion
    · rw [decide_eq_false hlt]
      trivial
  called _ _ _ := trivial
  settled _ _ _ _ _ := trivial
  woken _ _ _ _ _ := trivial
  succeeded _ _ _ _ := trivial
  broken _ _ _ _ _ := trivial

/-! ### Events -/

section

variable {env : Env} {W : Stages} {Stop : St → Prop} {s : St}

/-- A statement about the visible part holds at the end of an event, wherever that is. -/
theorem loose_dispatch {w : Nat} {x : Watch} (hext : Extends env loose W Stop)
    (hx : s.query.watches.find? (·.id = w) = some x)
    (hstart : Starts env loose W s x.callback) (hstop : Stop s) :
    Sat (queryDispatch env w) s (fun _ => W.rest 0) (fun _ => Stop) := by
  have hwake : Wakes env (fun _ _ => True) loose s x.callback := by
    cases x.callback with
    | backend i => trivial
    | timeout t => exact ⟨sat_trivial _ _, fun _ _ _ => trivial⟩
  have hsat := ((loose_sound env).extend hext).queryDispatch hx
    (hwake.extend hstart hext hstop)
  refine (hsat.and (queryDispatch_fueled env w s)).mono (fun _ _ h => h.1.2) (fun _ _ he => ?_)
  exact he.1.2.resolve_left he.2

theorem loose_start (hext : Extends env loose W Stop) (hnew : s.query.cursor = 0)
    (hstate : s.query.state = .none) (hready : W.ready 0 s) (hstop : Stop s) :
    Sat (queryStart env) s (fun _ => W.rest 0) (fun _ => Stop) := by
  by_cases hb : s.backends = []
  · simp only [queryStart, sat_bind, sat_get, hb, List.isEmpty_nil, if_true, sat_throw]
    exact hstop
  · have hloose : loose.ready 0 s := by
      refine ⟨?_, by rw [hstate]; decide⟩
      rw [hnew]
      exact List.length_pos_iff.mpr hb
    have hsat := ((loose_sound env).extend hext).queryStart (s := s) ⟨hloose, hready⟩
    refine (hsat.and (queryStart_fueled env s)).mono (fun _ _ h => h.1.2) (fun _ _ he => ?_)
    exact he.1.2.resolve_left he.2

end

/-! ### Invariants of the visible part -/

/-- What has to be shown of a statement that holds at all times. -/
structure Invariant (env : Env) (I : St → Prop) : Prop where
  frame : ∀ {s s'}, Frame s s' → I s → I s'
  entered : ∀ {s} (state : QueryState), I s → I (s.entered state)
  reported : ∀ {s} {call : Call}, call.data = false → I s → I (s.reported call)
  answered : ∀ {s} {call : Call}, call.data = true → I s → I (s.answered env call)
  stored : ∀ {s} (path : Path), I s → I (s.stored env path)
  warned : ∀ {s}, I s → I s.warned
  called : ∀ {s}, I s → I s.called
  moved : ∀ {s} (i : Nat), I s → I (s.moved i)
  setUp : ∀ {s} (backend : Backend), I s → I (s.setUp backend)

/-- The same statement at every stage. -/
def always (I : St → Prop) : Stages where
  ready _ := I
  run _ _ _ := I
  fin _ _ := I
  rest _ := I
  bold _ _ := I

section

variable {env : Env} {I : St → Prop}

theorem Invariant.toResolved (h : Invariant env I) {s : St} (hs : I s) : I s.toResolved := by
  unfold St.toResolved
  split
  · exact hs
  · exact h.entered _ hs

theorem Invariant.toError (h : Invariant env I) {s : St} (hs : I s) : I s.toError := by
  unfold St.toError
  split
  · exact hs
  · exact h.entered _ hs

theorem Invariant.toExtends (h : Invariant env I) : Extends env loose (always I) I where
  frame_stop hf hs := h.frame hf hs
  run_stop hs := hs
  report_stop hd hs := h.reported hd hs
  resolve_stop hs := h.entered _ (h.reported rfl hs)
  rest_stop hs := hs
  setUp _ hs _ := ⟨fun _ => h.setUp _ hs, fun _ => h.setUp _ hs⟩
  waiting _ hs _ _ _ hf _ := h.frame hf (h.entered _ hs)
  impatient _ hs _ _ := hs
  finished _ hs _ hf _ := h.frame hf (h.toResolved (h.reported rfl hs))
  failed _ hs := h.toError (h.reported rfl hs)
  alloc := by
    intro k ph rest s allocated _ hs s' hf
    have hs' : I s' := h.frame hf (h.reported rfl hs)
    cases allocated with
    | true => exact hs'
    | false => exact h.toError hs'
  watchAdd hs _ hf _ := h.frame hf (h.reported rfl hs)
  watchRemove hs _ hf := h.frame hf (h.reported rfl hs)
  write hd hs := h.answered hd hs
  addPath hs := ⟨h.reported rfl hs, fun _ => h.reported rfl hs⟩
  store path _ _ hs _ := ⟨h.stored path hs, h.stored path hs⟩
  more _ _ hs _ _ _ _ hf := ⟨h.frame hf (h.entered _ hs), h.frame hf (h.entered _ hs)⟩
  zero _ _ hs _ _ _ := ⟨h.entered _ hs, fun _ _ _ hs' hf => ⟨h.frame hf hs', h.frame hf hs'⟩⟩
  done _ hs := by
    refine ⟨fun _ => hs, fun _ => ⟨h.entered _ hs, fun s₁ hf => ?_⟩⟩
    have hs₁ := h.frame hf (h.entered _ hs)
    refine ⟨h.moved _ hs₁, fun _ => ?_⟩
    split
    · exact h.moved _ hs₁
    · exact h.called (h.moved _ hs₁)
  leave _ hs := by
    refine ⟨fun _ => hs, fun _ => ⟨h.warned (h.entered _ hs), fun s₁ hf => ?_⟩⟩
    have hs₁ := h.frame hf (h.warned (h.entered _ hs))
    refine ⟨h.moved _ hs₁, fun _ => ?_⟩
    split
    · exact h.moved _ hs₁
    · exact h.called (h.moved _ hs₁)
  called _ hs := h.called hs
  settled _ hs _ _ := hs
  woken _ hs _ _ := hs
  succeeded _ hs _ := hs
  broken hor _ := by
    rcases hor with ⟨-, hs⟩ | ⟨-, hs⟩ <;> exact hs

end

/-- A run with any backends and any events. -/
abbrev Anyhow (s₀ s : St) : Prop :=
  Reachable (fun _ => True) (fun _ _ _ => True) s₀ s ∨
    Stopped (fun _ => True) (fun _ _ _ => True) s₀ s

/-- **An invariant of the visible part holds throughout every run.** -/
theorem Invariant.anyhow {I : St → Prop} (h : ∀ env, Invariant env I) {s₀ s : St}
    (hnew : s₀.toLocal.New) (hI : I s₀) (hrun : Anyhow s₀ s) : I s := by
  have hstart : ∀ env, Sat (queryStart env) s₀ (fun _ => I) (fun _ => I) :=
    fun env => loose_start (h env).toExtends hnew.cursor hnew.state hI hI
  have hevent : ∀ env w s, (∃ x ∈ s.query.watches, x.id = w) → I s →
      Sat (queryDispatch env w) s (fun _ => I) (fun _ => I) := by
    intro env w s hw hs
    obtain ⟨x, hx, -, -⟩ := find_watch hw
    refine loose_dispatch (h env).toExtends hx ?_ hs
    cases x.callback with
    | backend i => exact hs
    | timeout t => exact ⟨fun _ s' hf => (h env).frame hf hs, fun s' _ hs' _ => hs'⟩
  have hreach : ∀ s, Reachable (fun _ => True) (fun _ _ _ => True) s₀ s → I s := by
    intro s hs
    induction hs with
    | start env _ hok => exact (hstart env).of_ok hok
    | step _ hstep ih =>
        obtain ⟨env, w, -, hw, hok⟩ := hstep
        exact (hevent env w _ hw ih).of_ok hok
  rcases hrun with hs | hs
  · exact hreach s hs
  · cases hs with
    | start _ herr => exact (hstart _).of_error herr
    | step hr _ hw herr => exact (hevent _ _ _ hw (hreach _ hr)).of_error herr

/-! ### Playing a run -/

/-- What can be seen of the state a computation returns in, if it returns. -/
def peek {α : Type} (f : St → α) (x : M Unit) (s : St) : Option α :=
  match x s with
  | .ok _ s' => some (f s')
  | .error _ _ => none

theorem peek_some {α : Type} {f : St → α} {x : M Unit} {s : St} {v : α}
    (h : peek f x s = some v) : ∃ s', x s = .ok () s' ∧ f s' = v := by
  unfold peek at h
  cases hx : x s with
  | ok a s' => rw [hx] at h; exact ⟨s', rfl, Option.some.inj h⟩
  | error e s' => rw [hx] at h; simp at h

theorem play_single {env : Env} {w : Nat} {s₀ s₁ s : St} (h₁ : queryStart env s₀ = .ok () s₁)
    (h : play env [w] s₀ = .ok () s) : queryDispatch env w s₁ = .ok () s := by
  have hsat : Sat (play env [w]) s₀ (fun _ s' => queryDispatch env w s₁ = .ok () s')
      (fun _ _ => True) := by
    simp only [play, List.forM_cons, List.forM_nil, sat_bind]
    unfold Sat
    rw [h₁]
    show Sat (queryDispatch env w) s₁ _ _
    unfold Sat
    cases hx : queryDispatch env w s₁ with
    | ok a s' => rfl
    | error e s' => trivial
  exact hsat.of_ok h

/-- A run that can be played is a run. -/
theorem Reachable.play {P₀ : Env → Prop} {P : St → Env → Nat → Prop} {env : Env} {ws : List Nat}
    {s₀ s : St} (hP₀ : P₀ env) (hP : ∀ s w, P s env w) (h : play env ws s₀ = .ok () s) :
    Reachable P₀ P s₀ s := by
  have hevents : ∀ (ws : List Nat) (s : St), Reachable P₀ P s₀ s →
      Sat (forM ws (queryDispatch env)) s (fun _ => Reachable P₀ P s₀) (fun _ _ => True) := by
    intro ws s hs
    refine sat_forM (fun _ => Reachable P₀ P s₀) (fun w _ s' hs' => ?_) ws s hs
    unfold Sat
    cases hx : queryDispatch env w s' with
    | error e s'' => trivial
    | ok a s'' =>
        refine .step hs' ⟨env, w, hP s' w, ?_, hx⟩
        -- The dispatch would have stopped without such a watch.
        cases hfind : s'.query.watches.find? (·.id = w) with
        | some x => exact ⟨x, List.mem_of_find?_eq_some hfind, by simpa using List.find?_some hfind⟩
        | none =>
            have hstop : Sat (queryDispatch env w) s' (fun _ _ => False) (fun _ _ => True) := by
              simp only [queryDispatch, sat_bind, sat_get, hfind, sat_throw]
            exact (hstop.of_ok hx).elim
  have hall : Sat (Netresolve.play env ws) s₀ (fun _ => Reachable P₀ P s₀) (fun _ _ => True) := by
    simp only [Netresolve.play, sat_bind]
    unfold Sat
    cases hx : queryStart env s₀ with
    | error e s' => trivial
    | ok a s' => exact hevents ws s' (.start env hP₀ hx)
  exact hall.of_ok h

end Netresolve
