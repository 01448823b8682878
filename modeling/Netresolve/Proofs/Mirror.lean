/-
The memory model and the core.

As long as a query lives, the functions of `Core/Memory.lean` do what those of
`Core/Query.lean` do: an event that leaves the query alive is the event of the core, with the
same result.  `Mirrors` says this of two computations, and it holds of blocks if it holds of
their parts.  It also says that the first runs out of fuel only where the second does, so that
the nesting the core needs is enough here too.
-/
import Netresolve.Core.Memory
import Netresolve.Proofs.Fuel

namespace Netresolve.Memory

open Outcome

section

variable {α : Type} {m : Mem} {E : Crash → Mem → Prop}

theorem sat_touch {x : M α} (h : m.alive) (Q : α → Mem → Prop) :
    Sat (touch x) m Q E ↔
      Sat x m.st (fun a s => Q a { m with st := s }) (fun e s => E (.fault e) { m with st := s }) := by
  unfold Sat touch
  rw [if_pos h]
  cases x m.st with
  | ok a s => exact Iff.rfl
  | error e s => exact Iff.rfl

theorem sat_look (h : m.alive) (Q : St → Mem → Prop) :
    Sat (touch get) m Q E ↔ Q m.st m := sat_touch h Q

theorem sat_freed (x : M α) (h : ¬ m.alive) (Q : α → Mem → Prop) :
    Sat (touch x) m Q E ↔ E .useAfterFree m := by
  unfold Sat touch
  rw [if_neg h]

end

/-- What `y` does to a query that is alive afterwards is what `x` does. -/
def Mirrors {α : Type} (x : M α) (y : L α) : Prop :=
  ∀ m, Sat y m (fun a m' => m'.alive → m.alive ∧ x m.st = .ok a m'.st)
    (fun e m' => e = .fault .fuel → m.alive ∧ x m.st = .error .fuel m'.st)

namespace Mirrors

variable {α β : Type}

theorem touch (x : M α) : Mirrors x (touch x) := by
  intro m
  by_cases h : m.alive
  · rw [sat_touch h]
    unfold Sat
    cases hx : x m.st with
    | ok a s => exact fun _ => ⟨h, rfl⟩
    | error e s =>
        intro he
        injection he with he
        rw [he]
        exact ⟨h, rfl⟩
  · rw [sat_freed x h]
    exact fun he => by cases he

theorem pure (a : α) : Mirrors (Pure.pure a) (Pure.pure a) := fun _ h => ⟨h, rfl⟩

theorem throw {e : Fault} (he : e ≠ .fuel) :
    Mirrors (MonadExcept.throw e : M α) (MonadExcept.throw (Crash.fault e)) := by
  intro m hc
  injection hc with hc
  exact absurd hc he

theorem bind {x : M α} {y : L α} {f : α → M β} {g : α → L β} (hx : Mirrors x y)
    (hf : ∀ a, Mirrors (f a) (g a)) : Mirrors (x >>= f) (y >>= g) := by
  intro m
  rw [sat_bind]
  refine (hx m).mono (fun a m₁ h₁ => ?_) (fun e m₁ h₁ he => ?_)
  · refine (hf a m₁).mono (fun b m₂ h₂ hm₂ => ?_) (fun e m₂ h₂ he => ?_)
    · obtain ⟨hm₁, hfa⟩ := h₂ hm₂
      obtain ⟨hm, hxa⟩ := h₁ hm₁
      exact ⟨hm, (bind_of_ok hxa).trans hfa⟩
    · obtain ⟨hm₁, hfa⟩ := h₂ he
      obtain ⟨hm, hxa⟩ := h₁ hm₁
      exact ⟨hm, (bind_of_ok hxa).trans hfa⟩
  · obtain ⟨hm, hxe⟩ := h₁ he
    refine ⟨hm, ?_⟩
    show EStateM.bind x f m.st = _
    unfold EStateM.bind
    rw [hxe]

theorem ite {c : Prop} [Decidable c] {x x' : M α} {y y' : L α} (h : Mirrors x y)
    (h' : Mirrors x' y') : Mirrors (if c then x else x') (if c then y else y') := by
  split
  · exact h
  · exact h'

theorem forM {f : α → M PUnit} {g : α → L PUnit} (h : ∀ a, Mirrors (f a) (g a)) (l : List α) :
    Mirrors (ForM.forM l f) (ForM.forM l g) := by
  induction l with
  | nil => exact pure _
  | cons a rest ih =>
      rw [List.forM_cons, List.forM_cons]
      exact bind (h a) fun _ => ih

end Mirrors

section

variable {env : Env} {f : QueryState → M Unit} {g : QueryState → L Unit}

theorem touch_fueled {α : Type} {x : M α} (hx : ∀ s, Fueled x s) (m : Mem) :
    Sat (touch x) m (fun _ _ => True) (fun e _ => e ≠ .fault .fuel) := by
  by_cases h : m.alive
  · rw [sat_touch h]
    refine (hx m.st).mono (fun _ _ _ => trivial) (fun e _ he hc => ?_)
    injection hc with hc
    exact he hc
  · rw [sat_freed x h]
    exact Crash.noConfusion

/-- The callback frees the query; where there is none nothing happens. -/
theorem mirrors_invokeCallback (env : Env) :
    Mirrors Netresolve.invokeCallback (invokeCallback env) := by
  intro m
  unfold invokeCallback
  rw [sat_bind]
  by_cases h : m.alive
  · rw [sat_look h, sat_ite]
    refine ⟨fun _ => ?_, fun hnone hm => ⟨hm, ?_⟩⟩
    · rw [sat_bind]
      refine (touch_fueled invokeCallback_fueled m).mono (fun _ m₁ _ => ?_)
        (fun _ _ he hc => absurd hc he)
      rw [sat_bind]
      refine (touch_fueled (queryFree_fueled env) m₁).mono (fun _ m₂ _ => ?_)
        (fun _ _ he hc => absurd hc he)
      rw [sat_modify]
      exact fun hm => absurd hm (Finset.notMem_erase _ _)
    · show (if m.st.query.callback = true then observe _ else pure ()) m.st = _
      rw [if_neg hnone]
      rfl
  · rw [sat_freed _ h]
    exact fun he => by cases he

/-! ### Function by function -/

theorem Mirrors.whenState (state : QueryState) {x : M Unit} {y : L Unit} (h : Mirrors x y) :
    Mirrors (Netresolve.whenState state x) (whenState state y) :=
  bind (touch get) fun _ => ite h (pure _)

theorem mirrors_addPath (h : ∀ state, Mirrors (f state) (g state)) (path : Path) :
    Mirrors (Netresolve.addPath env f path) (addPath env g path) :=
  .bind (.touch _) fun _ => .bind (.touch get) fun _ => .ite (h _) (.pure _)

theorem mirrors_runCall (h : ∀ state, Mirrors (f state) (g state)) (call : Call) :
    Mirrors (Netresolve.runCall env f call) (runCall env g call) := by
  unfold Netresolve.runCall runCall
  rw [← bind_assoc]
  refine .bind (.touch _) fun _ => ?_
  cases call with
  | addPath a => exact .bind (.touch get) fun _ => .forM (mirrors_addPath h) _
  | newPriv allocated => exact .bind (.touch _) fun _ => .ite (.pure _) (h _)
  | finished => exact h _
  | failed => exact h _
  | _ => exact .touch _

theorem mirrors_runCalls (h : ∀ state, Mirrors (f state) (g state)) (calls : List Call) :
    Mirrors (Netresolve.runCalls env f calls) (runCalls env g calls) :=
  .forM (mirrors_runCall h) calls

/-- `case NETRESOLVE_STATE_SETUP`, taken apart as in the memory model. -/
theorem enterSetup_eq (env : Env) (f : QueryState → M Unit) : Netresolve.enterSetup env f = (do
    if ← beginSetup then do
      Netresolve.runCalls env f (env.setup (← get).query.cursor)
      Netresolve.whenState .setup (do
        f (if (← get).query.request.requestTimeout ≠ 0 then .waiting else .failed))
      Netresolve.whenState .error (f .failed)
    else f .failed) := by
  funext s
  unfold Netresolve.enterSetup beginSetup
  show EStateM.bind currentBackend _ s = EStateM.bind (EStateM.bind currentBackend _) _ s
  unfold EStateM.bind
  cases currentBackend s with
  | error e s₁ => rfl
  | ok backend s₁ =>
      cases backend with
      | none => rfl
      | some b =>
          show (if b.setup s₁.query.request.type = true then _ else _ : M Unit) _ =
            (if b.setup s₁.query.request.type = true then _ else _ : M Unit) _
          split
          · rfl
          · rfl

theorem mirrors_enterState (h : ∀ state, Mirrors (f state) (g state)) (old state : QueryState) :
    Mirrors (Netresolve.enterState env f old state) (enterState env g old state) := by
  cases state with
  | none => exact .touch _
  | setup =>
      show Mirrors (Netresolve.enterSetup env f) (enterSetup env g)
      rw [enterSetup_eq]
      refine .bind (.touch _) fun present => .ite ?_ (h _)
      refine .bind (.touch get) fun s => .bind (mirrors_runCalls h _) fun _ => .bind ?_ fun _ => ?_
      · exact .whenState _ (.bind (.touch get) fun _ => h _)
      · exact .whenState _ (h _)
  | waiting => exact .touch _
  | waitingMore =>
      exact .bind (.touch get) fun _ => .bind (.ite (h _) (.pure _)) fun _ => .touch _
  | resolved => exact .touch _
  | done =>
      exact .bind (.touch _) fun _ => .bind (.ite (h _) (.pure _)) fun _ => mirrors_invokeCallback env
  | error => exact .pure _
  | failed => exact .bind (.touch _) fun _ => .ite (h _) (mirrors_invokeCallback env)

theorem mirrors_setState (env : Env) : ∀ k state,
    Mirrors (Netresolve.setState env k state) (setState env k state) := by
  intro k
  induction k with
  | zero => exact fun _ => .touch _
  | succ k ih =>
      intro state
      have hentered : Netresolve.setState env (k + 1) state = (do
          let old := (← get).query.state
          if state = old then pure ()
          else do
            (do
              modifyQuery fun q => { q with state := state }
              let q := (← get).query
              observe (.enter state q.cursor q.response))
            Netresolve.enterState env (Netresolve.setState env k) old state) := rfl
      rw [hentered]
      exact .bind (.touch get) fun s => .ite (.pure _)
        (.bind (.touch _) fun _ => mirrors_enterState ih _ _)

theorem mirrors_querySetState (env : Env) (state : QueryState) :
    Mirrors (Netresolve.querySetState env state) (querySetState env state) := by
  intro m
  have hcore : Netresolve.querySetState env state m.st =
      Netresolve.setState env (nesting m.st) state m.st := bind_of_ok rfl
  rw [hcore]
  unfold querySetState
  rw [sat_bind, sat_get]
  exact mirrors_setState env (nesting m.st) state m

theorem mirrors_dispatchTimeout (env : Env) (t : Timer) (state : QueryState) :
    Mirrors (Netresolve.dispatchTimeout env t state) (dispatchTimeout env t state) :=
  .bind (.touch get) fun _ => .ite (.throw (by decide))
    (.bind (.touch _) fun _ => mirrors_querySetState env state)

theorem mirrors_watchCallback (env : Env) (callback : WatchCallback) :
    Mirrors (Netresolve.watchCallback env callback) (watchCallback env callback) := by
  cases callback with
  | backend i => exact mirrors_runCalls (mirrors_querySetState env) _
  | timeout t =>
      cases t with
      | delayed =>
          exact .bind (.touch get) fun _ => .ite (mirrors_dispatchTimeout env _ _)
            (.throw (by decide))
      | requestTimeout =>
          exact .bind (.touch get) fun _ => .ite (mirrors_dispatchTimeout env _ _)
            (.throw (by decide))
      | resultTimeout =>
          exact .bind (.touch get) fun _ => .ite (mirrors_dispatchTimeout env _ _)
            (.throw (by decide))

/-- **An event that leaves the query alive is the event of the core.** -/
theorem mirrors_queryDispatch (env : Env) (w : Nat) :
    Mirrors (Netresolve.queryDispatch env w) (queryDispatch env w) := by
  refine .bind (.touch get) fun s => ?_
  cases s.query.watches.find? (·.id = w) with
  | none => exact .throw (by decide)
  | some watch =>
      exact .bind (mirrors_watchCallback env _) fun _ =>
        .bind (.whenState _ (mirrors_querySetState env _)) fun _ =>
          .whenState _ (mirrors_querySetState env _)

theorem mirrors_queryStart (env : Env) : Mirrors (Netresolve.queryStart env) (queryStart env) :=
  .bind (.touch get) fun _ => .ite (.throw (by decide)) (mirrors_querySetState env _)

/-- The nesting is enough here as it is in the core. -/
theorem Mirrors.fueled {x : M Unit} {y : L Unit} (h : Mirrors x y) (hx : ∀ s, Fueled x s)
    (m : Mem) : Sat y m (fun _ _ => True) (fun e _ => e ≠ .fault .fuel) := by
  refine (h m).mono (fun _ _ _ => trivial) (fun e m' he hc => ?_)
  exact (hx m.st).of_error (he hc).2 rfl

end

end Netresolve.Memory
