/-
A step follows its course.

What the course leaves out moves no query: watches, timers, private data and what is written into
the response are aside from the state, the cursor and the set-ups, which is `Unmoved`.  The rest
goes state change by state change.  A step that returns ends where its course ends, with the same
set-ups, and one that stops has come no further than its course.
-/
import Netresolve.Core.Pool
import Netresolve.Proofs.Fuel

namespace Netresolve

open Outcome

/-- The positions of the set-ups in a trace. -/
def setUps (trace : List Obs) : List Nat :=
  trace.filterMap fun
    | .enter .setup j _ => some j
    | _ => none

/-! ### What moves no query -/

/-- The query stands where it stood, and has not been set up since. -/
structure Unmoved (s s' : St) : Prop where
  state : s'.query.state = s.query.state
  cursor : s'.query.cursor = s.query.cursor
  request : s'.query.request = s.query.request
  shape : s'.backends.map Backend.shape = s.backends.map Backend.shape
  setUps : setUps s'.trace = setUps s.trace

instance : IsPreorder St Unmoved where
  refl _ := ⟨rfl, rfl, rfl, rfl, rfl⟩
  trans _ _ _ h h' := ⟨h'.state.trans h.state, h'.cursor.trans h.cursor, h'.request.trans h.request,
    h'.shape.trans h.shape, h'.setUps.trans h.setUps⟩

/-- Running `x` moves no query. -/
abbrev Still {α : Type} (x : M α) : Prop := Stays Unmoved (fun _ => True) x

section

variable {env : Env} {α : Type} {x : M α}

theorem Keeps.still (h : Keeps x) : Still x :=
  h.weaken (fun _ _ hf => ⟨hf.state, hf.cursor, hf.request, hf.shape, congrArg setUps hf.trace⟩)
    (fun _ _ => trivial)

theorem still_observe {o : Obs} (ho : setUps [o] = []) : Still (observe o) :=
  .modify fun s => ⟨rfl, rfl, rfl, rfl, by
    show setUps ([o] ++ s.trace) = setUps s.trace
    rw [setUps, List.filterMap_append, ← setUps, ho, List.nil_append, ← setUps]⟩

theorem still_respond {f : Query → Response} :
    Still (modifyQuery fun q => { q with response := f q }) :=
  .modify fun _ => ⟨rfl, rfl, rfl, rfl, rfl⟩

theorem still_storePath (path : Path) : Still (storePath env path) :=
  .bind .get fun _ => .bind (still_observe rfl) fun _ => still_respond

theorem still_addNameInfo (nodename : Option String) : Still (backendAddNameInfo env nodename) := by
  refine .modify fun s => ?_
  show Unmoved s { s with query := ite _ _ _ }
  split <;> exact ⟨rfl, rfl, rfl, rfl, rfl⟩

theorem still_callback : Still invokeCallback :=
  .bind .get fun _ => .ite (still_observe rfl) (.pure _)

end

/-! ### Where a query has come to -/

section

variable {env : Env} {bs : List Backend} {base : List Nat} {c c' : Course} {s s' : St}

section

variable (bs : List Backend) (base : List Nat)

/-- The query stands where the course has come to. -/
structure At (c : Course) (s : St) : Prop where
  state : s.query.state = c.state
  cursor : s.query.cursor = c.cursor
  request : s.query.request = c.request
  shape : s.backends.map Backend.shape = bs.map Backend.shape
  setUps : setUps s.trace = c.setUps ++ base

/-- The query has come no further than the course. -/
def NoFurther (c : Course) (s : St) : Prop := ∃ l, setUps s.trace = l ++ base ∧ l <:+ c.setUps

/-- A run from the state follows the course. -/
abbrev Follows {α : Type} (x : M α) (s : St) (c : Course) : Prop :=
  Sat x s (fun _ => At bs base c) (fun e s' => e = .fuel ∨ NoFurther base c s')

end

theorem At.unmoved (h : At bs base c s) (hs : Unmoved s s') : At bs base c s' :=
  ⟨hs.state.trans h.state, hs.cursor.trans h.cursor, hs.request.trans h.request,
    hs.shape.trans h.shape, hs.setUps.trans h.setUps⟩

theorem At.noFurther (h : At bs base c s) (hc : c.setUps <:+ c'.setUps) : NoFurther base c' s :=
  ⟨c.setUps, h.setUps, hc⟩

theorem NoFurther.mono (h : NoFurther base c s) (hc : c.setUps <:+ c'.setUps) :
    NoFurther base c' s := by
  obtain ⟨l, hl, hsuffix⟩ := h
  exact ⟨l, hl, hsuffix.trans hc⟩

theorem Still.follows {α : Type} {x : M α} (h : Still x) (hat : At bs base c s) :
    Follows bs base x s c :=
  (h s).mono (fun _ _ hs => hat.unmoved hs)
    (fun _ _ hs => Or.inr ((hat.unmoved hs.1).noFurther (List.suffix_refl _)))

/-- One part after the other. -/
theorem follows_bind {α β : Type} {x : M α} {f : α → M β} (hx : Follows bs base x s c)
    (hf : ∀ a s', At bs base c s' → Follows bs base (f a) s' c') (hc : c.setUps <:+ c'.setUps) :
    Follows bs base (x >>= f) s c' := by
  show Sat (x >>= f) s _ _
  rw [sat_bind]
  exact hx.mono (fun a s' hs' => hf a s' hs') (fun _ _ he => he.imp_right fun hw => hw.mono hc)

/-- The list of backends is as long as it was. -/
theorem At.length (h : At bs base c s) : s.backends.length = bs.length := by
  simpa using congrArg List.length h.shape

/-- The same backend, but for its private data. -/
theorem At.backend (h : At bs base c s) {i : Nat} {b : Backend} (hb : bs[i]? = some b) :
    ∃ b', s.backends[i]? = some b' ∧ b'.setup = b.setup ∧ b'.mandatory = b.mandatory := by
  have hget := congrArg (fun l => l[i]?) h.shape
  simp only [List.getElem?_map, hb, Option.map_some] at hget
  obtain ⟨b', hb', hshape⟩ := Option.map_eq_some_iff.mp hget
  exact ⟨b', hb', congrArg Prod.snd hshape, congrArg Prod.fst hshape⟩

/-! ### Courses only go on -/

theorem course_follow_enter (env : Env) : ∀ (bs : List Backend) (c : Course),
    c.enter.setUps <:+ (c.follow env bs).setUps := by
  intro bs
  induction bs with
  | nil => exact fun c => List.suffix_refl _
  | cons b rest ih =>
      intro c
      have hrest := ih { c.enter with state := .failed, cursor := c.enter.cursor + 1 }
      unfold Course.follow
      dsimp only
      generalize
        (if b.setup c.enter.request.type = true then c.enter.report env else .failed) = state
      split
      · exact List.suffix_refl _
      · split
        · exact List.suffix_refl _
        · exact (List.suffix_cons _ _).trans hrest

theorem course_follow_grows (env : Env) (bs : List Backend) (c : Course) :
    c.setUps <:+ (c.follow env bs).setUps :=
  (List.suffix_cons _ _).trans (course_follow_enter env bs c)

theorem course_fail_grows (env : Env) (bs : List Backend) (c : Course) :
    c.setUps <:+ (c.fail env bs).setUps := by
  unfold Course.fail
  dsimp only
  split
  · exact List.suffix_refl _
  · exact course_follow_grows env _ { c with state := .failed, cursor := c.cursor + 1 }

theorem course_finish_grows (env : Env) (bs : List Backend) (c : Course) :
    c.setUps <:+ (c.finish env bs).setUps := by
  unfold Course.finish
  dsimp only
  split
  · exact course_follow_grows env _ { c with state := .done, cursor := _ }
  · exact List.suffix_refl _

theorem course_change_grows (env : Env) (bs : List Backend) (c : Course) (state : QueryState) :
    c.setUps <:+ (c.change env bs state).setUps := by
  unfold Course.change
  split
  · exact List.suffix_refl _
  · cases state with
    | setup => exact course_follow_grows env _ c
    | waitingMore =>
        show c.setUps <:+ Course.setUps (if c.request.resultTimeout = 0 then c.finish env bs else _)
        split
        · exact course_finish_grows env bs c
        · exact List.suffix_refl _
    | done => exact course_finish_grows env bs c
    | failed => exact course_fail_grows env bs c
    | _ => exact List.suffix_refl _

theorem course_path_grows (env : Env) (bs : List Backend) (c : Course) :
    c.setUps <:+ (c.path env bs).setUps := by
  unfold Course.path
  split
  · exact course_change_grows env bs c _
  · exact List.suffix_refl _

/-- What each step of a loop goes on with, the loop goes on with. -/
theorem course_foldl_grows {α : Type} {f : Course → α → Course}
    (hf : ∀ c a, c.setUps <:+ (f c a).setUps) : ∀ (l : List α) (c : Course),
    c.setUps <:+ (l.foldl f c).setUps := by
  intro l
  induction l with
  | nil => exact fun c => List.suffix_refl _
  | cons a rest ih => exact fun c => (hf c a).trans (ih _)

theorem course_call_grows (env : Env) (bs : List Backend) (c : Course) (call : Call) :
    c.setUps <:+ (c.call env bs call).setUps := by
  cases call with
  | addPath a => exact course_foldl_grows (fun c _ => course_path_grows env bs c) _ c
  | _ => exact List.suffix_refl _

/-! ### State changes -/

/-- Nothing happens to a query that is in the state already; else the state is entered. -/
theorem sat_setState_succ (env : Env) (k : Nat) (state : QueryState) (s : St)
    {Q : Unit → St → Prop} {E : Fault → St → Prop} :
    Sat (setState env (k + 1) state) s Q E ↔ (state = s.query.state → Q ⟨⟩ s) ∧
      (state ≠ s.query.state →
        Sat (enterState env (setState env k) s.query.state state) (s.entered state) Q E) := by
  unfold setState
  simp only [sat_bind, sat_get, sat_ite, sat_pure]
  rfl

theorem At.entered (h : At bs base c s) {state : QueryState} (hne : state ≠ .setup) :
    At bs base { c with state } (s.entered state) := by
  refine ⟨rfl, h.cursor, h.request, h.shape, ?_⟩
  rw [← h.setUps]
  cases state with
  | setup => exact absurd rfl hne
  | _ => rfl

/-- The next mandatory backend is the same for backends that differ in their private data. -/
theorem nextMandatory_shape : ∀ (bs bs' : List Backend) (i : Nat),
    bs'.map Backend.shape = bs.map Backend.shape → nextMandatory bs' i = nextMandatory bs i := by
  intro bs
  induction bs with
  | nil =>
      intro bs' i h
      rw [List.map_nil, List.map_eq_nil_iff] at h
      rw [h]
  | cons b rest ih =>
      intro bs' i h
      cases bs' with
      | nil => cases h
      | cons b' rest' =>
          rw [List.map_cons, List.map_cons] at h
          injection h with hb hrest
          have hmandatory : b'.mandatory = b.mandatory := congrArg Prod.fst hb
          simp only [nextMandatory, hmandatory, ih rest' (i + 1) hrest]

end

/-- All that is done at one depth of the nesting follows its course. -/
def Leads (env : Env) (bs : List Backend) (base : List Nat) (change : QueryState → M Unit) : Prop :=
  ∀ (state : QueryState) (c : Course) (s : St), state ≠ .none → At bs base c s →
    Follows bs base (change state) s (c.change env bs state)

section

variable {env : Env} {bs : List Backend} {base : List Nat} {change : QueryState → M Unit}
  (hchange : Leads env bs base change) {c : Course} {s : St}
include hchange

theorem Leads.addPath (h : At bs base c s) (path : Path) :
    Follows bs base (Netresolve.addPath env change path) s (c.path env bs) := by
  refine follows_bind ((still_storePath path).follows h) (fun _ s' hs' => ?_)
    (course_path_grows env bs c)
  show Sat _ s' _ _
  rw [sat_bind, sat_get, sat_ite]
  unfold Course.path
  rw [hs'.state]
  refine ⟨fun hwaiting => ?_, fun hwaiting => ?_⟩
  · rw [if_pos hwaiting]
    exact hchange .waitingMore c s' (by decide) hs'
  · rw [if_neg hwaiting]
    exact hs'

theorem Leads.addPaths (h : At bs base c s) (paths : List Path) :
    Follows bs base (forM paths (Netresolve.addPath env change)) s
      (paths.foldl (fun c _ => c.path env bs) c) := by
  induction paths generalizing c s with
  | nil => exact h
  | cons path rest ih =>
      rw [List.forM_cons]
      refine follows_bind (hchange.addPath h path) (fun _ _ hs' => ih hs') ?_
      exact course_foldl_grows (fun c _ => course_path_grows env bs c) rest _

theorem Leads.reports (h : At bs base c s) {state : QueryState}
    (hstate : state = .resolved ∨ state = .error) :
    Follows bs base (change state) s { c with state } := by
  have hc := hchange state c s (by rcases hstate with rfl | rfl <;> decide) h
  have heq : c.change env bs state = { c with state } := by
    unfold Course.change
    by_cases hsame : state = c.state
    · rw [if_pos hsame, hsame]
    · rw [if_neg hsame]
      rcases hstate with rfl | rfl <;> rfl
  rwa [heq] at hc

theorem Leads.runCall (h : At bs base c s) (call : Call) :
    Follows bs base (Netresolve.runCall env change call) s (c.call env bs call) := by
  have hreport (i : Nat) : Still (observe (.report i call)) := still_observe rfl
  refine follows_bind (Still.follows .get h) (fun q s₁ h₁ => ?_) (course_call_grows env bs c call)
  refine follows_bind ((hreport q.query.cursor).follows h₁) (fun _ s' hs' => ?_)
    (course_call_grows env bs c call)
  cases call with
  | addPath a =>
      show Sat _ s' _ _
      unfold backendAddPath
      rw [sat_bind, sat_get]
      unfold Course.call
      rw [← hs'.request]
      exact hchange.addPaths hs' _
  | setCanonicalName name => exact still_respond.follows hs'
  | addNameInfo nodename => exact (still_addNameInfo nodename).follows hs'
  | setDnsAnswer answer => exact still_respond.follows hs'
  | setSecure => exact still_respond.follows hs'
  | newPriv allocated =>
      refine follows_bind ((keeps_allocPriv allocated).still.follows hs') (fun _ s'' hs'' => ?_)
        (List.suffix_refl _)
      cases allocated with
      | true => exact hs''
      | false => exact hchange.reports hs'' (Or.inr rfl)
  | watchAdd fd => exact (keeps_callWatchAdd env fd).still.follows hs'
  | watchRemove k doClose => exact (keeps_callWatchRemove env k doClose).still.follows hs'
  | finished => exact hchange.reports hs' (Or.inl rfl)
  | failed => exact hchange.reports hs' (Or.inr rfl)

theorem Leads.runCalls (h : At bs base c s) (calls : List Call) :
    Follows bs base (Netresolve.runCalls env change calls) s
      (calls.foldl (Course.call env bs) c) := by
  unfold Netresolve.runCalls
  induction calls generalizing c s with
  | nil => exact h
  | cons call rest ih =>
      rw [List.forM_cons]
      refine follows_bind (hchange.runCall h call) (fun _ _ hs' => ih hs') ?_
      exact course_foldl_grows (course_call_grows env bs) rest _

end

/-! ### Entering a state -/

section

variable {env : Env} {bs : List Backend} {base : List Nat} {c : Course} {s : St}

/-- Behind the end of the list there is no backend. -/
theorem At.isSome (h : At bs base c s) (i : Nat) :
    (s.backends[i]?).isSome = !(bs.drop i).isEmpty := by
  rw [Bool.eq_iff_iff]
  simp [h.length]

/-- `case NETRESOLVE_STATE_FAILED` up to the restart. -/
theorem sat_leaveFailed (h : At bs base c s) : Sat (leaveFailed env) s
    (fun found s' => At bs base { c with cursor := c.cursor + 1 } s' ∧
      found = !(bs.drop (c.cursor + 1)).isEmpty)
    (fun e s' => e = .fuel ∨ NoFurther base c s') := by
  unfold leaveFailed nextBackend currentBackend
  have hobserve : Still (if s.query.response.paths ≠ [] then
      observe (.error "Failed reply has data.") else pure ()) := .ite (still_observe rfl) (.pure _)
  rw [sat_bind, sat_get, sat_bind]
  refine (hobserve.follows h).mono (fun _ s₁ h₁ => ?_) (fun _ _ he => he)
  rw [sat_bind]
  refine ((keeps_cleanupQuery env).still.follows h₁).mono (fun _ s₂ h₂ => ?_) (fun _ _ he => he)
  have hat : At bs base { c with cursor := c.cursor + 1 }
      { s₂ with query := { s₂.query with cursor := s₂.query.cursor + 1 } } :=
    ⟨h₂.state, congrArg (· + 1) h₂.cursor, h₂.request, h₂.shape, h₂.setUps⟩
  simp only [sat_bind, modifyQuery, sat_modify, sat_get, sat_ite, sat_pure, sat_throw]
  refine ⟨fun _ => ⟨hat, ?_⟩, fun _ => Or.inr (hat.noFurther (List.suffix_refl _))⟩
  rw [h₂.isSome, h₂.cursor]

/-- `case NETRESOLVE_STATE_DONE` up to the restart. -/
theorem sat_leaveDone (h : At bs base c s) : Sat (leaveDone env) s
    (fun found s' => At bs base
      { c with cursor := (nextMandatory (bs.drop (c.cursor + 1)) (c.cursor + 1)).1 } s' ∧
      found = (nextMandatory (bs.drop (c.cursor + 1)) (c.cursor + 1)).2)
    (fun e s' => e = .fuel ∨ NoFurther base c s') := by
  unfold leaveDone
  rw [sat_bind]
  refine ((keeps_cleanupQuery env).still.follows h).mono (fun _ s₁ h₁ => ?_) (fun _ _ he => he)
  have hnext : nextMandatory (s₁.backends.drop (s₁.query.cursor + 1)) (s₁.query.cursor + 1) =
      nextMandatory (bs.drop (c.cursor + 1)) (c.cursor + 1) := by
    rw [h₁.cursor]
    refine nextMandatory_shape _ _ _ ?_
    rw [List.map_drop, List.map_drop, h₁.shape]
  simp only [sat_bind, modifyQuery, sat_modify, sat_get, sat_ite, sat_pure, sat_throw, hnext]
  exact ⟨fun _ => ⟨⟨h₁.state, rfl, h₁.request, h₁.shape, h₁.setUps⟩, trivial⟩,
    fun _ => Or.inr ⟨c.setUps, h₁.setUps, List.suffix_refl _⟩⟩

theorem told_cases (state : QueryState) (calls : List Call) :
    told state calls = state ∨ told state calls = .resolved ∨ told state calls = .error := by
  induction calls generalizing state with
  | nil => exact Or.inl rfl
  | cons call rest ih =>
      show told ((tells call).getD state) rest = _ ∨ _
      have hcall : (tells call).getD state = state ∨ (tells call).getD state = .resolved ∨
          (tells call).getD state = .error := by
        cases call with
        | newPriv allocated => cases allocated <;> simp [tells]
        | _ => simp [tells]
      rcases ih ((tells call).getD state) with h | h
      · exact h.symm ▸ hcall
      · exact Or.inr h

/-- In a setup function a path changes no state. -/
theorem course_calls_setup (env : Env) (bs : List Backend) (calls : List Call) :
    ∀ c : Course, c.state ≠ .waiting →
      calls.foldl (Course.call env bs) c = { c with state := told c.state calls } := by
  induction calls with
  | nil => exact fun c _ => rfl
  | cons call rest ih =>
      intro c hne
      have hcall : c.call env bs call = { c with state := (tells call).getD c.state } := by
        cases call with
        | addPath a =>
            show (pathsOf env.services c.request a).foldl (fun c _ => c.path env bs) c = c
            induction pathsOf env.services c.request a with
            | nil => rfl
            | cons path paths ihp =>
                rw [List.foldl_cons, show c.path env bs = c from if_neg hne]
                exact ihp
        | _ => rfl
      rw [List.foldl_cons, hcall, ih]
      · rfl
      · cases call with
        | newPriv allocated => cases allocated <;> simp [tells, hne]
        | _ => simp [tells, hne]

/-- A setup function reports nothing, a success or a failure. -/
theorem course_report_cases (env : Env) (c : Course) :
    (told .setup (env.setup c.cursor) = .setup ∧
      c.report env = if c.request.requestTimeout ≠ 0 then .waiting else .failed) ∨
    (told .setup (env.setup c.cursor) = .resolved ∧ c.report env = .resolved) ∨
    (told .setup (env.setup c.cursor) = .error ∧ c.report env = .failed) := by
  unfold Course.report
  rcases told_cases .setup (env.setup c.cursor) with h | h | h <;> rw [h]
  · exact Or.inl ⟨rfl, rfl⟩
  · exact Or.inr (Or.inl ⟨rfl, rfl⟩)
  · exact Or.inr (Or.inr ⟨rfl, rfl⟩)

theorem course_report_state (env : Env) (c : Course) : c.report env ≠ .error := by
  rcases course_report_cases env c with ⟨-, h⟩ | ⟨-, h⟩ | ⟨-, h⟩ <;> rw [h]
  · split <;> decide
  · decide
  · decide

theorem course_follow_state (env : Env) : ∀ (bs : List Backend) (c : Course),
    (c.follow env bs).state ≠ .error := by
  intro bs
  induction bs with
  | nil => exact fun c => by simp [Course.follow, Course.enter]
  | cons b rest ih =>
      intro c
      have hrest := ih { c.enter with state := .failed, cursor := c.enter.cursor + 1 }
      have hstate : (if b.setup c.enter.request.type = true then c.enter.report env else .failed) ≠
          QueryState.error := by
        split
        · exact course_report_state env c.enter
        · decide
      unfold Course.follow
      dsimp only
      generalize
        (if b.setup c.enter.request.type = true then c.enter.report env else .failed) = state
        at hstate
      split
      · exact hstate
      · split
        · exact QueryState.noConfusion
        · exact hrest

theorem course_fail_state (env : Env) (bs : List Backend) (c : Course) :
    (c.fail env bs).state ≠ .error := by
  unfold Course.fail
  dsimp only
  split
  · simp
  · exact course_follow_state env _ _

/-- The request is prepared, and the set-up put on record in the entry. -/
theorem At.prepared (h : At bs base { c with state := .setup, setUps := c.cursor :: c.setUps } s)
    {f : Backend → Backend} (hf : ∀ b, (f b).shape = b.shape) (i : Nat) : At bs base c.enter
      { s with
        query := { s.query with request := s.query.request.prepared }
        backends := s.backends.modify i f } :=
  ⟨h.state, h.cursor, congrArg Request.prepared h.request,
    (map_modify_eq _ _ hf s.backends i).trans h.shape, h.setUps⟩

theorem At.passes (h : At bs base c s) {state : QueryState} (hne : c.state ≠ state) (x : M Unit) :
    Follows bs base (whenState state x) s c := by
  unfold whenState
  show Sat _ s _ _
  rw [sat_bind, sat_get, sat_ite, h.state]
  exact ⟨fun heq => absurd heq hne, fun _ => h⟩

/-- Where there is a backend, it is set up. -/
theorem course_follow_at (env : Env) {bs : List Backend} {b : Backend} (c : Course)
    (hb : bs[c.cursor]? = some b) : c.follow env (bs.drop c.cursor) =
      let state := if b.setup c.enter.request.type then c.enter.report env else .failed
      if state ≠ .failed then { c.enter with state } else c.enter.fail env bs := by
  obtain ⟨hlt, rfl⟩ := List.getElem?_eq_some_iff.mp hb
  rw [List.drop_eq_getElem_cons hlt]
  rfl

end

section

variable {env : Env} {bs : List Backend} {base : List Nat} {change : QueryState → M Unit}
  (hchange : Leads env bs base change) {c : Course} {s : St}
include hchange

/-- `case NETRESOLVE_STATE_FAILED`. -/
theorem Leads.enterFailed (h : At bs base { c with state := .failed } s) :
    Follows bs base (Netresolve.enterFailed env change) s (c.fail env bs) := by
  unfold Netresolve.enterFailed Course.fail
  show Sat _ s _ _
  rw [sat_bind]
  refine (sat_leaveFailed h).mono (fun found s' hs' => ?_) (fun _ _ he => he.imp_right fun hw => ?_)
  · obtain ⟨hat, rfl⟩ := hs'
    dsimp only
    cases hempty : (bs.drop (c.cursor + 1)).isEmpty with
    | true => exact still_callback.follows hat
    | false => exact hchange .setup _ s' (by decide) hat
  · refine hw.mono (List.IsSuffix.trans ?_ (course_fail_grows env bs c))
    exact List.suffix_refl _

/-- `case NETRESOLVE_STATE_DONE`. -/
theorem Leads.enterDone (h : At bs base { c with state := .done } s) :
    Follows bs base (Netresolve.enterDone env change) s (c.finish env bs) := by
  unfold Netresolve.enterDone
  show Sat _ s _ _
  rw [sat_bind]
  refine (sat_leaveDone h).mono (fun found s' hs' => ?_) (fun _ _ he => he.imp_right fun hw => ?_)
  · obtain ⟨hat, rfl⟩ := hs'
    refine follows_bind ?_ (fun _ _ hs'' => still_callback.follows hs'') (List.suffix_refl _)
    unfold Course.finish
    dsimp only
    cases hfound : (nextMandatory (bs.drop (c.cursor + 1)) (c.cursor + 1)).2 with
    | true => exact hchange .setup _ s' (by decide) hat
    | false => exact hat
  · refine hw.mono (List.IsSuffix.trans ?_ (course_finish_grows env bs c))
    exact List.suffix_refl _

/-- `if (query->state == ...)`. -/
theorem Leads.whenState (h : At bs base c s) {state target : QueryState}
    (htarget : target ≠ .none) :
    Follows bs base (Netresolve.whenState state (change target)) s
      (if c.state = state then c.change env bs target else c) := by
  unfold Netresolve.whenState
  show Sat _ s _ _
  rw [sat_bind, sat_get, sat_ite, h.state]
  refine ⟨fun heq => ?_, fun hne => ?_⟩
  · rw [if_pos heq]
    exact hchange target c s htarget h
  · rw [if_neg hne]
    exact h

/-- A backend that reports nothing is waited for, if the query may wait. -/
theorem Leads.silent (h : At bs base c s) (hstate : c.state = .setup) :
    Follows bs base (Netresolve.whenState .setup (do
      change (if (← get).query.request.requestTimeout ≠ 0 then .waiting else .failed))) s
      (if c.request.requestTimeout ≠ 0 then { c with state := .waiting } else c.fail env bs) := by
  unfold Netresolve.whenState
  show Sat _ s _ _
  rw [sat_bind, sat_get, sat_ite, h.state]
  refine ⟨fun _ => ?_, fun hne => absurd hstate hne⟩
  rw [sat_bind, sat_get, h.request]
  by_cases hwait : c.request.requestTimeout ≠ 0
  · have hc : c.change env bs .waiting = { c with state := .waiting } := by
      unfold Course.change
      exact if_neg (by rw [hstate]; decide)
    rw [if_pos hwait, if_pos hwait, ← hc]
    exact hchange .waiting c s (by decide) h
  · have hc : c.change env bs .failed = c.fail env bs := by
      unfold Course.change
      exact if_neg (by rw [hstate]; decide)
    rw [if_neg hwait, if_neg hwait, ← hc]
    exact hchange .failed c s (by decide) h

/-- The setup function, and what is done when it has returned. -/
theorem Leads.setUp (h : At bs base c.enter s) :
    Follows bs base (do
      Netresolve.runCalls env change (env.setup s.query.cursor)
      Netresolve.whenState .setup (do
        change (if (← get).query.request.requestTimeout ≠ 0 then .waiting else .failed))
      Netresolve.whenState .error (change .failed)) s
      (if c.enter.report env ≠ .failed then { c.enter with state := c.enter.report env }
        else c.enter.fail env bs) := by
  have hcalls := hchange.runCalls h (env.setup s.query.cursor)
  rw [course_calls_setup env bs _ c.enter (show QueryState.setup ≠ .waiting by decide)] at hcalls
  have hgrows := course_fail_grows env bs c.enter
  have hcases := course_report_cases env c.enter
  rw [← h.cursor] at hcases
  rcases hcases with ⟨ht, hreport⟩ | ⟨ht, hreport⟩ | ⟨ht, hreport⟩ <;>
    rw [show c.enter.state = .setup from rfl, ht] at hcalls <;> rw [hreport]
  · by_cases hwait : c.enter.request.requestTimeout ≠ 0
    · rw [if_pos hwait, if_pos (by decide)]
      refine follows_bind hcalls (fun _ s₁ h₁ => ?_) (List.suffix_refl _)
      refine follows_bind (hchange.silent h₁ rfl) (fun _ s₂ h₂ => ?_) ?_
      · rw [if_pos hwait] at h₂
        exact h₂.passes (show QueryState.waiting ≠ .error by decide) _
      · simp only [if_pos hwait, List.suffix_refl]
    · rw [if_neg hwait, if_neg (not_not.mpr rfl)]
      refine follows_bind hcalls (fun _ s₁ h₁ => ?_) hgrows
      refine follows_bind (hchange.silent h₁ rfl) (fun _ s₂ h₂ => ?_) ?_
      · rw [if_neg hwait] at h₂
        exact h₂.passes (course_fail_state env bs _) _
      · rw [if_neg hwait]
        exact List.suffix_refl _
  · rw [if_pos (by decide)]
    refine follows_bind hcalls (fun _ s₁ h₁ => ?_) (List.suffix_refl _)
    refine follows_bind (h₁.passes (show QueryState.resolved ≠ .setup by decide) _)
      (fun _ s₂ h₂ => ?_) (List.suffix_refl _)
    exact h₂.passes (show QueryState.resolved ≠ .error by decide) _
  · rw [if_neg (not_not.mpr rfl)]
    refine follows_bind hcalls (fun _ s₁ h₁ => ?_) hgrows
    refine follows_bind (h₁.passes (show QueryState.error ≠ .setup by decide) _)
      (fun _ s₂ h₂ => ?_) hgrows
    exact hchange.whenState h₂ (by decide)

/-- `case NETRESOLVE_STATE_SETUP`. -/
theorem Leads.enterSetup
    (h : At bs base { c with state := .setup, setUps := c.cursor :: c.setUps } s) :
    Follows bs base (Netresolve.enterSetup env change) s (c.follow env (bs.drop c.cursor)) := by
  unfold Netresolve.enterSetup
  show Sat _ s _ _
  rw [sat_bind, currentBackend, sat_bind, sat_get, sat_ite]
  have hnofurther : NoFurther base (c.follow env (bs.drop c.cursor)) s :=
    h.noFurther (course_follow_enter env _ c)
  refine ⟨fun hle => ?_, fun _ => Or.inr hnofurther⟩
  rw [sat_pure, h.cursor]
  dsimp only
  cases hb : bs[c.cursor]? with
  | none =>
      have hnone : s.backends[c.cursor]? = none := by
        rw [List.getElem?_eq_none_iff] at hb ⊢
        rw [h.length]
        exact hb
      rw [hnone]
      exact Or.inr hnofurther
  | some b =>
      obtain ⟨b', hb', hsetup, -⟩ := h.backend hb
      rw [hb', course_follow_at env c hb]
      dsimp only
      rw [sat_bind, modifyQuery, sat_modify, sat_bind, sat_get, sat_bind, modifyBackend, sat_modify,
        sat_ite]
      have htype : b'.setup s.query.request.type = b.setup c.enter.request.type := by
        rw [hsetup, h.request]
        rfl
      refine ⟨fun hpresent => ?_, fun habsent => ?_⟩
      · rw [if_pos (htype.symm.trans hpresent)]
        refine hchange.setUp (h.prepared ?_ _)
        exact fun _ => rfl
      · rw [if_neg fun hset => habsent (htype.trans hset), if_neg (not_not.mpr rfl)]
        refine hchange .failed c.enter _ (by decide) (h.prepared ?_ _)
        exact fun _ => rfl

/-- All that is done to enter another state. -/
theorem Leads.enterState {state : QueryState} (hnone : state ≠ .none) (hne : state ≠ c.state)
    (h : At bs base c s) : Follows bs base (enterState env change s.query.state state)
      (s.entered state) (c.change env bs state) := by
  unfold Course.change
  rw [if_neg hne]
  cases state with
  | none => exact absurd rfl hnone
  | setup =>
      refine hchange.enterSetup ⟨rfl, h.cursor, h.request, h.shape, ?_⟩
      show s.query.cursor :: setUps s.trace = c.cursor :: c.setUps ++ base
      rw [h.cursor, h.setUps, List.cons_append]
  | waiting =>
      exact keeps_enterWaiting.still.follows (h.entered (by decide))
  | waitingMore =>
      have hat : At bs base { c with state := .waitingMore } (s.entered .waitingMore) :=
        h.entered (by decide)
      unfold Netresolve.enterState enterWaitingMore
      dsimp only
      show Sat _ _ _ _
      rw [sat_bind, sat_get]
      refine follows_bind ?_ (fun _ s' hs' => ?_) (List.suffix_refl _)
      · show Sat _ _ _ _
        rw [sat_ite, hat.request]
        refine ⟨fun hzero => ?_, fun hnot => ?_⟩
        · rw [if_pos hzero]
          exact hchange .done _ _ (by decide) hat
        · rw [if_neg hnot]
          exact hat
      · exact Still.follows (.bind .get fun _ => .ite (keeps_setTimeout env _).still (.pure _)) hs'
  | resolved =>
      exact (keeps_enterResolved s.query.state).still.follows (h.entered (by decide))
  | done => exact hchange.enterDone (h.entered (by decide))
  | error => exact h.entered (by decide)
  | failed => exact hchange.enterFailed (h.entered (by decide))

end

theorem leads_setState (env : Env) (bs : List Backend) (base : List Nat) :
    ∀ k, Leads env bs base (setState env k) := by
  intro k
  induction k with
  | zero => exact fun _ _ _ _ _ => Or.inl rfl
  | succ k ih =>
      intro state c s hnone h
      show Sat _ s _ _
      rw [sat_setState_succ, h.state]
      refine ⟨fun hsame => ?_, fun hne => ?_⟩
      · unfold Course.change
        rw [if_pos hsame]
        exact h
      · rw [← h.state]
        exact ih.enterState hnone hne h

/-! ### Actions -/

section

variable {env : Env} {bs : List Backend} {base : List Nat} {c : Course} {s : St}

theorem leads_querySetState (env : Env) (bs : List Backend) (base : List Nat) :
    Leads env bs base (querySetState env) := by
  intro state c s hnone h
  show Sat _ s _ _
  unfold querySetState
  rw [sat_bind, sat_get]
  exact leads_setState env bs base _ state c s hnone h

theorem follows_timeout (h : At bs base c s) (t : Timer) {state : QueryState}
    (hnone : state ≠ .none) : Follows bs base (dispatchTimeout env t state) s
      (c.change env bs state) := by
  unfold dispatchTimeout
  show Sat _ s _ _
  rw [sat_bind, sat_get, sat_ite]
  refine ⟨fun _ => Or.inr (h.noFurther (course_change_grows env bs c state)), fun _ => ?_⟩
  exact follows_bind ((keeps_clearTimeout env t).still.follows h)
    (fun _ _ hs' => leads_querySetState env bs base state c _ hnone hs')
    (course_change_grows env bs c state)

theorem course_callback_grows (env : Env) (bs : List Backend) (c : Course) (watch : WatchCallback) :
    c.setUps <:+ (c.callback env bs watch).setUps := by
  cases watch with
  | backend i => exact course_foldl_grows (course_call_grows env bs) _ c
  | timeout t => cases t <;> exact course_change_grows env bs c _

theorem follows_callback (h : At bs base c s) (watch : WatchCallback) :
    Follows bs base (watchCallback env watch) s (c.callback env bs watch) := by
  have hgrows := course_callback_grows env bs c watch
  cases watch with
  | backend i => exact (leads_querySetState env bs base).runCalls h (env.dispatch i)
  | timeout t =>
      cases t with
      | delayed =>
          show Sat (dispatchDelayed env) s _ _
          rw [dispatchDelayed, sat_bind, sat_get, sat_ite]
          exact ⟨fun _ => follows_timeout h _ (by decide), fun _ => Or.inr (h.noFurther hgrows)⟩
      | requestTimeout =>
          show Sat (dispatchRequestTimeout env) s _ _
          rw [dispatchRequestTimeout, sat_bind, sat_get, sat_ite]
          exact ⟨fun _ => follows_timeout h _ (by decide), fun _ => Or.inr (h.noFurther hgrows)⟩
      | resultTimeout =>
          show Sat (dispatchResultTimeout env) s _ _
          rw [dispatchResultTimeout, sat_bind, sat_get, sat_ite]
          exact ⟨fun _ => follows_timeout h _ (by decide), fun _ => Or.inr (h.noFurther hgrows)⟩

theorem course_settles (env : Env) (bs : List Backend) (c : Course) (state target : QueryState) :
    c.setUps <:+ (if c.state = state then c.change env bs target else c).setUps := by
  split
  · exact course_change_grows env bs c target
  · exact List.suffix_refl _

theorem follows_queryDispatch {w : Nat} {x : Watch} (h : At bs base c s)
    (hx : s.query.watches.find? (·.id = w) = some x) :
    Follows bs base (queryDispatch env w) s (c.dispatch env bs x.callback) := by
  have hall := leads_querySetState env bs base
  unfold queryDispatch
  show Sat _ s _ _
  rw [sat_bind, sat_get, hx]
  refine follows_bind (follows_callback h x.callback) (fun _ s₁ h₁ => ?_)
    ((course_settles env bs _ _ _).trans (course_settles env bs _ _ _))
  exact follows_bind (hall.whenState h₁ (by decide)) (fun _ s₂ h₂ => hall.whenState h₂ (by decide))
    (course_settles env bs _ _ _)

theorem follows_queryFree (h : At bs base c s) :
    Follows bs base (queryFree env) s { c with state := .none } := by
  unfold queryFree
  refine follows_bind ((keeps_cleanupQuery env).still.follows h) (fun _ s₁ h₁ => ?_)
    (List.suffix_refl _)
  refine follows_bind ?_ (fun _ s₂ h₂ => ?_) (List.suffix_refl _)
  · show Sat _ s₁ _ _
    unfold querySetState
    rw [sat_bind, sat_get]
    show Sat (setState env (nesting s₁) .none) s₁ _ _
    unfold nesting
    rw [sat_setState_succ, h₁.state]
    refine ⟨fun hsame => ?_, fun _ => ?_⟩
    · rw [hsame]
      exact h₁
    · have hat : At bs base { c with state := .none } (s₁.entered .none) := h₁.entered (by decide)
      have hstill : Still enterNone := still_respond
      exact hstill.follows hat
  · show Sat _ s₂ _ _
    rw [sat_bind, sat_get, sat_ite]
    exact ⟨fun _ => h₂, fun _ => Or.inr (h₂.noFurther (List.suffix_refl _))⟩

/-- **An action follows its course.** -/
theorem follows_run (env : Env) (action : Action) (s : St) :
    Follows s.backends (setUps s.trace) (action.run env) s (action.course env s) := by
  have h : At s.backends (setUps s.trace) s.course s := ⟨rfl, rfl, rfl, rfl, rfl⟩
  cases action with
  | start =>
      show Sat (queryStart env) s _ _
      unfold queryStart
      rw [sat_bind, sat_get, sat_ite]
      refine ⟨fun _ => Or.inr (h.noFurther (course_change_grows env _ _ _)), fun _ => ?_⟩
      exact leads_querySetState env _ _ .setup _ s (by decide) h
  | dispatch w =>
      show Sat (queryDispatch env w) s _ _
      unfold Action.course
      dsimp only
      cases hx : s.query.watches.find? (·.id = w) with
      | none =>
          unfold queryDispatch
          rw [sat_bind, sat_get, hx]
          exact Or.inr (h.noFurther (List.suffix_refl _))
      | some x => exact follows_queryDispatch h hx
  | free => exact follows_queryFree h

theorem mem_setUps {trace : List Obs} {j : Nat} :
    j ∈ setUps trace ↔ ∃ response, .enter .setup j response ∈ trace := by
  unfold setUps
  rw [List.mem_filterMap]
  constructor
  · rintro ⟨o, ho, heq⟩
    split at heq
    · obtain rfl := Option.some.inj heq
      exact ⟨_, ho⟩
    · cases heq
  · rintro ⟨response, hmem⟩
    exact ⟨_, hmem, rfl⟩

theorem setUps_append (new trace : List Obs) : setUps (new ++ trace) = setUps new ++ setUps trace :=
  List.filterMap_append

/-- No set-up of a step is off its course, wherever the step ends. -/
theorem setsUp_of_trace {action : Action} (hfuel : Fueled (action.run env) s) {new : List Obs}
    {j : Nat} {response : Response} (htrace : (final (action.run env) s).trace = new ++ s.trace)
    (hmem : .enter .setup j response ∈ new) : SetsUp env action s j := by
  have hj : j ∈ setUps new := mem_setUps.mpr ⟨response, hmem⟩
  have hcourse := follows_run env action s
  unfold final at htrace
  cases hr : action.run env s with
  | ok a s' =>
      rw [hr] at htrace
      have hset := (hcourse.of_ok hr).setUps
      rw [htrace, setUps_append] at hset
      unfold SetsUp
      rw [← List.append_cancel_right hset]
      exact hj
  | error e s' =>
      rw [hr] at htrace
      obtain ⟨l, hset, hsuffix⟩ := (hcourse.of_error hr).resolve_left (hfuel.of_error hr)
      rw [htrace, setUps_append] at hset
      exact hsuffix.subset (List.append_cancel_right hset ▸ hj)

/-- A step that returns has set up what its course says. -/
theorem setsUp_iff {action : Action} {s' : St} {new : List Obs} (hok : action.run env s = .ok () s')
    (htrace : s'.trace = new ++ s.trace) (j : Nat) :
    SetsUp env action s j ↔ ∃ response, .enter .setup j response ∈ new := by
  have hset := ((follows_run env action s).of_ok hok).setUps
  rw [htrace, setUps_append] at hset
  rw [← mem_setUps, List.append_cancel_right hset]
  rfl

end

end Netresolve
