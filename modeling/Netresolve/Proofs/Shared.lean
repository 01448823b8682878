/-
Queries that share backends.

The private data of a backend stands in an entry that all queries of the context use.
This is safe as long as the set-ups of a query keep clear of the others, and the rules
`Apart` and `Serial` of `Core/Pool.lean` say when they do.  One step is followed with the
stages `sharing`: whatever the step does, as long as its set-ups are of the kind `OK`, the
blocks of the others are untouched.  From this `Shared` is kept by every step, and both
main results are read off it.
-/
import Netresolve.Proofs.Courses
import Netresolve.Proofs.Priv

namespace Netresolve

open Outcome Past

/-! ### One step -/

section

variable (s₀ : St) (Solo : Nat → Prop) (Strict : Prop) (OK : Nat → Prop)

/-- All set-ups since the step began are of the kind `OK`. -/
def Allowed (tr : List Obs) : Prop :=
  ∀ new j response, tr = new ++ s₀.trace → .enter .setup j response ∈ new → OK j

/-- What holds as long as all set-ups of the step are `OK`. -/
structure Under (X : St → Prop) (s : St) : Prop where
  grown : s₀.trace <:+ s.trace
  holds : Allowed s₀ OK s.trace → X s

/-- What is asked of the set-ups of a step. -/
structure Allows (env : Env) : Prop where
  foreign : ∀ j, OK j → ∀ d, s₀.dataAt j = some d → d.query = s₀.query.id
  solo : ∀ j, j < s₀.backends.length → OK j → .newPriv true ∈ env.setup j → Solo j
  obtains : Strict → ∀ j b, OK j → s₀.backends[j]? = some b →
    Obtains env s₀.query.request.type j b

/-- A function of the backend under the cursor is running. -/
def Engaged : Phase → List Call → St → Prop
  | .setup, calls, s => SettingUp s₀ Solo Strict calls s
  | .dispatch, _, s => Serving s₀ Solo Strict s

/--
A setup function brings the query to few states, and a dispatch function does not ask for
private data.
-/
def Phase.fits : Phase → List Call → QueryState → Prop
  | .setup, _, state => state = .setup ∨ state = .resolved ∨ state = .error
  | .dispatch, calls, _ => ∀ allocated, .newPriv allocated ∉ calls

/-- The stages of a query that shares its backends. -/
def sharing : Stages where
  ready _ s := s.query.cursor < s.backends.length ∧ s.query.state ≠ .setup ∧
    Under s₀ OK (Arriving s₀ Solo Strict) s
  run _ ph calls s := ph.fits calls s.query.state ∧ Under s₀ OK (Engaged s₀ Solo Strict ph calls) s
  fin _ _ := Under s₀ OK (Serving s₀ Solo Strict)
  rest _ := Under s₀ OK (Serving s₀ Solo Strict)
  bold _ _ _ := True

/-- What holds where a step stops. -/
def Unharmed (e : Fault) (s : St) : Prop :=
  e = .fuel ∨ Under s₀ OK (fun s => e.mundane ∧ AllTold Strict s) s

end

variable {env : Env} {s₀ s s' : St} {Solo : Nat → Prop} {Strict : Prop} {OK : Nat → Prop}
  {X X' : St → Prop}

theorem Allowed.past {tr tr' : List Obs} (h : Allowed s₀ OK tr') (hle : tr <:+ tr') :
    Allowed s₀ OK tr := by
  intro new j response heq hmem
  obtain ⟨more, rfl⟩ := hle
  refine h (more ++ new) j response ?_ (List.mem_append_right more hmem)
  rw [heq, List.append_assoc]

theorem Under.mono (h : Under s₀ OK X s) (hle : s.trace <:+ s'.trace) (hX : X s → X' s') :
    Under s₀ OK X' s' :=
  ⟨h.grown.trans hle, fun hall => hX (h.holds (hall.past hle))⟩

/-- Only the trace has to be followed where a set-up was not allowed. -/
theorem Under.sat {α : Type} {x : M α} {Q : α → St → Prop} (h : Under s₀ OK X s)
    (htr : Sat x s (fun _ s' => s.trace <:+ s'.trace) (fun _ s' => s.trace <:+ s'.trace))
    (hx : X s → Sat x s Q (fun e s' => e.mundane ∧ AllTold Strict s')) :
    Sat x s (fun a => Under s₀ OK (Q a)) (Unharmed s₀ Strict OK) := by
  unfold Sat at *
  cases hr : x s with
  | ok a s' =>
      rw [hr] at htr hx
      exact h.mono htr hx
  | error e s' =>
      rw [hr] at htr hx
      exact Or.inr (h.mono htr hx)

theorem Keeps.trace {α : Type} {x : M α} (h : Keeps x) (s : St) :
    Sat x s (fun _ s' => s.trace <:+ s'.trace) (fun _ s' => s.trace <:+ s'.trace) :=
  (h s).mono (fun _ _ hf => hf.trace ▸ List.suffix_rfl)
    (fun _ _ he => he.1.trace ▸ List.suffix_rfl)

/-- Watches and timers do not matter here. -/
theorem Under.aside {x : M Unit} (h : Under s₀ OK X s) (hx : Aside x) (htold : X s → AllTold Strict s)
    (hX : ∀ s', Level s s' → X s → X s') :
    Sat x s (fun _ => Under s₀ OK X) (Unharmed s₀ Strict OK) := by
  refine h.sat (hx.keeps.trace s) fun hs => (hx s).mono (fun _ s' hb => hX s' hb.level hs) ?_
  intro e s' he
  refine ⟨he.2, fun j b hb => ?_⟩
  rw [he.1.backends] at hb
  exact htold hs j b hb

/-! ### The set-up of a backend -/

/-- The entry a query arrives at is empty, if it is not another query's. -/
theorem Arriving.empty_entry (h : Arriving s₀ Solo Strict s) {b : Backend}
    (hb : s.backends[s.query.cursor]? = some b)
    (hown : ∀ d, s₀.dataAt s.query.cursor = some d → d.query = s₀.query.id) : b.data = none := by
  refine Option.eq_none_iff_forall_ne_some.mpr fun d hd => ?_
  have hat : s.dataAt s.query.cursor = some d := (dataAt_of hb).trans hd
  have hat₀ : s₀.dataAt s.query.cursor = some d := by
    have : s.dataAt s.query.cursor = s₀.dataAt s.query.cursor := by
      unfold St.dataAt
      rw [h.untouched]
    rw [← this, hat]
  have hpriv := (h.mine _ d hat (hown d hat₀)).2
  rw [h.empty] at hpriv
  cases hpriv

theorem Arriving.setUp (h : Arriving s₀ Solo Strict s) {b : Backend}
    (hb : s.backends[s.query.cursor]? = some b) (hnone : b.data = none) :
    Owning s₀ Solo Strict (s.setUp b) ∧ (s.setUp b).query.priv = none ∧
      (s.setUp b).registered = b.cleanup := by
  have ht : Touches s (s.setUp b) b
      { b with history := .setup s.query.id (b.setup s.query.request.type) :: b.history } :=
    touches_modify hb rfl rfl rfl rfl (Nat.le_refl _) rfl
  have hown : ∀ d, b.data = some d → d.query = s₀.query.id := by
    intro d hd
    rw [hnone] at hd
    cases hd
  refine ⟨?_, h.empty, ?_⟩
  · refine h.toHeld.touch ht hown hown ?_ (fun hne => absurd hnone hne)
      ((h.recorded _ b hb).setup hnone _ _)
    show s.query.priv = b.data.map (·.id)
    rw [h.empty, hnone]
    rfl
  · have hafter : (s.setUp b).backends[(s.setUp b).query.cursor]? = some { b with
        history := .setup s.query.id (b.setup s.query.request.type) :: b.history } := ht.after
    unfold St.registered
    rw [hafter]
    rfl

/-- The setup function starts. -/
theorem Arriving.settingUp (hok : Allows s₀ Solo Strict OK env) (hwb : env.WellBehaved)
    (h : Arriving s₀ Solo Strict s) {b : Backend} (hb : s.backends[s.query.cursor]? = some b)
    (hj : OK s.query.cursor) (hpresent : b.setup s.query.request.type = true) :
    SettingUp s₀ Solo Strict (env.setup s.query.cursor) (s.setUp b) := by
  obtain ⟨howning, hpriv, hreg⟩ := h.setUp hb (h.empty_entry hb (hok.foreign _ hj))
  have hlt : s.query.cursor < s.backends.length := (List.getElem?_eq_some_iff.mp hb).1
  refine ⟨howning, ?_, ?_, hok.solo _ (h.length ▸ hlt) hj, fun hs => ?_⟩
  · show s.query.cursor < (s.backends.modify _ _).length
    rw [List.length_modify]
    exact hlt
  · rw [hpriv]
    exact hwb.setup _
  · rw [hreg]
    rcases hok.obtains hs _ b hj (h.untouched.symm.trans hb) with ⟨-, hmem⟩ | ⟨hnot, hno⟩
    · exact Or.inl (Or.inr hmem)
    · exact Or.inr ⟨hnot, hno (by rw [← h.type]; exact hpresent)⟩

/-- There is no setup function. -/
theorem Arriving.passing (hok : Allows s₀ Solo Strict OK env) (h : Arriving s₀ Solo Strict s)
    {b : Backend} (hb : s.backends[s.query.cursor]? = some b) (hj : OK s.query.cursor)
    (habsent : b.setup s.query.request.type = false) : Serving s₀ Solo Strict (s.setUp b) := by
  obtain ⟨howning, -, hreg⟩ := h.setUp hb (h.empty_entry hb (hok.foreign _ hj))
  refine ⟨howning, fun hs hcleanup => ?_⟩
  rw [hreg] at hcleanup
  rcases hok.obtains hs _ b hj (h.untouched.symm.trans hb) with ⟨hpresent, -⟩ | ⟨hnot, -⟩
  · rw [← h.type, habsent] at hpresent
    cases hpresent
  · rw [hnot] at hcleanup
    cases hcleanup

/-- Entering SETUP tells which entry is set up. -/
theorem Under.setUp (h : Under s₀ OK X s) (b : Backend)
    (hX : OK s.query.cursor → X s → X' (s.setUp b)) : Under s₀ OK X' (s.setUp b) := by
  have hle : s.trace <:+ (s.setUp b).trace := List.suffix_cons _ _
  refine ⟨h.grown.trans hle, fun hall => hX ?_ (h.holds (hall.past hle))⟩
  obtain ⟨new, hnew⟩ := h.grown
  refine hall (.enter .setup s.query.cursor s.query.response :: new) _ _ ?_ (List.mem_cons_self ..)
  show _ :: s.trace = _
  rw [← hnew]
  rfl

/-! ### The stages of a step -/

theorem Serving.likewise (h : Serving s₀ Solo Strict s) (hl : Likewise s₀ Solo Strict s s') :
    Serving s₀ Solo Strict s' := by
  refine ⟨hl.owning, ?_⟩
  rw [hl.registered, hl.priv]
  exact h.served

section

variable {ph : Phase} {calls : List Call} {call : Call}

theorem Engaged.owning (h : Engaged s₀ Solo Strict ph calls s) : Owning s₀ Solo Strict s := by
  cases ph with
  | setup => exact SettingUp.toOwning h
  | dispatch => exact Serving.toOwning h

theorem Engaged.next (h : Engaged s₀ Solo Strict ph (call :: calls) s)
    (hcall : ∀ allocated, call ≠ .newPriv allocated) (hl : Likewise s₀ Solo Strict s s') :
    Engaged s₀ Solo Strict ph calls s' := by
  cases ph with
  | setup => exact SettingUp.next h hcall hl
  | dispatch => exact Serving.likewise h hl

theorem Engaged.level (h : Engaged s₀ Solo Strict ph calls s) (hl : Level s s') :
    Engaged s₀ Solo Strict ph calls s' := by
  cases ph with
  | setup => exact SettingUp.level h hl
  | dispatch => exact Serving.level h hl

/-- Only a setup function obtains private data. -/
theorem Engaged.alloc {allocated : Bool}
    (h : Engaged s₀ Solo Strict ph (.newPriv allocated :: calls) s) {state : QueryState}
    (hfits : ph.fits (.newPriv allocated :: calls) state) :
    Sat (allocPriv allocated) s (fun _ => Engaged s₀ Solo Strict ph calls)
      (fun e s' => e.mundane ∧ AllTold Strict s') := by
  cases ph with
  | setup => exact allocPriv_settingUp h
  | dispatch => exact absurd (List.mem_cons_self ..) (hfits allocated)

/-- The function has made all its calls. -/
theorem Engaged.serving (h : Engaged s₀ Solo Strict ph [] s) : Serving s₀ Solo Strict s := by
  cases ph with
  | setup => exact SettingUp.serving h
  | dispatch => exact h

/-- One call less, and a state that is no other or one a backend reports. -/
theorem Phase.fits.next {state state' : QueryState} (h : ph.fits (call :: calls) state)
    (hstate : state' = state ∨ state' = .resolved ∨ state' = .error) : ph.fits calls state' := by
  cases ph with
  | setup =>
      rcases hstate with rfl | hreport
      · exact h
      · exact Or.inr hreport
  | dispatch => exact fun a hmem => h a (List.mem_cons_of_mem _ hmem)

theorem Phase.fits.dispatch (h : ph.fits calls .waiting) : ph = .dispatch := by
  cases ph with
  | setup => simp [Phase.fits] at h
  | dispatch => rfl

end

theorem level_entered (s : St) (state : QueryState) : Level s (s.entered state) :=
  ⟨rfl, rfl, rfl, rfl, rfl, Nat.le_refl _⟩

theorem level_reported (s : St) (call : Call) : Level s (s.reported call) :=
  ⟨rfl, rfl, rfl, rfl, rfl, Nat.le_refl _⟩

theorem level_toError (s : St) : Level s s.toError := by
  unfold St.toError
  split
  · exact ⟨rfl, rfl, rfl, rfl, rfl, Nat.le_refl _⟩
  · exact level_entered s _

theorem level_called (s : St) : Level s s.called := by
  unfold St.called
  split
  · exact ⟨rfl, rfl, rfl, rfl, rfl, Nat.le_refl _⟩
  · exact ⟨rfl, rfl, rfl, rfl, rfl, Nat.le_refl _⟩

theorem reported_grows (s : St) (call : Call) : s.trace <:+ (s.reported call).trace :=
  List.suffix_cons _ _

theorem toError_grows (s : St) : s.trace <:+ s.toError.trace := by
  unfold St.toError
  split
  · exact List.suffix_rfl
  · exact List.suffix_cons _ _

theorem called_grows (s : St) : s.trace <:+ s.called.trace := by
  unfold St.called
  split
  · exact List.suffix_cons _ _
  · exact List.suffix_rfl

theorem toError_state (s : St) : s.toError.query.state = .error := by
  unfold St.toError
  split
  · next h => exact h
  · rfl

theorem aside_enterResolved (env : Env) (old : QueryState) : Aside (enterResolved env old) := by
  unfold enterResolved openEventfd
  refine .ite (.bind (.bind .get fun s => ?_) fun _ => aside_setTimeout env _) (.pure _)
  exact .ite (aside_modifyContext fun _ => Nat.le_succ _) (aside_throw (by simp [Fault.mundane]))

theorem aside_enterWaiting : Aside (enterWaiting env) :=
  .bind .get fun _ => .ite (aside_setTimeout env _) (.pure _)

theorem aside_armResultTimeout : Aside (armResultTimeout env) :=
  .bind .get fun _ => .ite (aside_setTimeout env _) (.pure _)

theorem aside_expire (t : Timer) : Aside (expire env t) := by
  unfold expire
  refine .bind .get fun s => .ite (.ite ?_ (aside_clearTimeout env t)) ?_
  · exact aside_throw (by simp [Fault.mundane])
  · exact aside_throw (by cases t <;> simp [Fault.mundane, Timer.assertion])

/-- A call that is neither a report nor a request for private data. -/
theorem quiet_likewise (env : Env) {call : Call} (hq : call.quiet) (h : Owning s₀ Solo Strict s) :
    Sat (runCall env (fun _ => pure ()) call) s (fun _ => Likewise s₀ Solo Strict s)
      (fun e s' => e.mundane ∧ AllTold Strict s') := by
  have h' := h.level (level_reported s call)
  rcases quiet_cases hq with hdata | ⟨fd, rfl⟩ | ⟨k, doClose, rfl⟩
  · rw [sat_data _ hdata]
    exact Level.likewise ⟨rfl, rfl, rfl, rfl, rfl, Nat.le_refl _⟩ h
  · simp only [runCall, observe, sat_bind, sat_get, sat_modify]
    exact (callWatchAdd_likewise fd h').mono (fun _ _ hl => hl.after (level_reported s _))
      (fun _ _ he => he)
  · simp only [runCall, observe, sat_bind, sat_get, sat_modify]
    exact (callWatchRemove_likewise k doClose h').mono (fun _ _ hl => hl.after (level_reported s _))
      (fun _ _ he => he)

theorem quiet_grows {call : Call} (hq : call.quiet) (s : St) :
    Sat (runCall env (fun _ => pure ()) call) s
      (fun _ s' => s.trace <:+ s'.trace ∧ s'.query.state = s.query.state)
      (fun _ s' => s.trace <:+ s'.trace) := by
  have hcons : s.trace <:+ (s.reported call).trace := List.suffix_cons _ _
  rcases quiet_cases hq with hdata | ⟨fd, rfl⟩ | ⟨k, doClose, rfl⟩
  · rw [sat_data _ hdata]
    exact ⟨hcons, rfl⟩
  · simp only [runCall, observe, sat_bind, sat_get, sat_modify]
    refine (keeps_callWatchAdd env fd (s.reported _)).mono (fun _ s' hf => ?_) (fun _ s' hf => ?_)
    · exact ⟨by rw [hf.trace]; exact hcons, hf.state⟩
    · rw [hf.1.trace]
      exact hcons
  · simp only [runCall, observe, sat_bind, sat_get, sat_modify]
    refine (keeps_callWatchRemove env k doClose (s.reported _)).mono (fun _ s' hf => ?_)
      (fun _ s' hf => ?_)
    · exact ⟨by rw [hf.trace]; exact hcons, hf.state⟩
    · rw [hf.1.trace]
      exact hcons

theorem leaveDone_grows (env : Env) (s : St) :
    Sat (leaveDone env) s (fun _ s' => s.trace <:+ s'.trace) (fun _ s' => s.trace <:+ s'.trace) := by
  refine (leaveDone_visible s).mono (fun _ s' h => ?_) (fun _ s' he => ?_)
  · obtain ⟨s₁, hf, -, rfl, -⟩ := h
    exact hf.trace ▸ List.suffix_rfl
  · obtain ⟨-, s₁, hf, rfl | rfl⟩ := he
    · exact hf.trace ▸ List.suffix_rfl
    · exact hf.trace ▸ List.suffix_rfl

theorem leaveFailed_grows (env : Env) (s : St) :
    Sat (leaveFailed env) s (fun _ s' => s.trace <:+ s'.trace)
      (fun _ s' => s.trace <:+ s'.trace) := by
  have hwarn : s.trace <:+ s.warned.trace := by
    unfold St.warned
    split
    · exact List.suffix_cons _ _
    · exact List.suffix_rfl
  refine (leaveFailed_visible s).mono (fun _ s' h => ?_) (fun _ s' he => ?_)
  · obtain ⟨s₁, hf, -, rfl, -⟩ := h
    exact hf.trace ▸ hwarn
  · obtain ⟨-, s₁, hf, rfl | rfl⟩ := he
    · exact hf.trace ▸ hwarn
    · exact hf.trace ▸ hwarn

/-- After leaving a backend the query restarts or is at rest. -/
theorem Left.stages {restart : Bool} {k : Nat} {t : St}
    (ht : Under s₀ OK (Left s₀ Solo Strict s restart) t) (hpure : restart = true → loose.ready k t) :
    if restart then (sharing s₀ Solo Strict OK).ready k t
    else (sharing s₀ Solo Strict OK).rest k t.called := by
  cases restart with
  | true =>
      obtain ⟨hlt, hne⟩ := hpure rfl
      exact ⟨hlt, hne, ht.mono List.suffix_rfl fun h => h.arriving⟩
  | false =>
      refine Under.mono ht (called_grows t) fun h => ?_
      exact (h.arriving.ended (h.ended rfl)).level (level_called t)

theorem sharing_sound (hok : Allows s₀ Solo Strict OK env) (hwb : env.WellBehaved) :
    Sound env (Unharmed s₀ Strict OK) (sharing s₀ Solo Strict OK) where
  fuel _ := Or.inl rfl
  setUp k s h := by
    obtain ⟨hlt, hne, hunder⟩ := h
    refine ⟨hne, s.backends[s.query.cursor], List.getElem?_eq_getElem hlt, fun hp => ?_,
      fun hp => ?_⟩
    · exact ⟨Or.inl rfl, hunder.setUp _ fun hj ha =>
        ha.settingUp hok hwb (List.getElem?_eq_getElem hlt) hj hp⟩
    · exact hunder.setUp _ fun hj ha => ha.passing hok (List.getElem?_eq_getElem hlt) hj hp
  waiting k s h _ _ := by
    have hrest : Under s₀ OK (Serving s₀ Solo Strict) (s.entered .waiting) :=
      h.2.mono (List.suffix_cons _ _) fun hg => (Engaged.serving hg).level (level_entered s _)
    exact hrest.aside aside_enterWaiting (fun hv => hv.toHeld.allTold) fun _ hl hv => hv.level hl
  impatient k s h _ _ := h.2.mono List.suffix_rfl Engaged.serving
  finished k ph rest s h := by
    have hnext : Under s₀ OK (Engaged s₀ Solo Strict ph rest) (s.reported .finished) :=
      h.2.mono (List.suffix_cons _ _) fun hg =>
        hg.next (fun _ => Call.noConfusion) ((level_reported s _).likewise hg.owning)
    refine ⟨fun hs => ⟨h.1.next (Or.inl rfl), hnext⟩, fun _ => ?_⟩
    have hentered : Under s₀ OK (Engaged s₀ Solo Strict ph rest)
        ((s.reported .finished).entered .resolved) :=
      hnext.mono (List.suffix_cons _ _) fun hg => hg.level (level_entered _ _)
    have hbeside := (aside_enterResolved env s.query.state).keeps
      ((s.reported .finished).entered .resolved)
    refine ((hentered.aside (aside_enterResolved env s.query.state)
      (fun hg => hg.owning.toHeld.allTold) fun _ hl hg => hg.level hl).and hbeside).mono
      (fun _ s' hs' => ⟨?_, hs'.1⟩) (fun _ _ he => he.1)
    exact h.1.next (Or.inr (Or.inl hs'.2.state))
  failed k ph rest s h := by
    refine ⟨h.1.next (Or.inr (Or.inr (toError_state _))), ?_⟩
    refine h.2.mono ((reported_grows s _).trans (toError_grows _)) fun hg => ?_
    exact (hg.next (fun _ => Call.noConfusion) ((level_reported s _).likewise hg.owning)).level (level_toError _)
  alloc k ph rest s allocated h := by
    have hreported : Under s₀ OK (Engaged s₀ Solo Strict ph (.newPriv allocated :: rest))
        (s.reported (.newPriv allocated)) :=
      h.2.mono (reported_grows s _) fun hg => hg.level (level_reported s _)
    have hkeeps := keeps_allocPriv allocated (s.reported (.newPriv allocated))
    have hsat := hreported.sat ((keeps_allocPriv allocated).trace _) fun hg => hg.alloc h.1
    refine (hsat.and hkeeps).mono (fun _ s' hs' => ?_) (fun _ _ he => he.1)
    cases allocated with
    | true =>
        exact ⟨h.1.next (Or.inl hs'.2.state), hs'.1⟩
    | false =>
        refine ⟨h.1.next (Or.inr (Or.inr (toError_state s'))), ?_⟩
        exact hs'.1.mono (toError_grows s') fun hg => hg.level (level_toError s')
  quiet k ph rest s call hq h := by
    have hcall : ∀ allocated, call ≠ .newPriv allocated := by
      rintro a rfl
      simp [Call.quiet] at hq
    have hsat : Sat (runCall env (fun _ => pure ()) call) s
        (fun _ => Under s₀ OK (Engaged s₀ Solo Strict ph rest)) (Unharmed s₀ Strict OK) :=
      h.2.sat ((quiet_grows hq s).mono (fun _ _ hs => hs.1) fun _ _ he => he) fun hg =>
        (quiet_likewise env hq hg.owning).mono (fun _ s' hl => hg.next hcall hl) (fun _ _ he => he)
    exact (hsat.and (quiet_grows hq s)).mono
      (fun _ s' hs' => ⟨h.1.next (Or.inl hs'.2.2), hs'.1⟩) (fun _ _ he => he.1)
  addPath k ph rest s a h := by
    refine ⟨⟨h.1.next (Or.inl rfl), ?_⟩, fun _ => trivial⟩
    exact h.2.mono (List.suffix_cons _ _) fun hg =>
      hg.next (fun _ => Call.noConfusion) ((level_reported s _).likewise hg.owning)
  store k ph rest s path h _ := by
    refine ⟨⟨h.1, h.2.mono (List.suffix_cons _ _) fun hg => ?_⟩, trivial⟩
    exact hg.level ⟨rfl, rfl, rfl, rfl, rfl, Nat.le_refl _⟩
  more k ph rest s h _ hw _ := by
    have hfits := h.1
    rw [hw] at hfits
    obtain rfl := hfits.dispatch
    have hentered : Under s₀ OK (Engaged s₀ Solo Strict .dispatch rest) (s.entered .waitingMore) :=
      h.2.mono (List.suffix_cons _ _) fun hg => hg.level (level_entered s _)
    exact (hentered.aside aside_armResultTimeout (fun hg => hg.owning.toHeld.allTold)
      fun _ hl hg => hg.level hl).mono (fun _ _ hs' => ⟨⟨h.1, hs'⟩, trivial⟩) (fun _ _ he => he)
  zero k ph rest s h _ hw _ := by
    have hfits := h.1
    rw [hw] at hfits
    obtain rfl := hfits.dispatch
    refine ⟨h.2.mono (List.suffix_cons _ _) fun hg => Serving.level hg (level_entered s _), ?_⟩
    intro s' hs'
    exact (Under.aside hs' aside_armResultTimeout (fun hv => hv.toHeld.allTold)
      fun _ hl hv => hv.level hl).mono (fun _ _ hs'' => ⟨⟨h.1, hs''⟩, trivial⟩) (fun _ _ he => he)
  done k s h := by
    refine ⟨fun _ => h, fun hne => ?_⟩
    have hent : Under s₀ OK (Serving s₀ Solo Strict) (s.entered .done) :=
      Under.mono h (List.suffix_cons _ _) fun hv => hv.level (level_entered s _)
    have hsat := hent.sat (leaveDone_grows env _) fun hv => leaveDone_left hv
    refine (hsat.and (((loose_sound env).done k s trivial).2 hne)).mono (fun restart t ht => ?_)
      (fun _ _ he => he.1)
    exact Left.stages ht.1 fun hr => by simpa only [hr, if_true] using ht.2
  leave k s h := by
    refine ⟨fun _ => h, fun hne => ?_⟩
    have hent : Under s₀ OK (Serving s₀ Solo Strict) (s.entered .failed) :=
      Under.mono h (List.suffix_cons _ _) fun hv => hv.level (level_entered s _)
    have hsat := hent.sat (leaveFailed_grows env _) fun hv => leaveFailed_left hv
    refine (hsat.and (((loose_sound env).leave k s trivial).2 hne)).mono (fun restart t ht => ?_)
      (fun _ _ he => he.1)
    exact Left.stages ht.1 fun hr => by simpa only [hr, if_true] using ht.2
  called k s h := Under.mono h (called_grows s) fun hv => hv.level (level_called s)
  settled k s h _ _ := h.2.mono List.suffix_rfl Engaged.serving
  woken k s h _ _ := h.2.mono List.suffix_rfl Engaged.serving
  succeeded k s h _ := h.2.mono List.suffix_rfl Engaged.serving
  broken k ph s h _ := by
    rcases h with h | h
    · exact h.2.mono List.suffix_rfl Engaged.serving
    · exact h

/-! ### Actions -/

theorem keepsWatches_true {calls : List Call} (h : keepsWatches true calls = true)
    (allocated : Bool) : .newPriv allocated ∉ calls := by
  induction calls with
  | nil => exact List.not_mem_nil
  | cons call rest ih =>
      intro hmem
      rcases List.mem_cons.mp hmem with rfl | hmem
      · simp [keepsWatches] at h
      · by_cases hcall : ∃ a, call = .newPriv a
        · obtain ⟨a, rfl⟩ := hcall
          simp [keepsWatches] at h
        · exact ih (keepsWatches_rest (fun a ha => hcall ⟨a, ha⟩) h) hmem

theorem Under.begin (h : X s₀) : Under s₀ OK X s₀ := ⟨List.suffix_rfl, fun _ => h⟩

theorem start_shared (hok : Allows s₀ Solo Strict OK env) (hwb : env.WellBehaved)
    (h : Arriving s₀ Solo Strict s₀) (hstate : s₀.query.state = .none)
    (hcursor : s₀.query.cursor = 0) :
    Sat (queryStart env) s₀ (fun _ => Under s₀ OK (Serving s₀ Solo Strict))
      (Unharmed s₀ Strict OK) := by
  by_cases hempty : s₀.backends = []
  · have habort : Unharmed s₀ Strict OK .abort s₀ :=
      Or.inr (Under.begin ⟨by simp [Fault.mundane], h.toHeld.allTold⟩)
    simpa only [queryStart, sat_bind, sat_get, hempty, List.isEmpty_nil, if_true, sat_throw]
      using habort
  · refine (sharing_sound hok hwb).queryStart ⟨?_, ?_, Under.begin h⟩
    · rw [hcursor]
      exact List.length_pos_of_ne_nil hempty
    · rw [hstate]
      exact QueryState.noConfusion

theorem dispatch_shared (hok : Allows s₀ Solo Strict OK env) (hwb : env.WellBehaved)
    (h : Serving s₀ Solo Strict s₀) {w : Nat} (hw : ∃ x ∈ s₀.query.watches, x.id = w) :
    Sat (queryDispatch env w) s₀ (fun _ => Under s₀ OK (Serving s₀ Solo Strict))
      (Unharmed s₀ Strict OK) := by
  obtain ⟨x, hx, -⟩ := find_watch hw
  refine (sharing_sound hok hwb).queryDispatch hx ?_
  cases hcb : x.callback with
  | backend i => exact ⟨keepsWatches_true (hwb.dispatch i), Under.begin h⟩
  | timeout t =>
      refine ⟨?_, fun _ hs' _ => hs'⟩
      exact (Under.begin h).aside (aside_expire t) (fun hv => hv.toHeld.allTold)
        fun _ hl hv => hv.level hl

/-- Freeing a query leaves nothing of it in the entries. -/
theorem free_shared (h : Serving s₀ Solo Strict s₀) :
    Sat (queryFree env) s₀ (fun _ => Vacating s₀ Solo Strict)
      (fun e s' => e.mundane ∧ AllTold Strict s') := by
  simp only [queryFree, sat_bind]
  refine (cleanupQuery_vacates h).mono (fun _ s₁ hs₁ => ?_) (fun _ _ he => he.2)
  have hv := hs₁.2
  -- entering NONE clears the response
  have hnone : Sat (querySetState env .none) s₁ (fun _ s₂ => Level s₁ s₂) (fun _ _ => False) := by
    have hnesting : nesting s₁ = 3 * s₁.backends.length + 2 + 1 := rfl
    simp only [querySetState, sat_bind, sat_get, hnesting, setState, sat_ite, sat_pure, modifyQuery,
      observe, sat_modify, enterState, enterNone]
    exact ⟨fun _ => ⟨rfl, rfl, rfl, rfl, rfl, Nat.le_refl _⟩,
      fun _ => ⟨rfl, rfl, rfl, rfl, rfl, Nat.le_refl _⟩⟩
  refine hnone.mono (fun _ s₂ hl => ?_) (fun _ _ he => he.elim)
  have hv' : Vacating s₀ Solo Strict s₂ := ⟨hv.toOwning.level hl, hl.priv.trans hv.empty⟩
  simp only [sat_get, sat_ite, sat_pure, sat_throw]
  exact ⟨fun _ => hv', fun _ => ⟨by simp [Fault.mundane], hv'.toHeld.allTold⟩⟩

/-! ### The pool -/

/-- A query that waits: the block under its cursor is its own, and the one it obtained. -/
structure Standing (Strict : Prop) (s : St) : Prop where
  own : ∀ d, s.dataAt s.query.cursor = some d → d.query = s.query.id
  priv : s.query.priv = (s.dataAt s.query.cursor).map (·.id)
  served : Strict → s.registered = true → s.query.priv ≠ none

/-- The private data of the entry at position `j`. -/
def Pool.dataAt (pool : Pool) (j : Nat) : Option Block := (pool.backends[j]?).bind (·.data)

/-- Every block belongs to one query of the pool, which stands on it. -/
structure Shared (Strict : Prop) (pool : Pool) : Prop where
  ids : (pool.queries.map (·.query.id)).Nodup
  standing : ∀ p ∈ pool.queries, Standing Strict (pool.view p)
  owned : ∀ j d, pool.dataAt j = some d →
    ∃ p ∈ pool.queries, p.query.id = d.query ∧ p.query.cursor = j
  recorded : ∀ (j : Nat) b, pool.backends[j]? = some b → Recorded Strict pool.context.next b

/-- No other query stands at position `j`. -/
def Clear (others : List Party) (j : Nat) : Prop := ∀ o ∈ others, o.query.cursor ≠ j

variable {pool : Pool} {p : Party} {before after others : List Party}

theorem Serving.standing (h : Serving s₀ Solo Strict s) : Standing Strict s :=
  ⟨fun d hd => (h.own d hd).trans h.id.symm, h.priv, h.served⟩

theorem mem_middle {q : Party} : q ∈ before ++ p :: after ↔ q = p ∨ q ∈ before ++ after := by
  simp only [List.mem_append, List.mem_cons]
  tauto

theorem ids_middle (hp : pool.queries = before ++ p :: after) (h : Shared Strict pool) :
    ∀ o ∈ before ++ after, o.query.id ≠ p.query.id := by
  have hids := h.ids
  rw [hp, List.map_append, List.map_cons, List.nodup_middle, ← List.map_append] at hids
  intro o ho heq
  exact (List.nodup_cons.mp hids).1 (List.mem_map.mpr ⟨o, ho, heq⟩)

/-- Two queries on one entry have no block there. -/
theorem Standing.solo {o : Party} (h : Standing Strict (pool.view p))
    (ho : Standing Strict (pool.view o)) (hid : o.query.id ≠ p.query.id)
    (hpriv : p.query.priv ≠ none) : o.query.cursor ≠ p.query.cursor := by
  intro heq
  have hdata : (pool.view p).dataAt p.query.cursor ≠ none := by
    intro hnone
    refine hpriv (h.priv.trans ?_)
    show ((pool.view p).dataAt p.query.cursor).map (·.id) = none
    rw [hnone]
    rfl
  obtain ⟨d, hd⟩ := Option.ne_none_iff_exists'.mp hdata
  have hd' : (pool.view o).dataAt o.query.cursor = some d := by
    rw [heq]
    exact hd
  exact hid ((ho.own d hd').symm.trans (h.own d hd))

/-- A query that waits can act. -/
theorem Shared.serving (h : Shared Strict pool) (hp : pool.queries = before ++ p :: after) :
    Serving (pool.view p) (Clear (before ++ after)) Strict (pool.view p) := by
  have hmem : p ∈ pool.queries := by
    rw [hp]
    exact mem_middle.mpr (Or.inl rfl)
  have hstanding := h.standing p hmem
  have hothers : ∀ o ∈ before ++ after, o ∈ pool.queries := by
    intro o ho
    rw [hp]
    exact mem_middle.mpr (Or.inr ho)
  refine ⟨⟨⟨rfl, rfl, rfl, fun _ _ _ => Iff.rfl, ?_, ?_, Nat.le_refl _, fun _ _ => rfl,
    fun _ _ => rfl, h.recorded⟩, hstanding.own, hstanding.priv⟩, hstanding.served⟩
  · intro j d hd hq
    obtain ⟨q, hq', hid, hcursor⟩ := h.owned j d hd
    rw [hp] at hq'
    obtain rfl : q = p := by
      refine (mem_middle.mp hq').resolve_right fun ho => ?_
      exact ids_middle hp h q ho (hid.trans hq)
    refine ⟨hcursor.symm, hstanding.priv.trans ?_⟩
    show ((pool.view q).dataAt q.query.cursor).map (·.id) = some d.id
    rw [hcursor, hd]
    rfl
  · intro hpriv o ho
    exact hstanding.solo (h.standing o (hothers o ho)) (ids_middle hp h o ho) hpriv

/-- A new query can act. -/
theorem Shared.arriving (h : Shared Strict pool) (hnew : p.query.New)
    (hid : ∀ o ∈ pool.queries, o.query.id ≠ p.query.id) :
    Arriving (pool.view p) (Clear (pool.queries ++ [])) Strict (pool.view p) := by
  refine ⟨⟨rfl, rfl, rfl, fun _ _ _ => Iff.rfl, ?_, ?_, Nat.le_refl _, fun _ _ => rfl,
    fun _ _ => rfl, h.recorded⟩, hnew.priv, rfl⟩
  · intro j d hd hq
    obtain ⟨q, hq', hidq, -⟩ := h.owned j d hd
    exact absurd (hidq.trans hq) (hid q hq')
  · intro hpriv
    exact absurd hnew.priv hpriv

/-- The others find their blocks as they were. -/
theorem Held.other {o : Party} (h : Held (pool.view p) (Clear others) Strict s) (ho : o ∈ others)
    (hstanding : Standing Strict (pool.view o)) (hid : o.query.id ≠ p.query.id) :
    s.dataAt o.query.cursor = pool.dataAt o.query.cursor := by
  refine Option.ext fun d => ?_
  by_cases hd : d.query = p.query.id
  · -- a block of the query itself is not where another one stands
    constructor
    · intro hsome
      obtain ⟨hcursor, hpriv⟩ := h.mine _ d hsome hd
      exact absurd hcursor (h.solo (by rw [hpriv]; exact Option.some_ne_none _) o ho)
    · intro hsome
      exact absurd ((hstanding.own d hsome).symm.trans hd) hid
  · exact h.foreign _ d hd

/-- The queries next to the one that acts. -/
structure Beyond (pool : Pool) (p : Party) (others : List Party) : Prop where
  mem : ∀ o ∈ others, o ∈ pool.queries
  id : ∀ o ∈ others, o.query.id ≠ p.query.id
  cover : ∀ q ∈ pool.queries, q = p ∨ q ∈ others
  ids : (others.map (·.query.id)).Nodup

theorem Turn.beyond {action : Action} (hturn : Turn pool action before p after)
    (h : Shared Strict pool) : Beyond pool p (before ++ after) := by
  have hmiddle : pool.queries = before ++ p :: after → Beyond pool p (before ++ after) := by
    intro hp
    refine ⟨fun o ho => ?_, ids_middle hp h, fun q hq => ?_, ?_⟩
    · rw [hp]
      exact mem_middle.mpr (Or.inr ho)
    · rw [hp] at hq
      exact mem_middle.mp hq
    · have hids := h.ids
      rw [hp, List.map_append, List.map_cons, List.nodup_middle, ← List.map_append] at hids
      exact (List.nodup_cons.mp hids).2
  cases hturn with
  | start hnew htrace hid =>
      rw [List.append_nil]
      exact ⟨fun _ ho => ho, hid, fun _ hq => Or.inr hq, h.ids⟩
  | dispatch hp hw => exact hmiddle hp
  | free hp => exact hmiddle hp

/-- What a step leaves of the query: nothing, or a query that waits. -/
def LeftOver (Strict : Prop) (s : St) (left : List Party) : Prop :=
  left = [s.party] ∧ Standing Strict s ∨ left = [] ∧ s.query.priv = none

theorem Held.shared {left : List Party} (h : Held (pool.view p) (Clear (before ++ after)) Strict s)
    (hinv : Shared Strict pool) (hbeyond : Beyond pool p (before ++ after))
    (hleft : LeftOver Strict s left)
    (hserved : Strict → (∀ o ∈ before ++ after, pool.Ended o) ∨ pool.Ended p) :
    Shared Strict ⟨before ++ left ++ after, s.backends, s.context⟩ := by
  have hmem : ∀ q ∈ before ++ left ++ after, q ∈ left ∨ q ∈ before ++ after := by
    intro q hq
    simp only [List.mem_append] at hq ⊢
    tauto
  have hmem' : ∀ q, q ∈ left ∨ q ∈ before ++ after → q ∈ before ++ left ++ after := by
    intro q hq
    simp only [List.mem_append] at hq ⊢
    tauto
  refine ⟨?_, ?_, ?_, h.recorded⟩
  · -- the query keeps its number
    rcases hleft with ⟨rfl, -⟩ | ⟨rfl, -⟩
    · rw [List.append_assoc, List.map_append, List.singleton_append, List.map_cons,
        List.nodup_middle, ← List.map_append, List.nodup_cons]
      refine ⟨fun hin => ?_, hbeyond.ids⟩
      obtain ⟨o, ho, heq⟩ := List.mem_map.mp hin
      exact hbeyond.id o ho (heq.trans h.id)
    · rw [List.append_nil]
      exact hbeyond.ids
  · intro q hq
    rcases hmem q hq with hq | hq
    · rcases hleft with ⟨rfl, hstanding⟩ | ⟨rfl, -⟩
      · obtain rfl := List.mem_singleton.mp hq
        exact hstanding
      · cases hq
    · have hstanding := hinv.standing q (hbeyond.mem q hq)
      have hdata := h.other hq hstanding (hbeyond.id q hq)
      refine ⟨fun d hd => hstanding.own d (hdata.symm.trans hd), ?_, fun hs hreg => ?_⟩
      · exact hstanding.priv.trans (congrArg (Option.map (·.id)) hdata.symm)
      · -- either there is no entry under its cursor, or the entries have not changed
        rcases hserved hs with hended | hended
        · have hnone : s.backends[q.query.cursor]? = none := by
            refine List.getElem?_eq_none ?_
            rw [h.length]
            exact hended q hq
          have hreg' : (s.backends[q.query.cursor]?).any (·.cleanup) = true := hreg
          rw [hnone] at hreg'
          cases hreg'
        · refine hstanding.served hs ?_
          have hsame : s.backends[q.query.cursor]? = pool.backends[q.query.cursor]? := by
            by_cases hlt : q.query.cursor < p.query.cursor
            · exact h.behind _ hlt
            · have hge : pool.backends.length ≤ q.query.cursor :=
                Nat.le_trans hended (Nat.not_lt.mp hlt)
              rw [List.getElem?_eq_none hge, List.getElem?_eq_none (h.length ▸ hge)]
          show (pool.backends[q.query.cursor]?).any (·.cleanup) = true
          rw [← hsame]
          exact hreg
  · intro j d hd
    by_cases hq : d.query = p.query.id
    · obtain ⟨hcursor, hpriv⟩ := h.mine j d hd hq
      rcases hleft with ⟨rfl, -⟩ | ⟨rfl, hnone⟩
      · exact ⟨s.party, hmem' _ (Or.inl (List.mem_singleton.mpr rfl)), h.id.trans hq.symm,
          hcursor.symm⟩
      · rw [hnone] at hpriv
        cases hpriv
    · obtain ⟨q, hq', hid, hcursor⟩ := hinv.owned j d ((h.foreign j d hq).mp hd)
      have hqo := (hbeyond.cover q hq').resolve_left fun heq => hq (heq ▸ hid.symm)
      exact ⟨q, hmem' q (Or.inr hqo), hid, hcursor⟩

/-! ### Steps of the pool -/

/-- What is used of a rule. -/
structure Suits (Strict : Prop) (C : Rule) : Prop where
  behaved : ∀ {pool env action others p}, C pool env action others p → env.WellBehaved
  allows : ∀ {pool env action others p}, Shared Strict pool → Beyond pool p others →
    action ≠ .free → C pool env action others p →
    Allows (pool.view p) (Clear others) Strict (SetsUp env action (pool.view p)) env
  alone : ∀ {pool env action others p}, Strict → C pool env action others p →
    (∀ o ∈ others, pool.Ended o) ∨ pool.Ended p

/-- At the end of an action its trace tells all its set-ups. -/
theorem Under.settle (action : Action)
    (h : Sat (action.run env) s₀ (fun _ => Under s₀ (SetsUp env action s₀) X)
      (Unharmed s₀ Strict (SetsUp env action s₀)))
    (hfuel : Fueled (action.run env) s₀) :
    Sat (action.run env) s₀ (fun _ => X) (fun e s => e.mundane ∧ AllTold Strict s) := by
  have hall : Allowed s₀ (SetsUp env action s₀) (final (action.run env) s₀).trace :=
    fun _ _ _ heq hmem => setsUp_of_trace hfuel heq hmem
  unfold Fueled at hfuel
  unfold Sat at h hfuel ⊢
  unfold final at hall
  cases hr : action.run env s₀ with
  | ok a s =>
      rw [hr] at h hall
      exact h.holds hall
  | error e s =>
      rw [hr] at h hall hfuel
      rcases h with rfl | h
      · exact absurd rfl hfuel
      · exact h.holds hall

variable {C : Rule} {action : Action}

/-- **A step leaves the blocks of other queries alone**, and what is left of the query waits. -/
theorem Turn.held (hC : Suits Strict C) (hinv : Shared Strict pool)
    (hturn : Turn pool action before p after) (hrule : C pool env action (before ++ after) p) :
    Sat (action.run env) (pool.view p)
      (fun _ s => Held (pool.view p) (Clear (before ++ after)) Strict s ∧
        LeftOver Strict s (action.leaves s.party))
      (fun e s => e.mundane ∧ AllTold Strict s) := by
  have hbeyond := hturn.beyond hinv
  have hwaits : ∀ s, Serving (pool.view p) (Clear (before ++ after)) Strict s →
      Held (pool.view p) (Clear (before ++ after)) Strict s ∧ LeftOver Strict s [s.party] :=
    fun s h => ⟨h.toHeld, Or.inl ⟨rfl, h.standing⟩⟩
  cases hturn with
  | start hnew htrace hid =>
      have hok := hC.allows hinv hbeyond (by decide) hrule
      have hsat := start_shared hok (hC.behaved hrule) (hinv.arriving hnew hid) hnew.state
        hnew.cursor
      exact (Under.settle .start hsat (queryStart_fueled env _)).mono (fun _ s h => hwaits s h)
        (fun _ _ he => he)
  | dispatch hp hw =>
      have hok := hC.allows hinv hbeyond (by simp) hrule
      have hsat := dispatch_shared hok (hC.behaved hrule) (hinv.serving hp) hw
      exact (Under.settle (.dispatch _) hsat (queryDispatch_fueled env _ _)).mono (fun _ s h => hwaits s h)
        (fun _ _ he => he)
  | free hp =>
      exact (free_shared (hinv.serving hp)).mono
        (fun _ s h => ⟨h.toHeld, Or.inr ⟨rfl, h.empty⟩⟩) (fun _ _ he => he)

theorem PoolStep.shared {pool' : Pool} (hC : Suits Strict C) (hinv : Shared Strict pool)
    (hstep : PoolStep C pool others pool') : Shared Strict pool' := by
  cases hstep with
  | mk hturn hrule hok =>
      obtain ⟨hheld, hleft⟩ := (hturn.held hC hinv hrule).of_ok hok
      exact hheld.shared hinv (hturn.beyond hinv) hleft fun hs => hC.alone hs hrule

theorem Pool.Unused.shared (h : pool.Unused) : Shared Strict pool := by
  have hdata : ∀ (j : Nat) b, pool.backends[j]? = some b → b.data = none ∧ b.history = [] := by
    intro j b hb
    obtain ⟨hnone, -, hhist⟩ := h.backends b (List.mem_of_getElem? hb)
    exact ⟨hnone, hhist⟩
  refine ⟨by rw [h.queries]; exact List.nodup_nil, fun p hp => ?_, fun j d hd => ?_,
    fun j b hb => ?_⟩
  · rw [h.queries] at hp
    cases hp
  · obtain ⟨b, hb, hd⟩ := Option.bind_eq_some_iff.mp hd
    rw [(hdata j b hb).1] at hd
    cases hd
  · obtain ⟨hnone, hhist⟩ := hdata j b hb
    refine ⟨⟨?_, fun _ q hq => ?_⟩, ?_, fun hne => absurd hnone hne, fun q n hn => ?_⟩
    · rw [hhist]
      trivial
    · rw [hhist] at hq
      cases hq
    · rw [hhist, hnone]
      rfl
    · rw [hhist] at hn
      cases hn

/-- Every pool a rule of this kind leads to is in order. -/
theorem PoolReachable.shared {pool₀ : Pool} (hC : Suits Strict C) (h₀ : pool₀.Unused)
    (h : PoolReachable C pool₀ pool) : Shared Strict pool := by
  induction h with
  | init => exact h₀.shared
  | step _ hstep ih => exact hstep.shared hC ih

/-! ### Set-ups that keep apart -/

theorem setsUp_data (h : Shared Strict pool) (hbeyond : Beyond pool p others) {j : Nat} {d : Block}
    (hd : pool.dataAt j = some d)
    (hno : ∀ o ∈ others, o.query.cursor = j → o.query.priv = none) : d.query = p.query.id := by
  obtain ⟨q, hq, hid, hcursor⟩ := h.owned j d hd
  rcases hbeyond.cover q hq with rfl | ho
  · exact hid.symm
  · -- the block is that of the query that stands there
    have hpriv : q.query.priv = (pool.dataAt q.query.cursor).map (·.id) := (h.standing q hq).priv
    rw [hno q ho hcursor, hcursor, hd] at hpriv
    cases hpriv

theorem apart_suits : Suits False Apart where
  behaved h := h.behaved
  allows h hbeyond _ hrule :=
    { foreign := fun j hj _ hd => setsUp_data h hbeyond hd fun o ho hc => (hrule.apart j hj o ho hc).1
      solo := fun j _ hj hmem o ho hc => (hrule.apart j hj o ho hc).2 hmem
      obtains := False.elim }
  alone := False.elim

/-- The cleanup function is called by the query that obtained the block, with this block. -/
def CleansOwn (b : Backend) : Prop :=
  ∀ later past q arg, b.history = later ++ .cleanup q arg :: past →
    outstanding past = arg.map fun block => (q, block)

theorem Told.cleansOwn {b : Backend} (h : Told Strict b) : CleansOwn b := by
  intro later past q arg heq
  obtain ⟨harg, hq⟩ := h.paired.at heq
  rw [harg]
  cases hout : outstanding past with
  | none => rfl
  | some o =>
      obtain rfl : o.1 = q := hq o hout
      rfl

/--
**Queries of one context do not get at each other's private data** as long as none is set up
on a backend on which another stands with private data, or without any if the set-up is to
obtain some.  Every query finds the block it obtained, no step of another changes that, the
assertion of `netresolve_backend_new_priv` holds, and no cleanup function is called on a
block of another query.
-/
theorem private_data_apart {pool₀ : Pool} (h₀ : pool₀.Unused) (h : PoolReachable Apart pool₀ pool) :
    (∀ p ∈ pool.queries, (backendGetPriv (pool.view p)).map (·.id) = p.query.priv ∧
      ∀ d, backendGetPriv (pool.view p) = some d → d.query = p.query.id) ∧
    (∀ others pool', PoolStep Apart pool others pool' → ∀ o ∈ others,
      backendGetPriv (pool'.view o) = backendGetPriv (pool.view o)) ∧
    (∀ e s, PoolStops Apart pool e s → e ≠ .assertion .newPriv ∧ e ≠ .foreign ∧
      ∀ b ∈ s.backends, CleansOwn b) ∧
    ∀ b ∈ pool.backends, CleansOwn b := by
  have hinv := h.shared apart_suits h₀
  refine ⟨fun p hp => ?_, fun others pool' hstep o ho => ?_, fun e s hstop => ?_, fun b hb => ?_⟩
  · exact ⟨(hinv.standing p hp).priv.symm, (hinv.standing p hp).own⟩
  · cases hstep with
    | mk hturn hrule hok =>
        have hbeyond := hturn.beyond hinv
        obtain ⟨hheld, -⟩ := (hturn.held apart_suits hinv hrule).of_ok hok
        exact hheld.other ho (hinv.standing o (hbeyond.mem o ho)) (hbeyond.id o ho)
  · cases hstop with
    | mk hturn hrule herr =>
        obtain ⟨hmundane, htold⟩ := (hturn.held apart_suits hinv hrule).of_error herr
        refine ⟨hmundane.2.2, hmundane.2.1, fun b hb => ?_⟩
        obtain ⟨j, hj⟩ := List.getElem?_of_mem hb
        exact (htold j b hj).cleansOwn
  · obtain ⟨j, hj⟩ := List.getElem?_of_mem hb
    exact (hinv.recorded j b hj).toTold.cleansOwn

/-! ### Runs that can be played -/

theorem PoolReachable.started {pool₀ : Pool} (h : PoolReachable C pool₀ pool)
    (hrule : C pool env .start pool.queries p) (hnew : p.query.New) (htrace : p.trace = [])
    (hid : ∀ o ∈ pool.queries, o.query.id ≠ p.query.id) (hok : pool.fault env p = none) :
    PoolReachable C pool₀ (pool.started env p) := by
  have hrun : queryStart env (pool.view p) = .ok () (final (queryStart env) (pool.view p)) := by
    unfold Pool.fault at hok
    unfold final
    cases hr : queryStart env (pool.view p) with
    | ok a s => rfl
    | error e s =>
        rw [hr] at hok
        cases hok
  have hstep := PoolStep.mk (.start hnew htrace hid) (by rw [List.append_nil]; exact hrule) hrun
  simp only [List.append_nil] at hstep
  exact .step h hstep

theorem PoolStops.started (hrule : C pool env .start pool.queries p) (hnew : p.query.New)
    (htrace : p.trace = []) (hid : ∀ o ∈ pool.queries, o.query.id ≠ p.query.id) {e : Fault}
    (herr : pool.fault env p = some e) : ∃ s, PoolStops C pool e s := by
  unfold Pool.fault at herr
  cases hr : queryStart env (pool.view p) with
  | ok a s =>
      rw [hr] at herr
      cases herr
  | error e' s =>
      rw [hr] at herr
      obtain rfl := Option.some.inj herr
      exact ⟨s, .mk (.start hnew htrace hid) (by rw [List.append_nil]; exact hrule) hr⟩

/-- A context with one backend. -/
def single (b : Backend) : Pool := ⟨[], [b], {}⟩

/-- A new query of the given type. -/
def newParty (id : Nat) (type : RequestType) : Party := ⟨{ id := id, request := { type := type } }, []⟩

theorem newParty_new (id : Nat) (type : RequestType) : (newParty id type).query.New :=
  ⟨rfl, rfl, rfl, rfl, fun t => by cases t <;> rfl, rfl, rfl⟩

/-- A backend that obtains private data and reports nothing from its setup function. -/
def keeper : Env := { setup := fun _ => [.newPriv true, .watchAdd 0] }

theorem keeper_wellBehaved : keeper.WellBehaved := ⟨fun _ => rfl, fun _ => rfl⟩

theorem single_unused (b : Backend) (h : b.data = none ∧ b.cleanup = false ∧ b.history = []) :
    (single b).Unused := ⟨rfl, fun _ hb => by rw [List.mem_singleton.mp hb]; exact h⟩

/-- The first backend reports a failure, the second one obtains private data. -/
def passesOn : Env where
  setup j := if j = 0 then [.failed] else [.newPriv true, .watchAdd 0]

/-- A context with two backends. -/
def double : Pool := ⟨[], [{}, {}], {}⟩

theorem double_unused : double.Unused :=
  ⟨rfl, fun b hb => by
    obtain rfl : b = {} := by simpa [double] using hb
    exact ⟨rfl, rfl, rfl⟩⟩

/-- The first query has failed on the first backend and waits for the second one. -/
def doubleOne : Pool := double.started passesOn (newParty 1 .forward)

/-- The second query waits for the first backend. -/
def doubleTwo : Pool := doubleOne.started keeper (newParty 2 .forward)

theorem passesOn_wellBehaved : passesOn.WellBehaved :=
  ⟨fun j => by show keepsWatches false (ite _ _ _) = true; split <;> rfl, fun _ => rfl⟩

theorem doubleOne_reachable : PoolReachable Apart double doubleOne := by
  have hrule : Apart double passesOn .start double.queries (newParty 1 .forward) :=
    ⟨passesOn_wellBehaved, fun _ _ _ ho => by cases ho⟩
  exact PoolReachable.init.started hrule (newParty_new _ _) rfl (fun _ ho => by cases ho)
    (by decide +kernel)

/-- The second query sets up the first backend only, and the first query is on the second one. -/
theorem double_apart : Apart doubleOne keeper .start doubleOne.queries (newParty 2 .forward) := by
  have hsets : (Action.start.course keeper (doubleOne.view (newParty 2 .forward))).setUps = [0] := by
    decide +kernel
  have hstands : doubleOne.queries.map (·.query.cursor) = [1] := by decide +kernel
  refine ⟨keeper_wellBehaved, fun j hj o ho hcursor => ?_⟩
  have hzero : j = 0 := List.mem_singleton.mp (hsets ▸ hj)
  have hone : o.query.cursor = 1 := by
    have hmem := List.mem_map_of_mem (f := (·.query.cursor)) ho
    rw [hstands] at hmem
    exact List.mem_singleton.mp hmem
  rw [hone, hzero] at hcursor
  cases hcursor

/-- Each of two queries finds its own block, on a backend of its own. -/
theorem private_data_apart_two :
    doubleTwo.queries.map (fun p => (p.query.cursor, p.query.priv)) =
      [(1, some 0), (0, some 3)] ∧
    ∀ p ∈ doubleTwo.queries, (backendGetPriv (doubleTwo.view p)).map (·.id) = p.query.priv := by
  refine ⟨by decide +kernel, fun p hp => ?_⟩
  have hids : doubleOne.queries.map (·.query.id) = [1] := by decide +kernel
  have hid : ∀ o ∈ doubleOne.queries, o.query.id ≠ (newParty 2 .forward).query.id := by
    intro o ho
    have hmem := List.mem_map_of_mem (f := (·.query.id)) ho
    rw [hids] at hmem
    rw [List.mem_singleton.mp hmem]
    decide
  have hreach : PoolReachable Apart double doubleTwo :=
    doubleOne_reachable.started double_apart (newParty_new _ _) rfl hid (by decide +kernel)
  exact ((private_data_apart double_unused hreach).1 p hp).1

/-- With two queries on such a backend the second one fails the assertion. -/
theorem second_query_fails_assertion : ∃ pool s, PoolReachable Behaved (single {}) pool ∧
    PoolStops Behaved pool (.assertion .newPriv) s := by
  have hreach : PoolReachable Behaved (single {})
      ((single {}).started keeper (newParty 1 .forward)) :=
    PoolReachable.init.started keeper_wellBehaved (newParty_new _ _) rfl
      (fun _ ho => by cases ho) (by decide +kernel)
  have hids : ∀ o ∈ ((single {}).started keeper (newParty 1 .forward)).queries,
      o.query.id ≠ (newParty 2 .forward).query.id := by decide +kernel
  have hrule : Behaved ((single {}).started keeper (newParty 1 .forward)) keeper .start
      ((single {}).started keeper (newParty 1 .forward)).queries (newParty 2 .forward) :=
    keeper_wellBehaved
  obtain ⟨s, hs⟩ := PoolStops.started hrule (newParty_new 2 .forward) rfl hids
    (show Pool.fault keeper (newParty 2 .forward) _ = some (.assertion .newPriv) by decide +kernel)
  exact ⟨_, s, hreach, hs⟩

/-! ### One query after another -/

/-- What has happened to the entry since its backend was set up last. -/
def currentRun (history : List PrivEvent) : List PrivEvent :=
  history.takeWhile fun e => match e with
    | .setup _ _ => false
    | _ => true

/-- The cleanup function is called with a block that was obtained in the same run. -/
def CleansCurrent (b : Backend) : Prop :=
  ∀ later past q arg, b.history = later ++ .cleanup q arg :: past →
    ∃ block, arg = some block ∧ .alloc q block ∈ currentRun past

/-- What is outstanding was obtained in the current run. -/
theorem outstanding_current {history : List PrivEvent} {q block : Nat}
    (h : Always Paired history) (hout : outstanding history = some (q, block)) :
    .alloc q block ∈ currentRun history := by
  induction history with
  | nil => cases hout
  | cons e past ih =>
      cases e with
      | setup q' present =>
          have hnone : outstanding past = none := h.1
          have hsome : outstanding past = some (q, block) := hout
          rw [hnone] at hsome
          cases hsome
      | alloc q' block' =>
          obtain ⟨rfl, rfl⟩ : q' = q ∧ block' = block := by simpa [outstanding] using hout
          exact List.mem_cons_self ..
      | allocFailed q' => exact List.mem_cons_of_mem _ (ih h.2 hout)
      | cleanup q' arg => cases hout

theorem Told.cleansCurrent {b : Backend} (hs : Strict) (h : Told Strict b) : CleansCurrent b := by
  intro later past q arg heq
  have hpast : Always Paired past := by
    have hall := h.paired
    rw [heq] at hall
    exact (always_append hall).2
  have hout := h.cleansOwn later past q arg heq
  cases arg with
  | none =>
      refine absurd ?_ (h.noNull hs q)
      rw [heq]
      exact List.mem_append_right _ (List.mem_cons_self ..)
  | some block => exact ⟨block, rfl, outstanding_current hpast hout⟩

/-- A block is obtained once. -/
theorem count_alloc {history : List PrivEvent} (h : Always Paired history) (q block : Nat) :
    history.count (.alloc q block) ≤ 1 := by
  induction history with
  | nil => exact Nat.zero_le _
  | cons e past ih =>
      rw [List.count_cons]
      split
      · next heq =>
          obtain rfl := eq_of_beq heq
          have hnew : .alloc q block ∉ past := h.1.2 q
          exact Nat.le_of_eq (by rw [List.count_eq_zero_of_not_mem hnew])
      · exact ih h.2

/-- It is cleaned up once, unless it is still outstanding. -/
theorem count_cleanup {history : List PrivEvent} (h : Always Paired history) (q block : Nat) :
    history.count (.alloc q block) = history.count (.cleanup q (some block)) +
      if outstanding history = some (q, block) then 1 else 0 := by
  induction history with
  | nil => rfl
  | cons e past ih =>
      have ih := ih h.2
      cases e with
      | setup q' present =>
          have hsame : outstanding (.setup q' present :: past) = outstanding past := rfl
          rw [hsame]
          simpa using ih
      | allocFailed q' =>
          have hsame : outstanding (.allocFailed q' :: past) = outstanding past := rfl
          rw [hsame]
          simpa using ih
      | alloc q' block' =>
          have hnone : outstanding past = none := h.1.1
          rw [hnone] at ih
          simp only [List.count_cons, outstanding, ih]
          simp
      | cleanup q' arg =>
          obtain ⟨harg, hq⟩ := h.1
          subst harg
          simp only [List.count_cons, outstanding, ih]
          cases hout : outstanding past with
          | none => simp
          | some o =>
              obtain rfl : o.1 = q' := hq o hout
              by_cases ho : o = (q, block)
              · simp [ho]
              · have : ¬ (o.1 = q ∧ o.2 = block) := fun hboth => ho (Prod.ext hboth.1 hboth.2)
                simp [ho, this]

theorem serial_suits : Suits True Serial where
  behaved h := h.behaved
  allows h hbeyond hne hrule := by
    have hended := hrule.alone.resolve_right fun hfree => hne hfree.1
    refine ⟨fun j _ d hd => ?_, fun j hlt _ _ o ho hc => ?_,
      fun _ j b hj hb => hrule.obtains j b hj hb⟩
    · refine setsUp_data h hbeyond hd fun o ho hc => ?_
      obtain ⟨b, hb, -⟩ := Option.bind_eq_some_iff.mp hd
      have hlt := (List.getElem?_eq_some_iff.mp hb).1
      exact absurd (hended o ho) (Nat.not_le.mpr (hc ▸ hlt))
    · exact absurd (hended o ho) (Nat.not_le.mpr (hc ▸ hlt))
  alone _ hrule := hrule.alone.imp_right And.right

/-- When all queries are over, no entry holds a block. -/
theorem Shared.all_over (h : Shared Strict pool) (hover : ∀ p ∈ pool.queries, pool.Ended p)
    {j : Nat} {b : Backend} (hb : pool.backends[j]? = some b) : outstanding b.history = none := by
  have hdata : b.data = none := by
    refine Option.eq_none_iff_forall_ne_some.mpr fun d hd => ?_
    have hat : pool.dataAt j = some d := by
      unfold Pool.dataAt
      rw [hb]
      exact hd
    obtain ⟨p, hp, -, hcursor⟩ := h.owned j d hat
    have hlt := (List.getElem?_eq_some_iff.mp hb).1
    exact absurd (hover p hp) (Nat.not_le.mpr (hcursor ▸ hlt))
  rw [(h.recorded j b hb).open_, hdata]
  rfl

/--
**One cleanup for each block**, for queries that run one after another, as long as every
set-up next to a cleanup function obtains private data.  The cleanup function is called with
a block its own run obtained, wherever the run is, and for no block twice; once all queries
are over it has been called for every block.
-/
theorem cleanup_once_for_each_block {pool₀ : Pool} (h₀ : pool₀.Unused)
    (h : PoolReachable Serial pool₀ pool) :
    (∀ b ∈ pool.backends, CleansCurrent b ∧ ∀ q block,
      b.history.count (.cleanup q (some block)) ≤ b.history.count (.alloc q block) ∧
      b.history.count (.alloc q block) ≤ 1) ∧
    ((∀ p ∈ pool.queries, pool.Ended p) → ∀ b ∈ pool.backends, ∀ q block,
      b.history.count (.cleanup q (some block)) = b.history.count (.alloc q block)) ∧
    ∀ e s, PoolStops Serial pool e s → ∀ b ∈ s.backends, CleansCurrent b ∧ ∀ q block,
      b.history.count (.cleanup q (some block)) ≤ b.history.count (.alloc q block) ∧
      b.history.count (.alloc q block) ≤ 1 := by
  have hinv := h.shared serial_suits h₀
  have htold : ∀ b, Told True b → CleansCurrent b ∧ ∀ q block,
      b.history.count (.cleanup q (some block)) ≤ b.history.count (.alloc q block) ∧
      b.history.count (.alloc q block) ≤ 1 := by
    intro b hb
    refine ⟨hb.cleansCurrent trivial, fun q block => ⟨?_, count_alloc hb.paired q block⟩⟩
    rw [count_cleanup hb.paired q block]
    exact Nat.le_add_right _ _
  refine ⟨fun b hb => ?_, fun hover b hb q block => ?_, fun e s hstop b hb => ?_⟩
  · obtain ⟨j, hj⟩ := List.getElem?_of_mem hb
    exact htold b (hinv.recorded j b hj).toTold
  · obtain ⟨j, hj⟩ := List.getElem?_of_mem hb
    rw [count_cleanup (hinv.recorded j b hj).paired q block, hinv.all_over hover hj]
    rfl
  · cases hstop with
    | mk hturn hrule herr =>
        obtain ⟨j, hj⟩ := List.getElem?_of_mem hb
        exact htold b (((hturn.held serial_suits hinv hrule).of_error herr).2 j b hj)

/-- A backend that obtains private data and then fails. -/
def quitter : Env := { setup := fun _ => [.newPriv true, .failed] }

theorem quitter_wellBehaved : quitter.WellBehaved := ⟨fun _ => rfl, fun _ => rfl⟩

/-- A module with a setup function for forward queries only, like `exec`. -/
def forwardOnly : Backend := { setup := fun type => type == .forward }

theorem quitter_reachable {C : Rule} (hrule : C (single forwardOnly) quitter .start []
    (newParty 1 .forward)) : PoolReachable C (single forwardOnly)
      ((single forwardOnly).started quitter (newParty 1 .forward)) :=
  PoolReachable.init.started hrule (newParty_new _ _) rfl (fun _ ho => by cases ho)
    (by decide +kernel)

theorem quitter_serial {pool : Pool} {others : List Party} (n : Nat)
    (hentries : pool.backends.map (·.setup .forward) = [true])
    (halone : ∀ o ∈ others, pool.Ended o) :
    Serial pool quitter .start others (newParty n .forward) := by
  refine ⟨⟨quitter_wellBehaved, Or.inl halone⟩, fun j b _ hb => Or.inl ⟨?_, List.mem_cons_self⟩⟩
  have hmem : b.setup .forward ∈ pool.backends.map (·.setup .forward) :=
    List.mem_map_of_mem (List.mem_of_getElem? hb)
  rw [hentries] at hmem
  exact List.mem_singleton.mp hmem

/-- Two forward queries, one after the other on the same entry, are each cleaned up after. -/
theorem cleanup_once_for_each_block_twice : ∃ pool, PoolReachable Serial (single forwardOnly) pool ∧
    pool.backends.map (·.history) =
      [[.cleanup 2 (some 1), .alloc 2 1, .setup 2 true, .cleanup 1 (some 0), .alloc 1 0,
        .setup 1 true]] ∧
    ∀ b ∈ pool.backends, b.history.count (.cleanup 2 (some 1)) = b.history.count (.alloc 2 1) := by
  have hfirst := quitter_reachable (C := Serial)
    (quitter_serial 1 (by decide +kernel) fun _ ho => by cases ho)
  generalize hpool : (single forwardOnly).started quitter (newParty 1 .forward) = pool at hfirst
  have hrule : Serial pool quitter .start pool.queries (newParty 2 .forward) :=
    quitter_serial 2 (by subst hpool; decide +kernel) (by subst hpool; decide +kernel)
  have hreach := hfirst.started hrule (newParty_new _ _) rfl (by subst hpool; decide +kernel)
    (by subst hpool; decide +kernel)
  refine ⟨_, hreach, by subst hpool; decide +kernel, fun b hb => ?_⟩
  exact (cleanup_once_for_each_block (single_unused forwardOnly ⟨rfl, rfl, rfl⟩) hreach).2.1
    (by subst hpool; decide +kernel) b hb 2 1

/-- A reverse query after it makes the cleanup function run without a block. -/
theorem reverse_query_cleans_null : ∃ pool, PoolReachable Lone (single forwardOnly) pool ∧
    ∃ b ∈ pool.backends, .cleanup 2 none ∈ b.history ∧ ¬ CleansCurrent b := by
  have hfirst := quitter_reachable (C := Lone)
    ⟨quitter_wellBehaved, Or.inl fun _ ho => by cases ho⟩
  generalize hpool : (single forwardOnly).started quitter (newParty 1 .forward) = pool at hfirst
  have hrule : Lone pool quitter .start pool.queries (newParty 2 .reverse) := by
    refine ⟨quitter_wellBehaved, Or.inl ?_⟩
    subst hpool
    decide +kernel
  have hreach := hfirst.started hrule (newParty_new _ _) rfl (by subst hpool; decide +kernel)
    (by subst hpool; decide +kernel)
  have hhist : (pool.started quitter (newParty 2 .reverse)).backends.map (·.history) =
      [[.cleanup 2 none, .setup 2 false, .cleanup 1 (some 0), .alloc 1 0, .setup 1 true]] := by
    subst hpool
    decide +kernel
  obtain ⟨b, hb, hbhist⟩ : ∃ b ∈ (pool.started quitter (newParty 2 .reverse)).backends, b.history =
      [.cleanup 2 none, .setup 2 false, .cleanup 1 (some 0), .alloc 1 0, .setup 1 true] := by
    refine List.mem_map.mp ?_
    rw [hhist]
    exact List.mem_singleton.mpr rfl
  refine ⟨_, hreach, b, hb, by rw [hbhist]; exact List.mem_cons_self .., fun hclean => ?_⟩
  obtain ⟨block, harg, -⟩ := hclean [] _ 2 none hbhist
  cases harg

end Netresolve
