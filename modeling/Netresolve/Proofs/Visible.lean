/-
What can be seen of a query.

The trace, the response, the state and the cursor change in few places, and what
happens in between stays within the frame.  So a statement about them is shown by
looking at those places only: `Extends` lists them, each as a plain implication
between two states, and `Sound.extend` adds the statement to whatever is known of the
stages already.  `Stop` is what is to hold where a run stops.
-/
import Netresolve.Proofs.Machine
import Netresolve.Proofs.Ledger

namespace Netresolve

open Outcome

/-! ### The visible part of each step -/

/-- After entering RESOLVED, up to the timer this may set. -/
def St.toResolved (s : St) : St := if s.query.state = .resolved then s else s.entered .resolved

/-- The calls that write into the response and do nothing else. -/
def Call.data : Call → Bool
  | .setCanonicalName _ | .addNameInfo _ | .setDnsAnswer _ | .setSecure => true
  | _ => false

/-- The response after such a call. -/
def Call.answer (env : Env) (call : Call) (q : Query) : Response :=
  match call with
  | .setCanonicalName name => { q.response with nodename := some ⟨name, q.cursor⟩ }
  | .addNameInfo nodename =>
      if q.response.nodename.isSome then q.response
      else { q.response with
        nodename := nodename.map (⟨·, q.cursor⟩)
        servname := if q.response.servname.isSome then q.response.servname
          else (reverseServname env.services q.request).map (⟨·, q.cursor⟩) }
  | .setDnsAnswer answer => { q.response with dns := some ⟨answer, q.cursor⟩ }
  | .setSecure => { q.response with security := .secure }
  | _ => q.response

/-- After a call that writes into the response. -/
def St.answered (env : Env) (s : St) (call : Call) : St :=
  { s.reported call with query := { s.query with response := call.answer env s.query } }

/-- After the message about data in a failed reply, if there is reason for it. -/
def St.warned (s : St) : St :=
  if s.query.response.paths ≠ [] then
    { s with trace := .error "Failed reply has data." :: s.trace }
  else s

/-- The cursor moves. -/
def St.moved (s : St) (i : Nat) : St := { s with query := { s.query with cursor := i } }

/-- Where `case NETRESOLVE_STATE_DONE` goes on. -/
def St.afterDone (s : St) : Nat × Bool :=
  nextMandatory (s.backends.drop (s.query.cursor + 1)) (s.query.cursor + 1)

section

variable {env : Env} {E : Fault → St → Prop}

theorem sat_data (f : QueryState → M Unit) {call : Call} (h : call.data) (s : St)
    (Q : Unit → St → Prop) : Sat (runCall env f call) s Q E ↔ Q () (s.answered env call) := by
  cases call with
  | addNameInfo nodename =>
      simp only [runCall, observe, backendAddNameInfo, modifyQuery, sat_bind, sat_get, sat_modify,
        St.answered, Call.answer]
      split <;> exact Iff.rfl
  | setCanonicalName _ | setDnsAnswer _ | setSecure => exact Iff.rfl
  | _ => simp [Call.data] at h

theorem keeps_enterWaiting : Keeps (enterWaiting env) :=
  .bind .get fun _ => .ite (keeps_setTimeout env _) (.pure _)

theorem keeps_armResultTimeout : Keeps (armResultTimeout env) :=
  .bind .get fun _ => .ite (keeps_setTimeout env _) (.pure _)

theorem keeps_enterResolved (old : QueryState) : Keeps (enterResolved env old) := by
  unfold enterResolved openEventfd
  refine .ite (.bind (.bind .get fun s => ?_) fun _ => keeps_setTimeout env _) (.pure _)
  exact .ite (keeps_modifyContext fun _ => Nat.le_succ _) (.throw (by decide))

theorem keeps_expire (t : Timer) : Keeps (expire env t) := by
  unfold expire
  refine .bind .get fun s => .ite (.ite (.throw (by decide)) (keeps_clearTimeout env t)) ?_
  exact .throw (by simp)

/-- A timer fires only in a state in which it is due. -/
theorem expire_visible (t : Timer) (s : St) :
    Sat (expire env t) s (fun _ s' => Frame s s' ∧ t.due s.query.state)
      (fun _ s' => Frame s s') := by
  have hdue : Sat (expire env t) s (fun _ _ => t.due s.query.state) (fun _ _ => True) := by
    simp only [expire, sat_bind, sat_get, sat_ite, sat_throw]
    refine ⟨fun hd => ⟨fun _ => trivial, fun _ => ?_⟩, fun _ => trivial⟩
    exact (keeps_clearTimeout env t s).mono (fun _ _ _ => hd) (fun _ _ _ => trivial)
  exact ((keeps_expire t s).and hdue).mono (fun _ _ h => h) (fun _ _ he => he.1.1)

/-- Setting a timer takes no watch away, and succeeds unless the system refuses a descriptor. -/
theorem setTimeout_adds (t : Timer) (s : St) :
    Sat (setTimeout env t) s (fun _ s' => (∀ x ∈ s.query.watches, x ∈ s'.query.watches) ∧
      ((∀ n, env.timerfd n = true) → (s'.query.timeout t).isSome)) OnlyAbort := by
  simp only [setTimeout, timeoutAdd, sat_bind, sat_get, sat_ite, modifyContext, sat_modify,
    modifyQuery, sat_pure]
  refine ⟨fun _ => sat_watchAdd env _ _ _ _ ⟨fun x hx => ?_, fun _ => ?_⟩,
    fun hno => ⟨fun x hx => ?_, fun hall => absurd (hall _) hno⟩⟩
  · rw [(setTimeout_watches _ t _).1]
    exact List.mem_append_left _ hx
  · rw [timeout_setTimeout_self]
    rfl
  · rwa [(setTimeout_watches _ t _).1]

/-- WAITING sets a timer at most. -/
theorem enterWaiting_visible (s : St) :
    Sat (enterWaiting env) s
      (fun _ s' => Frame s s' ∧ ∀ x ∈ s.query.watches, x ∈ s'.query.watches)
      (fun _ s' => Frame s s') := by
  have hadds : Sat (enterWaiting env) s
      (fun _ s' => ∀ x ∈ s.query.watches, x ∈ s'.query.watches) OnlyAbort := by
    simp only [enterWaiting, sat_bind, sat_get, sat_ite, sat_pure]
    exact ⟨fun _ => (setTimeout_adds _ s).mono (fun _ _ h => h.1) (fun _ _ he => he),
      fun _ _ hx => hx⟩
  exact ((keeps_enterWaiting s).and hadds).mono (fun _ _ h => h) (fun _ _ he => he.1.1)

/-- RESOLVED sets the delayed timer if it is entered from SETUP. -/
theorem enterResolved_visible (old : QueryState) (s : St) :
    Sat (enterResolved env old) s
      (fun _ s' => Frame s s' ∧
        (old = .setup → (∀ n, env.timerfd n = true) → s'.query.delayed.isSome))
      (fun _ s' => Frame s s') := by
  have hset : Sat (enterResolved env old) s (fun _ s' => old = .setup →
      (∀ n, env.timerfd n = true) → s'.query.delayed.isSome) (fun _ _ => True) := by
    simp only [enterResolved, openEventfd, sat_ite, sat_bind, sat_get, modifyContext, sat_modify,
      sat_throw, sat_pure]
    refine ⟨fun _ => ⟨fun _ => ?_, fun _ => trivial⟩, fun hne he => absurd he hne⟩
    exact (setTimeout_adds .delayed _).mono (fun _ _ h _ => h.2) (fun _ _ _ => trivial)
  exact ((keeps_enterResolved old s).and hset).mono (fun _ _ h => h) (fun _ _ he => he.1.1)

/-- The query has a watch of the running backend. -/
def St.watched (s : St) : Prop := ∃ x ∈ s.query.watches, x.callback = .backend s.query.cursor

theorem callWatchAdd_visible (fd : Nat) (s : St) :
    Sat (callWatchAdd env fd) s (fun _ s' => Frame s s' ∧ s'.watched)
      (fun _ s' => Frame s s') := by
  have hadds : Sat (callWatchAdd env fd) s (fun _ s' => s'.watched) OnlyAbort := by
    simp only [callWatchAdd, sat_bind, sat_get]
    refine sat_watchAdd env _ _ s _ ?_
    have hnew : (s.link (.backend fd) (.backend s.query.cursor)).watched :=
      ⟨⟨s.context.next, .backend fd, .backend s.query.cursor⟩, by simp [St.link], rfl⟩
    split
    · exact hnew
    · exact hnew
  exact ((keeps_callWatchAdd env fd s).and hadds).mono (fun _ _ h => h) (fun _ _ he => he.1.1)

/-- DONE cleans up and moves the cursor to where it restarts, or past the end of the list. -/
theorem leaveDone_visible (s : St) :
    Sat (leaveDone env) s
      (fun found s' => ∃ s₁, Frame s s₁ ∧ s₁.query.cursor < s₁.backends.length ∧
        s' = s₁.moved s₁.afterDone.1 ∧ found = s₁.afterDone.2)
      (fun e s' => e ≠ .fuel ∧ ∃ s₁, Frame s s₁ ∧
        (s' = s₁ ∨ s' = s₁.moved (s₁.query.cursor + 1))) := by
  simp only [leaveDone, sat_bind]
  refine (keeps_cleanupQuery env s).mono (fun _ s₁ hf => ?_)
    (fun _ s₁ he => ⟨he.2, s₁, he.1, Or.inl rfl⟩)
  simp only [sat_get, sat_ite, sat_bind, modifyQuery, sat_modify, sat_pure, sat_throw]
  exact ⟨fun hlt => ⟨s₁, hf, hlt, rfl, rfl⟩,
    fun _ => ⟨by decide, s₁, hf, Or.inr rfl⟩⟩

theorem sat_warn (s : St) (Q : Unit → St → Prop) :
    Sat (if s.query.response.paths ≠ [] then observe (.error "Failed reply has data.")
      else pure ()) s Q E ↔ Q () s.warned := by
  unfold St.warned
  split
  · exact Iff.rfl
  · exact Iff.rfl

/-- FAILED warns, cleans up and moves the cursor by one. -/
theorem leaveFailed_visible (s : St) :
    Sat (leaveFailed env) s
      (fun found s' => ∃ s₁, Frame s.warned s₁ ∧ s₁.query.cursor + 1 ≤ s₁.backends.length ∧
        s' = s₁.moved (s₁.query.cursor + 1) ∧
        found = decide (s₁.query.cursor + 1 < s₁.backends.length))
      (fun e s' => e ≠ .fuel ∧ ∃ s₁, Frame s.warned s₁ ∧
        (s' = s₁ ∨ s' = s₁.moved (s₁.query.cursor + 1))) := by
  simp only [leaveFailed, sat_bind, sat_get]
  rw [sat_warn]
  refine (keeps_cleanupQuery env s.warned).mono (fun _ s₁ hf => ?_)
    (fun _ s₁ he => ⟨he.2, s₁, he.1, Or.inl rfl⟩)
  simp only [nextBackend, currentBackend, modifyQuery, sat_bind, sat_modify, sat_get, sat_ite,
    sat_pure, sat_throw]
  refine ⟨fun hle => ⟨s₁, hf, hle, rfl, ?_⟩, fun _ => ⟨by decide, s₁, hf, Or.inr rfl⟩⟩
  show s₁.backends[s₁.query.cursor + 1]?.isSome = decide (s₁.query.cursor + 1 < s₁.backends.length)
  by_cases hlt : s₁.query.cursor + 1 < s₁.backends.length <;> simp [hlt]

end

/-! ### Statements about the visible part -/

/-- Two things known of each stage. -/
def Stages.and (P W : Stages) : Stages where
  ready k s := P.ready k s ∧ W.ready k s
  run k ph rest s := P.run k ph rest s ∧ W.run k ph rest s
  fin k state s := P.fin k state s ∧ W.fin k state s
  rest k s := P.rest k s ∧ W.rest k s
  bold k rest s := P.bold k rest s ∧ W.bold k rest s

/-- What has to be shown of `W` when `P` is known. -/
structure Extends (env : Env) (P W : Stages) (Stop : St → Prop) : Prop where
  frame_stop : ∀ {s s'}, Frame s s' → Stop s → Stop s'
  run_stop : ∀ {k ph rest s}, W.run k ph rest s → Stop s
  report_stop : ∀ {k ph call rest s}, call.data = false → W.run k ph (call :: rest) s →
    Stop (s.reported call)
  resolve_stop : ∀ {k ph rest s}, W.run k ph (.finished :: rest) s →
    Stop ((s.reported .finished).entered .resolved)
  rest_stop : ∀ {k s}, W.rest k s → Stop s
  setUp : ∀ {k s backend}, P.ready k s → W.ready k s →
    s.backends[s.query.cursor]? = some backend →
    (backend.setup s.query.request.type = true →
      W.run k .setup (env.setup s.query.cursor) (s.setUp backend)) ∧
    (backend.setup s.query.request.type = false → W.fin k .failed (s.setUp backend))
  waiting : ∀ {k s}, P.run k .setup [] s → W.run k .setup [] s → s.query.state = .setup →
    s.query.request.requestTimeout ≠ 0 → ∀ s', Frame (s.entered .waiting) s' →
    (∀ x ∈ s.query.watches, x ∈ s'.query.watches) → W.rest k s'
  impatient : ∀ {k s}, P.run k .setup [] s → W.run k .setup [] s → s.query.state = .setup →
    s.query.request.requestTimeout = 0 → W.fin k .failed s
  finished : ∀ {k ph rest s}, P.run k ph (.finished :: rest) s →
    W.run k ph (.finished :: rest) s → ∀ s', Frame (s.reported .finished).toResolved s' →
    (s.query.state = .setup → (∀ n, env.timerfd n = true) → s'.query.delayed.isSome) →
    W.run k ph rest s'
  failed : ∀ {k ph rest s}, P.run k ph (.failed :: rest) s → W.run k ph (.failed :: rest) s →
    W.run k ph rest (s.reported .failed).toError
  alloc : ∀ {k ph rest s allocated}, P.run k ph (.newPriv allocated :: rest) s →
    W.run k ph (.newPriv allocated :: rest) s → ∀ s', Frame (s.reported (.newPriv allocated)) s' →
    W.run k ph rest (if allocated then s' else s'.toError)
  watchAdd : ∀ {k ph fd rest s}, W.run k ph (.watchAdd fd :: rest) s →
    ∀ s', Frame (s.reported (.watchAdd fd)) s' → s'.watched → W.run k ph rest s'
  watchRemove : ∀ {k ph j doClose rest s}, W.run k ph (.watchRemove j doClose :: rest) s →
    ∀ s', Frame (s.reported (.watchRemove j doClose)) s' → W.run k ph rest s'
  write : ∀ {k ph call rest s}, call.data → W.run k ph (call :: rest) s →
    W.run k ph rest (s.answered env call)
  addPath : ∀ {k ph a rest s}, W.run k ph (.addPath a :: rest) s →
    W.run k ph rest (s.reported (.addPath a)) ∧
      (pathsOf env.services s.query.request a ≠ [] → W.bold k rest (s.reported (.addPath a)))
  store : ∀ {k ph rest s} (path : Path), P.run k ph rest s → P.bold k rest s → W.run k ph rest s →
    W.bold k rest s → W.run k ph rest (s.stored env path) ∧ W.bold k rest (s.stored env path)
  more : ∀ {k ph rest s}, P.run k ph rest s → P.bold k rest s → W.run k ph rest s →
    W.bold k rest s → s.query.state = .waiting → s.query.request.resultTimeout ≠ 0 →
    ∀ s', Frame (s.entered .waitingMore) s' → W.run k ph rest s' ∧ W.bold k rest s'
  zero : ∀ {k ph rest s}, P.run k ph rest s → P.bold k rest s → W.run k ph rest s →
    W.bold k rest s → s.query.state = .waiting → s.query.request.resultTimeout = 0 →
    W.fin k .done (s.entered .waitingMore) ∧ ∀ s' s'', P.rest k s' → W.rest k s' →
      Frame s' s'' → W.run k ph rest s'' ∧ W.bold k rest s''
  done : ∀ {k s}, P.fin k .done s → W.fin k .done s →
    (s.query.state = .done → W.rest k s) ∧
    (s.query.state ≠ .done → Stop (s.entered .done) ∧ ∀ s₁, Frame (s.entered .done) s₁ →
      Stop (s₁.moved (s₁.query.cursor + 1)) ∧
      (s₁.query.cursor < s₁.backends.length →
        if s₁.afterDone.2 then W.ready (k + 1) (s₁.moved s₁.afterDone.1)
        else W.rest k (s₁.moved s₁.afterDone.1).called))
  leave : ∀ {k s}, P.fin k .failed s → W.fin k .failed s →
    (s.query.state = .failed → W.rest k s) ∧
    (s.query.state ≠ .failed → Stop (s.entered .failed).warned ∧
      ∀ s₁, Frame (s.entered .failed).warned s₁ → Stop (s₁.moved (s₁.query.cursor + 1)) ∧
      (s₁.query.cursor + 1 ≤ s₁.backends.length →
        if s₁.query.cursor + 1 < s₁.backends.length then W.ready k (s₁.moved (s₁.query.cursor + 1))
        else W.rest k (s₁.moved (s₁.query.cursor + 1)).called))
  called : ∀ {k s}, P.rest (k + 1) s → W.rest (k + 1) s → W.rest k s.called
  settled : ∀ {k s}, P.run k .setup [] s → W.run k .setup [] s → s.query.state ≠ .setup →
    s.query.state ≠ .error → W.rest k s
  woken : ∀ {k s}, P.run k .dispatch [] s → W.run k .dispatch [] s → s.query.state ≠ .resolved →
    s.query.state ≠ .error → W.rest k s
  succeeded : ∀ {k s}, P.run k .dispatch [] s → W.run k .dispatch [] s →
    s.query.state = .resolved → W.fin k .done s
  broken : ∀ {k ph s}, (P.run k ph [] s ∧ W.run k ph [] s) ∨ (P.rest k s ∧ W.rest k s) →
    s.query.state = .error → W.fin k .failed s

/-- A run stops as it did before, and in a state that satisfies `Stop` unless fuel was short. -/
def StopsIn (E : Fault → St → Prop) (Stop : St → Prop) (e : Fault) (s : St) : Prop :=
  E e s ∧ (e = .fuel ∨ Stop s)

section

variable {env : Env} {E : Fault → St → Prop} {P W : Stages} {Stop : St → Prop}

theorem toError_frame {s s' : St} (h : Frame s s') : Frame s.toError s'.toError := by
  unfold St.toError
  rw [h.state]
  split
  · exact h
  · refine ⟨h.id, rfl, h.cursor, h.callback, h.request, h.response, ?_, h.shape, h.next⟩
    show Obs.enter _ s'.query.cursor s'.query.response :: s'.trace = _
    rw [h.cursor, h.response, h.trace]
    rfl

theorem quiet_cases {call : Call} (h : call.quiet) :
    call.data ∨ (∃ fd, call = .watchAdd fd) ∨ ∃ j doClose, call = .watchRemove j doClose := by
  cases call with
  | watchAdd fd => exact Or.inr (Or.inl ⟨fd, rfl⟩)
  | watchRemove j doClose => exact Or.inr (Or.inr ⟨j, doClose, rfl⟩)
  | _ => first | exact Or.inl rfl | simp [Call.quiet] at h

/-- **What is shown of the visible steps holds at every stage.** -/
theorem Sound.extend (hP : Sound env E P) (h : Extends env P W Stop) :
    Sound env (StopsIn E Stop) (P.and W) where
  fuel s := ⟨hP.fuel s, Or.inl rfl⟩
  setUp k s hs := by
    obtain ⟨hne, backend, hget, hrun, hfin⟩ := hP.setUp k s hs.1
    obtain ⟨hrun', hfin'⟩ := h.setUp hs.1 hs.2 hget
    exact ⟨hne, backend, hget, fun hp => ⟨hrun hp, hrun' hp⟩, fun hp => ⟨hfin hp, hfin' hp⟩⟩
  waiting k s hrun hs ht := by
    have hrest := h.waiting hrun.1 hrun.2 hs ht
    have hstop := h.rest_stop (hrest _ (Frame.refl _) fun _ hx => hx)
    exact ((hP.waiting k s hrun.1 hs ht).and (enterWaiting_visible _)).mono
      (fun _ s' h' => ⟨h'.1, hrest s' h'.2.1 h'.2.2⟩)
      (fun _ _ he => ⟨he.1, Or.inr (h.frame_stop he.2 hstop)⟩)
  impatient k s hrun hs ht := ⟨hP.impatient k s hrun.1 hs ht, h.impatient hrun.1 hrun.2 hs ht⟩
  finished k ph rest s hrun := by
    obtain ⟨hsame, hnew⟩ := hP.finished k ph rest s hrun.1
    have hW := h.finished hrun.1 hrun.2
    refine ⟨fun hs => ⟨hsame hs, hW _ ?_ fun hc => ?_⟩, fun hs => ?_⟩
    · rw [St.toResolved, if_pos (show (s.reported .finished).query.state = .resolved from hs)]
      exact Frame.refl _
    · rw [hs] at hc
      simp at hc
    · rw [St.toResolved, if_neg (show (s.reported .finished).query.state ≠ .resolved from hs)]
        at hW
      exact ((hnew hs).and (enterResolved_visible _ _)).mono
        (fun _ s' h' => ⟨h'.1, hW s' h'.2.1 h'.2.2⟩)
        (fun _ _ he => ⟨he.1, Or.inr (h.frame_stop he.2 (h.resolve_stop hrun.2))⟩)
  failed k ph rest s hrun := ⟨hP.failed k ph rest s hrun.1, h.failed hrun.1 hrun.2⟩
  alloc k ph rest s allocated hrun := by
    have hW := h.alloc hrun.1 hrun.2
    exact ((hP.alloc k ph rest s allocated hrun.1).and (keeps_allocPriv allocated _)).mono
      (fun _ s' h' => ⟨h'.1, hW s' h'.2⟩)
      (fun _ _ he => ⟨he.1, Or.inr (h.frame_stop he.2.1 (h.report_stop rfl hrun.2))⟩)
  quiet k ph rest s call hq hrun := by
    have hsat := hP.quiet k ph rest s call hq hrun.1
    rcases quiet_cases hq with hd | ⟨fd, rfl⟩ | ⟨j, doClose, rfl⟩
    · rw [sat_data _ hd] at hsat ⊢
      exact ⟨hsat, h.write hd hrun.2⟩
    · simp only [runCall, observe, sat_bind, sat_get, sat_modify] at hsat ⊢
      exact (hsat.and (callWatchAdd_visible fd _)).mono
        (fun _ s' h' => ⟨h'.1, h.watchAdd hrun.2 s' h'.2.1 h'.2.2⟩)
        (fun _ _ he => ⟨he.1, Or.inr (h.frame_stop he.2 (h.report_stop rfl hrun.2))⟩)
    · simp only [runCall, observe, sat_bind, sat_get, sat_modify] at hsat ⊢
      exact (hsat.and (keeps_callWatchRemove env j doClose _)).mono
        (fun _ s' h' => ⟨h'.1, h.watchRemove hrun.2 s' h'.2⟩)
        (fun _ _ he => ⟨he.1, Or.inr (h.frame_stop he.2.1 (h.report_stop rfl hrun.2))⟩)
  addPath k ph rest s a hrun := by
    obtain ⟨h₁, h₂⟩ := hP.addPath k ph rest s a hrun.1
    obtain ⟨h₃, h₄⟩ := h.addPath hrun.2
    exact ⟨⟨h₁, h₃⟩, fun hp => ⟨h₂ hp, h₄ hp⟩⟩
  store k ph rest s path hrun hbold := by
    obtain ⟨h₁, h₂⟩ := hP.store k ph rest s path hrun.1 hbold.1
    obtain ⟨h₃, h₄⟩ := h.store path hrun.1 hbold.1 hrun.2 hbold.2
    exact ⟨⟨h₁, h₃⟩, h₂, h₄⟩
  more k ph rest s hrun hbold hw hz := by
    have hW := h.more hrun.1 hbold.1 hrun.2 hbold.2 hw hz
    have hstop := h.run_stop (hW _ (Frame.refl _)).1
    refine ((hP.more k ph rest s hrun.1 hbold.1 hw hz).and (keeps_armResultTimeout _)).mono
      (fun _ s' h' => ?_) (fun _ _ he => ⟨he.1, Or.inr (h.frame_stop he.2.1 hstop)⟩)
    obtain ⟨h₁, h₂⟩ := hW s' h'.2
    exact ⟨⟨h'.1.1, h₁⟩, h'.1.2, h₂⟩
  zero k ph rest s hrun hbold hw hz := by
    obtain ⟨h₁, h₂⟩ := hP.zero k ph rest s hrun.1 hbold.1 hw hz
    obtain ⟨h₃, h₄⟩ := h.zero hrun.1 hbold.1 hrun.2 hbold.2 hw hz
    refine ⟨⟨h₁, h₃⟩, fun s' hrest => ?_⟩
    refine ((h₂ s' hrest.1).and (keeps_armResultTimeout s')).mono (fun _ s'' h' => ?_)
      (fun _ _ he => ⟨he.1, Or.inr (h.frame_stop he.2.1 (h.rest_stop hrest.2))⟩)
    obtain ⟨h₅, h₆⟩ := h₄ s' s'' hrest.1 hrest.2 h'.2
    exact ⟨⟨h'.1.1, h₅⟩, h'.1.2, h₆⟩
  done k s hfin := by
    obtain ⟨hsame, hnew⟩ := hP.done k s hfin.1
    obtain ⟨hsame', hnew'⟩ := h.done hfin.1 hfin.2
    refine ⟨fun hs => ⟨hsame hs, hsame' hs⟩, fun hs => ?_⟩
    obtain ⟨hstop, hstep⟩ := hnew' hs
    refine ((hnew hs).and (leaveDone_visible _)).mono (fun found s' h' => ?_) (fun e s' he => ?_)
    · obtain ⟨hPs, s₁, hf, hlt, rfl, rfl⟩ := h'
      have hWs := (hstep s₁ hf).2 hlt
      cases hnext : s₁.afterDone.2 with
      | true => rw [hnext] at hPs hWs; exact ⟨hPs, hWs⟩
      | false => rw [hnext] at hPs hWs; exact ⟨hPs, hWs⟩
    · obtain ⟨hE, -, s₁, hf, rfl | rfl⟩ := he
      · exact ⟨hE, Or.inr (h.frame_stop hf hstop)⟩
      · exact ⟨hE, Or.inr (hstep s₁ hf).1⟩
  leave k s hfin := by
    obtain ⟨hsame, hnew⟩ := hP.leave k s hfin.1
    obtain ⟨hsame', hnew'⟩ := h.leave hfin.1 hfin.2
    refine ⟨fun hs => ⟨hsame hs, hsame' hs⟩, fun hs => ?_⟩
    obtain ⟨hstop, hstep⟩ := hnew' hs
    refine ((hnew hs).and (leaveFailed_visible _)).mono (fun found s' h' => ?_) (fun e s' he => ?_)
    · obtain ⟨hPs, s₁, hf, hle, rfl, rfl⟩ := h'
      have hWs := (hstep s₁ hf).2 hle
      by_cases hlt : s₁.query.cursor + 1 < s₁.backends.length
      · rw [if_pos hlt] at hWs
        simp only [decide_eq_true hlt, if_true] at hPs ⊢
        exact ⟨hPs, hWs⟩
      · rw [if_neg hlt] at hWs
        simp only [decide_eq_false hlt, Bool.false_eq_true, if_false] at hPs ⊢
        exact ⟨hPs, hWs⟩
    · obtain ⟨hE, -, s₁, hf, rfl | rfl⟩ := he
      · exact ⟨hE, Or.inr (h.frame_stop hf hstop)⟩
      · exact ⟨hE, Or.inr (hstep s₁ hf).1⟩
  called k s hrest := ⟨hP.called k s hrest.1, h.called hrest.1 hrest.2⟩
  settled k s hrun hs he := ⟨hP.settled k s hrun.1 hs he, h.settled hrun.1 hrun.2 hs he⟩
  woken k s hrun hs he := ⟨hP.woken k s hrun.1 hs he, h.woken hrun.1 hrun.2 hs he⟩
  succeeded k s hrun hs := ⟨hP.succeeded k s hrun.1 hs, h.succeeded hrun.1 hrun.2 hs⟩
  broken k ph s hor hs := ⟨hP.broken k ph s (hor.imp And.left And.left) hs, h.broken hor hs⟩

/-- What an event starts from, as far as the visible part is concerned. -/
def Starts (env : Env) (P W : Stages) (s : St) : WatchCallback → Prop
  | .backend i => W.run 0 .dispatch (env.dispatch i) s
  | .timeout t => (t.due s.query.state → ∀ s', Frame s s' → W.fin 0 t.next s') ∧
      ∀ s', P.rest 0 s' → W.rest 0 s' → s'.query.state = .resolved → W.fin 0 .done s'

theorem Wakes.extend {s : St} {callback : WatchCallback} (hP : Wakes env E P s callback)
    (hW : Starts env P W s callback) (h : Extends env P W Stop) (hstop : Stop s) :
    Wakes env (StopsIn E Stop) (P.and W) s callback := by
  cases callback with
  | backend i => exact ⟨hP, hW⟩
  | timeout t =>
      refine ⟨(hP.1.and (expire_visible t s)).mono (fun _ s' h' => ⟨h'.1, hW.1 h'.2.2 s' h'.2.1⟩)
        (fun _ _ he => ⟨he.1, Or.inr (h.frame_stop he.2 hstop)⟩), fun s' hrest hr => ?_⟩
      exact ⟨hP.2 s' hrest.1 hr, hW.2 s' hrest.1 hrest.2 hr⟩

end

end Netresolve
