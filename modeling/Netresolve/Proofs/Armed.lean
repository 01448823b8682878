/-
A query that waits has a timer to wait for.

Entering WAITING sets the request timer and entering RESOLVED from SETUP the delayed one, and
neither is taken away before the backend is left.  So between two events a query that has not
ended has a timer that will end its present backend, and an event that does not end the backend
leaves this timer as it is.  `armed` follows both through an event, whatever the backend does
otherwise.  The second is about where the event started from, which is `from`: the cursor and the
request timer at that point.
-/
import Netresolve.Core.Blocking
import Netresolve.Proofs.Counters
import Netresolve.Proofs.Response

namespace Netresolve

open Outcome

/-! ### What leaves the timers alone -/

def SameTimers (s s' : St) : Prop := ∀ t, s'.query.timeout t = s.query.timeout t

instance : IsPreorder St SameTimers where
  refl _ _ := rfl
  trans _ _ _ h h' t := (h' t).trans (h t)

/-- Running `x` leaves the timers alone. -/
abbrev Calm {α : Type} (x : M α) : Prop := Stays SameTimers (fun _ => True) x

section

variable {env : Env}

theorem calm_modifyContext (f : Context → Context) : Calm (modifyContext f) :=
  .modify fun _ t => by cases t <;> rfl

theorem calm_modifyBackend (f : Backend → Backend) : Calm (modifyBackend f) :=
  .modify fun _ t => by cases t <;> rfl

theorem calm_watchAdd (fd : Fd) (callback : WatchCallback) : Calm (watchAdd env fd callback) := by
  unfold watchAdd epollAddWatch
  refine .bind .get fun _ => .bind (calm_modifyContext _) fun _ => .bind ?_ fun _ => ?_
  · exact .ite (calm_modifyContext _) (.throw trivial)
  · exact .bind (.modify fun _ t => by cases t <;> rfl) fun _ =>
      .bind (calm_modifyContext _) fun _ => .pure _

theorem calm_watchRemove (w : Nat) (doClose : Bool) : Calm (watchRemove env w doClose) := by
  unfold watchRemove epollRemoveWatch
  refine .bind .get fun _ => .ite (.throw trivial) ?_
  split
  · exact .throw trivial
  · refine .bind (.modify fun _ t => by cases t <;> rfl) fun _ =>
      .bind (calm_modifyContext _) fun _ => .bind ?_ fun _ => ?_
    · exact .ite (calm_modifyContext _) (.throw trivial)
    · exact .ite (calm_modifyContext _) (.pure _)

theorem calm_callWatchAdd (fd : Nat) : Calm (callWatchAdd env fd) := by
  unfold callWatchAdd
  refine .bind .get fun _ => .bind (calm_watchAdd _ _) fun _ => .bind .get fun _ => ?_
  split
  · exact .pure _
  · exact calm_modifyBackend _

theorem calm_callWatchRemove (k : Nat) (doClose : Bool) :
    Calm (callWatchRemove env k doClose) := by
  unfold callWatchRemove
  refine .bind .get fun _ => ?_
  split
  · exact .pure _
  · split
    · exact .pure _
    · exact .bind (calm_watchRemove _ _) fun _ => calm_modifyBackend _

theorem calm_allocPriv (allocated : Bool) : Calm (allocPriv allocated) := by
  unfold allocPriv
  refine .bind (.bind .get fun _ => .ite (.pure _) (.throw trivial)) fun _ => ?_
  split
  · exact .throw trivial
  · refine .ite (.throw trivial) (.bind .get fun _ => .ite ?_ (calm_modifyBackend _))
    exact .bind (calm_modifyContext _) fun _ => .bind (calm_modifyBackend _) fun _ =>
      .modify fun _ t => by cases t <;> rfl

/-- Setting one timer leaves the others alone. -/
theorem setTimeout_others (t : Timer) (s : St) :
    Sat (setTimeout env t) s (fun _ s' => ∀ t', t' ≠ t → s'.query.timeout t' = s.query.timeout t')
      (fun _ _ => True) := by
  have hadd : Calm (timeoutAdd env t) :=
    .bind .get fun _ => .ite (.bind (calm_modifyContext _) fun _ =>
      .bind (calm_watchAdd _ _) fun _ => .pure _) (.pure _)
  simp only [setTimeout, sat_bind, modifyQuery, sat_modify]
  refine (hadd s).mono (fun w s' hs t' hne => ?_) (fun _ _ _ => trivial)
  show (s'.query.setTimeout t w).timeout t' = _
  rw [timeout_setTimeout_ne _ _ hne]
  exact hs t'

end

/-! ### The stages -/

/-- The cursor and the request timer an event starts with; the start of a query has none. -/
abbrev Departure := Option (Nat × Option Nat)

/-- The cursor is where the event started, with the same request timer, or behind it. -/
def Departure.Onward (from? : Departure) (q : Query) : Prop :=
  ∀ p ∈ from?, p.1 ≤ q.cursor ∧ (q.cursor = p.1 → q.requestTimeout = p.2)

/-- The cursor is behind where the event started. -/
def Departure.Past (from? : Departure) (q : Query) : Prop := ∀ p ∈ from?, p.1 < q.cursor

theorem Departure.Past.onward {from? : Departure} {q : Query} (h : from?.Past q) :
    from?.Onward q := fun p hp => by
  have hlt := h p hp
  exact ⟨Nat.le_of_lt hlt, fun he => absurd he (Nat.ne_of_gt hlt)⟩

/-- The last entry of the trace is a call of the application, if it wants one. -/
def St.answeredLast (s : St) : Prop :=
  s.query.callback = true → ∃ i response tr, s.trace = .callback s.query.state i response :: tr

/-- A query between two events. -/
structure Rested (from? : Departure) (s : St) : Prop where
  timed : s.toLocal.Timed
  onward : from?.Onward s.query
  waiting : s.query.state = .waiting ∨ s.query.state = .waitingMore →
    s.query.requestTimeout.isSome
  resolved : s.query.state = .resolved → s.query.delayed.isSome ∧ from?.Past s.query
  ended : s.query.state = .done ∨ s.query.state = .failed → s.answeredLast ∧ from?.Past s.query

/-- A backend is running, and the calls are still to come. -/
structure Busy (from? : Departure) (ph : Phase) (rest : List Call) (s : St) : Prop where
  timed : s.toLocal.Timed
  state : ph.has s.query.state
  onward : from?.Onward s.query
  waiting : s.query.state = .waiting ∨ s.query.state = .waitingMore →
    s.query.requestTimeout.isSome
  setup : ph = .setup → from?.Past s.query ∧ decided rest = true ∧
    (s.query.state = .resolved → s.query.delayed.isSome) ∧
    (s.query.state = .error → .finished ∉ rest)

/-- The stages of an event that started from `from?`. -/
def armed (from? : Departure) : Stages where
  ready _ s := s.toLocal.Timed ∧ from?.Past s.query ∧ s.query.cursor < s.backends.length ∧
    s.query.state ≠ .setup
  run _ ph rest s := Busy from? ph rest s
  fin _ _ s := s.toLocal.Timed ∧ (∀ p ∈ from?, p.1 ≤ s.query.cursor) ∧
    s.query.state ≠ .done ∧ s.query.state ≠ .failed
  rest _ s := Rested from? s
  bold _ _ _ := True

/-! ### What the steps keep -/

section

variable {from? : Departure} {env : Env} {ph : Phase} {rest : List Call} {call : Call} {s s' : St}

theorem Local.Timed.same {l l' : Local} (h : l.Timed)
    (hr : l'.query.request.requestTimeout = l.query.request.requestTimeout)
    (hs : l'.query.request.resultTimeout = l.query.request.resultTimeout) : l'.Timed :=
  ⟨by rw [hr]; exact h.request, by rw [hs]; exact h.result⟩

theorem Frame.timed (hf : Frame s s') (h : s.toLocal.Timed) : s'.toLocal.Timed :=
  h.same (by rw [hf.request]) (by rw [hf.request])

theorem Departure.Past.frame (h : from?.Past s.query) (hf : Frame s s') :
    from?.Past s'.query := fun p hp => by rw [hf.cursor]; exact h p hp

theorem Departure.Onward.frame (h : from?.Onward s.query) (hf : Frame s s')
    (ht : s'.query.requestTimeout = s.query.requestTimeout) : from?.Onward s'.query :=
  fun p hp => by rw [hf.cursor, ht]; exact h p hp

/-- A step that changes neither the state nor a timer. -/
theorem Busy.move (h : Busy from? ph rest s) (hf : Frame s s') (ht : SameTimers s s') :
    Busy from? ph rest s' := by
  have hreq : s'.query.requestTimeout = s.query.requestTimeout := ht .requestTimeout
  have hdel : s'.query.delayed = s.query.delayed := ht .delayed
  refine ⟨hf.timed h.timed, by rw [hf.state]; exact h.state, h.onward.frame hf hreq, ?_, ?_⟩
  · rw [hf.state, hreq]; exact h.waiting
  · intro hph
    obtain ⟨hpast, hdec, hres, herr⟩ := h.setup hph
    refine ⟨hpast.frame hf, hdec, ?_, ?_⟩
    · rw [hf.state, hdel]; exact hres
    · rw [hf.state]; exact herr

theorem decided_tail (hd : decided (call :: rest) = true) : decided rest = true := by
  cases call with
  | failed => simp only [decided, Bool.and_eq_true] at hd; exact hd.2
  | newPriv allocated =>
      cases allocated with
      | true => exact hd
      | false => simp only [decided, Bool.and_eq_true] at hd; exact hd.2
  | _ => exact hd

theorem Busy.report (h : Busy from? ph (call :: rest) s) : Busy from? ph rest (s.reported call) :=
  ⟨h.timed.same rfl rfl, h.state, h.onward, h.waiting, fun hph => by
    obtain ⟨hpast, hdec, hres, herr⟩ := h.setup hph
    exact ⟨hpast, decided_tail hdec, hres, fun he hmem => herr he (List.mem_cons_of_mem _ hmem)⟩⟩

/-- A call that makes the query enter ERROR, behind which no success is reported. -/
theorem Busy.toError (h : Busy from? ph rest s)
    (hd : ph = .setup → .finished ∉ rest) : Busy from? ph rest s.toError := by
  unfold St.toError
  split
  · exact h
  · refine ⟨h.timed.same rfl rfl, ?_, h.onward, by simp [St.entered], fun hph => ?_⟩
    · cases ph <;> rfl
    · obtain ⟨hpast, hdec, -, -⟩ := h.setup hph
      exact ⟨hpast, hdec, by simp [St.entered], fun _ => hd hph⟩

theorem decided_failed (hd : decided (.failed :: rest) = true) : .finished ∉ rest := by
  simp only [decided, Bool.and_eq_true, Bool.not_eq_true'] at hd
  simpa using hd.1

theorem decided_unallocated (hd : decided (.newPriv false :: rest) = true) :
    .finished ∉ rest := by
  simp only [decided, Bool.and_eq_true, Bool.not_eq_true'] at hd
  simpa using hd.1

end

/-! ### The stages are sound -/

section

variable {from? : Departure} {env : Env}

theorem armed_finished (henv : env.Timely) {k : Nat} {ph : Phase} {rest : List Call} {s : St}
    (h : Busy from? ph (.finished :: rest) s) (hs : s.query.state ≠ .resolved) :
    Sat (enterResolved env s.query.state) ((s.reported .finished).entered .resolved)
      (fun _ => (armed from?).run k ph rest) (fun _ _ => True) := by
  have hstate : ph.has .resolved := by cases ph <;> rfl
  cases ph with
  | setup =>
      obtain ⟨hpast, hdec, -, herr⟩ := h.setup rfl
      have hsetup : s.query.state = .setup := by
        have := h.state
        cases hq : s.query.state <;> rw [hq] at this hs herr <;> simp_all [Phase.has]
      refine (enterResolved_visible s.query.state _).mono (fun _ s' h' => ?_) (fun _ _ _ => trivial)
      obtain ⟨hf, hdelayed⟩ := h'
      have hpast' : from?.Past s'.query := fun p hp => by
        have := hpast p hp
        rw [hf.cursor]; exact this
      have hres : s'.query.state = .resolved := hf.state
      refine ⟨hf.timed (h.timed.same rfl rfl), by rw [hres]; exact hstate, hpast'.onward,
        by rw [hres]; simp, fun _ => ⟨hpast', decided_tail hdec, fun _ => ?_, by rw [hres]; simp⟩⟩
      exact hdelayed hsetup henv.timerfd
  | dispatch =>
      have hne : s.query.state ≠ .setup := by
        intro hq
        have := h.state
        rw [hq] at this
        simp [Phase.has] at this
      simp only [enterResolved, hne, if_false, sat_pure]
      exact ⟨h.timed.same rfl rfl, hstate, h.onward, by simp [St.entered], by simp⟩

theorem called_answeredLast (s : St) : s.called.answeredLast := by
  intro hcb
  rw [called_query] at hcb ⊢
  refine ⟨s.query.cursor, s.query.response, s.trace, ?_⟩
  unfold St.called
  rw [if_pos hcb]

/-- The query has ended, and the application is called. -/
theorem Rested.of_over {s : St} (htimed : s.toLocal.Timed) (hpast : from?.Past s.query)
    (hs : s.query.state = .done ∨ s.query.state = .failed) : Rested from? s.called := by
  have hlast := called_answeredLast s
  refine ⟨htimed.same (by rw [called_query]) (by rw [called_query]), ?_, ?_, ?_,
    fun _ => ⟨hlast, ?_⟩⟩
  all_goals rw [called_query]
  · exact hpast.onward
  · rcases hs with hs | hs <;> rw [hs] <;> simp
  · rcases hs with hs | hs <;> rw [hs] <;> simp
  · exact hpast

theorem armResultTimeout_others (s : St) :
    Sat (armResultTimeout env) s (fun _ s' => s'.query.requestTimeout = s.query.requestTimeout)
      (fun _ _ => True) := by
  simp only [armResultTimeout, sat_bind, sat_get, sat_ite, sat_pure]
  exact ⟨fun _ => (setTimeout_others .resultTimeout s).mono
    (fun _ _ h => h .requestTimeout (by decide)) (fun _ _ h => h), fun _ => trivial⟩

/-- **A query is armed at each stage**, if timers can be had and no success is reported behind
a failure. -/
theorem armed_sound (henv : env.Timely) : Sound env (fun _ _ => True) (armed from?) where
  fuel _ := trivial
  setUp k s h := by
    obtain ⟨htimed, hpast, hlt, hne⟩ := h
    refine ⟨hne, s.backends[s.query.cursor], List.getElem?_eq_getElem hlt, fun _ => ?_, fun _ => ?_⟩
    · exact ⟨htimed.same rfl rfl, rfl, hpast.onward, by simp [St.setUp, St.entered], fun _ =>
        ⟨hpast, henv.decided _, by simp [St.setUp, St.entered], by simp [St.setUp, St.entered]⟩⟩
    · exact ⟨htimed.same rfl rfl, fun p hp => Nat.le_of_lt (hpast p hp),
        by simp [St.setUp, St.entered], by simp [St.setUp, St.entered]⟩
  waiting k s h _ _ := by
    obtain ⟨hpast, -, -, -⟩ := h.setup rfl
    simp only [enterWaiting, sat_bind, sat_get, sat_ite]
    refine ⟨fun _ => ?_, fun hno => absurd h.timed.request hno⟩
    refine ((keeps_setTimeout env .requestTimeout _).and (setTimeout_adds .requestTimeout _)).mono
      (fun _ s' h' => ?_) (fun _ _ _ => trivial)
    obtain ⟨hf, -, hset⟩ := h'
    have hs' : s'.query.state = .waiting := hf.state
    have hpast' : from?.Past s'.query := Departure.Past.frame (s := s.entered .waiting) hpast hf
    exact ⟨hf.timed (h.timed.same rfl rfl), hpast'.onward, fun _ => hset henv.timerfd,
      by rw [hs']; simp, by rw [hs']; simp⟩
  impatient k s h _ ht := absurd ht (Int.ne_of_gt h.timed.request)
  finished k ph rest s h := ⟨fun _ => h.report, armed_finished henv h⟩
  failed k ph rest s h := h.report.toError fun hph => decided_failed (h.setup hph).2.1
  alloc k ph rest s allocated h := by
    refine ((keeps_allocPriv allocated _).and (calm_allocPriv allocated _)).mono
      (fun _ s' h' => ?_) (fun _ _ _ => trivial)
    have hbusy : Busy from? ph rest s' := h.report.move h'.1 h'.2
    cases allocated with
    | true => exact hbusy
    | false => exact hbusy.toError fun hph => decided_unallocated (h.setup hph).2.1
  quiet k ph rest s call hq h := by
    have hr := h.report
    rcases quiet_cases hq with hd | ⟨fd, rfl⟩ | ⟨j, doClose, rfl⟩
    · rw [sat_data _ hd]
      exact ⟨hr.timed.same rfl rfl, hr.state, hr.onward, hr.waiting, hr.setup⟩
    · simp only [runCall, observe, sat_bind, sat_get, sat_modify]
      exact ((keeps_callWatchAdd env fd _).and (calm_callWatchAdd fd _)).mono
        (fun _ s' h' => hr.move h'.1 h'.2) (fun _ _ _ => trivial)
    · simp only [runCall, observe, sat_bind, sat_get, sat_modify]
      exact ((keeps_callWatchRemove env j doClose _).and (calm_callWatchRemove j doClose _)).mono
        (fun _ s' h' => hr.move h'.1 h'.2) (fun _ _ _ => trivial)
  addPath k ph rest s a h := ⟨h.report, fun _ => trivial⟩
  store k ph rest s path h _ :=
    ⟨⟨h.timed.same rfl rfl, h.state, h.onward, h.waiting, h.setup⟩, trivial⟩
  more k ph rest s h _ hw _ := by
    refine ((keeps_armResultTimeout _).and (armResultTimeout_others _)).mono
      (fun _ s' h' => ⟨?_, trivial⟩) (fun _ _ _ => trivial)
    obtain ⟨hf, hreq⟩ := h'
    have hs' : s'.query.state = .waitingMore := hf.state
    have hph : ph = .dispatch := has_of_waiting (by rw [← hw]; exact h.state)
    subst hph
    refine ⟨hf.timed (h.timed.same rfl rfl), by rw [hs']; rfl, ?_, fun _ => ?_, by simp⟩
    · exact Departure.Onward.frame (s := s.entered .waitingMore) h.onward hf hreq
    · rw [hreq]
      exact h.waiting (Or.inl hw)
  zero k ph rest s h _ _ hz := absurd hz h.timed.result
  done k s h := by
    obtain ⟨htimed, hle, hne, -⟩ := h
    refine ⟨fun hd => absurd hd hne, fun _ => ?_⟩
    refine (leaveDone_visible _).mono (fun found s' h' => ?_) (fun _ _ _ => trivial)
    obtain ⟨s₁, hf, -, rfl, rfl⟩ := h'
    have htimed₁ := hf.timed (htimed.same rfl rfl)
    have hcur : s₁.query.cursor = s.query.cursor := hf.cursor
    have hmoved : s.query.cursor < s₁.afterDone.1 := by
      have := (nextMandatory_spec (s₁.backends.drop (s₁.query.cursor + 1)) (s₁.query.cursor + 1)).1
      unfold St.afterDone
      omega
    have hpast : from?.Past (s₁.moved s₁.afterDone.1).query :=
      fun p hp => Nat.lt_of_le_of_lt (hle p hp) hmoved
    have hstate : (s₁.moved s₁.afterDone.1).query.state = .done := hf.state
    cases hnext : s₁.afterDone.2 with
    | true =>
        exact ⟨htimed₁.same rfl rfl, hpast, (afterDone_found hnext).2.1, by rw [hstate]; decide⟩
    | false => exact .of_over (htimed₁.same rfl rfl) hpast (Or.inl hstate)
  leave k s h := by
    obtain ⟨htimed, hle, -, hne⟩ := h
    refine ⟨fun hd => absurd hd hne, fun _ => ?_⟩
    refine (leaveFailed_visible _).mono (fun found s' h' => ?_) (fun _ _ _ => trivial)
    obtain ⟨s₁, hf, -, rfl, rfl⟩ := h'
    have hquery : (s.entered .failed).warned.query = (s.entered .failed).query := by
      rcases warned_cases (s.entered .failed) with hw | hw <;> rw [hw]
    have htimed₁ := hf.timed (htimed.same (by rw [hquery]; rfl) (by rw [hquery]; rfl))
    have hcur : s₁.query.cursor = s.query.cursor := by rw [hf.cursor, hquery]; rfl
    have hpast : from?.Past (s₁.moved (s₁.query.cursor + 1)).query := fun p hp => by
      have := hle p hp
      show p.1 < s₁.query.cursor + 1
      omega
    have hstate : (s₁.moved (s₁.query.cursor + 1)).query.state = .failed := by
      show s₁.query.state = .failed
      rw [hf.state, hquery]
      rfl
    by_cases hlt : s₁.query.cursor + 1 < s₁.backends.length
    · rw [decide_eq_true hlt]
      exact ⟨htimed₁.same rfl rfl, hpast, hlt, by rw [hstate]; decide⟩
    · rw [decide_eq_false hlt]
      exact .of_over (htimed₁.same rfl rfl) hpast (Or.inr hstate)
  called k s h := by
    refine ⟨h.timed.same (by rw [called_query]) (by rw [called_query]), ?_, ?_, ?_, ?_⟩
    · rw [called_query]; exact h.onward
    · rw [called_query]; exact h.waiting
    · rw [called_query]; exact h.resolved
    · rw [called_query]
      exact fun hs => ⟨called_answeredLast s, (h.ended hs).2⟩
  settled k s h hs he := by
    obtain ⟨hpast, -, hres, -⟩ := h.setup rfl
    have hstate : s.query.state = .resolved := by
      have := h.state
      cases hq : s.query.state <;> rw [hq] at this hs he <;> simp [Phase.has] at this hs he ⊢
    exact ⟨h.timed, h.onward, h.waiting, fun hr => ⟨hres hr, hpast⟩, by rw [hstate]; simp⟩
  woken k s h hs he := by
    have hstate : s.query.state = .waiting ∨ s.query.state = .waitingMore := by
      have := h.state
      cases hq : s.query.state <;> rw [hq] at this hs he <;> simp [Phase.has] at this hs he ⊢
    exact ⟨h.timed, h.onward, h.waiting, fun hr => absurd hr hs,
      by rcases hstate with hq | hq <;> rw [hq] <;> simp⟩
  succeeded k s h hs :=
    ⟨h.timed, fun p hp => (h.onward p hp).1, by rw [hs]; decide, by rw [hs]; decide⟩
  broken k ph s h hs := by
    have hne : s.query.state ≠ .done ∧ s.query.state ≠ .failed := by rw [hs]; decide
    rcases h with h | h
    · exact ⟨h.timed, fun p hp => (h.onward p hp).1, hne⟩
    · exact ⟨h.timed, fun p hp => (h.onward p hp).1, hne⟩

end

end Netresolve
