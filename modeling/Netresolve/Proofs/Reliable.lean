/-
What cannot happen while no system call fails.

The library calls `abort()` where `epoll_ctl` or `eventfd` fails and nowhere else, once
the query has been created.  So an event never ends there if the system does its part.
-/
import Netresolve.Proofs.Visible

namespace Netresolve

open Outcome

instance : IsPreorder St fun _ _ => True where
  refl _ := trivial
  trans _ _ _ _ _ := trivial

/-- Running `x` never ends in `abort()`. -/
abbrev Safe {α : Type} (x : M α) : Prop := Stays (fun _ _ => True) (· ≠ .abort) x

theorem safe_modify (f : St → St) : Safe (modify f) := .modify fun _ => trivial

section

variable {env : Env} (h : env.Reliable)

include h

/-! ### Watches and timers -/

theorem safe_watchAdd (fd : Fd) (callback : WatchCallback) : Safe (watchAdd env fd callback) := by
  unfold watchAdd epollAddWatch
  simp only [h.epollAdd, if_true]
  exact .bind .get fun _ => .bind (safe_modify _) fun _ => .bind (safe_modify _) fun _ =>
    .bind (safe_modify _) fun _ => .bind (safe_modify _) fun _ => .pure _

theorem safe_watchRemove (w : Nat) (doClose : Bool) : Safe (watchRemove env w doClose) := by
  unfold watchRemove epollRemoveWatch
  simp only [h.epollDel, if_true]
  refine .bind .get fun _ => .ite (.throw (by decide)) ?_
  split
  · exact .throw (by decide)
  · exact .bind (safe_modify _) fun _ => .bind (safe_modify _) fun _ => .bind (safe_modify _)
      fun _ => .ite (safe_modify _) (.pure _)

theorem safe_setTimeout (t : Timer) : Safe (setTimeout env t) := by
  unfold setTimeout timeoutAdd
  refine .bind (.bind .get fun _ => .ite ?_ (.pure _)) fun _ => safe_modify _
  exact .bind (safe_modify _) fun _ => .bind (safe_watchAdd h _ _) fun _ => .pure _

theorem safe_clearTimeout (t : Timer) : Safe (clearTimeout env t) := by
  unfold clearTimeout
  refine .bind .get fun _ => ?_
  split
  · exact .pure _
  · exact .bind (safe_watchRemove h _ _) fun _ => safe_modify _

/-! ### Backends -/

omit h in
theorem safe_currentBackend : Safe currentBackend :=
  .bind .get fun _ => .ite (.pure _) (.throw (by decide))

omit h in
theorem safe_allocPriv (allocated : Bool) : Safe (allocPriv allocated) := by
  unfold allocPriv
  refine .bind safe_currentBackend fun _ => ?_
  split
  · exact .throw (by decide)
  · refine .ite (.throw (by decide)) (.bind .get fun _ => .ite ?_ (safe_modify _))
    exact .bind (safe_modify _) fun _ => .bind (safe_modify _) fun _ => safe_modify _

theorem safe_callWatchAdd (fd : Nat) : Safe (callWatchAdd env fd) := by
  unfold callWatchAdd
  refine .bind .get fun _ => .bind (safe_watchAdd h _ _) fun _ => .bind .get fun _ => ?_
  split
  · exact .pure _
  · exact safe_modify _

theorem safe_callWatchRemove (k : Nat) (doClose : Bool) : Safe (callWatchRemove env k doClose) := by
  unfold callWatchRemove
  refine .bind .get fun _ => ?_
  split
  · exact .pure _
  · split
    · exact .pure _
    · exact .bind (safe_watchRemove h _ _) fun _ => safe_modify _

theorem safe_cleanupQuery : Safe (cleanupQuery env) := by
  unfold cleanupQuery backendCleanup
  refine .bind safe_currentBackend fun _ => .bind (safe_clearTimeout h _) fun _ =>
    .bind (safe_clearTimeout h _) fun _ => .bind (safe_clearTimeout h _) fun _ => ?_
  split
  · exact .pure _
  · refine .bind (.ite (.bind .get fun _ => .bind (safe_modify _) fun _ => ?_) (.pure _)) fun _ =>
      .bind (safe_modify _) fun _ => safe_modify _
    split
    · exact .pure _
    · exact .ite (.forM (fun w => safe_watchRemove h w false) _) (.throw (by decide))

/-! ### State changes -/

variable {f : QueryState → M Unit}

theorem safe_runCall (hf : ∀ state, Safe (f state)) (call : Call) : Safe (runCall env f call) := by
  unfold runCall
  refine .bind .get fun _ => .bind (safe_modify _) fun _ => ?_
  cases call with
  | addPath a =>
      refine .bind .get fun _ => .forM (fun path => ?_) _
      refine .bind (.bind .get fun _ => .bind (safe_modify _) fun _ => safe_modify _) fun _ => ?_
      exact .bind .get fun _ => .ite (hf _) (.pure _)
  | newPriv allocated => exact .bind (safe_allocPriv allocated) fun _ => .ite (.pure _) (hf _)
  | watchAdd fd => exact safe_callWatchAdd h fd
  | watchRemove k doClose => exact safe_callWatchRemove h k doClose
  | finished => exact hf _
  | failed => exact hf _
  | _ => exact safe_modify _

theorem safe_runCalls (hf : ∀ state, Safe (f state)) (calls : List Call) :
    Safe (runCalls env f calls) :=
  .forM (safe_runCall h hf) calls

omit h in
theorem safe_whenState {state : QueryState} {x : M Unit} (hx : Safe x) :
    Safe (whenState state x) :=
  .bind .get fun _ => .ite hx (.pure _)

omit h in
theorem safe_invokeCallback : Safe invokeCallback :=
  .bind .get fun _ => .ite (safe_modify _) (.pure _)

theorem safe_enterSetup (hf : ∀ state, Safe (f state)) : Safe (enterSetup env f) := by
  unfold enterSetup
  refine .bind safe_currentBackend fun _ => ?_
  split
  · exact .throw (by decide)
  · refine .bind (safe_modify _) fun _ => .bind .get fun _ => .bind (safe_modify _) fun _ => ?_
    refine .ite (.bind (safe_runCalls h hf _) fun _ => .bind (safe_whenState ?_) fun _ =>
      safe_whenState (hf _)) (hf _)
    exact .bind .get fun _ => hf _

theorem safe_leaveDone : Safe (leaveDone env) :=
  .bind (safe_cleanupQuery h) fun _ => .bind .get fun _ =>
    .ite (.bind (safe_modify _) fun _ => .pure _) (.bind (safe_modify _) fun _ => .throw (by decide))

theorem safe_leaveFailed : Safe (leaveFailed env) :=
  .bind .get fun _ => .bind (.ite (safe_modify _) (.pure _)) fun _ =>
    .bind (safe_cleanupQuery h) fun _ =>
      .bind (.bind (safe_modify _) fun _ => safe_currentBackend) fun _ => .pure _

theorem safe_enterState (hf : ∀ state, Safe (f state)) (old state : QueryState) :
    Safe (enterState env f old state) := by
  cases state with
  | none => exact safe_modify _
  | setup => exact safe_enterSetup h hf
  | waiting => exact .bind .get fun _ => .ite (safe_setTimeout h _) (.pure _)
  | waitingMore =>
      refine .bind .get fun _ => .bind (.ite (hf _) (.pure _)) fun _ => .bind .get fun _ => ?_
      exact .ite (safe_setTimeout h _) (.pure _)
  | resolved =>
      show Safe (enterResolved env old)
      unfold enterResolved openEventfd
      simp only [h.eventfd, if_true]
      exact .ite (.bind (.bind .get fun _ => safe_modify _) fun _ => safe_setTimeout h _) (.pure _)
  | done =>
      exact .bind (safe_leaveDone h) fun _ => .bind (.ite (hf _) (.pure _)) fun _ =>
        safe_invokeCallback
  | error => exact .pure _
  | failed => exact .bind (safe_leaveFailed h) fun _ => .ite (hf _) safe_invokeCallback

theorem safe_setState (fuel : Nat) : ∀ state, Safe (setState env fuel state) := by
  induction fuel with
  | zero => exact fun _ => .throw (by decide)
  | succ fuel ih =>
      intro state
      refine .bind .get fun _ => .ite (.pure _) (.bind (safe_modify _) fun _ => .bind .get fun _ =>
        .bind (safe_modify _) fun _ => ?_)
      exact safe_enterState h ih _ _

theorem safe_querySetState (state : QueryState) : Safe (querySetState env state) :=
  .bind .get fun _ => safe_setState h _ state

/-- **No event ends in `abort()` unless a system call fails.** -/
theorem safe_queryDispatch (w : Nat) : Safe (queryDispatch env w) := by
  have htimer : ∀ t state, Safe (dispatchTimeout env t state) := fun t state =>
    .bind .get fun _ => .ite (.throw (by decide))
      (.bind (safe_clearTimeout h t) fun _ => safe_querySetState h state)
  refine .bind .get fun _ => ?_
  split
  · exact .throw (by decide)
  · rename_i watch _
    refine .bind ?_ fun _ => .bind (safe_whenState (safe_querySetState h _)) fun _ =>
      safe_whenState (safe_querySetState h _)
    cases watch.callback with
    | backend i => exact safe_runCalls h (safe_querySetState h) _
    | timeout t =>
        cases t <;> exact .bind .get fun _ => .ite (htimer _ _) (.throw (by decide))

/-- Nor does the start, on a list that is not empty. -/
theorem safe_queryStart {s s' : St} (hne : s.backends ≠ []) :
    queryStart env s ≠ .error .abort s' := by
  intro herr
  have hsat : Sat (queryStart env) s (fun _ _ => True) (fun e _ => e ≠ .abort) := by
    simp only [queryStart, sat_bind, sat_get, List.isEmpty_iff, hne, if_false]
    exact (safe_querySetState h .setup s).mono (fun _ _ _ => trivial) (fun _ _ he => he.2)
  exact hsat.of_error herr rfl

end

end Netresolve
