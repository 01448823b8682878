/-
Timers follow the state.

Whatever the backends report and whichever watch is dispatched next, a timer is set
only in the states whose dispatch function expects it, and it refers to a watch the
query has.  So no assertion of the dispatch functions can fail, and indeed nothing can
go wrong in an event but a system call.
-/
import Netresolve.Proofs.Running

namespace Netresolve

open Outcome

/-! ### One event -/

section

variable {env : Env} {R : List Nat} {s₀ s : St}

theorem Fresh.clean (h : Fresh s) : Clean s.context.loop.registered s :=
  ⟨h.watches, h.nfds, h.timeout, h.data, h.registered, h.loop.trans h.registered, .refl _⟩

theorem Fresh.ready (h : Fresh s) (hne : s.backends ≠ []) (k : Nat) :
    (stages env s.context.loop.registered s).ready k s := by
  refine ⟨Fixed.refl s, h.clean, ?_, by rw [h.state]; decide⟩
  rw [h.cursor]
  exact List.length_pos_iff.mpr hne

/-- A watch that is not that of a timer is remembered in private data. -/
theorem Books.hasPriv (h : Books R s) {x : Watch} {i : Nat} (hx : x ∈ s.query.watches)
    (hcb : x.callback = .backend i) : HasPriv true s := by
  have hmem : x.id ∈ s.query.timers ++ s.owned :=
    h.ledger.ids.mem_iff.mp (List.mem_map_of_mem hx)
  have hnot : x.id ∉ s.query.timers := by
    intro ht
    obtain ⟨t, ht⟩ : ∃ t, s.query.timeout t = some x.id := by
      simp only [Query.timers, List.mem_append, Option.mem_toList] at ht
      rcases ht with (h1 | h2) | h3
      · exact ⟨.delayed, h1⟩
      · exact ⟨.requestTimeout, h2⟩
      · exact ⟨.resultTimeout, h3⟩
    have := (h.kinds x hx t).mpr ht
    rw [hcb] at this
    exact absurd this (by simp)
  rcases List.mem_append.mp hmem with h1 | h2
  · exact absurd h1 hnot
  · unfold HasPriv
    cases hp : backendGetPriv s with
    | some block => rfl
    | none => simp [St.owned, hp] at h2

/-- A waiting query is ready for each of its watches. -/
theorem Waits.wakes (h : Waits R s) (hfix : Fixed s₀ s) {w : Nat} (htame : Tame s env w)
    {x : Watch} (hx : x ∈ s.query.watches) :
    Wakes env AbortOrFuel (stages env R s₀) s x.callback := by
  cases hcb : x.callback with
  | backend i =>
      obtain rfl := h.books.mine x hx i hcb
      refine ⟨hfix, ⟨h.books, h.cursor, ?_, fun t ht => due_live (h.timers t ht)⟩,
        ⟨true, h.books.hasPriv hx hcb, htame.orderly.dispatch _⟩, htame.path⟩
      rcases h.state with hs | hs | hs <;> rw [hs] <;> rfl
  | timeout t =>
      have hset : s.query.timeout t = some x.id := (h.books.kinds x hx t).mp hcb
      have hdue : t.due s.query.state := h.timers t (by rw [hset]; rfl)
      simp only [Wakes, expire, sat_bind, sat_get, hdue, if_true, hset, Option.isNone_some,
        Bool.false_eq_true, if_false]
      refine ⟨(clearTimeout_books env t h.books).mono (fun _ s' h' => ?_) OnlyAbort.weaken,
        fun s' h' hr => stages_fin .dispatch (Or.inr h') (Or.inl hr)⟩
      obtain ⟨hbooks, hframe, -⟩ := h'
      refine ⟨hfix.frame hframe.toFrame, hbooks, ?_, ?_, ?_⟩
      · rw [hframe.cursor, hframe.length]; exact h.cursor
      · rw [hframe.state]
        rcases h.state with hs | hs | hs <;> rw [hs] <;> decide
      · rw [hframe.state]
        rcases h.state with hs | hs | hs <;> rw [hs] <;> decide

theorem Ended.no_watch (h : Ended R s) {x : Watch} : x ∉ s.query.watches := by
  rw [h.clean.watches]
  simp

/-- An event of a query at rest leads to rest, and only a system call can stop it. -/
theorem queryDispatch_rest (env : Env) {w : Nat} (h : Fixed s₀ s ∧ (Waits R s ∨ Ended R s))
    (htame : Tame s env w)
    (hw : ∃ x ∈ s.query.watches, x.id = w) :
    Sat (queryDispatch env w) s (fun _ => (stages env R s₀).rest 0) OnlyAbort := by
  obtain ⟨hfix, hwaits | hended⟩ := h
  · have hsound : Sound env AbortOrFuel (stages env R s₀) := stages_sound htame.orderly
    obtain ⟨x, hfind, hx, -⟩ := find_watch hw
    have hdispatch := hsound.queryDispatch hfind (hwaits.wakes hfix htame hx)
    refine (hdispatch.and (queryDispatch_fueled env w s)).mono (fun _ _ h' => h'.1)
      (fun e _ h' => ?_)
    exact h'.1.resolve_right h'.2
  · obtain ⟨x, hx, -⟩ := hw
    exact absurd hx hended.no_watch

theorem queryStart_rest (hfresh : Fresh s) (hne : s.backends ≠ []) (henv : env.WellBehaved) :
    Sat (queryStart env) s (fun _ => (stages env s.context.loop.registered s).rest 0) OnlyAbort := by
  have hsound : Sound env AbortOrFuel (stages env s.context.loop.registered s) := stages_sound henv
  refine ((hsound.queryStart (hfresh.ready hne 0)).and (queryStart_fueled env s)).mono
    (fun _ _ h' => h'.1) (fun e _ h' => ?_)
  exact h'.1.resolve_right h'.2

end

/-! ### Whole runs -/

theorem backends_ne_nil {env : Env} {s s' : St} (h : queryStart env s = .ok () s') :
    s.backends ≠ [] := by
  intro hnil
  have hthrow : Sat (queryStart env) s (fun _ _ => False) (fun _ _ => True) := by
    simp only [queryStart, sat_bind, sat_get, hnil, List.isEmpty_nil, if_true, sat_throw]
  exact hthrow.of_ok h

/-- Between two events a query is at rest. -/
theorem Reachable.rest {s₀ s : St} (hfresh : Fresh s₀)
    (h : Reachable Env.WellBehaved Tame s₀ s) :
    Fixed s₀ s ∧ (Waits s₀.context.loop.registered s ∨ Ended s₀.context.loop.registered s) := by
  induction h with
  | start env hP hstart => exact (queryStart_rest hfresh (backends_ne_nil hstart) hP).of_ok hstart
  | step _ hstep ih =>
      obtain ⟨env, w, htame, hw, hok⟩ := hstep
      exact (queryDispatch_rest env ih htame hw).of_ok hok

/-- With a result timeout other than zero every orderly run is tame. -/
theorem Reachable.tame {s₀ s : St} (hfresh : Fresh s₀)
    (hresult : s₀.query.request.resultTimeout ≠ 0)
    (h : Reachable Env.WellBehaved Orderly s₀ s) : Reachable Env.WellBehaved Tame s₀ s := by
  induction h with
  | start env hP hstart => exact .start env hP hstart
  | step _ hstep ih =>
      obtain ⟨env, w, horderly, hw, hok⟩ := hstep
      refine .step ih ⟨env, w, ⟨horderly, Or.inl ?_⟩, hw, hok⟩
      rw [(ih.rest hfresh).1.resultTimeout]
      exact hresult

section

variable {env : Env} {R : List Nat} {s₀ s : St} {W : Stages}

/-- A statement about the visible part holds at the end of an event. -/
theorem dispatch_follows {w : Nat} (hfix : Fixed s₀ s) (hwaits : Waits R s)
    (htame : Tame s env w) (hw : ∃ x ∈ s.query.watches, x.id = w)
    (hext : Extends env (stages env R s₀) W fun _ => True)
    (hstart : ∀ x ∈ s.query.watches, x.id = w →
      Starts env (stages env R s₀) W s x.callback) :
    Sat (queryDispatch env w) s (fun _ s' => (stages env R s₀).rest 0 s' ∧ W.rest 0 s')
      OnlyAbort := by
  have hbase : Sound env AbortOrFuel (stages env R s₀) := stages_sound htame.orderly
  obtain ⟨x, hfind, hx, hid⟩ := find_watch hw
  have hwake := (hwaits.wakes hfix htame hx).extend (hstart x hx hid) hext trivial
  refine (((hbase.extend hext).queryDispatch hfind hwake).and (queryDispatch_fueled env w s)).mono
    (fun _ _ h' => h'.1) (fun e _ h' => ?_)
  exact h'.1.1.resolve_right h'.2

theorem start_follows (hfresh : Fresh s) (hne : s.backends ≠ []) (henv : env.WellBehaved)
    (hext : Extends env (stages env s.context.loop.registered s) W fun _ => True)
    (hready : W.ready 0 s) :
    Sat (queryStart env) s
      (fun _ s' => (stages env s.context.loop.registered s).rest 0 s' ∧ W.rest 0 s')
      OnlyAbort := by
  have hbase : Sound env AbortOrFuel (stages env s.context.loop.registered s) := stages_sound henv
  have hready' : ((stages env s.context.loop.registered s).and W).ready 0 s :=
    ⟨hfresh.ready hne 0, hready⟩
  refine (((hbase.extend hext).queryStart hready').and (queryStart_fueled env s)).mono
    (fun _ _ h' => h'.1) (fun e _ h' => ?_)
  exact h'.1.1.resolve_right h'.2

end

/--
A statement about the visible part of tame runs holds between all events, if it holds
of the stages of every event and at the start.
-/
theorem Reachable.invariant {s₀ s : St} {P₀ : Env → Prop} {C : St → Env → Nat → Prop}
    {W : Env → Stages} {I : St → Prop} (hfresh : Fresh s₀)
    (hP₀ : ∀ {env}, P₀ env → env.WellBehaved) (hC : ∀ {s env w}, C s env w → Tame s env w)
    (hext₀ : ∀ {env}, P₀ env →
      Extends env (stages env s₀.context.loop.registered s₀) (W env) fun _ => True)
    (hext : ∀ {s env w}, C s env w →
      Extends env (stages env s₀.context.loop.registered s₀) (W env) fun _ => True)
    (hready : ∀ env, (W env).ready 0 s₀) (hrest : ∀ env s, (W env).rest 0 s ↔ I s)
    (hstart : ∀ {s env w x}, Fixed s₀ s → Waits s₀.context.loop.registered s → I s → C s env w →
      x ∈ s.query.watches → x.id = w →
      Starts env (stages env s₀.context.loop.registered s₀) (W env) s x.callback)
    (h : Reachable P₀ C s₀ s) :
    (Fixed s₀ s ∧ (Waits s₀.context.loop.registered s ∨ Ended s₀.context.loop.registered s)) ∧
      I s := by
  induction h with
  | @start env s hP hok =>
      obtain ⟨h₁, h₂⟩ := (start_follows hfresh (backends_ne_nil hok) (hP₀ hP) (hext₀ hP)
        (hready env)).of_ok hok
      exact ⟨h₁, (hrest env _).mp h₂⟩
  | @step s s' _ hstep ih =>
      obtain ⟨env, w, hc, hw, hok⟩ := hstep
      obtain ⟨⟨hfix, hwaits | hended⟩, hI⟩ := ih
      · obtain ⟨h₁, h₂⟩ := (dispatch_follows hfix hwaits (hC hc) hw (hext hc)
          fun x hx hid => hstart hfix hwaits hI hc hx hid).of_ok hok
        exact ⟨h₁, (hrest env _).mp h₂⟩
      · obtain ⟨x, hx, -⟩ := hw
        exact absurd hx hended.no_watch

theorem Waits.timer_watch {R : List Nat} {s : St} (h : Waits R s) {t : Timer} {w : Nat}
    (ht : s.query.timeout t = some w) : ∃ x ∈ s.query.watches, x.id = w ∧ x.callback = .timeout t := by
  have hmem : w ∈ s.query.watches.map (·.id) :=
    h.books.ledger.ids.mem_iff.mpr (List.mem_append_left _ (mem_timers ht))
  obtain ⟨x, hx, rfl⟩ := List.mem_map.mp hmem
  exact ⟨x, hx, rfl, (h.books.kinds x hx t).mpr ht⟩

/-- A timer that is set is due in the present state and refers to a watch of the query. -/
theorem Reachable.timer {s₀ s : St} (hfresh : Fresh s₀)
    (h : Reachable Env.WellBehaved Tame s₀ s) {t : Timer} {w : Nat}
    (ht : s.query.timeout t = some w) :
    t.due s.query.state ∧ ∃ x ∈ s.query.watches, x.id = w ∧ x.callback = .timeout t := by
  obtain ⟨-, hwaits | hended⟩ := h.rest hfresh
  · exact ⟨hwaits.timers t (by rw [ht]; rfl), hwaits.timer_watch ht⟩
  · rw [hended.clean.timeout t] at ht
    simp at ht

/--
**Timers follow the state.**  Between two events the delayed timer is set only in
RESOLVED, the request timer only in WAITING and WAITING_MORE and the result timer only
in WAITING_MORE, each on a watch in the query's list, and no assertion fails in any
event that can come next.
-/
theorem timers_follow_state {s₀ s : St} (hfresh : Fresh s₀)
    (hresult : s₀.query.request.resultTimeout ≠ 0)
    (hrun : Reachable Env.WellBehaved Orderly s₀ s) :
    (s.query.delayed.isSome → s.query.state = .resolved) ∧
    (s.query.requestTimeout.isSome →
      s.query.state = .waiting ∨ s.query.state = .waitingMore) ∧
    (s.query.resultTimeout.isSome → s.query.state = .waitingMore) ∧
    (∀ t w, s.query.timeout t = some w →
      ∃ x ∈ s.query.watches, x.id = w ∧ x.callback = .timeout t) ∧
    ∀ env w, env.WellBehaved → (∃ x ∈ s.query.watches, x.id = w) →
      ∀ a s', queryDispatch env w s ≠ .error (.assertion a) s' := by
  have htame := hrun.tame hfresh hresult
  have hrest := htame.rest hfresh
  have hdue : ∀ t, (s.query.timeout t).isSome → t.due s.query.state := by
    intro t ht
    obtain ⟨w, hw⟩ := Option.isSome_iff_exists.mp ht
    exact (htame.timer hfresh hw).1
  refine ⟨fun h => ?_, fun h => ?_, fun h => ?_, fun t w ht => (htame.timer hfresh ht).2, ?_⟩
  · exact (due_delayed _).mp (hdue .delayed h)
  · exact (due_requestTimeout _).mp (hdue .requestTimeout h)
  · exact (due_resultTimeout _).mp (hdue .resultTimeout h)
  · intro env w henv hw a s' herr
    have hres : s.query.request.resultTimeout ≠ 0 := by
      rw [hrest.1.resultTimeout]; exact hresult
    have hsat := queryDispatch_rest env hrest ⟨henv, Or.inl hres⟩ hw
    exact absurd (hsat.of_error herr) (by simp [OnlyAbort])

/-- A query on a single backend. -/
def oneBackend : St := { query := { id := 0 }, backends := [{}] }

/-- The backend asks somebody else and waits for the answer. -/
def answersLater : Env :=
  { setup := fun _ => [.newPriv true, .watchAdd 5], dispatch := fun _ => [.finished] }

theorem oneBackend_fresh : Fresh oneBackend := by
  refine ⟨⟨rfl, rfl, rfl, rfl, fun t => by cases t <;> rfl, rfl, rfl, ?_⟩, rfl, rfl⟩
  intro b hb
  rw [List.mem_singleton.mp hb]

theorem answersLater_wellBehaved : answersLater.WellBehaved := ⟨fun _ => rfl, fun _ => rfl⟩

/-- An address a backend may answer with, and the path the library makes of it. -/
def oneAddress : PathArgs := { family := AF_INET, address := [192, 0, 2, 1] }

def onePath : Path :=
  { family := AF_INET, address := [192, 0, 2, 1], ifindex := 0, socktype := 0, protocol := 0,
    port := 0, priority := 0, weight := 0, ttl := 0 }

/-- The query on one backend while it waits for the answer. -/
def oneBackendWaiting : St where
  query := { oneBackend.query with
    state := .waiting
    watches := [⟨1, .backend 5, .backend 0⟩, ⟨2, .core 2, .timeout .requestTimeout⟩]
    nfds := 2
    requestTimeout := some 2
    priv := some 0 }
  backends := [{ cleanup := true, data := some ⟨0, 0, [1]⟩,
                 history := [.alloc 0 0, .setup 0 true] }]
  trace := [.enter .waiting 0 {}, .report 0 (.watchAdd 5), .report 0 (.newPriv true),
    .enter .setup 0 {}]
  context := { nfds := 2, loop := { count := 2, registered := [2, 1] }, next := 3,
               opened := [.core 2] }

theorem oneBackend_waits : Reachable Env.WellBehaved Orderly oneBackend oneBackendWaiting :=
  .start answersLater answersLater_wellBehaved rfl

theorem timers_follow_state_waiting :
    Reachable Env.WellBehaved Orderly oneBackend oneBackendWaiting ∧
      oneBackendWaiting.query.requestTimeout.isSome ∧
      (oneBackendWaiting.query.state = .waiting ∨ oneBackendWaiting.query.state = .waitingMore) :=
  ⟨oneBackend_waits, rfl,
    (timers_follow_state oneBackend_fresh (by decide) oneBackend_waits).2.1 rfl⟩

end Netresolve
