/-
The books of a query are in order at every stage.

This is the first use of `Sound`: while a backend runs, its watches and timers are on
the books and only certain timers can be set, depending on the state; between two
events the timers are exactly those whose dispatch function accepts the state, or the
query has ended and nothing of it is left.  The one assumption on a step is that the
query does not end in the middle of a dispatch function: with a result timeout of
zero, the first path that is accepted in state WAITING would end it.
-/
import Netresolve.Proofs.Books
import Netresolve.Proofs.Fuel

namespace Netresolve

open Outcome

/-! ### The stages -/

/-- The states a query can be in while a backend runs. -/
def Phase.has : Phase → QueryState → Bool
  | _, .resolved | _, .error => true
  | .setup, .setup => true
  | .dispatch, .waiting | .dispatch, .waitingMore => true
  | _, _ => false

/-- The timers that can be set while a backend runs. -/
def Timer.live : Timer → Phase → QueryState → Bool
  | .delayed, _, .resolved | .delayed, _, .error => true
  | .requestTimeout, .dispatch, _ => true
  | .resultTimeout, .dispatch, .waiting => false
  | .resultTimeout, .dispatch, _ => true
  | _, _, _ => false

/-- What a query keeps from its creation on. -/
structure Fixed (s₀ s : St) : Prop where
  id : s.query.id = s₀.query.id
  callback : s.query.callback = s₀.query.callback
  type : s.query.request.type = s₀.query.request.type
  requestTimeout : s.query.request.requestTimeout = s₀.query.request.requestTimeout
  resultTimeout : s.query.request.resultTimeout = s₀.query.request.resultTimeout
  shape : s.backends.map Backend.shape = s₀.backends.map Backend.shape
  next : s₀.context.next ≤ s.context.next

/-- A backend is running. -/
structure Running (R : List Nat) (ph : Phase) (s : St) : Prop where
  books : Books R s
  cursor : s.query.cursor < s.backends.length
  state : ph.has s.query.state
  timers : ∀ t, (s.query.timeout t).isSome → t.live ph s.query.state

/-- The calls a running backend has still to make are those of a well-behaved one. -/
structure Script (env : Env) (rest : List Call) (s : St) : Prop where
  keeps : ∃ has, HasPriv has s ∧ keepsWatches has rest
  tame : s.query.request.resultTimeout ≠ 0 ∨ s.query.state ≠ .waiting ∨
    pathFirst env.services s.query.request rest = false

/-- The query waits for its next event. -/
structure Waits (R : List Nat) (s : St) : Prop where
  books : Books R s
  cursor : s.query.cursor < s.backends.length
  state : s.query.state = .waiting ∨ s.query.state = .waitingMore ∨ s.query.state = .resolved
  timers : ∀ t, (s.query.timeout t).isSome → t.due s.query.state

/-- The query has ended: the cursor stands on the terminator of the backend list. -/
structure Ended (R : List Nat) (s : St) : Prop where
  clean : Clean R s
  cursor : s.query.cursor = s.backends.length
  state : s.query.state = .done ∨ s.query.state = .failed

/-- The stages of a query that started as `s₀`, next to the watches `R` of other queries. -/
def stages (env : Env) (R : List Nat) (s₀ : St) : Stages where
  ready _ s := Fixed s₀ s ∧ Clean R s ∧ s.query.cursor < s.backends.length ∧
    s.query.state ≠ .setup
  run _ ph rest s := Fixed s₀ s ∧ Running R ph s ∧ Script env rest s
  fin _ _ s := Fixed s₀ s ∧ Books R s ∧ s.query.cursor < s.backends.length ∧
    s.query.state ≠ .done ∧ s.query.state ≠ .failed
  rest _ s := Fixed s₀ s ∧ (Waits R s ∨ Ended R s)
  bold _ _ s := s.query.request.resultTimeout ≠ 0 ∨ s.query.state ≠ .waiting

/-- A run stops where the source calls `abort()`, or without fuel. -/
def AbortOrFuel (e : Fault) (_ : St) : Prop := e = .abort ∨ e = .fuel

theorem OnlyAbort.weaken (e : Fault) (s : St) (h : OnlyAbort e s) : AbortOrFuel e s := Or.inl h

/-! ### The tables -/

theorem has_of_waiting {ph : Phase} (h : ph.has .waiting) : ph = .dispatch := by
  cases ph with
  | setup => exact nomatch h
  | dispatch => rfl

/-- A timer that can be set while a backend runs can still be set once it has reported. -/
theorem live_reported {t : Timer} {ph : Phase} {state : QueryState} (h : t.live ph state)
    (hs : ph.has state) : t.live ph .resolved ∧ t.live ph .error := by
  cases t <;> cases ph <;> cases state <;> first | exact ⟨rfl, rfl⟩ | cases h

theorem live_setup {t : Timer} {ph : Phase} (hs : ph.has .setup) : ¬ t.live ph .setup := by
  intro h
  cases t <;> cases ph <;> first | (cases hs; done) | cases h

theorem live_waiting {ph : Phase} (hs : ph.has .waiting) :
    ¬ Timer.live .resultTimeout ph .waiting := by
  cases ph with
  | setup => exact nomatch hs
  | dispatch => exact nofun

theorem live_more {t : Timer} {ph : Phase} (h : t.live ph .waiting) (hs : ph.has .waiting) :
    t.live ph .waitingMore := by
  cases t <;> cases ph <;> first | rfl | cases h

theorem due_live {t : Timer} {state : QueryState} (h : t.due state) : t.live .dispatch state := by
  cases t <;> cases state <;> first | rfl | cases h

theorem due_of_setup {t : Timer} {state : QueryState} (h : t.live .setup state)
    (he : state ≠ .error) : t.due state := by
  cases t <;> cases state <;> first | rfl | (cases h; done) | exact absurd rfl he

theorem due_of_dispatch {t : Timer} {state : QueryState} (h : t.live .dispatch state)
    (hs : state = .waiting ∨ state = .waitingMore) : t.due state := by
  rcases hs with rfl | rfl <;> cases t <;> first | rfl | cases h

/-! ### What the visible steps leave alone -/

theorem Fixed.refl (s : St) : Fixed s s := ⟨rfl, rfl, rfl, rfl, rfl, rfl, Nat.le_refl _⟩

theorem Fixed.length {s₀ s : St} (h : Fixed s₀ s) : s.backends.length = s₀.backends.length := by
  simpa using congrArg List.length h.shape

theorem Fixed.frame {s₀ s s' : St} (h : Fixed s₀ s) (hf : Frame s s') : Fixed s₀ s' := by
  refine ⟨hf.id.trans h.id, hf.callback.trans h.callback, ?_, ?_, ?_, hf.shape.trans h.shape,
    Nat.le_trans h.next hf.next⟩
  · rw [hf.request]; exact h.type
  · rw [hf.request]; exact h.requestTimeout
  · rw [hf.request]; exact h.resultTimeout

theorem Fixed.setUp {s₀ s : St} (h : Fixed s₀ s) (backend : Backend) :
    Fixed s₀ (s.setUp backend) :=
  ⟨h.id, h.callback, h.type, h.requestTimeout, h.resultTimeout,
    (map_modify_eq _ _ (by intro b; rfl) _ _).trans h.shape, h.next⟩

/-- A step that touches neither the watches nor the private data keeps the books. -/
structure SameBooks (s s' : St) : Prop where
  watches : s'.query.watches = s.query.watches
  nfds : s'.query.nfds = s.query.nfds
  timeout : ∀ t, s'.query.timeout t = s.query.timeout t
  cursor : s'.query.cursor = s.query.cursor
  id : s'.query.id = s.query.id
  backends : s'.backends = s.backends
  total : s'.context.nfds = s.context.nfds
  loop : s'.context.loop = s.context.loop
  next : s.context.next ≤ s'.context.next

theorem SameBooks.timers {s s' : St} (h : SameBooks s s') : s'.query.timers = s.query.timers := by
  have h1 := h.timeout .delayed
  have h2 := h.timeout .requestTimeout
  have h3 := h.timeout .resultTimeout
  simp only [Query.timeout] at h1 h2 h3
  simp only [Query.timers, h1, h2, h3]

theorem SameBooks.books {R : List Nat} {s s' : St} (hs : SameBooks s s') (h : Books R s) :
    Books R s' := by
  refine ⟨?_, ?_, ?_, ownData_eq hs.backends hs.cursor hs.id h.data⟩
  · rw [hs.timers, owned_eq hs.backends hs.cursor]
    exact h.ledger.congr hs.watches hs.nfds hs.total hs.loop hs.next
  · intro x hx t
    rw [hs.watches] at hx
    rw [hs.timeout]
    exact h.kinds x hx t
  · intro x hx i hcb
    rw [hs.watches] at hx
    rw [hs.cursor]
    exact h.mine x hx i hcb

theorem sameBooks_entered (s : St) (state : QueryState) : SameBooks s (s.entered state) :=
  ⟨rfl, rfl, fun t => by cases t <;> rfl, rfl, rfl, rfl, rfl, rfl, Nat.le_refl _⟩

theorem sameBooks_reported (s : St) (call : Call) : SameBooks s (s.reported call) :=
  ⟨rfl, rfl, fun t => by cases t <;> rfl, rfl, rfl, rfl, rfl, rfl, Nat.le_refl _⟩

theorem SameBooks.trans {s s' s'' : St} (h : SameBooks s s') (h' : SameBooks s' s'') :
    SameBooks s s'' :=
  ⟨h'.watches.trans h.watches, h'.nfds.trans h.nfds, fun t => (h'.timeout t).trans (h.timeout t),
    h'.cursor.trans h.cursor, h'.id.trans h.id, h'.backends.trans h.backends,
    h'.total.trans h.total, h'.loop.trans h.loop, Nat.le_trans h.next h'.next⟩

theorem SameBooks.hasPriv {s s' : St} {has : Bool} (hs : SameBooks s s') (h : HasPriv has s) :
    HasPriv has s' := by
  unfold HasPriv backendGetPriv at *
  rw [hs.backends, hs.cursor]
  exact h

theorem SameBooks.running {R : List Nat} {ph ph' : Phase} {s s' : St} (hs : SameBooks s s')
    (h : Running R ph s) (hstate : ph'.has s'.query.state)
    (hlive : ∀ t : Timer, t.live ph s.query.state → t.live ph' s'.query.state) :
    Running R ph' s' := by
  refine ⟨hs.books h.books, ?_, hstate, fun t ht => hlive t (h.timers t ?_)⟩
  · rw [hs.cursor, hs.backends]; exact h.cursor
  · rwa [hs.timeout] at ht

/-- The same with nothing but the trace and the response changed. -/
theorem SameBooks.running_same {R : List Nat} {ph : Phase} {s s' : St} (hs : SameBooks s s')
    (h : Running R ph s) (hstate : s'.query.state = s.query.state) : Running R ph s' :=
  hs.running h (by rw [hstate]; exact h.state) (fun t ht => by rw [hstate]; exact ht)

/-! ### Setting a backend up and waiting for it -/

section

variable {env : Env} {R : List Nat} {s₀ : St}

theorem data_none_of_map {bs bs' : List Backend}
    (hmap : bs'.map (·.data) = bs.map (·.data)) (h : ∀ b ∈ bs, b.data = none) :
    ∀ b ∈ bs', b.data = none := by
  intro b hb
  have hmem : b.data ∈ bs.map (·.data) := by
    rw [← hmap]
    exact List.mem_map_of_mem hb
  obtain ⟨b₀, hb₀, hd⟩ := List.mem_map.mp hmem
  rw [← hd]
  exact h b₀ hb₀

theorem Clean.setUp {s : St} (h : Clean R s) (backend : Backend) : Clean R (s.setUp backend) := by
  refine ⟨h.watches, h.nfds, fun t => ?_, ?_, h.total, h.loop, h.registered⟩
  · rw [← h.timeout t]
    cases t <;> rfl
  · exact data_none_of_map (map_modify_eq _ _ (by intro b; rfl) _ _) h.data

theorem Clean.hasPriv {s : St} (h : Clean R s) : HasPriv false s := by
  unfold HasPriv backendGetPriv
  cases hb : s.backends[s.query.cursor]? with
  | none => rfl
  | some b => simp [h.data b (List.mem_of_getElem? hb)]

theorem Clean.running {s : St} (h : Clean R s) (hc : s.query.cursor < s.backends.length)
    (hs : s.query.state = .setup) : Running R .setup s := by
  refine ⟨h.books, hc, by rw [hs]; rfl, fun t ht => ?_⟩
  rw [h.timeout t] at ht
  simp at ht

theorem stages_setUp (henv : env.WellBehaved) (k : Nat) (s : St)
    (h : (stages env R s₀).ready k s) : s.query.state ≠ .setup ∧
    ∃ backend, s.backends[s.query.cursor]? = some backend ∧
      (backend.setup s.query.request.type = true →
        (stages env R s₀).run k .setup (env.setup s.query.cursor) (s.setUp backend)) ∧
      (backend.setup s.query.request.type = false →
        (stages env R s₀).fin k .failed (s.setUp backend)) := by
  obtain ⟨hfix, hclean, hc, hne⟩ := h
  have hc' : ∀ b, (s.setUp b).query.cursor < (s.setUp b).backends.length := by
    intro b
    simpa [St.setUp, St.entered] using hc
  refine ⟨hne, s.backends[s.query.cursor], List.getElem?_eq_getElem hc, fun _ => ?_, fun _ => ?_⟩
  · have hclean' := hclean.setUp s.backends[s.query.cursor]
    refine ⟨hfix.setUp _, hclean'.running (hc' _) rfl, ⟨false, hclean'.hasPriv, henv.setup _⟩, ?_⟩
    exact Or.inr (Or.inl (by simp [St.setUp, St.entered]))
  · exact ⟨hfix.setUp _, (hclean.setUp _).books, hc' _, by simp [St.setUp, St.entered],
      by simp [St.setUp, St.entered]⟩

/-- Nothing is set while the setup function has not reported. -/
theorem Running.timeout_setup {ph : Phase} {s : St} (h : Running R ph s)
    (hs : s.query.state = .setup) (t : Timer) : s.query.timeout t = none := by
  cases ht : s.query.timeout t with
  | none => rfl
  | some w =>
      have hlive := h.timers t (by rw [ht]; rfl)
      have hhas := h.state
      rw [hs] at hlive hhas
      exact absurd hlive (live_setup hhas)

theorem stages_waiting (k : Nat) (s : St) (h : (stages env R s₀).run k .setup [] s)
    (hs : s.query.state = .setup) :
    Sat (enterWaiting env) (s.entered .waiting) (fun _ => (stages env R s₀).rest k)
      AbortOrFuel := by
  obtain ⟨hfix, hrun, -⟩ := h
  have hbooks := (sameBooks_entered s .waiting).books hrun.books
  have hnone : ∀ t, (s.entered .waiting).query.timeout t = none := by
    intro t
    rw [(sameBooks_entered s .waiting).timeout]
    exact hrun.timeout_setup hs t
  have hfix' : Fixed s₀ (s.entered .waiting) :=
    ⟨hfix.id, hfix.callback, hfix.type, hfix.requestTimeout, hfix.resultTimeout, hfix.shape, hfix.next⟩
  simp only [enterWaiting, sat_bind, sat_get, sat_ite, sat_pure]
  refine ⟨fun _ => ?_, fun _ => ⟨hfix', Or.inl ⟨hbooks, hrun.cursor, Or.inl rfl, ?_⟩⟩⟩
  · refine (setTimeout_books env .requestTimeout hbooks (hnone _)).mono (fun _ s' h' => ?_)
      OnlyAbort.weaken
    obtain ⟨hbooks', hframe⟩ := h'
    have hstate : s'.query.state = .waiting := hframe.state
    refine ⟨hfix'.frame hframe.toFrame, Or.inl ⟨hbooks', ?_, Or.inl hstate, fun t ht => ?_⟩⟩
    · rw [hframe.cursor, hframe.length]; exact hrun.cursor
    · rw [hstate]
      by_cases hreq : t = .requestTimeout
      · subst hreq; rfl
      · rw [hframe.others t hreq, hnone t] at ht
        simp at ht
  · intro t ht
    rw [hnone t] at ht
    simp at ht

/-! ### Reports -/

theorem Script.of_state {rest : List Call} {s s' : St} {call : Call}
    (h : Script env (call :: rest) s) (hs : SameBooks s s')
    (hkeep : ∀ has, keepsWatches has (call :: rest) → keepsWatches has rest)
    (hstate : s'.query.state ≠ .waiting) : Script env rest s' := by
  obtain ⟨⟨has, hpriv, hk⟩, -⟩ := h
  exact ⟨⟨has, hs.hasPriv hpriv, hkeep has hk⟩, Or.inr (Or.inl hstate)⟩

/-- A query keeps its settings whatever is written into its trace and response. -/
theorem Fixed.entered {s : St} (h : Fixed s₀ s) (state : QueryState) :
    Fixed s₀ (s.entered state) :=
  ⟨h.id, h.callback, h.type, h.requestTimeout, h.resultTimeout, h.shape, h.next⟩

theorem Fixed.reported {s : St} (h : Fixed s₀ s) (call : Call) : Fixed s₀ (s.reported call) :=
  ⟨h.id, h.callback, h.type, h.requestTimeout, h.resultTimeout, h.shape, h.next⟩

theorem stages_finished (k : Nat) (ph : Phase) (rest : List Call) (s : St)
    (h : (stages env R s₀).run k ph (.finished :: rest) s) :
    (s.query.state = .resolved → (stages env R s₀).run k ph rest (s.reported .finished)) ∧
    (s.query.state ≠ .resolved →
      Sat (enterResolved env s.query.state) ((s.reported .finished).entered .resolved)
        (fun _ => (stages env R s₀).run k ph rest) AbortOrFuel) := by
  obtain ⟨hfix, hrun, hscript⟩ := h
  have hrep := sameBooks_reported s .finished
  refine ⟨fun hs => ?_, fun _ => ?_⟩
  · have hne : (s.reported .finished).query.state ≠ .waiting := by
      show s.query.state ≠ _
      rw [hs]; decide
    exact ⟨hfix.reported _, hrep.running_same hrun rfl,
      hscript.of_state hrep (fun _ hk => hk) hne⟩
  · have hent := hrep.trans (sameBooks_entered (s.reported .finished) .resolved)
    have hfix' := (hfix.reported .finished).entered .resolved
    have hscript' := hscript.of_state hent (fun _ hk => hk) (by simp [St.entered])
    have hrun' : Running R ph ((s.reported .finished).entered .resolved) :=
      hent.running hrun (by cases ph <;> rfl) (fun t ht => (live_reported ht hrun.state).1)
    by_cases hs : s.query.state = .setup
    · -- Success out of the setup function: DONE has to wait for the timer.
      have hnone : ∀ t, ((s.reported .finished).entered .resolved).query.timeout t = none := by
        intro t
        rw [hent.timeout]
        exact hrun.timeout_setup hs t
      simp only [enterResolved, if_pos hs, openEventfd, sat_bind, sat_get, sat_ite, sat_throw,
        modifyContext, sat_modify]
      refine ⟨fun _ => ?_, fun _ => Or.inl rfl⟩
      have hopen : SameBooks ((s.reported .finished).entered .resolved)
          { (s.reported .finished).entered .resolved with
            context := { s.context with
              next := s.context.next + 1
              opened := .core s.context.next :: s.context.opened } } :=
        ⟨rfl, rfl, fun t => by cases t <;> rfl, rfl, rfl, rfl, rfl, rfl, Nat.le_succ _⟩
      have hnone' := hnone .delayed
      refine (setTimeout_books env .delayed (hopen.books hrun'.books) hnone').mono
        (fun _ s' h' => ?_) OnlyAbort.weaken
      obtain ⟨hbooks', hframe⟩ := h'
      have hstate : s'.query.state = .resolved := hframe.state
      refine ⟨hfix'.frame ⟨hframe.id, hframe.state, hframe.cursor, hframe.callback,
        hframe.request, hframe.response, hframe.trace, hframe.shape,
        Nat.le_trans (Nat.le_succ _) hframe.next⟩, ⟨hbooks', ?_, ?_, ?_⟩, ?_⟩
      · rw [hframe.cursor, hframe.length]; exact hrun.cursor
      · rw [hstate]; cases ph <;> rfl
      · intro t ht
        rw [hstate]
        by_cases hd : t = .delayed
        · subst hd; cases ph <;> rfl
        · rw [hframe.others t hd, (hopen.timeout t).trans (hnone t)] at ht
          simp at ht
      · obtain ⟨⟨has, hpriv, hk⟩, -⟩ := hscript'
        refine ⟨⟨has, ?_, hk⟩, Or.inr (Or.inl (by rw [hstate]; decide))⟩
        unfold HasPriv backendGetPriv at hpriv ⊢
        rw [hframe.backends, hframe.cursor]
        exact hpriv
    · simp only [enterResolved, if_neg hs, sat_pure]
      exact ⟨hfix', hrun', hscript'⟩

/-- Entering ERROR, from a state in which the remaining calls are `rest`. -/
theorem stages_toError {k : Nat} {ph : Phase} {rest : List Call} {s : St} (hfix : Fixed s₀ s)
    (hrun : Running R ph s) (hkeep : ∃ has, HasPriv has s ∧ keepsWatches has rest) :
    (stages env R s₀).run k ph rest s.toError := by
  obtain ⟨has, hpriv, hk⟩ := hkeep
  unfold St.toError
  split
  · rename_i hs
    exact ⟨hfix, hrun, ⟨has, hpriv, hk⟩, Or.inr (Or.inl (by rw [hs]; decide))⟩
  · have hent := sameBooks_entered s .error
    refine ⟨hfix.entered _, ?_, ⟨has, hent.hasPriv hpriv, hk⟩, Or.inr (Or.inl ?_)⟩
    · exact hent.running hrun (by cases ph <;> rfl) (fun t ht => (live_reported ht hrun.state).2)
    · simp [St.entered]

theorem stages_failed (k : Nat) (ph : Phase) (rest : List Call) (s : St)
    (h : (stages env R s₀).run k ph (.failed :: rest) s) :
    (stages env R s₀).run k ph rest (s.reported .failed).toError := by
  obtain ⟨hfix, hrun, ⟨⟨has, hpriv, hk⟩, -⟩⟩ := h
  have hrep := sameBooks_reported s .failed
  exact stages_toError (hfix.reported _) (hrep.running_same hrun rfl)
    ⟨has, hrep.hasPriv hpriv, hk⟩

/-! ### The other calls -/

theorem Running.of_frame {ph : Phase} {s s' : St} (h : Running R ph s) (hb : Books R s')
    (hf : Frame s s') (ht : ∀ t, s'.query.timeout t = s.query.timeout t) : Running R ph s' := by
  refine ⟨hb, ?_, by rw [hf.state]; exact h.state, fun t h' => ?_⟩
  · rw [hf.cursor, hf.length]; exact h.cursor
  · rw [ht] at h'
    rw [hf.state]
    exact h.timers t h'

theorem stages_alloc (k : Nat) (ph : Phase) (rest : List Call) (s : St) (allocated : Bool)
    (h : (stages env R s₀).run k ph (.newPriv allocated :: rest) s) :
    Sat (allocPriv allocated) (s.reported (.newPriv allocated))
      (fun _ s' => (stages env R s₀).run k ph rest (if allocated then s' else s'.toError))
      AbortOrFuel := by
  obtain ⟨hfix, hrun, ⟨⟨has, hpriv, hk⟩, htame⟩⟩ := h
  have hrep := sameBooks_reported s (.newPriv allocated)
  have hrun' := hrep.running_same hrun rfl
  obtain ⟨rfl, hk'⟩ : has = false ∧ keepsWatches allocated rest := by
    simpa [keepsWatches] using hk
  refine (allocPriv_books hrun'.books (hrep.hasPriv hpriv) hrun'.cursor allocated).mono
    (fun _ s' h' => ?_) OnlyAbort.weaken
  obtain ⟨⟨hbooks, hpriv'⟩, hframe, ht⟩ := h'
  have hfix' := (hfix.reported (.newPriv allocated)).frame hframe
  have hrun'' := hrun'.of_frame hbooks hframe ht
  cases allocated with
  | true =>
      have htame' : s'.query.request.resultTimeout ≠ 0 ∨ s'.query.state ≠ .waiting ∨
          pathFirst env.services s'.query.request rest = false := by
        rw [hframe.request, hframe.state]
        exact htame
      exact ⟨hfix', hrun'', ⟨true, hpriv', hk'⟩, htame'⟩
  | false => exact stages_toError hfix' hrun'' ⟨false, hpriv', hk'⟩

/-- A call that only writes into the response. -/
theorem stages_write {k : Nat} {ph : Phase} {rest : List Call} {s : St} {call : Call}
    (h : (stages env R s₀).run k ph (call :: rest) s) (response : Response)
    (hkeep : ∀ has, keepsWatches has (call :: rest) = keepsWatches has rest)
    (hfirst : ∀ services request,
      pathFirst services request (call :: rest) = pathFirst services request rest) :
    (stages env R s₀).run k ph rest
      { s.reported call with query := { s.query with response := response } } := by
  obtain ⟨hfix, hrun, ⟨⟨has, hpriv, hk⟩, htame⟩⟩ := h
  have hsame : SameBooks s
      { s.reported call with query := { s.query with response := response } } :=
    ⟨rfl, rfl, fun t => by cases t <;> rfl, rfl, rfl, rfl, rfl, rfl, Nat.le_refl _⟩
  refine ⟨⟨hfix.id, hfix.callback, hfix.type, hfix.requestTimeout, hfix.resultTimeout, hfix.shape, hfix.next⟩,
    hsame.running_same hrun rfl, ⟨has, hsame.hasPriv hpriv, by rwa [← hkeep]⟩, ?_⟩
  rw [← hfirst]
  exact htame

/-- A call that adds or removes a watch. -/
theorem stages_watch {k : Nat} {ph : Phase} {rest : List Call} {s : St} {call : Call} {x : M Unit}
    {has : Bool} (h : (stages env R s₀).run k ph (call :: rest) s)
    (hx : Sat x (s.reported call) (fun _ s' => (Books R s' ∧ HasPriv has s') ∧
      Frame (s.reported call) s' ∧
      ∀ t, s'.query.timeout t = (s.reported call).query.timeout t) OnlyAbort)
    (hkeep : keepsWatches has rest)
    (hfirst : ∀ services request,
      pathFirst services request (call :: rest) = pathFirst services request rest) :
    Sat x (s.reported call) (fun _ => (stages env R s₀).run k ph rest) AbortOrFuel := by
  obtain ⟨hfix, hrun, ⟨-, htame⟩⟩ := h
  have hrun' := (sameBooks_reported s call).running_same hrun rfl
  refine hx.mono (fun _ s' h' => ?_) OnlyAbort.weaken
  obtain ⟨⟨hbooks, hpriv'⟩, hframe, ht⟩ := h'
  refine ⟨(hfix.reported call).frame hframe, hrun'.of_frame hbooks hframe ht,
    ⟨has, hpriv', hkeep⟩, ?_⟩
  rw [hframe.request, hframe.state, ← hfirst]
  exact htame

theorem stages_quiet (k : Nat) (ph : Phase) (rest : List Call) (s : St) (call : Call)
    (hq : call.quiet) (h : (stages env R s₀).run k ph (call :: rest) s) :
    Sat (runCall env (fun _ => pure ()) call) s (fun _ => (stages env R s₀).run k ph rest)
      AbortOrFuel := by
  have hrun := (sameBooks_reported s call).running_same h.2.1 rfl
  obtain ⟨has, hpriv, hk⟩ := h.2.2.keeps
  have hpriv' := (sameBooks_reported s call).hasPriv hpriv
  cases call with
  | setCanonicalName name => exact stages_write h _ (fun _ => rfl) (fun _ _ => rfl)
  | addNameInfo nodename =>
      simp only [runCall, observe, backendAddNameInfo, modifyQuery, sat_bind, sat_get, sat_modify]
      split
      · exact stages_write h s.query.response (fun _ => rfl) (fun _ _ => rfl)
      · exact stages_write h _ (fun _ => rfl) (fun _ _ => rfl)
  | setDnsAnswer answer => exact stages_write h _ (fun _ => rfl) (fun _ _ => rfl)
  | setSecure => exact stages_write h _ (fun _ => rfl) (fun _ _ => rfl)
  | watchAdd fd =>
      obtain ⟨rfl, hk'⟩ : has = true ∧ keepsWatches has rest := by simpa [keepsWatches] using hk
      simp only [runCall, observe, sat_bind, sat_get, sat_modify]
      exact stages_watch h (callWatchAdd_books env fd hrun.books hpriv') hk' (fun _ _ => rfl)
  | watchRemove j doClose =>
      simp only [runCall, observe, sat_bind, sat_get, sat_modify]
      exact stages_watch h (callWatchRemove_books env j doClose hrun.books hpriv') hk
        (fun _ _ => rfl)
  | _ => simp [Call.quiet] at hq

theorem stages_addPath (k : Nat) (ph : Phase) (rest : List Call) (s : St) (a : PathArgs)
    (h : (stages env R s₀).run k ph (.addPath a :: rest) s) :
    (stages env R s₀).run k ph rest (s.reported (.addPath a)) ∧
      (pathsOf env.services s.query.request a ≠ [] →
        (stages env R s₀).bold k rest (s.reported (.addPath a))) := by
  obtain ⟨hfix, hrun, ⟨⟨has, hpriv, hk⟩, htame⟩⟩ := h
  have hrep := sameBooks_reported s (.addPath a)
  refine ⟨⟨hfix.reported _, hrep.running_same hrun rfl, ⟨has, hrep.hasPriv hpriv, hk⟩, ?_⟩,
    fun hp => ?_⟩
  · rcases htame with h1 | h2 | h3
    · exact Or.inl h1
    · exact Or.inr (Or.inl h2)
    · exact Or.inr (Or.inr (Bool.or_eq_false_iff.mp h3).2)
  · rcases htame with h1 | h2 | h3
    · exact Or.inl h1
    · exact Or.inr h2
    · have hempty : (pathsOf env.services s.query.request a).isEmpty := by
        simpa using (Bool.or_eq_false_iff.mp h3).1
      exact absurd (List.isEmpty_iff.mp hempty) hp

theorem stages_store (k : Nat) (ph : Phase) (rest : List Call) (s : St) (path : Path)
    (h : (stages env R s₀).run k ph rest s) (hbold : (stages env R s₀).bold k rest s) :
    (stages env R s₀).run k ph rest (s.stored env path) ∧
      (stages env R s₀).bold k rest (s.stored env path) := by
  obtain ⟨hfix, hrun, ⟨⟨has, hpriv, hk⟩, htame⟩⟩ := h
  have hsame : SameBooks s (s.stored env path) :=
    ⟨rfl, rfl, fun t => by cases t <;> rfl, rfl, rfl, rfl, rfl, rfl, Nat.le_refl _⟩
  exact ⟨⟨⟨hfix.id, hfix.callback, hfix.type, hfix.requestTimeout, hfix.resultTimeout, hfix.shape, hfix.next⟩,
    hsame.running_same hrun rfl, ⟨has, hsame.hasPriv hpriv, hk⟩, htame⟩, hbold⟩

theorem stages_more (k : Nat) (ph : Phase) (rest : List Call) (s : St)
    (h : (stages env R s₀).run k ph rest s) (hw : s.query.state = .waiting) :
    Sat (armResultTimeout env) (s.entered .waitingMore)
      (fun _ s' => (stages env R s₀).run k ph rest s' ∧ (stages env R s₀).bold k rest s')
      AbortOrFuel := by
  obtain ⟨hfix, hrun, ⟨⟨has, hpriv, hk⟩, -⟩⟩ := h
  have hhas := hrun.state
  rw [hw] at hhas
  obtain rfl := has_of_waiting hhas
  have hent := sameBooks_entered s .waitingMore
  have hne : QueryState.waitingMore ≠ .waiting := by decide
  have hrun' : Running R .dispatch (s.entered .waitingMore) := by
    refine hent.running hrun rfl (fun t ht => ?_)
    rw [hw] at ht
    exact live_more ht rfl
  have hnone : (s.entered .waitingMore).query.timeout .resultTimeout = none := by
    cases ht : s.query.timeout .resultTimeout with
    | none => exact ht
    | some w =>
        have hlive := hrun.timers .resultTimeout (by rw [ht]; rfl)
        rw [hw] at hlive
        exact absurd hlive (live_waiting rfl)
  simp only [armResultTimeout, sat_bind, sat_get, sat_ite, sat_pure]
  refine ⟨fun _ => ?_, fun _ => ⟨⟨hfix.entered _, hrun', ⟨has, hent.hasPriv hpriv, hk⟩,
    Or.inr (Or.inl hne)⟩, Or.inr hne⟩⟩
  refine (setTimeout_books env .resultTimeout hrun'.books hnone).mono (fun _ s' h' => ?_)
    OnlyAbort.weaken
  obtain ⟨hbooks, hframe⟩ := h'
  have hstate : s'.query.state = .waitingMore := hframe.state
  have hne' : s'.query.state ≠ .waiting := by rw [hstate]; exact hne
  refine ⟨⟨(hfix.entered _).frame hframe.toFrame, ⟨hbooks, ?_, ?_, ?_⟩, ⟨has, ?_, hk⟩,
    Or.inr (Or.inl hne')⟩, Or.inr hne'⟩
  · rw [hframe.cursor, hframe.length]; exact hrun'.cursor
  · rw [hstate]; rfl
  · intro t ht
    rw [hstate]
    by_cases hres : t = .resultTimeout
    · subst hres; rfl
    · rw [hframe.others t hres] at ht
      exact hrun'.timers t ht
  · have hpriv' := hent.hasPriv hpriv
    unfold HasPriv backendGetPriv at hpriv' ⊢
    rw [hframe.backends, hframe.cursor]
    exact hpriv'

/-! ### Leaving a backend -/

theorem Clean.move {s s' : St} (h : Clean R s) (hw : s'.query.watches = s.query.watches)
    (hn : s'.query.nfds = s.query.nfds) (ht : ∀ t, s'.query.timeout t = s.query.timeout t)
    (hb : s'.backends = s.backends) (hc : s'.context = s.context) : Clean R s' := by
  refine ⟨hw.trans h.watches, hn.trans h.nfds, fun t => (ht t).trans (h.timeout t), ?_, ?_, ?_, ?_⟩
  · rw [hb]; exact h.data
  · rw [hc]; exact h.total
  · rw [hc]; exact h.loop
  · rw [hc]; exact h.registered

theorem Ended.called {s : St} (h : Ended R s) : Ended R s.called := by
  unfold St.called
  split
  · exact ⟨h.clean.move rfl rfl (fun t => by cases t <;> rfl) rfl rfl, h.cursor, h.state⟩
  · exact h

theorem Fixed.called {s : St} (h : Fixed s₀ s) : Fixed s₀ s.called := by
  unfold St.called
  split
  · exact ⟨h.id, h.callback, h.type, h.requestTimeout, h.resultTimeout, h.shape, h.next⟩
  · exact h

theorem stages_done (k : Nat) (s : St) (h : (stages env R s₀).fin k .done s) :
    (s.query.state = .done → (stages env R s₀).rest k s) ∧ (s.query.state ≠ .done →
    Sat (leaveDone env) (s.entered .done)
      (fun found s' => if found then (stages env R s₀).ready (k + 1) s'
        else (stages env R s₀).rest k s'.called) AbortOrFuel) := by
  obtain ⟨hfix, hbooks, hc, hd, -⟩ := h
  refine ⟨fun hs => absurd hs hd, fun _ => ?_⟩
  have hent := sameBooks_entered s .done
  simp only [leaveDone, sat_bind]
  refine (cleanupQuery_clean env (hent.books hbooks) (Nat.le_of_lt hc)).mono (fun _ s₁ h₁ => ?_)
    OnlyAbort.weaken
  obtain ⟨hclean, hframe⟩ := h₁
  have hfix₁ := (hfix.entered .done).frame hframe
  have hlt : s₁.query.cursor < s₁.backends.length := by
    rw [hframe.cursor, hframe.length]; exact hc
  have hstate : s₁.query.state = .done := hframe.state
  obtain ⟨-, -, hfound, hend⟩ := nextMandatory_spec (s₁.backends.drop (s₁.query.cursor + 1))
    (s₁.query.cursor + 1)
  rw [List.length_drop] at hfound hend
  simp only [sat_get, if_pos hlt, sat_bind, modifyQuery, sat_modify, sat_pure]
  have hclean' : ∀ i, Clean R { s₁ with query := { s₁.query with cursor := i } } := fun i =>
    hclean.move rfl rfl (fun t => by cases t <;> rfl) rfl rfl
  have hfix' : ∀ i, Fixed s₀ { s₁ with query := { s₁.query with cursor := i } } := fun i =>
    ⟨hfix₁.id, hfix₁.callback, hfix₁.type, hfix₁.requestTimeout, hfix₁.resultTimeout,
      hfix₁.shape, hfix₁.next⟩
  cases hnext : (nextMandatory (s₁.backends.drop (s₁.query.cursor + 1)) (s₁.query.cursor + 1)).2 with
  | true =>
      have := hfound hnext
      refine ⟨hfix' _, hclean' _, ?_, ?_⟩
      · show (nextMandatory _ _).1 < s₁.backends.length
        omega
      · show s₁.query.state ≠ _
        rw [hstate]; decide
  | false =>
      have := hend hnext
      refine ⟨(hfix' _).called, Or.inr (Ended.called ⟨hclean' _, ?_, Or.inl hstate⟩)⟩
      show (nextMandatory _ _).1 = s₁.backends.length
      omega

theorem stages_leave (k : Nat) (s : St) (h : (stages env R s₀).fin k .failed s) :
    (s.query.state = .failed → (stages env R s₀).rest k s) ∧ (s.query.state ≠ .failed →
    Sat (leaveFailed env) (s.entered .failed)
      (fun found s' => if found then (stages env R s₀).ready k s'
        else (stages env R s₀).rest k s'.called) AbortOrFuel) := by
  obtain ⟨hfix, hbooks, hc, -, hd⟩ := h
  refine ⟨fun hs => absurd hs hd, fun _ => ?_⟩
  have hent := sameBooks_entered s .failed
  -- The message about data in a failed reply is all that can differ.
  have hmsg : Sat (if (s.entered .failed).query.response.paths ≠ []
      then observe (.error "Failed reply has data.") else pure ()) (s.entered .failed)
      (fun _ s' => Books R s' ∧ Fixed s₀ s' ∧ s'.query.cursor < s'.backends.length ∧
        s'.query.state = .failed) AbortOrFuel := by
    have hb := hent.books hbooks
    have hf := hfix.entered .failed
    split
    · exact ⟨SameBooks.books (s := s.entered .failed) ⟨rfl, rfl, fun t => by cases t <;> rfl,
        rfl, rfl, rfl, rfl, rfl, Nat.le_refl _⟩ hb,
        ⟨hf.id, hf.callback, hf.type, hf.requestTimeout, hf.resultTimeout, hf.shape, hf.next⟩, hc, rfl⟩
    · exact ⟨hb, hf, hc, rfl⟩
  simp only [leaveFailed, sat_bind, sat_get]
  refine hmsg.mono (fun _ s₁ h₁ => ?_) (fun _ _ he => he)
  obtain ⟨hbooks₁, hfix₁, hc₁, hs₁⟩ := h₁
  refine (cleanupQuery_clean env hbooks₁ (Nat.le_of_lt hc₁)).mono (fun _ s₂ h₂ => ?_)
    OnlyAbort.weaken
  obtain ⟨hclean, hframe⟩ := h₂
  have hfix₂ := hfix₁.frame hframe
  have hlt : s₂.query.cursor + 1 ≤ s₂.backends.length := by
    rw [hframe.cursor, hframe.length]; exact hc₁
  have hstate : s₂.query.state = .failed := hframe.state.trans hs₁
  simp only [nextBackend, currentBackend, modifyQuery, sat_bind, sat_modify, sat_get, if_pos hlt,
    sat_pure]
  have hclean' : Clean R { s₂ with query := { s₂.query with cursor := s₂.query.cursor + 1 } } :=
    hclean.move rfl rfl (fun t => by cases t <;> rfl) rfl rfl
  have hfix' : Fixed s₀ { s₂ with query := { s₂.query with cursor := s₂.query.cursor + 1 } } :=
    ⟨hfix₂.id, hfix₂.callback, hfix₂.type, hfix₂.requestTimeout, hfix₂.resultTimeout,
      hfix₂.shape, hfix₂.next⟩
  cases hnext : s₂.backends[s₂.query.cursor + 1]? with
  | some b =>
      refine ⟨hfix', hclean', (List.getElem?_eq_some_iff.mp hnext).1, ?_⟩
      show s₂.query.state ≠ _
      rw [hstate]; decide
  | none =>
      refine ⟨hfix'.called, Or.inr (Ended.called ⟨hclean', ?_, Or.inr hstate⟩)⟩
      have := List.getElem?_eq_none_iff.mp hnext
      show s₂.query.cursor + 1 = s₂.backends.length
      omega

theorem stages_called (k : Nat) (s : St) (h : (stages env R s₀).rest (k + 1) s) :
    (stages env R s₀).rest k s.called := by
  obtain ⟨hfix, hw | he⟩ := h
  · refine ⟨hfix.called, Or.inl ?_⟩
    unfold St.called
    split
    · exact ⟨SameBooks.books (s := s) ⟨rfl, rfl, fun t => by cases t <;> rfl, rfl, rfl, rfl, rfl,
        rfl, Nat.le_refl _⟩ hw.books, hw.cursor, hw.state, hw.timers⟩
    · exact hw
  · exact ⟨hfix.called, Or.inr he.called⟩

/-! ### Between two events -/

theorem stages_settled (k : Nat) (s : St) (h : (stages env R s₀).run k .setup [] s)
    (hs : s.query.state ≠ .setup) (he : s.query.state ≠ .error) :
    (stages env R s₀).rest k s := by
  obtain ⟨hfix, hrun, -⟩ := h
  refine ⟨hfix, Or.inl ⟨hrun.books, hrun.cursor, Or.inr (Or.inr ?_), fun t ht => ?_⟩⟩
  · have := hrun.state
    revert this hs he
    cases s.query.state <;> simp [Phase.has]
  · exact due_of_setup (hrun.timers t ht) he

theorem stages_woken (k : Nat) (s : St) (h : (stages env R s₀).run k .dispatch [] s)
    (hr : s.query.state ≠ .resolved) (he : s.query.state ≠ .error) :
    (stages env R s₀).rest k s := by
  obtain ⟨hfix, hrun, -⟩ := h
  have hstate : s.query.state = .waiting ∨ s.query.state = .waitingMore := by
    have := hrun.state
    revert this hr he
    cases s.query.state <;> simp [Phase.has]
  refine ⟨hfix, Or.inl ⟨hrun.books, hrun.cursor, ?_, fun t ht => ?_⟩⟩
  · rcases hstate with h1 | h2
    · exact Or.inl h1
    · exact Or.inr (Or.inl h2)
  · exact due_of_dispatch (hrun.timers t ht) hstate

theorem stages_fin {k : Nat} (ph : Phase) {s : St} {state : QueryState}
    (h : (stages env R s₀).run k ph [] s ∨ (stages env R s₀).rest k s)
    (hs : s.query.state = .resolved ∨ s.query.state = .error) :
    (stages env R s₀).fin k state s := by
  have hne : s.query.state ≠ .done ∧ s.query.state ≠ .failed := by
    rcases hs with hs | hs <;> rw [hs] <;> decide
  rcases h with ⟨hfix, hrun, -⟩ | ⟨hfix, hw | he⟩
  · exact ⟨hfix, hrun.books, hrun.cursor, hne⟩
  · exact ⟨hfix, hw.books, hw.cursor, hne⟩
  · rcases he.state with hd | hd
    · exact absurd hd hne.1
    · exact absurd hd hne.2

/-- **A query of well-behaved backends keeps its books through every state change.** -/
theorem stages_sound (henv : env.WellBehaved) : Sound env AbortOrFuel (stages env R s₀) where
  fuel _ := Or.inr rfl
  setUp := stages_setUp henv
  waiting k s h hs _ := stages_waiting k s h hs
  impatient _ s h hs _ := by
    obtain ⟨hfix, hrun, -⟩ := h
    exact ⟨hfix, hrun.books, hrun.cursor, by rw [hs]; decide, by rw [hs]; decide⟩
  finished := stages_finished
  failed := stages_failed
  alloc := stages_alloc
  quiet := stages_quiet
  addPath := stages_addPath
  store := stages_store
  more k ph rest s h _ hw _ := stages_more k ph rest s h hw
  zero k ph rest s _ hbold hw hz := by
    rcases hbold with h1 | h2
    · exact absurd hz h1
    · exact absurd hw h2
  done := stages_done
  leave := stages_leave
  called := stages_called
  settled := stages_settled
  woken := stages_woken
  succeeded _ _ h hs := stages_fin .dispatch (Or.inl h) (Or.inl hs)
  broken _ ph _ h hs := stages_fin ph h (Or.inr hs)

end

end Netresolve
