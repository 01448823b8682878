/-
A backend that says later what it has to say means all that it has said.

While the query waits, the response is what the backend has said so far, in the order in which it
was said.  A report of success, or the end of the time for more, hands exactly that to the
application; a report of failure, or the end of the time for the request, leaves the backend for
good, in the second case with all it has said still in the response.  An event of the backend is
followed call by call, as in `Proofs/Calls.lean`, here with all of the response.  The run is an
induction over the events.
-/
import Netresolve.Proofs.Chain
import Netresolve.Proofs.Shared

namespace Netresolve

open Outcome

/-! ### Runs of a backend -/

/--
The states between two events of a query whose first backend has this conduct, with its private data
and all that it has said.
-/
inductive Conducted {P ε : Type} (conduct : Conduct P ε) (env : Env) (s₀ : St) :
    P → List Call → St → Prop
  | start {env' : Env} {s : St} (hlike : env.Like env') (henv : env'.WellBehaved)
      (hsetup : env'.setup 0 = (conduct.setup s₀.query.request.prepared).2)
      (h : queryStart env' s₀ = .ok () s) :
      Conducted conduct env s₀ (conduct.setup s₀.query.request.prepared).1
        (conduct.setup s₀.query.request.prepared).2 s
  | spoke {p : P} {said : List Call} {s s' : St} {env' : Env} {w : Nat} {x : Watch} (e : ε)
      (hrun : Conducted conduct env s₀ p said s) (hlike : env.Like env')
      (henv : env'.WellBehaved) (hx : s.query.watches.find? (·.id = w) = some x)
      (hcb : x.callback = .backend 0) (hdispatch : env'.dispatch 0 = (conduct.dispatch p e).2)
      (h : queryDispatch env' w s = .ok () s') :
      Conducted conduct env s₀ (conduct.dispatch p e).1 (said ++ (conduct.dispatch p e).2) s'
  | other {p : P} {said : List Call} {s s' : St} {env' : Env} {w : Nat} {x : Watch}
      (hrun : Conducted conduct env s₀ p said s) (hlike : env.Like env')
      (henv : env'.WellBehaved) (hx : s.query.watches.find? (·.id = w) = some x)
      (hcb : x.callback ≠ .backend 0) (h : queryDispatch env' w s = .ok () s') :
      Conducted conduct env s₀ p said s'

/-- The backend is at work: it has not reported, and the response is what it has said. -/
structure Working (env : Env) (request : Request) (said : List Call) (s : St) : Prop
    extends Gathered 0 (written env request 0 said {}) s where
  asked : s.query.request = request
  state : s.query.state = .waiting ∨
    s.query.state = .waitingMore ∧ (written env request 0 said {}).paths ≠ []
  silent : lastReport none said = none

/-- The query has left its first backend, with this response. -/
def Gone (r : Response) (s : St) : Prop := Obs.enter .failed 0 r ∈ s.trace ∧ 0 < s.query.cursor

/-- Where a timer leads a query on `n` backends when what its first backend has said is this. -/
def TimesOut (n : Nat) (r : Response) : Timer → St → Prop
  | .requestTimeout, s => Gone r s
  | .resultTimeout, s => r.paths ≠ [] ∧ Answered 0 n r s
  | .delayed, _ => False

/-- Where a query on `n` backends stands when its first backend has said this. -/
inductive Progress (env : Env) (request : Request) (n : Nat) (said : List Call) (s : St) : Prop
  | working (h : Working env request said s)
  | answered (h : Handed 0 n (written env request 0 said {}) s)
      (hsaid : lastReport none said = some .finished ∨
        lastReport none said = none ∧ (written env request 0 said {}).paths ≠ [])
  | left {r : Response} (h : Gone r s) (hsaid : lastReport none said ≠ some .finished)

/-! ### What has been said -/

section

variable {env env' : Env} {request : Request} {i : Nat} {calls more : List Call} {r : Response}

theorem written_append : written env request i (calls ++ more) r =
    written env request i more (written env request i calls r) :=
  List.foldl_append

theorem lastReport_append (before : Option Call) :
    lastReport before (calls ++ more) = lastReport (lastReport before calls) more :=
  List.foldl_append

/-- Calls that report nothing leave the last report as it is. -/
theorem lastReport_idle {calls : List Call} (h : ∀ call ∈ calls, call.reports = false)
    (before : Option Call) : lastReport before calls = before := by
  induction calls with
  | nil => rfl
  | cons call rest ih =>
      show lastReport (if call.reports then some call else before) rest = before
      rw [h call (List.mem_cons_self ..), if_neg Bool.false_ne_true]
      exact ih fun c hc => h c (List.mem_cons_of_mem _ hc)

theorem onto_like (hlike : env.Like env') (call : Call) (r : Response) :
    call.onto env' request i r = call.onto env request i r := by
  have hcheck : checkReachability env' = checkReachability env := by
    funext path
    unfold checkReachability
    rw [hlike.reachable]
  cases call with
  | addPath a => simp only [Call.onto, hlike.services, hlike.sort, hcheck]
  | addNameInfo nodename => simp only [Call.onto, hlike.services]
  | _ => rfl

theorem written_like (hlike : env.Like env') (calls : List Call) : ∀ r : Response,
    written env' request i calls r = written env request i calls r := by
  induction calls with
  | nil => exact fun _ => rfl
  | cons call rest ih =>
      intro r
      show written env' request i rest (call.onto env' request i r) = _
      rw [onto_like hlike, ih]
      rfl

theorem insertAll_ne_nil (sort : Bool) (f : Path → Sourced Path) (paths : List Path) :
    ∀ stored : List (Sourced Path), stored ≠ [] ∨ paths ≠ [] →
    paths.foldl (fun stored path => insertPath sort (f path) stored) stored ≠ [] := by
  induction paths with
  | nil => exact fun _ h => h.resolve_right fun hne => hne rfl
  | cons path rest ih =>
      intro stored _
      refine ih _ (Or.inl fun (hnil : insertPath sort (f path) stored = []) => ?_)
      have := (insertPath_perm sort (f path) stored).length_eq
      rw [hnil] at this
      cases this

theorem onto_ne_nil (call : Call) (h : r.paths ≠ []) :
    (call.onto env request i r).paths ≠ [] := by
  cases call with
  | addPath a => exact insertAll_ne_nil _ _ _ _ (Or.inl h)
  | addNameInfo nodename =>
      simp only [Call.onto]
      split <;> exact h
  | _ => exact h

/-- Calls that add nothing leave the response as it is. -/
theorem written_idle {calls : List Call} : ∀ r : Response, (∀ call ∈ calls, call.adds = false) →
    written env request i calls r = r := by
  induction calls with
  | nil => exact fun _ _ => rfl
  | cons call rest ih =>
      intro r h
      have hcall : call.onto env request i r = r := by
        have hadds := h call (List.mem_cons_self ..)
        cases call <;> first | rfl | cases hadds
      show written env request i rest (call.onto env request i r) = r
      rw [hcall]
      exact ih r fun c hc => h c (List.mem_cons_of_mem _ hc)

/-- Paths stay. -/
theorem written_ne_nil (calls : List Call) : ∀ {r : Response}, r.paths ≠ [] →
    (written env request i calls r).paths ≠ [] := by
  induction calls with
  | nil => exact fun h => h
  | cons call rest ih => exact fun h => ih (onto_ne_nil call h)

end

/-! ### Entries that start and end nothing -/

/-- The trace is longer by such entries. -/
def Noted (s s' : St) : Prop := ∃ new, s'.trace = new ++ s.trace ∧ ∀ o ∈ new, o.plain

section

variable {env : Env} {s s' s'' : St}

theorem Noted.refl (s : St) : Noted s s := ⟨[], rfl, by simp⟩

theorem Noted.of_eq (h : s'.trace = s.trace) : Noted s s' := ⟨[], h, by simp⟩

theorem Noted.cons {o : Obs} (ho : o.plain) (h : s'.trace = o :: s.trace) : Noted s s' :=
  ⟨[o], h, by simpa using ho⟩

theorem Noted.trans (h : Noted s s') (h' : Noted s' s'') : Noted s s'' := by
  obtain ⟨new, htrace, hnew⟩ := h
  obtain ⟨new', htrace', hnew'⟩ := h'
  refine ⟨new' ++ new, ?_, fun o ho => ?_⟩
  · rw [htrace', htrace, List.append_assoc]
  · exact (List.mem_append.mp ho).elim (hnew' o) (hnew o)

theorem noted_reported (s : St) (call : Call) : Noted s (s.reported call) := .cons rfl rfl

theorem noted_toResolved (s : St) : Noted s s.toResolved := by
  unfold St.toResolved
  split
  · exact .refl s
  · exact .cons rfl rfl

theorem noted_toError (s : St) : Noted s s.toError := by
  unfold St.toError
  split
  · exact .refl s
  · exact .cons rfl rfl

/-- The answer is as it was, with another response. -/
theorem Gathered.noted {i : Nat} {r r' : Response} (h : Gathered i r s) (hn : Noted s s')
    (hcursor : s'.query.cursor = s.query.cursor) (hresponse : s'.query.response = r') :
    Gathered i r' s' := by
  obtain ⟨new, htrace, hnew⟩ := hn
  refine ⟨hcursor.trans h.cursor, hresponse, ?_, fun j hj => ?_⟩
  · rw [htrace, plains_calledBack hnew]
    exact h.called
  · rw [htrace, plains_entered hnew] at hj
    exact h.setups j hj

end

/-! ### The calls of a dispatch function -/

/-- The calls have been made, and the response is what they make of it. -/
structure Heeded (env : Env) (calls : List Call) (s s' : St) : Prop
    extends Heard env calls s s' where
  response : s'.query.response =
    written env s.query.request s.query.cursor calls s.query.response
  more : s'.query.state = .waitingMore →
    s.query.state = .waitingMore ∨ s'.query.response.paths ≠ []
  shape : s'.backends.map Backend.shape = s.backends.map Backend.shape
  noted : Noted s s'

section

variable {env : Env} {calls rest : List Call} {s s' s'' : St}

theorem Heeded.trans (h : Heeded env calls s s') (h' : Heeded env rest s' s'') :
    Heeded env (calls ++ rest) s s'' where
  toHeard := h.toHeard.trans h'.toHeard
  response := by rw [h'.response, h.response, h.cursor, h.request, written_append]
  more hs := by
    rcases h'.more hs with hmid | hne
    · refine (h.more hmid).imp_right fun hne => ?_
      rw [h'.response]
      exact written_ne_nil rest hne
    · exact Or.inr hne
  shape := h'.shape.trans h.shape
  noted := h.noted.trans h'.noted

/-- The records of one call. -/
theorem addPaths_noted (paths : List Path) : ∀ {s : St}, s.query.state.attending = true →
    s.query.request.resultTimeout ≠ 0 →
    Sat (forM paths (addPath env (querySetState env))) s (fun _ s' => Noted s s' ∧
      s'.backends.map Backend.shape = s.backends.map Backend.shape ∧
      (s'.query.state = .waitingMore → s.query.state = .waitingMore ∨ paths ≠ []))
      (fun _ _ => True) := by
  induction paths with
  | nil => exact fun _ _ => ⟨.refl _, rfl, Or.inl⟩
  | cons path rest ih =>
      intro s hs hresult
      have hstored : Noted s (s.stored env path) := .cons rfl rfl
      have hone : Sat (addPath env (querySetState env) path) s (fun _ s' => Noted s s' ∧
          s'.backends.map Backend.shape = s.backends.map Backend.shape) (fun _ _ => True) := by
        simp only [addPath, storePath, observe, modifyQuery, sat_bind, sat_get, sat_modify, sat_ite,
          sat_pure]
        refine ⟨fun hw => ?_, fun _ => ⟨hstored, trivial⟩⟩
        refine (enter_waitingMore (s := s.stored env path) hw hresult).mono (fun _ s' hf => ?_)
          (fun _ _ he => he)
        exact ⟨hstored.trans (.cons (o := .enter .waitingMore _ _) rfl hf.trace), hf.shape⟩
      rw [List.forM_cons, sat_bind]
      refine ((addPath_stocked hs hresult path).and hone).mono (fun _ s₁ h₁ => ?_)
        (fun _ _ _ => trivial)
      obtain ⟨h₁, hn₁, hshape₁⟩ := h₁
      refine (ih h₁.attending (by rw [h₁.request]; exact hresult)).mono (fun _ s₂ h₂ => ?_)
        (fun _ _ he => he)
      exact ⟨hn₁.trans h₂.1, h₂.2.1.trans hshape₁, fun _ => Or.inr (List.cons_ne_nil _ _)⟩

theorem runCall_heeded (hs : s.query.state.attending = true)
    (hresult : s.query.request.resultTimeout ≠ 0) {call : Call}
    (hcall : ∀ allocated, call ≠ .newPriv allocated) :
    Sat (runCall env (querySetState env) call) s (fun _ => Heeded env [call] s)
      (fun _ _ => True) := by
  have hheard : Sat (runCall env (querySetState env) call) s (fun _ => Heard env [call] s)
      (fun _ _ => True) := runCall_heard hs hresult hcall
  -- Calls that leave the response alone.
  have hquiet : ∀ {s' : St}, call.adds = false → s'.query.response = s.query.response →
      (s'.query.state = .waitingMore → s.query.state = .waitingMore) →
      s'.backends.map Backend.shape = s.backends.map Backend.shape → Noted s s' →
      Heard env [call] s s' → Heeded env [call] s s' := by
    intro s' hadds hresponse hmore hshape hn hh
    refine ⟨hh, ?_, fun hw => Or.inl (hmore hw), hshape, hn⟩
    rw [hresponse]
    cases call <;> first | rfl | simp [Call.adds] at hadds
  by_cases hadds : call.adds
  · rcases Call.adds_cases hadds with hd | ⟨a, rfl⟩
    · rw [sat_data _ hd] at hheard ⊢
      exact ⟨hheard, (Call.onto_data hd s.query).symm, Or.inl, rfl, .cons rfl rfl⟩
    · simp only [runCall, backendAddPath, observe, sat_bind, sat_get, sat_modify] at hheard ⊢
      have hstock := @addPaths_stocked env (pathsOf env.services s.query.request a)
        (s.reported (.addPath a)) hs hresult
      have hnoted := @addPaths_noted env (pathsOf env.services s.query.request a)
        (s.reported (.addPath a)) hs hresult
      refine (hheard.and (hstock.and hnoted)).mono (fun _ s' h => ?_) (fun _ _ _ => trivial)
      obtain ⟨hh, hstocked, hn, hshape, hmore⟩ := h
      refine ⟨hh, hstocked.response, fun hw => (hmore hw).imp_right fun hne => ?_, hshape,
        (noted_reported s _).trans hn⟩
      rw [hstocked.response]
      exact insertAll_ne_nil _ _ _ _ (Or.inr hne)
  · have hadds' : call.adds = false := by simpa using hadds
    have hframe : ∀ {x : M Unit}, Sat x (s.reported call) (fun _ => Frame (s.reported call))
        (fun _ _ => True) → Sat x (s.reported call) (fun _ => Heard env [call] s)
        (fun _ _ => True) → Sat x (s.reported call) (fun _ => Heeded env [call] s)
        (fun _ _ => True) := by
      intro x hf hh
      refine (hf.and hh).mono (fun _ s' h => ?_) (fun _ _ _ => trivial)
      exact hquiet hadds' h.1.response (fun hw => h.1.state.symm.trans hw) h.1.shape
        ((noted_reported s call).trans (.of_eq h.1.trace)) h.2
    cases call with
    | newPriv allocated => exact absurd rfl (hcall allocated)
    | watchAdd fd =>
        simp only [runCall, observe, sat_bind, sat_get, sat_modify] at hheard ⊢
        exact hframe ((keeps_callWatchAdd env fd _).mono (fun _ _ h => h)
          fun _ _ _ => trivial) hheard
    | watchRemove k doClose =>
        simp only [runCall, observe, sat_bind, sat_get, sat_modify] at hheard ⊢
        exact hframe ((keeps_callWatchRemove env k doClose _).mono (fun _ _ h => h)
          fun _ _ _ => trivial) hheard
    | finished =>
        simp only [runCall, observe, sat_bind, sat_get, sat_modify] at hheard ⊢
        refine (hheard.and (enter_resolved (s := s.reported .finished) hs)).mono (fun _ s' h => ?_)
          (fun _ _ _ => trivial)
        obtain ⟨hh, rfl⟩ := h
        refine hquiet rfl ?_ (fun hw => ?_) ?_ ((noted_reported s _).trans (noted_toResolved _)) hh
        · unfold St.toResolved
          split <;> rfl
        · unfold St.toResolved at hw
          split at hw
          · exact hw
          · cases hw
        · unfold St.toResolved
          split <;> rfl
    | failed =>
        simp only [runCall, observe, sat_bind, sat_get, sat_modify] at hheard ⊢
        refine (hheard.and (enter_error (s.reported .failed))).mono (fun _ s' h => ?_)
          (fun _ _ _ => trivial)
        obtain ⟨hh, rfl⟩ := h
        refine hquiet rfl ?_ (fun hw => ?_) ?_ ((noted_reported s _).trans (noted_toError _)) hh
        · unfold St.toError
          split <;> rfl
        · unfold St.toError at hw
          split at hw
          · exact hw
          · cases hw
        · unfold St.toError
          split <;> rfl
    | _ => simp [Call.adds] at hadds

/-- **A dispatch function writes what it says.** -/
theorem runCalls_heeded (calls : List Call) : ∀ {s : St}, s.query.state.attending = true →
    s.query.request.resultTimeout ≠ 0 → (∀ call ∈ calls, ∀ allocated, call ≠ .newPriv allocated) →
    Sat (runCalls env (querySetState env) calls) s (fun _ => Heeded env calls s)
      (fun _ _ => True) := by
  induction calls with
  | nil => exact fun hs _ _ => ⟨⟨rfl, rfl, hs, rfl, rfl, rfl⟩, rfl, Or.inl, rfl, .refl _⟩
  | cons call rest ih =>
      intro s hs hresult hcalls
      unfold runCalls
      rw [List.forM_cons, sat_bind]
      refine (runCall_heeded hs hresult (hcalls call List.mem_cons_self)).mono (fun _ s₁ h₁ => ?_)
        (fun _ _ he => he)
      refine (ih h₁.attending (by rw [h₁.request]; exact hresult)
        fun c hc => hcalls c (List.mem_cons_of_mem call hc)).mono (fun _ s₂ h₂ => ?_)
        (fun _ _ he => he)
      exact h₁.trans h₂

end

/-! ### The calls of a setup function -/

/-- The calls of a setup function, none of which is a success, have been made. -/
structure Opened (env : Env) (calls : List Call) (s s' : St) : Prop where
  cursor : s'.query.cursor = s.query.cursor
  request : s'.query.request = s.query.request
  shape : s'.backends.map Backend.shape = s.backends.map Backend.shape
  state : s'.query.state = .setup ∨ s'.query.state = .error
  response : s'.query.response =
    written env s.query.request s.query.cursor calls s.query.response
  silent : s'.query.state = .setup → s.query.state = .setup ∧ lastReport none calls = none
  noted : Noted s s'

section

variable {env : Env} {calls rest : List Call} {call : Call} {s s' s'' : St}

theorem Opened.trans (h : Opened env calls s s') (h' : Opened env rest s' s'') :
    Opened env (calls ++ rest) s s'' where
  cursor := h'.cursor.trans h.cursor
  request := h'.request.trans h.request
  shape := h'.shape.trans h.shape
  state := h'.state
  response := by rw [h'.response, h.response, h.cursor, h.request, written_append]
  silent hs := by
    obtain ⟨hmid, hrest⟩ := h'.silent hs
    obtain ⟨hfirst, hcalls⟩ := h.silent hmid
    exact ⟨hfirst, by rw [lastReport_append, hcalls, hrest]⟩
  noted := h.noted.trans h'.noted

/-- A call that changes nothing that is read here. -/
theorem opened_frame (hcall : call.adds = false ∧ call.reports = false)
    (hs : s.query.state = .setup ∨ s.query.state = .error) (hf : Frame (s.reported call) s') :
    Opened env [call] s s' where
  cursor := hf.cursor
  request := hf.request
  shape := hf.shape
  state := by rw [hf.state]; exact hs
  response := by
    refine hf.response.trans ?_
    cases call <;> first | rfl | simp [Call.adds] at hcall
  silent hs' := ⟨hf.state.symm.trans hs', by simp [lastReport, hcall.2]⟩
  noted := (noted_reported s call).trans (.of_eq hf.trace)

/-- A call that makes the query enter ERROR. -/
theorem opened_error (hcall : call.adds = false) (hf : Frame (s.reported call) s') :
    Opened env [call] s s'.toError := by
  have hresponse : s.query.response =
      written env s.query.request s.query.cursor [call] s.query.response := by
    cases call <;> first | rfl | simp [Call.adds] at hcall
  have hnoted : Noted s s' := (noted_reported s call).trans (.of_eq hf.trace)
  by_cases hs : s'.query.state = .error
  · rw [show s'.toError = s' from if_pos hs]
    exact ⟨hf.cursor, hf.request, hf.shape, Or.inr hs, hf.response.trans hresponse,
      fun hs' => absurd (hs.symm.trans hs') (by decide), hnoted⟩
  · rw [show s'.toError = s'.entered .error from if_neg hs]
    exact ⟨hf.cursor, hf.request, hf.shape, Or.inr rfl, hf.response.trans hresponse,
      fun hs' => QueryState.noConfusion hs', hnoted.trans (.cons rfl rfl)⟩

theorem sat_error (fuel : Nat) (s : St) :
    Sat (setState env fuel .error) s (fun _ s' => s' = s.toError) (fun _ _ => True) := by
  cases fuel with
  | zero => trivial
  | succ fuel =>
      simp only [Netresolve.setState, enterState, modifyQuery, observe, sat_bind, sat_get, sat_ite,
        sat_modify, sat_pure]
      unfold St.toError
      exact ⟨fun h => (if_pos h.symm).symm, fun h => (if_neg fun hs => h hs.symm).symm⟩

theorem runCall_opened (fuel : Nat) (hs : s.query.state = .setup ∨ s.query.state = .error)
    (hcall : call ≠ .finished) :
    Sat (runCall env (setState env fuel) call) s (fun _ => Opened env [call] s)
      (fun _ _ => True) := by
  by_cases hadds : call.adds
  · have hne : s.query.state ≠ .waiting := by rcases hs with hs | hs <;> rw [hs] <;> decide
    refine (sat_onto hadds hne).mono (fun _ s' h => ?_) (fun _ _ (he : True) => he)
    refine ⟨by rw [h.query], by rw [h.query], by rw [h.backends], by rw [h.state]; exact hs, ?_,
      fun hs' => ⟨h.state.symm.trans hs', ?_⟩, h.trace⟩
    · rw [h.query]
      rfl
    · cases call <;> first | rfl | simp [Call.adds] at hadds
  · cases call with
    | newPriv allocated =>
        simp only [runCall, backendNewPriv, observe, sat_bind, sat_get, sat_modify]
        refine (keeps_allocPriv allocated (s.reported (.newPriv allocated))).mono
          (fun _ s' hf => ?_) (fun _ _ _ => trivial)
        cases allocated with
        | true => exact opened_frame ⟨rfl, rfl⟩ hs hf
        | false =>
            refine (sat_error fuel s').mono (fun _ s'' h => ?_) (fun _ _ he => he)
            subst h
            exact opened_error rfl hf
    | watchAdd fd =>
        simp only [runCall, observe, sat_bind, sat_get, sat_modify]
        exact (keeps_callWatchAdd env fd (s.reported (.watchAdd fd))).mono
          (fun _ _ hf => opened_frame ⟨rfl, rfl⟩ hs hf) (fun _ _ _ => trivial)
    | watchRemove k doClose =>
        simp only [runCall, observe, sat_bind, sat_get, sat_modify]
        exact (keeps_callWatchRemove env k doClose (s.reported (.watchRemove k doClose))).mono
          (fun _ _ hf => opened_frame ⟨rfl, rfl⟩ hs hf) (fun _ _ _ => trivial)
    | finished => exact absurd rfl hcall
    | failed =>
        simp only [runCall, observe, sat_bind, sat_get, sat_modify]
        refine (sat_error fuel (s.reported .failed)).mono (fun _ s' h => ?_) (fun _ _ he => he)
        subst h
        exact opened_error rfl (Frame.refl (s.reported .failed))
    | _ => simp [Call.adds] at hadds

theorem runCalls_opened (fuel : Nat) (calls : List Call) : ∀ {s : St},
    s.query.state = .setup ∨ s.query.state = .error → (∀ call ∈ calls, call ≠ .finished) →
    Sat (runCalls env (setState env fuel) calls) s (fun _ => Opened env calls s)
      (fun _ _ => True) := by
  induction calls with
  | nil => exact fun hs _ => ⟨rfl, rfl, rfl, hs, rfl, fun hs' => ⟨hs', rfl⟩, .refl _⟩
  | cons call rest ih =>
      intro s hs hcalls
      unfold runCalls
      rw [List.forM_cons, sat_bind]
      refine (runCall_opened fuel hs (hcalls call List.mem_cons_self)).mono (fun _ s₁ h₁ => ?_)
        (fun _ _ he => he)
      refine (ih h₁.state fun c hc => hcalls c (List.mem_cons_of_mem call hc)).mono
        (fun _ s₂ h₂ => ?_) (fun _ _ he => he)
      exact h₁.trans h₂

/-! ### Leaving the backend -/

/-- FAILED leaves the backend for good. -/
theorem sat_fails {fuel : Nat} (hn : levels .failed (room s) ≤ fuel)
    (hne : s.query.state ≠ .failed) :
    Sat (setState env fuel .failed) s
      (fun _ s' => Obs.enter .failed s.query.cursor s.query.response ∈ s'.trace ∧
        s.query.cursor < s'.query.cursor ∧ s'.backends.length = s.backends.length)
      (fun _ _ => True) := by
  cases fuel with
  | zero => trivial
  | succ fuel =>
      let o := Obs.enter .failed s.query.cursor s.query.response
      simp only [Netresolve.setState, sat_bind, sat_get, if_neg (Ne.symm hne), modifyQuery, observe,
        sat_modify, enterState, enterFailed]
      refine (@leaveFailed_visible env (s.entered .failed)).mono (fun found s' h => ?_)
        (fun _ _ _ => trivial)
      obtain ⟨s₁, hf, -, rfl, rfl⟩ := h
      have hquery : (s.entered .failed).warned.query = (s.entered .failed).query := by
        rcases warned_cases (s.entered .failed) with hw | hw <;> rw [hw]
      have hcur : s₁.query.cursor = s.query.cursor := by rw [hf.cursor, hquery]; rfl
      have hstate : s₁.query.state = .failed := by rw [hf.state, hquery]; rfl
      have hlength : s₁.backends.length = s.backends.length := by
        rw [hf.length]
        rcases warned_cases (s.entered .failed) with hw | hw <;> rw [hw] <;> rfl
      have hmem : o ∈ s₁.trace := by
        rw [hf.trace]
        exact (logged_invariant o env).warned List.mem_cons_self
      by_cases hlt : s₁.query.cursor + 1 < s₁.backends.length
      · simp only [hlt, decide_true, if_true]
        have hsound := (loose_sound env).extend (logged_invariant o env).toExtends
        have hready : (loose.and (always fun s => o ∈ s.trace)).ready 0
            (s₁.moved (s₁.query.cursor + 1)) :=
          ⟨⟨hlt, by show s₁.query.state ≠ .setup; rw [hstate]; decide⟩, hmem⟩
        have henough : levels .setup (room (s₁.moved (s₁.query.cursor + 1))) ≤ fuel := by
          simp only [levels, room, St.moved] at hn ⊢
          omega
        refine (((hsound.setState fuel).setup 0 _ hready).and
          (setState_enough env fuel .setup _ henough)).mono (fun _ s₂ h₂ => ?_)
          (fun _ _ _ => trivial)
        have hcur₂ : s₁.query.cursor + 1 ≤ s₂.query.cursor := h₂.2.cursor
        exact ⟨h₂.1.2, by omega, h₂.2.length.trans hlength⟩
      · simp only [hlt, decide_false, Bool.false_eq_true, if_false, sat_invokeCallback]
        refine ⟨(logged_invariant o env).called hmem, ?_, ?_⟩
        · rw [called_query]
          show s.query.cursor < s₁.query.cursor + 1
          omega
        · refine Eq.trans ?_ hlength
          unfold St.called
          split <;> rfl

theorem Gone.changes {r : Response} (h : Gone r s) {fuel : Nat} {state : QueryState}
    (hs : state = .done ∨ state = .failed) (hn : levels state (room s) ≤ fuel) :
    Sat (setState env fuel state) s (fun _ => Gone r) (fun _ _ => True) := by
  obtain ⟨hmem, hc⟩ := h
  have hsound := (loose_sound env).extend (logged_invariant (.enter .failed 0 r) env).toExtends
  have hlogged : Sat (setState env fuel state) s
      (fun _ s' => Obs.enter .failed 0 r ∈ s'.trace) (fun _ _ => True) := by
    rcases hs with rfl | rfl
    · exact ((hsound.setState fuel).done 0 s ⟨trivial, hmem⟩).mono (fun _ _ h => h.2)
        (fun _ _ _ => trivial)
    · exact ((hsound.setState fuel).failed 0 s ⟨trivial, hmem⟩).mono (fun _ _ h => h.2)
        (fun _ _ _ => trivial)
  refine (hlogged.and (setState_enough env fuel state s hn)).mono (fun _ s' h => ?_)
    (fun _ _ _ => trivial)
  have hcur : s.query.cursor ≤ s'.query.cursor := h.2.cursor
  exact ⟨h.1, by omega⟩

theorem levels_nesting (state : QueryState) (s : St) : levels state (room s) ≤ nesting s := by
  unfold room nesting
  cases state <;> simp only [levels] <;> omega

/-- The tests at the end of `netresolve_query_dispatch`. -/
theorem Gone.tests {r : Response} (h : Gone r s) :
    Sat (whenState .resolved (querySetState env .done)) s
      (fun _ s' => Sat (whenState .error (querySetState env .failed)) s' (fun _ => Gone r)
        (fun _ _ => True)) (fun _ _ => True) := by
  have htail : ∀ {s' : St}, Gone r s' → Sat (whenState .error (querySetState env .failed)) s'
      (fun _ => Gone r) (fun _ _ => True) := by
    intro s' h'
    simp only [sat_whenState, querySetState, sat_bind, sat_get]
    exact ⟨fun _ => h'.changes (Or.inr rfl) (levels_nesting _ _), fun _ => h'⟩
  rw [sat_whenState]
  refine ⟨fun _ => ?_, fun _ => htail h⟩
  simp only [querySetState, sat_bind, sat_get]
  exact (h.changes (Or.inl rfl) (levels_nesting _ _)).mono (fun _ _ h' => htail h')
    (fun _ _ he => he)

theorem Gone.event {r : Response} (h : Gone r s) {w : Nat} {x : Watch}
    (hx : s.query.watches.find? (·.id = w) = some x) :
    Sat (queryDispatch env w) s (fun _ => Gone r) (fun _ _ => True) := by
  obtain ⟨hmem, hc⟩ := h
  have hinv := logged_invariant (.enter .failed 0 r) env
  have hlogged := loose_dispatch hinv.toExtends hx (by
    cases x.callback with
    | backend i => exact hmem
    | timeout t => exact ⟨fun _ s₁ hf => hinv.frame hf hmem, fun s₁ _ h₁ _ => h₁⟩) hmem
  refine (hlogged.and (queryDispatch_fueled env w s)).mono (fun _ s' h => ?_)
    (fun _ _ _ => trivial)
  have hcur : s.query.cursor ≤ s'.query.cursor := h.2.cursor
  exact ⟨h.1, by omega⟩

end

/-! ### Handing the answer over -/

section

variable {env env' : Env} {request : Request} {said calls : List Call} {n w : Nat} {s : St}
  {x : Watch} {R : List Nat}

theorem sat_hands {i fuel : Nat} {r : Response} (h : Gathered i r s)
    (hno : ∀ b ∈ s.backends, b.mandatory = false) (hn : s.backends.length = n)
    (hne : s.query.state ≠ .done) :
    Sat (setState env fuel .done) s (fun _ => Handed i n r) (fun _ _ => True) := by
  cases fuel with
  | zero => trivial
  | succ fuel =>
      simp only [Netresolve.setState, sat_bind, sat_get, if_neg (Ne.symm hne), modifyQuery, observe,
        sat_modify, enterState, enterDone]
      refine (@leaveDone_visible env (s.entered .done)).mono (fun found s' h' => ?_)
        (fun _ _ _ => trivial)
      obtain ⟨s₁, hf, hlt, rfl, rfl⟩ := h'
      rw [afterDone_none (mandatory_of_shape hf.shape hno) hlt, hf.length]
      simp only [Bool.false_eq_true, if_false, sat_pure, sat_invokeCallback]
      exact hn ▸ h.hand hf

theorem lastReport_ne_finished (calls : List Call) : ∀ before : Option Call,
    before ≠ some .finished → (∀ call ∈ calls, call ≠ .finished) →
    lastReport before calls ≠ some .finished := by
  induction calls with
  | nil => exact fun _ h _ => h
  | cons call rest ih =>
      intro before h hcalls
      refine ih _ ?_ fun c hc => hcalls c (List.mem_cons_of_mem _ hc)
      have hcall := hcalls call List.mem_cons_self
      show (if call.reports then some call else before) ≠ some .finished
      split
      · exact fun heq => hcall (Option.some.inj heq)
      · exact h

/-! ### One event -/

theorem attending_cases {state : QueryState} (h : state.attending = true) :
    state = .waiting ∨ state = .waitingMore ∨ state = .resolved ∨ state = .error := by
  cases state <;> simp [QueryState.attending] at h ⊢

/-- An event of the backend at work. -/
theorem Working.speaks (h : Working env request said s) (hlike : env.Like env')
    (henv : env'.WellBehaved) (hresult : request.resultTimeout ≠ 0)
    (hno : ∀ b ∈ s.backends, b.mandatory = false) (hn : s.backends.length = n)
    (hx : s.query.watches.find? (·.id = w) = some x) (hcb : x.callback = .backend 0) :
    Sat (queryDispatch env' w) s
      (fun _ => Progress env request n (said ++ env'.dispatch 0)) (fun _ _ => True) := by
  have hattending : s.query.state.attending = true := by
    rcases h.state with hs | ⟨hs, -⟩ <;> rw [hs] <;> rfl
  have hreport : s.query.state.report = none := by
    rcases h.state with hs | ⟨hs, -⟩ <;> rw [hs] <;> rfl
  have hpriv : ∀ call ∈ env'.dispatch 0, ∀ allocated, call ≠ .newPriv allocated :=
    fun call hcall allocated heq => keepsWatches_true (henv.dispatch 0) allocated (heq ▸ hcall)
  simp only [queryDispatch, sat_bind, sat_get, hx, hcb, watchCallback]
  refine (runCalls_heeded (env'.dispatch 0) hattending (by rw [h.asked]; exact hresult) hpriv).mono
    (fun _ s₁ h₁ => ?_) (fun _ _ he => he)
  have hresponse : s₁.query.response = written env request 0 (said ++ env'.dispatch 0) {} := by
    rw [h₁.response, h.asked, h.cursor, h.response, written_like hlike, written_append]
  have hgathered := h.toGathered.noted h₁.noted h₁.cursor hresponse
  have hsaid : lastReport none (said ++ env'.dispatch 0) = s₁.query.state.report := by
    rw [lastReport_append, h.silent, h₁.report, hreport]
  have hno₁ := mandatory_of_shape h₁.shape hno
  have hn₁ : s₁.backends.length = n := by
    rw [← hn]
    simpa using congrArg List.length h₁.shape
  have hlater : s₁.query.state = .waiting ∨ s₁.query.state = .waitingMore →
      (s₁.query.state = .waitingMore →
        (written env request 0 (said ++ env'.dispatch 0) {}).paths ≠ []) →
      Working env request (said ++ env'.dispatch 0) s₁ := fun hs hmore =>
    ⟨hgathered, h₁.request.trans h.asked, hs.imp_right fun hs => ⟨hs, hmore hs⟩, by
      rw [hsaid]
      rcases hs with hs | hs <;> rw [hs] <;> rfl⟩
  simp only [sat_whenState]
  rcases attending_cases h₁.attending with hs | hs | hs | hs
  · have hr : s₁.query.state ≠ .resolved := by rw [hs]; decide
    have he : s₁.query.state ≠ .error := by rw [hs]; decide
    refine ⟨fun hc => absurd hc hr, fun _ => ⟨fun hc => absurd hc he, fun _ => ?_⟩⟩
    exact .working (hlater (Or.inl hs) fun hc => absurd (hs.symm.trans hc) (by decide))
  · have hr : s₁.query.state ≠ .resolved := by rw [hs]; decide
    have he : s₁.query.state ≠ .error := by rw [hs]; decide
    refine ⟨fun hc => absurd hc hr, fun _ => ⟨fun hc => absurd hc he, fun _ => ?_⟩⟩
    refine .working (hlater (Or.inr hs) fun _ => ?_)
    rcases h₁.more hs with hold | hne
    · rcases h.state with hw | ⟨-, hne⟩
      · exact absurd (hold.symm.trans hw) (by decide)
      · rw [written_append]
        exact written_ne_nil _ hne
    · rwa [hresponse] at hne
  · refine ⟨fun _ => ?_, fun hc => absurd hs hc⟩
    simp only [querySetState, sat_bind, sat_get]
    refine (sat_hands hgathered hno₁ hn₁ (by rw [hs]; decide)).mono (fun _ s₂ h₂ => ?_)
      (fun _ _ he => he)
    have he : s₂.query.state ≠ .error := by rw [h₂.state]; decide
    refine ⟨fun hc => absurd hc he, fun _ => .answered h₂ (Or.inl ?_)⟩
    rw [hsaid, hs]
    rfl
  · have hr : s₁.query.state ≠ .resolved := by rw [hs]; decide
    refine ⟨fun hc => absurd hc hr, fun _ => ⟨fun _ => ?_, fun hc => absurd hs hc⟩⟩
    simp only [querySetState, sat_bind, sat_get]
    refine (sat_fails (levels_nesting _ _) (by rw [hs]; decide)).mono (fun _ s₂ h₂ => ?_)
      (fun _ _ he => he)
    rw [hgathered.cursor] at h₂
    refine .left (r := s₁.query.response) ⟨h₂.1, h₂.2.1⟩ ?_
    rw [hsaid, hs]
    decide

/-- A timer of a query whose backend is at work. -/
theorem Working.expires (h : Working env request said s) {t : Timer}
    (hno : ∀ b ∈ s.backends, b.mandatory = false) (hn : s.backends.length = n)
    (hx : s.query.watches.find? (·.id = w) = some x) (hcb : x.callback = .timeout t) :
    Sat (queryDispatch env' w) s
      (fun _ s' => TimesOut n (written env request 0 said {}) t s' ∧ Progress env request n said s')
      (fun _ _ => True) := by
  simp only [queryDispatch, sat_bind, sat_get, hx, hcb]
  refine sat_timeout s t _ ?_
  refine (expire_visible t s).mono (fun _ s₁ h₁ => ?_) (fun _ _ _ => trivial)
  obtain ⟨hf, hdue⟩ := h₁
  have hgathered := h.toGathered.frame hf
  have hstate : s.query.state = .waiting ∨ s.query.state = .waitingMore :=
    h.state.imp_right And.left
  simp only [querySetState, sat_bind, sat_get]
  cases t with
  | delayed =>
      rw [due_delayed] at hdue
      rcases hstate with hs | hs <;> rw [hs] at hdue <;> cases hdue
  | requestTimeout =>
      have hne : s₁.query.state ≠ .failed := by
        rw [hf.state]
        rcases hstate with hs | hs <;> rw [hs] <;> decide
      refine (sat_fails (levels_nesting _ _) hne).mono (fun _ s₂ h₂ => ?_) (fun _ _ he => he)
      rw [hgathered.cursor, hgathered.response] at h₂
      have hgone : Gone (written env request 0 said {}) s₂ := ⟨h₂.1, h₂.2.1⟩
      have hsaid : lastReport none said ≠ some .finished := by
        rw [h.silent]
        decide
      have htests : Sat (whenState .resolved (querySetState env' .done)) s₂
          (fun _ s₃ => Sat (whenState .error (querySetState env' .failed)) s₃
            (fun _ => Gone (written env request 0 said {})) (fun _ _ => True))
          (fun _ _ => True) := hgone.tests
      refine htests.mono (fun _ s₃ h₃ => ?_) (fun _ _ he => he)
      exact h₃.mono (fun _ s₄ h₄ => ⟨h₄, .left h₄ hsaid⟩) (fun _ _ he => he)
  | resultTimeout =>
      rw [due_resultTimeout] at hdue
      have hpaths : (written env request 0 said {}).paths ≠ [] := by
        rcases h.state with hs | ⟨-, hne⟩
        · rw [hdue] at hs
          cases hs
        · exact hne
      have hno₁ := mandatory_of_shape hf.shape hno
      refine (sat_hands hgathered hno₁ (hf.length.trans hn) (by rw [hf.state, hdue]; decide)).mono
        (fun _ s₂ h₂ => ?_) (fun _ _ he => he)
      simp only [sat_whenState]
      have hr : s₂.query.state ≠ .resolved := by rw [h₂.state]; decide
      have he : s₂.query.state ≠ .error := by rw [h₂.state]; decide
      exact ⟨fun hc => absurd hc hr, fun _ => ⟨fun hc => absurd hc he, fun _ =>
        ⟨⟨hpaths, h₂.answered⟩, .answered h₂ (Or.inr ⟨h.silent, hpaths⟩)⟩⟩⟩

/-! ### The start -/

theorem sat_waits {fuel : Nat} (hne : s.query.state ≠ .waiting) :
    Sat (setState env fuel .waiting) s (fun _ => Frame (s.entered .waiting)) (fun _ _ => True) := by
  cases fuel with
  | zero => trivial
  | succ fuel =>
      simp only [Netresolve.setState, sat_bind, sat_get, if_neg (Ne.symm hne), modifyQuery, observe,
        sat_modify, enterState]
      exact (keeps_enterWaiting (s.entered .waiting)).mono (fun _ _ h => h) (fun _ _ _ => trivial)

/-- What the setup function of the first backend has said. -/
theorem Opened.starts {s₀ s₁ : St} {backend : Backend} (hfresh : Fresh s₀)
    (hlike : env.Like env') (h : Opened env' calls (s₀.setUp backend) s₁) :
    Gathered 0 (written env s₀.query.request.prepared 0 calls {}) s₁ ∧
      s₁.query.request = s₀.query.request.prepared ∧
      s₁.backends.length = s₀.backends.length := by
  have hfirst : Gathered 0 {} (s₀.setUp backend) := by
    refine ⟨hfresh.cursor, hfresh.response, ?_, fun j hj => ?_⟩
    · show ¬ CalledBack (.enter .setup s₀.query.cursor s₀.query.response :: s₀.trace)
      rw [hfresh.trace]
      rintro ⟨state, i, r, hmem⟩
      simp at hmem
    · have hj' : Entered .setup j
          (.enter .setup s₀.query.cursor s₀.query.response :: s₀.trace) := hj
      rw [hfresh.trace, hfresh.cursor] at hj'
      rcases (entered_enter ..).mp hj' with ⟨-, rfl⟩ | ⟨r, hmem⟩
      · exact Nat.le_refl 0
      · cases hmem
  have hlength : s₁.backends.length = s₀.backends.length := by
    have hshape := congrArg List.length h.shape
    rw [List.length_map, List.length_map] at hshape
    rw [hshape]
    exact List.length_modify ..
  refine ⟨hfirst.noted h.noted h.cursor ?_, h.request, hlength⟩
  have hresponse : s₁.query.response =
      written env' s₀.query.request.prepared s₀.query.cursor calls s₀.query.response := h.response
  rw [hresponse, hfresh.cursor, hfresh.response, written_like hlike]

/-- A query whose first backend has been set up. -/
theorem Fresh.progress {s₀ : St} (hfresh : Fresh s₀) (hne : s₀.backends ≠ [])
    (hlike : env.Like env') (hcalls : ∀ call ∈ env'.setup 0, call ≠ .finished) :
    Sat (queryStart env') s₀ (fun _ => Progress env s₀.query.request.prepared
      s₀.backends.length (env'.setup 0)) (fun _ _ => True) := by
  have hempty : s₀.backends.isEmpty = false := by simpa using hne
  have hstate : ¬ QueryState.setup = s₀.query.state := by rw [hfresh.state]; decide
  have hpos : 0 < s₀.backends.length := List.length_pos_iff.mpr hne
  obtain ⟨backend, hget⟩ : ∃ b, s₀.backends[s₀.query.cursor]? = some b := by
    rw [hfresh.cursor]
    exact ⟨_, List.getElem?_eq_getElem hpos⟩
  have hget' : (s₀.entered .setup).backends[(s₀.entered .setup).query.cursor]? = some backend :=
    hget
  have hsaid := lastReport_ne_finished (env'.setup 0) none (by decide) hcalls
  have hleave : ∀ {s₁ : St}, s₁.query.cursor = 0 → s₁.query.state ≠ .failed →
      s₁.backends.length = s₀.backends.length →
      Sat (setState env' (3 * s₀.backends.length + 2) .failed) s₁
        (fun _ s₂ => Gone s₁.query.response s₂ ∧ s₂.backends.length = s₀.backends.length)
        (fun _ _ => True) := by
    intro s₁ hc hs hlength
    have hn : levels .failed (room s₁) ≤ 3 * s₀.backends.length + 2 := by
      simp only [levels, room]
      omega
    refine (sat_fails hn hs).mono (fun _ s₂ h₂ => ?_) (fun _ _ he => he)
    rw [hc] at h₂
    exact ⟨⟨h₂.1, h₂.2.1⟩, h₂.2.2.trans hlength⟩
  simp only [queryStart, querySetState, sat_bind, sat_get, hempty, Bool.false_eq_true, if_false]
  rw [show nesting s₀ = (3 * s₀.backends.length + 2) + 1 from rfl]
  simp only [Netresolve.setState, sat_bind, sat_get, if_neg hstate, modifyQuery, observe,
    sat_modify, enterState]
  show Sat (Netresolve.enterSetup env' (setState env' (3 * s₀.backends.length + 2)))
    (s₀.entered .setup) _ _
  simp only [Netresolve.enterSetup, sat_bind, sat_currentBackend hget']
  simp only [sat_get, sat_bind, modifyQuery, modifyBackend, sat_modify, sat_ite]
  refine ⟨fun hp => ?_, fun hp => ?_⟩
  · show Sat (runCalls env' (setState env' (3 * s₀.backends.length + 2))
      (env'.setup s₀.query.cursor)) (s₀.setUp backend) _ _
    rw [hfresh.cursor]
    refine (runCalls_opened _ _ (Or.inl rfl) hcalls).mono (fun _ s₁ h₁ => ?_) (fun _ _ he => he)
    obtain ⟨hgathered, hrequest, hlength⟩ := h₁.starts hfresh hlike
    simp only [sat_whenState]
    rcases h₁.state with hs | hs
    · refine ⟨fun _ => ?_, fun hc => absurd hs hc⟩
      rw [sat_bind, sat_get]
      by_cases hz : s₁.query.request.requestTimeout = 0
      · rw [if_neg (not_not.mpr hz)]
        refine (hleave hgathered.cursor (by rw [hs]; decide) hlength).mono (fun _ s₂ h₂ => ?_)
          (fun _ _ he => he)
        obtain ⟨hgone, hlength₂⟩ := h₂
        refine ⟨fun _ => ?_, fun _ => .left hgone hsaid⟩
        have hn : levels .failed (room s₂) ≤ 3 * s₀.backends.length + 2 := by
          simp only [levels, room]
          omega
        exact (hgone.changes (Or.inr rfl) hn).mono (fun _ _ h₃ => .left h₃ hsaid)
          (fun _ _ he => he)
      · rw [if_pos hz]
        refine (sat_waits (by rw [hs]; decide)).mono (fun _ s₂ hf => ?_) (fun _ _ he => he)
        have hs₂ : s₂.query.state = .waiting := hf.state
        refine ⟨fun hc => absurd (hs₂.symm.trans hc) (by decide), fun _ => .working ?_⟩
        have hnoted : Noted s₁ s₂ := .cons (o := .enter .waiting _ _) rfl hf.trace
        exact ⟨hgathered.noted hnoted hf.cursor (hf.response.trans hgathered.response),
          hf.request.trans hrequest, Or.inl hs₂, (h₁.silent hs).2⟩
    · refine ⟨fun hc => absurd (hs.symm.trans hc) (by decide), fun _ => ⟨fun _ => ?_, fun hc =>
        absurd hs hc⟩⟩
      exact (hleave hgathered.cursor (by rw [hs]; decide) hlength).mono
        (fun _ _ h₂ => .left h₂.1 hsaid) (fun _ _ he => he)
  · have hs : (s₀.setUp backend).query.state = .setup := rfl
    have hlength : (s₀.setUp backend).backends.length = s₀.backends.length := List.length_modify ..
    have hleft := @hleave (s₀.setUp backend) hfresh.cursor (by rw [hs]; decide) hlength
    exact hleft.mono (fun _ _ h₂ => .left h₂.1 hsaid) (fun _ _ he => he)

end

/-! ### What a report means -/

section

variable {env : Env} {request : Request} {n : Nat} {said : List Call} {s : St}

/-- A backend that has reported success is answered with what it has said. -/
theorem Progress.success (h : Progress env request n said s)
    (hreport : lastReport none said = some .finished) :
    Answered 0 n (written env request 0 said {}) s := by
  cases h with
  | working h =>
      have hsilent := h.silent
      rw [hreport] at hsilent
      cases hsilent
  | answered h _ => exact h.answered
  | left _ hsaid => exact absurd hreport hsaid

/-- A backend that has reported a failure is left. -/
theorem Progress.failure (h : Progress env request n said s)
    (hreport : lastReport none said = some .failed) : Entered .failed 0 s.trace := by
  cases h with
  | working h =>
      have hsilent := h.silent
      rw [hreport] at hsilent
      cases hsilent
  | answered _ hsaid =>
      rw [hreport] at hsaid
      rcases hsaid with hsaid | ⟨hsaid, -⟩ <;> cases hsaid
  | left h _ => exact ⟨_, h.1⟩

/-- While there is no report, the backend is at work until a timer ends that. -/
theorem Progress.silent (h : Progress env request n said s) (hreport : lastReport none said = none) :
    let r := written env request 0 said {}
    Working env request said s ∨ r.paths ≠ [] ∧ Answered 0 n r s ∨ Entered .failed 0 s.trace := by
  intro r
  cases h with
  | working h => exact Or.inl h
  | answered h hsaid =>
      refine Or.inr (Or.inl ⟨?_, h.answered⟩)
      rcases hsaid with hsaid | ⟨-, hne⟩
      · rw [hreport] at hsaid
        cases hsaid
      · exact hne
  | left h _ => exact Or.inr (Or.inr ⟨_, h.1⟩)

/-- A backend that has said nothing leaves the response empty. -/
theorem Progress.idle (h : Progress env request n said s) (hreport : lastReport none said = none)
    (hidle : ∀ call ∈ said, call.adds = false) :
    s.query.state = .waiting ∧ s.query.response = {} ∧ ¬ CalledBack s.trace ∨
      Entered .failed 0 s.trace := by
  have hwritten : written env request 0 said {} = {} := written_idle {} hidle
  rcases h.silent hreport with hwork | ⟨hne, -⟩ | hleft
  · refine Or.inl ⟨hwork.state.resolve_right fun hmore => ?_, hwork.response.trans hwritten,
      hwork.called⟩
    exact hmore.2 (by rw [hwritten])
  · exact absurd (by rw [hwritten]) hne
  · exact Or.inr hleft

end

/-! ### Whole runs -/

section

variable {P ε : Type} {conduct : Conduct P ε} {env : Env} {s₀ s : St} {p : P} {said : List Call}

/-- A run of a backend is a run of the query. -/
theorem Conducted.reachable (h : Conducted conduct env s₀ p said s) :
    Reachable Env.WellBehaved Orderly s₀ s := by
  induction h with
  | start _ henv _ h => exact .start _ henv h
  | spoke _ _ _ henv hx _ _ h ih =>
      exact .step ih ⟨_, _, henv, ⟨_, List.mem_of_find?_eq_some hx, by
        simpa using List.find?_some hx⟩, h⟩
  | other _ _ henv hx _ h ih =>
      exact .step ih ⟨_, _, henv, ⟨_, List.mem_of_find?_eq_some hx, by
        simpa using List.find?_some hx⟩, h⟩

/-- How a query stands depends on what its first backend has said. -/
theorem Conducted.progress (hrun : Conducted conduct env s₀ p said s) (hfresh : Fresh s₀)
    (hno : ∀ b ∈ s₀.backends, b.mandatory = false)
    (hresult : s₀.query.request.resultTimeout ≠ 0)
    (hsetup : ∀ call ∈ (conduct.setup s₀.query.request.prepared).2, call ≠ .finished) :
    Progress env s₀.query.request.prepared s₀.backends.length said s := by
  have hrest : ∀ {p said s}, Conducted conduct env s₀ p said s → Fixed s₀ s ∧
      (Waits s₀.context.loop.registered s ∨ Ended s₀.context.loop.registered s) :=
    fun h => (h.reachable.tame hfresh hresult).rest hfresh
  induction hrun with
  | start hlike henv hcalls h =>
      rw [← hcalls] at hsetup ⊢
      exact (hfresh.progress (backends_ne_nil h) hlike hsetup).of_ok h
  | @spoke p said s s' env' w x e hrun hlike henv hx hcb hdispatch h ih =>
      obtain ⟨hfix, hwaits⟩ := hrest hrun
      have hmem : x ∈ s.query.watches := List.mem_of_find?_eq_some hx
      have hwaits : Waits s₀.context.loop.registered s :=
        hwaits.resolve_right fun hended => hended.no_watch hmem
      have hcursor : 0 = s.query.cursor := hwaits.books.mine x hmem 0 hcb
      rw [← hdispatch]
      cases ih with
      | working hwork =>
          exact (hwork.speaks hlike henv hresult (mandatory_of_shape hfix.shape hno) hfix.length hx
            hcb).of_ok h
      | answered hhanded _ =>
          rcases hwaits.state with hs | hs | hs <;> rw [hhanded.state] at hs <;> cases hs
      | left hgone _ =>
          have := hgone.2
          omega
  | @other p said s s' env' w x hrun hlike henv hx hcb h ih =>
      obtain ⟨hfix, hwaits⟩ := hrest hrun
      have hmem : x ∈ s.query.watches := List.mem_of_find?_eq_some hx
      have hwaits : Waits s₀.context.loop.registered s :=
        hwaits.resolve_right fun hended => hended.no_watch hmem
      cases ih with
      | working hwork =>
          cases hx' : x.callback with
          | backend i =>
              have hi := hwaits.books.mine x hmem i hx'
              rw [hwork.cursor] at hi
              exact absurd (hx'.trans (by rw [hi])) hcb
          | timeout t =>
              exact ((hwork.expires (mandatory_of_shape hfix.shape hno) hfix.length hx hx').of_ok
                h).2
      | answered hhanded _ =>
          rcases hwaits.state with hs | hs | hs <;> rw [hhanded.state] at hs <;> cases hs
      | left hgone hsaid => exact .left ((hgone.event hx).of_ok h) hsaid

/--
**What a backend says later is what the query is answered with.**  Once it has reported success,
exactly what it has said is handed to the application, and nothing else ever is.  Once it has
reported a failure the query has left it.  Before that the response is all it has said so far.  If
the time for more ends next, that is handed over; if the time for the request ends next, the backend
is left with that in the response.
-/
theorem later_answer (hfresh : Fresh s₀) (hno : ∀ b ∈ s₀.backends, b.mandatory = false)
    (hresult : s₀.query.request.resultTimeout ≠ 0)
    (hsetup : ∀ call ∈ (conduct.setup s₀.query.request.prepared).2, call ≠ .finished)
    (hrun : Conducted conduct env s₀ p said s) :
    let r := written env s₀.query.request.prepared 0 said {}
    let n := s₀.backends.length
    (lastReport none said = some .finished → Answered 0 n r s) ∧
    (lastReport none said = some .failed → Entered .failed 0 s.trace) ∧
    (lastReport none said = none →
      (s.query.state = .waiting ∨ s.query.state = .waitingMore) ∧ s.query.response = r ∧
        ¬ CalledBack s.trace ∧
        (∀ env' w x t s', s.query.watches.find? (·.id = w) = some x → x.callback = .timeout t →
          queryDispatch env' w s = .ok () s' → TimesOut n r t s') ∨
      r.paths ≠ [] ∧ Answered 0 n r s ∨ Entered .failed 0 s.trace) := by
  intro r n
  have hprogress := hrun.progress hfresh hno hresult hsetup
  refine ⟨hprogress.success, hprogress.failure, fun hreport => ?_⟩
  rcases hprogress.silent hreport with hwork | hanswered | hleft
  · have hfix := ((hrun.reachable.tame hfresh hresult).rest hfresh).1
    refine Or.inl ⟨hwork.state.imp_right And.left, hwork.response, hwork.called, ?_⟩
    intro env' w x t s' hx hcb hdispatch
    exact ((hwork.expires (mandatory_of_shape hfix.shape hno) hfix.length hx hcb).of_ok
      hdispatch).1
  · exact Or.inr (Or.inl hanswered)
  · exact Or.inr (Or.inr hleft)

end

/-- A backend that says what it finds, and the response that vouches for a path. -/
def piecemeal : Conduct Unit (List Call) where
  setup _ := ((), [.newPriv true, .watchAdd 5])
  dispatch _ calls := ((), calls)

def vouched : Env := { answersLater with dispatch := fun _ => [.setSecure, .finished] }

def oneBackendVouched : St := Outcome.final (queryDispatch vouched 1) oneBackendMore

theorem piecemeal_conducted : Conducted piecemeal {} oneBackend ()
    [.newPriv true, .watchAdd 5, .addPath oneAddress, .setSecure, .finished] oneBackendVouched := by
  have hlike : ∀ dispatch, Env.Like {} { answersLater with dispatch } := fun _ => ⟨rfl, rfl, rfl⟩
  have hadds : addsOnly.WellBehaved := ⟨fun _ => rfl, fun _ => rfl⟩
  have hvouched : vouched.WellBehaved := ⟨fun _ => rfl, fun _ => rfl⟩
  have hstart : Conducted piecemeal {} oneBackend () [.newPriv true, .watchAdd 5]
      oneBackendWaiting := .start (hlike answersLater.dispatch) answersLater_wellBehaved rfl rfl
  have hmore : Conducted piecemeal {} oneBackend () _ oneBackendMore :=
    .spoke (w := 1) [.addPath oneAddress] hstart (hlike addsOnly.dispatch) hadds rfl rfl rfl rfl
  exact .spoke (w := 1) [.setSecure, .finished] hmore (hlike vouched.dispatch) hvouched rfl rfl rfl
    (ok_of_returns rfl)

theorem later_answer_vouched :
    Answered 0 1 { onePathBy 0 with security := .secure } oneBackendVouched :=
  (later_answer oneBackend_fresh (by simp [oneBackend]) (by decide) (by simp [piecemeal])
    piecemeal_conducted).1 rfl

end Netresolve
