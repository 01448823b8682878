/-
A row of backends that answer at once means its first answer.

While the query is set up no timer is set and nobody else has written into the response, so all that
a setup function does can be followed call by call.  The induction is over the nesting of
`netresolve_query_set_state`: a backend without an answer leaves the query as it was, one position
further.  From the answer on only the delayed timer is left.
-/
import Netresolve.Core.Chain
import Netresolve.Proofs.Calls
import Netresolve.Proofs.Order
import Netresolve.Proofs.Response

namespace Netresolve

open Outcome

/-! ### The first answer -/

theorem firstReply_eq_none_iff (replies : List (Option (List Call))) : ∀ i : Nat,
    firstReply i replies = none ↔ ∀ reply ∈ replies, reply = none := by
  induction replies with
  | nil => simp [firstReply]
  | cons reply rest ih =>
      intro i
      cases reply with
      | none => simp [firstReply, ih (i + 1)]
      | some writes => simp [firstReply]

theorem firstReply_none {replies : List (Option (List Call))}
    (h : ∀ j, j < replies.length → replies[j]? = some none) : firstReply 0 replies = none := by
  rw [firstReply_eq_none_iff]
  intro reply hmem
  obtain ⟨j, hj, rfl⟩ := List.getElem_of_mem hmem
  have hnone := h j hj
  rw [List.getElem?_eq_getElem hj] at hnone
  exact Option.some.inj hnone

theorem firstReply_some : ∀ (replies : List (Option (List Call))) (i j : Nat) (writes : List Call),
    (∀ m, m < j → replies[m]? = some none) → replies[j]? = some (some writes) →
    firstReply i replies = some (i + j, writes) := by
  intro replies
  induction replies with
  | nil => intro i j writes _ h; simp at h
  | cons reply rest ih =>
      intro i j writes hbefore h
      cases j with
      | zero =>
          obtain rfl : reply = some writes := by simpa using h
          rfl
      | succ j =>
          obtain rfl : reply = none := by simpa using hbefore 0 (Nat.succ_pos _)
          have hrest := ih (i + 1) j writes
            (fun m hm => by simpa using hbefore (m + 1) (by omega)) (by simpa using h)
          simp only [firstReply, hrest, Option.some.injEq, Prod.mk.injEq, and_true]
          omega

theorem firstReply_lt {replies : List (Option (List Call))} : ∀ {k i : Nat} {writes : List Call},
    firstReply k replies = some (i, writes) → i < k + replies.length := by
  induction replies with
  | nil => intro k i writes h; cases h
  | cons reply rest ih =>
      intro k i writes h
      rw [List.length_cons]
      cases reply with
      | none =>
          have := ih h
          omega
      | some writes' =>
          obtain ⟨rfl, -⟩ := Prod.mk.inj (Option.some.inj h)
          omega

/-! ### The response of an answer -/

/-- The paths of an answer are the records of its calls. -/
theorem written_paths (env : Env) (request : Request) (i : Nat) : ∀ (writes : List Call)
    (r : Response), (∀ call ∈ writes, call.adds = true) →
    (written env request i writes r).paths = storedPaths env i request writes r.paths := by
  intro writes
  induction writes with
  | nil => intro r _; rfl
  | cons call rest ih =>
      intro r hadds
      have hrest := ih (call.onto env request i r)
        fun c hc => hadds c (List.mem_cons_of_mem _ hc)
      have hcall : (call.onto env request i r).paths =
          storedPaths env i request [call] r.paths := by
        have hadd := hadds call List.mem_cons_self
        cases call with
        | addPath a => simp [Call.onto, storedPaths, Call.path?]
        | addNameInfo nodename =>
            simp only [Call.onto]
            split <;> rfl
        | setCanonicalName _ | setDnsAnswer _ | setSecure => rfl
        | _ => simp [Call.adds] at hadd
      show (written env request i rest (call.onto env request i r)).paths = _
      rw [hrest, hcall]
      unfold storedPaths
      rw [← List.foldl_append, ← List.flatMap_append, ← List.filterMap_append]
      rfl

/-! ### Writing an answer -/

/-- The response has changed, and the trace is longer by entries that end nothing. -/
structure Wrote (s : St) (r : Response) (s' : St) : Prop where
  query : s'.query = { s.query with response := r }
  backends : s'.backends = s.backends
  trace : ∃ new, s'.trace = new ++ s.trace ∧ ∀ o ∈ new, o.plain

section

variable {env : Env} {f : QueryState → M Unit} {E : Fault → St → Prop} {s s' s'' : St}
  {r r' : Response}

theorem Wrote.refl (s : St) : Wrote s s.query.response s := ⟨rfl, rfl, [], rfl, by simp⟩

theorem Wrote.trans (h : Wrote s r s') (h' : Wrote s' r' s'') : Wrote s r' s'' := by
  obtain ⟨new, htrace, hnew⟩ := h.trace
  obtain ⟨new', htrace', hnew'⟩ := h'.trace
  refine ⟨?_, h'.backends.trans h.backends, new' ++ new, ?_, fun o ho => ?_⟩
  · rw [h'.query, h.query]
  · rw [htrace', htrace, List.append_assoc]
  · exact (List.mem_append.mp ho).elim (hnew' o) (hnew o)

theorem Wrote.state (h : Wrote s r s') : s'.query.state = s.query.state := by rw [h.query]

theorem wrote_reported (s : St) (call : Call) : Wrote s s.query.response (s.reported call) :=
  ⟨rfl, rfl, [_], rfl, by simp [Obs.plain]⟩

theorem wrote_stored (s : St) (path : Path) : Wrote s (s.stored env path).query.response
    (s.stored env path) :=
  ⟨rfl, rfl, [_], rfl, by simp [Obs.plain]⟩

/-- The records of one call, outside of state WAITING. -/
theorem sat_addPaths : ∀ (paths : List Path) (s : St), s.query.state ≠ .waiting →
    Sat (forM paths (addPath env f)) s (fun _ s' => Wrote s { s.query.response with
      paths := paths.foldl (fun paths path =>
        insertPath env.sort ⟨checkReachability env path, s.query.cursor⟩ paths)
        s.query.response.paths } s') E := by
  intro paths
  induction paths with
  | nil => intro s _; exact Wrote.refl s
  | cons path rest ih =>
      intro s hs
      simp only [List.forM_cons, sat_bind, addPath, storePath, observe, modifyQuery, sat_get,
        sat_modify, sat_ite, sat_pure]
      refine ⟨fun hw => absurd hw hs, fun _ => ?_⟩
      exact (ih (s.stored env path) hs).mono (fun _ s' h => (wrote_stored s path).trans h)
        (fun _ _ he => he)

theorem Call.adds_cases {call : Call} (h : call.adds) : call.data ∨ ∃ a, call = .addPath a := by
  cases call with
  | addPath a => exact Or.inr ⟨a, rfl⟩
  | setCanonicalName _ | addNameInfo _ | setDnsAnswer _ | setSecure => exact Or.inl rfl
  | _ => simp [Call.adds] at h

theorem Call.onto_data {call : Call} (h : call.data) (q : Query) :
    call.onto env q.request q.cursor q.response = call.answer env q := by
  cases call with
  | setCanonicalName _ | addNameInfo _ | setDnsAnswer _ | setSecure => rfl
  | _ => simp [Call.data] at h

theorem sat_onto {call : Call} (h : call.adds) (hs : s.query.state ≠ .waiting) :
    Sat (runCall env f call) s
      (fun _ => Wrote s (call.onto env s.query.request s.query.cursor s.query.response)) E := by
  rcases Call.adds_cases h with hd | ⟨a, rfl⟩
  · rw [sat_data f hd, Call.onto_data hd]
    exact ⟨rfl, rfl, [_], rfl, by simp [Obs.plain]⟩
  · simp only [runCall, backendAddPath, observe, sat_bind, sat_get, sat_modify]
    exact (sat_addPaths (f := f) _ (s.reported (.addPath a)) hs).mono
      (fun _ s' h => (wrote_reported s _).trans h) (fun _ _ he => he)

/-- All calls of an answer. -/
theorem sat_written : ∀ (writes : List Call) (s : St), (∀ call ∈ writes, call.adds = true) →
    s.query.state ≠ .waiting → Sat (runCalls env f writes) s (fun _ =>
      Wrote s (written env s.query.request s.query.cursor writes s.query.response)) E := by
  intro writes
  induction writes with
  | nil => intro s _ _; exact Wrote.refl s
  | cons call rest ih =>
      intro s hadds hs
      simp only [runCalls, List.forM_cons, sat_bind]
      refine (sat_onto (hadds call List.mem_cons_self) hs).mono (fun _ s₁ h => ?_)
        (fun _ _ he => he)
      have hrest := ih s₁ (fun c hc => hadds c (List.mem_cons_of_mem _ hc)) (by rwa [h.state])
      refine hrest.mono (fun _ s₂ h₂ => ?_) (fun _ _ he => he)
      rw [h.query] at h₂
      exact h.trans h₂

theorem runCalls_append (calls calls' : List Call) (s : St) (Q : Unit → St → Prop) :
    Sat (runCalls env f (calls ++ calls')) s Q E ↔
      Sat (runCalls env f calls) s (fun _ s' => Sat (runCalls env f calls') s' Q E) E := by
  induction calls generalizing s with
  | nil => exact Iff.rfl
  | cons call rest ih =>
      simp only [runCalls, List.cons_append, List.forM_cons, sat_bind]
      constructor <;> intro h <;> refine h.mono (fun _ s' h' => ?_) (fun _ _ he => he)
      · exact (ih s').mp h'
      · exact (ih s').mpr h'

theorem resolved_aside (old : QueryState) : Aside (enterResolved env old) := by
  unfold enterResolved openEventfd
  refine .ite (.bind (.bind .get fun s => ?_) fun _ => aside_setTimeout env _) (.pure _)
  exact .ite (aside_modifyContext fun _ => Nat.le_succ _) (aside_throw (by simp [Fault.mundane]))

end

/-! ### One backend after the other -/

/--
No backend before position `c` has an answer, none from position `d` on has been set up, and nothing
has been written.
-/
structure Undecided (replies : List (Option (List Call))) (request : Request) (c d : Nat) (s : St) :
    Prop where
  before : ∀ j, j < c → replies[j]? = some none
  request : s.query.request.prepared = request
  response : s.query.response = {}
  called : ¬ CalledBack s.trace
  setups : ∀ j, Entered .setup j s.trace → j < d

/-- The query has this answer of a backend, and the application has not been called. -/
structure Gathered (i : Nat) (r : Response) (s : St) : Prop where
  cursor : s.query.cursor = i
  response : s.query.response = r
  called : ¬ CalledBack s.trace
  setups : ∀ j, Entered .setup j s.trace → j ≤ i

/-- The backend has reported success with its answer. -/
structure Succeeded (i : Nat) (r : Response) (s : St) : Prop extends Gathered i r s where
  state : s.query.state = .resolved

/-- No backend watches anything. -/
def St.unwatched (s : St) : Prop := ∀ x ∈ s.query.watches, ∀ j, x.callback ≠ .backend j

/-- What setting the first backends up comes to. -/
inductive RowDone (env : Env) (request : Request) (replies : List (Option (List Call))) (n : Nat)
    (s : St) : Prop
  | answered (i : Nat) (writes : List Call) (h : firstReply 0 replies = some (i, writes))
      (hs : Succeeded i (written env request i writes {}) s) (hw : s.unwatched)
  | passed (h : firstReply 0 replies = none) (hlt : replies.length < n)
      (hs : Obs.enter .setup replies.length {} ∈ s.trace)
  | failed (h : firstReply 0 replies = none) (heq : replies.length = n)
      (hs : s.query.state = .failed ∧ s.query.response = {} ∧
        ∀ state j r, Obs.callback state j r ∈ s.trace → state = .failed ∧ r = {})

theorem plains_calledBack {new : List Obs} (hnew : ∀ o ∈ new, o.plain) (tr : List Obs) :
    CalledBack (new ++ tr) ↔ CalledBack tr := by
  induction new with
  | nil => exact Iff.rfl
  | cons o rest ih =>
      rw [List.cons_append, calledBack_plain (hnew o List.mem_cons_self)]
      exact ih fun o' ho' => hnew o' (List.mem_cons_of_mem _ ho')

theorem plains_entered {new : List Obs} (hnew : ∀ o ∈ new, o.plain) (j : Nat) (tr : List Obs) :
    Entered .setup j (new ++ tr) ↔ Entered .setup j tr := by
  induction new with
  | nil => exact Iff.rfl
  | cons o rest ih =>
      rw [List.cons_append, entered_plain (hnew o List.mem_cons_self) (Or.inl rfl)]
      exact ih fun o' ho' => hnew o' (List.mem_cons_of_mem _ ho')

section

variable {env : Env} {R : List Nat} {s₀ s s' : St} {replies : List (Option (List Call))}
  {request : Request} {c d : Nat}

theorem Undecided.setUp (h : Undecided replies request c c s) (hc : s.query.cursor = c)
    (backend : Backend) : Undecided replies request c (c + 1) (s.setUp backend) := by
  refine ⟨h.before, ?_, h.response, ?_, fun j hj => ?_⟩
  · rw [← h.request]
    exact prepared_prepared _
  · show ¬ CalledBack (.enter .setup _ _ :: s.trace)
    simpa using h.called
  · have hj' : Entered .setup j (.enter .setup s.query.cursor s.query.response :: s.trace) := hj
    rw [entered_enter] at hj'
    rcases hj' with ⟨-, rfl⟩ | hold
    · omega
    · exact Nat.lt_succ_of_lt (h.setups j hold)

/-- Entries that end nothing, and a response that is as empty as before. -/
theorem Undecided.plain (h : Undecided replies request c d s) (new : List Obs)
    (hnew : ∀ o ∈ new, o.plain) (hreq : s'.query.request = s.query.request)
    (hresp : s'.query.response = s.query.response) (htrace : s'.trace = new ++ s.trace) :
    Undecided replies request c d s' := by
  refine ⟨h.before, hreq ▸ h.request, hresp.trans h.response, ?_, fun j hj => ?_⟩
  · rw [htrace, plains_calledBack hnew]
    exact h.called
  · rw [htrace, plains_entered hnew] at hj
    exact h.setups j hj

/-- The calls of a backend that has an answer. -/
theorem sat_succeeds {writes : List Call} (hadds : ∀ call ∈ writes, call.adds = true) (fuel : Nat)
    (hs : s.query.state = .setup) :
    Sat (runCalls env (setState env fuel) (writes ++ [.finished])) s
      (fun _ s' => s'.query.state = .resolved ∧ s'.query.cursor = s.query.cursor ∧
        s'.query.response =
          written env s.query.request s.query.cursor writes s.query.response ∧
        s'.backends = s.backends ∧ ∃ new, s'.trace = new ++ s.trace ∧ ∀ o ∈ new, o.plain)
      (fun _ _ => True) := by
  rw [runCalls_append]
  refine (sat_written writes s hadds (by rw [hs]; decide)).mono (fun _ s₁ h => ?_)
    (fun _ _ (he : True) => he)
  have hs₁ : s₁.query.state = .setup := h.state.trans hs
  cases fuel with
  | zero => simp [runCalls, runCall, observe, Netresolve.setState]
  | succ fuel =>
      have hne : ¬ QueryState.resolved = s₁.query.state := by rw [hs₁]; decide
      simp only [runCalls, List.forM_cons, List.forM_nil, runCall, observe, Netresolve.setState,
        enterState, modifyQuery, sat_bind, sat_get, sat_modify, if_neg hne, sat_pure]
      refine (resolved_aside _ _).mono (fun _ s₂ hb => ?_) (fun _ _ _ => trivial)
      obtain ⟨new, htrace, hnew⟩ := h.trace
      refine ⟨hb.state, ?_, ?_, hb.backends.trans h.backends,
        .enter .resolved s₁.query.cursor s₁.query.response ::
          .report s₁.query.cursor .finished :: new, ?_, ?_⟩
      · refine hb.cursor.trans ?_
        show s₁.query.cursor = _
        rw [h.query]
      · refine hb.response.trans ?_
        show s₁.query.response = _
        rw [h.query]
      · refine hb.trace.trans ?_
        show _ :: _ :: s₁.trace = _
        rw [htrace]
        rfl
      · intro o ho
        rcases List.mem_cons.mp ho with rfl | ho
        · rfl
        · rcases List.mem_cons.mp ho with rfl | ho
          · rfl
          · exact hnew o ho

/-- The call of a backend that has none. -/
theorem sat_refuses (fuel : Nat) (hs : s.query.state = .setup) :
    Sat (runCalls env (setState env fuel) [.failed]) s
      (fun _ s' => s' = (s.reported .failed).entered .error) (fun _ _ => True) := by
  cases fuel with
  | zero => simp [runCalls, runCall, observe, Netresolve.setState]
  | succ fuel =>
      have hne : ¬ QueryState.error = s.query.state := by rw [hs]; decide
      simp only [runCalls, List.forM_cons, List.forM_nil, runCall, observe, Netresolve.setState,
        enterState, modifyQuery, sat_bind, sat_get, sat_modify, if_neg hne, sat_pure]
      rfl

/-- An entry stays in the trace. -/
theorem logged_invariant (o : Obs) : ∀ env, Invariant env fun s => o ∈ s.trace := by
  intro env
  constructor
  case frame => intro s s' hf h; rwa [hf.trace]
  case warned =>
    intro s h
    rcases warned_cases s with hw | hw <;> rw [hw]
    · exact h
    · exact List.mem_cons_of_mem _ h
  case called =>
    intro s h
    unfold St.called
    split
    · exact List.mem_cons_of_mem _ h
    · exact h
  case moved => exact fun _ h => h
  all_goals intros; exact List.mem_cons_of_mem _ ‹_›

/-- A backend behind the row is set up, with nothing in the response. -/
theorem sat_passes (fuel : Nat) (hne : s.query.state ≠ .setup)
    (hc : s.query.cursor < s.backends.length) :
    Sat (setState env fuel .setup) s
      (fun _ s' => Obs.enter .setup s.query.cursor s.query.response ∈ s'.trace)
      (fun _ _ => True) := by
  cases fuel with
  | zero => trivial
  | succ fuel =>
      let o := Obs.enter .setup s.query.cursor s.query.response
      have hsound := (loose_sound env).extend (logged_invariant o env).toExtends
      have hmem : ∀ backend, o ∈ (s.setUp backend).trace := fun _ => List.mem_cons_self
      simp only [Netresolve.setState, sat_bind, sat_get, if_neg (Ne.symm hne), modifyQuery,
        observe, sat_modify, enterState]
      have henter := hsound.enterSetup (k := 0) (hsound.setState fuel)
        (List.getElem?_eq_getElem hc) (fun _ => ⟨trivial, hmem _⟩) (fun _ => ⟨trivial, hmem _⟩)
      exact henter.mono (fun _ _ h => h.2) (fun _ _ _ => trivial)

theorem Immediate.reply (h : Immediate env s₀.query.request.type s₀.backends replies)
    (hfix : Fixed s₀ s) {backend : Backend} {reply : Option (List Call)}
    (hget : s.backends[s.query.cursor]? = some backend)
    (hreply : replies[s.query.cursor]? = some reply) :
    (backend.setup s.query.request.type = true → env.setup s.query.cursor = replyCalls reply) ∧
      (backend.setup s.query.request.type = false → reply = none) := by
  have hshape : (s₀.backends.map Backend.shape)[s.query.cursor]? = some backend.shape := by
    rw [← hfix.shape, List.getElem?_map, hget]
    rfl
  rw [List.getElem?_map] at hshape
  obtain ⟨b, hb, heq⟩ := Option.map_eq_some_iff.mp hshape
  have hsetup : b.setup = backend.setup := congrArg Prod.snd heq
  rw [hfix.type, ← hsetup]
  exact ⟨fun hp => h.calls _ b reply hb hp hreply, fun hp => h.absent _ b reply hb hp hreply⟩

/-- The state after a success, and that no backend has a watch in it. -/
theorem Undecided.succeeded (h : Undecided replies request c (c + 1) s) (hc : s.query.cursor = c)
    (hdata : ∀ b ∈ s.backends, b.data = none) {r : Response}
    (hrest : Waits R s' ∨ Ended R s') (hstate : s'.query.state = .resolved)
    (hcur : s'.query.cursor = s.query.cursor) (hresp : s'.query.response = r)
    (hback : s'.backends = s.backends)
    (htrace : ∃ new, s'.trace = new ++ s.trace ∧ ∀ o ∈ new, o.plain) :
    Succeeded c r s' ∧ s'.unwatched := by
  obtain ⟨new, htrace, hnew⟩ := htrace
  refine ⟨⟨⟨hcur.trans hc, hresp, ?_, fun j hj => ?_⟩, hstate⟩, fun x hx j hcb => ?_⟩
  · rw [htrace, plains_calledBack hnew]
    exact h.called
  · rw [htrace, plains_entered hnew] at hj
    exact Nat.lt_succ_iff.mp (h.setups j hj)
  · rcases hrest with hwaits | hended
    · have hpriv : (backendGetPriv s').isSome = true := hwaits.books.hasPriv hx hcb
      unfold backendGetPriv at hpriv
      rw [hback] at hpriv
      cases hb : s.backends[s'.query.cursor]? with
      | none => rw [hb] at hpriv; cases hpriv
      | some b =>
          rw [hb, Option.bind_some, hdata b (List.mem_of_getElem? hb)] at hpriv
          cases hpriv
    · exact hended.no_watch hx

/-- Entering FAILED goes on with the next backend, or ends the query. -/
theorem sat_moves (henv : env.WellBehaved) {fuel : Nat}
    (ih : ∀ s, (stages env R s₀).ready 0 s →
      Undecided replies request s.query.cursor s.query.cursor s →
      s.query.cursor ≤ replies.length → Sat (setState env fuel .setup) s
        (fun _ => RowDone env request replies s₀.backends.length) (fun _ _ => True))
    (hfin : (stages env R s₀).fin 0 .failed s)
    (h : Undecided replies request (s.query.cursor + 1) (s.query.cursor + 1) s)
    (hlen : s.query.cursor + 1 ≤ replies.length) (hn : replies.length ≤ s₀.backends.length) :
    Sat (setState env (fuel + 1) .failed) s
      (fun _ => RowDone env request replies s₀.backends.length) (fun _ _ => True) := by
  have hne : s.query.state ≠ .failed := hfin.2.2.2.2
  have hwarned : (s.entered .failed).warned = s.entered .failed := by
    unfold St.warned
    rw [if_neg]
    exact fun hp => hp (by rw [show (s.entered .failed).query.response = {} from h.response])
  simp only [Netresolve.setState, sat_bind, sat_get, if_neg (Ne.symm hne), modifyQuery, observe,
    sat_modify, enterState, enterFailed]
  have hleave := ((stages_sound henv).leave 0 s hfin).2 hne
  refine (hleave.and (leaveFailed_visible _)).mono (fun found s' h' => ?_) (fun _ _ _ => trivial)
  obtain ⟨hbase, s₁, hf, hle, rfl, rfl⟩ := h'
  rw [hwarned] at hf
  have hmoved : Undecided replies request (s.query.cursor + 1) (s.query.cursor + 1)
      (s₁.moved (s₁.query.cursor + 1)) := by
    have htrace : s₁.trace = .enter .failed s.query.cursor s.query.response :: s.trace := hf.trace
    refine ⟨h.before, ?_, hf.response.trans h.response, ?_, fun j hj => ?_⟩
    · show s₁.query.request.prepared = request
      rw [hf.request]
      exact h.request
    · show ¬ CalledBack s₁.trace
      rw [htrace]
      simpa using h.called
    · refine h.setups j ?_
      have hj' : Entered .setup j s₁.trace := hj
      rw [htrace] at hj'
      simpa using hj'
  have hcur : s₁.query.cursor = s.query.cursor := hf.cursor
  have hlength : s₁.backends.length = s₀.backends.length := by
    rw [hf.length]
    exact hfin.1.length
  rw [hcur] at hbase hmoved hle ⊢
  by_cases hlt : s.query.cursor + 1 < s₁.backends.length
  · simp only [hlt, decide_true, if_true] at hbase ⊢
    exact ih _ hbase hmoved hlen
  · have heq : replies.length = s.query.cursor + 1 := by omega
    simp only [hlt, decide_false, Bool.false_eq_true, if_false, sat_invokeCallback]
    have hnone : firstReply 0 replies = none :=
      firstReply_none fun j hj => h.before j (by omega)
    have hstate : s₁.query.state = .failed := hf.state
    have hresp : s₁.query.response = {} := hf.response.trans h.response
    refine .failed hnone (by omega) ⟨?_, ?_, fun state j r hmem => ?_⟩
    · rw [called_query]
      exact hstate
    · rw [called_query]
      exact hresp
    · unfold St.called at hmem
      have hold : ∀ state j r, Obs.callback state j r ∉ s₁.trace :=
        fun state j r hc => hmoved.called ⟨state, j, r, hc⟩
      split at hmem
      · rcases List.mem_cons.mp hmem with heq | hin
        · injection heq with h₁ h₂ h₃
          exact ⟨h₁.trans hstate, h₃.trans hresp⟩
        · exact absurd hin (hold state j r)
      · exact absurd hmem (hold state j r)

/-- One backend of the row is set up: it answers, or the query enters FAILED. -/
theorem sat_replies (henv : env.WellBehaved) {fuel : Nat}
    (himm : Immediate env s₀.query.request.type s₀.backends replies)
    (ih : ∀ s, (stages env R s₀).fin 0 .failed s →
      Undecided replies request (s.query.cursor + 1) (s.query.cursor + 1) s →
      s.query.cursor + 1 ≤ replies.length → Sat (setState env fuel .failed) s
        (fun _ => RowDone env request replies s₀.backends.length) (fun _ _ => True))
    (hready : (stages env R s₀).ready 0 s)
    (h : Undecided replies request s.query.cursor s.query.cursor s)
    (hlt : s.query.cursor < replies.length) :
    Sat (setState env (fuel + 1) .setup) s
      (fun _ => RowDone env request replies s₀.backends.length) (fun _ _ => True) := by
  have hsound : Sound env AbortOrFuel (stages env R s₀) := stages_sound henv
  obtain ⟨hne, backend, hget, hrun, hfin⟩ := stages_setUp henv 0 s hready
  obtain ⟨hpresent, habsent⟩ := himm.reply hready.1 hget (List.getElem?_eq_getElem hlt)
  have hset := h.setUp rfl backend
  have hget' : (s.entered .setup).backends[(s.entered .setup).query.cursor]? = some backend := hget
  simp only [Netresolve.setState, sat_bind, sat_get, if_neg (Ne.symm hne), modifyQuery, observe,
    sat_modify, enterState]
  show Sat (Netresolve.enterSetup env (setState env fuel)) (s.entered .setup) _ _
  simp only [Netresolve.enterSetup, sat_bind, sat_currentBackend hget']
  simp only [sat_get, sat_bind, modifyQuery, modifyBackend, sat_modify, sat_ite]
  have hnext : ∀ s', Undecided replies request s.query.cursor (s.query.cursor + 1) s' →
      s'.query.cursor = s.query.cursor → replies[s.query.cursor] = none →
      (stages env R s₀).fin 0 .failed s' → Sat (setState env fuel .failed) s'
        (fun _ => RowDone env request replies s₀.backends.length) (fun _ _ => True) := by
    intro s' h' hcur hnone hfin'
    refine ih s' hfin' ?_ (by omega)
    rw [hcur]
    refine ⟨fun j hj => ?_, h'.request, h'.response, h'.called, h'.setups⟩
    rcases Nat.lt_succ_iff_lt_or_eq.mp hj with hold | rfl
    · exact h'.before j hold
    · rw [List.getElem?_eq_getElem hlt, hnone]
  refine ⟨fun (hp : backend.setup s.query.request.type = true) => ?_,
    fun (hp : ¬ backend.setup s.query.request.type = true) => ?_⟩
  · have hbase := hsound.calls (hsound.setState fuel) _ (hrun hp)
    show Sat (runCalls env (setState env fuel) (env.setup s.query.cursor)) (s.setUp backend) _ _
    cases hreply : replies[s.query.cursor] with
    | none =>
        rw [hpresent hp, hreply] at hbase ⊢
        refine (hbase.and (sat_refuses fuel rfl)).mono (fun _ s₁ h₁ => ?_) (fun _ _ _ => trivial)
        obtain ⟨hbase, rfl⟩ := h₁
        simp only [sat_whenState]
        refine ⟨fun hs => absurd hs QueryState.noConfusion, fun _ => ⟨fun he => ?_, fun he =>
          absurd rfl he⟩⟩
        refine hnext _ (hset.plain [_, _] ?_ rfl rfl rfl) rfl hreply
          (hsound.broken 0 .setup _ (Or.inl hbase) he)
        simp [Obs.plain]
    | some writes =>
        have hmem : some writes ∈ replies := by
          rw [← hreply]
          exact List.getElem_mem hlt
        rw [hpresent hp, hreply] at hbase ⊢
        refine (hbase.and (sat_succeeds (himm.adds writes hmem) fuel rfl)).mono
          (fun _ s₁ h₁ => ?_) (fun _ _ _ => trivial)
        obtain ⟨hbase, hstate, hcur, hresp, hback, htrace⟩ := h₁
        simp only [sat_whenState]
        refine ⟨fun hs => ?_, fun hns => ⟨fun he => ?_, fun he => ?_⟩⟩
        · rw [hstate] at hs
          cases hs
        · rw [hstate] at he
          cases he
        · have hrest := hsound.settled 0 s₁ hbase hns he
          have hfirst : firstReply 0 replies = some (s.query.cursor, writes) := by
            have := firstReply_some replies 0 s.query.cursor writes h.before
              (by rw [List.getElem?_eq_getElem hlt, hreply])
            rwa [Nat.zero_add] at this
          have hresp' : s₁.query.response = written env request s.query.cursor writes {} := by
            rw [hresp]
            show written env s.query.request.prepared s.query.cursor _ s.query.response = _
            rw [h.request, h.response]
          obtain ⟨hdone, hunwatched⟩ := hset.succeeded rfl (hready.2.1.setUp backend).data hrest.2
            hstate hcur hresp' hback htrace
          exact .answered _ _ hfirst hdone hunwatched
  · have hnone : replies[s.query.cursor] = none := habsent (by simpa using hp)
    exact hnext _ hset rfl hnone (hfin (by simpa using hp))

/-- **Setting a row up**, however deep the state changes nest. -/
theorem sat_row (henv : env.WellBehaved)
    (himm : Immediate env s₀.query.request.type s₀.backends replies) : ∀ fuel,
    (∀ s, (stages env R s₀).ready 0 s →
      Undecided replies request s.query.cursor s.query.cursor s →
      s.query.cursor ≤ replies.length → Sat (setState env fuel .setup) s
        (fun _ => RowDone env request replies s₀.backends.length) (fun _ _ => True)) ∧
    (∀ s, (stages env R s₀).fin 0 .failed s →
      Undecided replies request (s.query.cursor + 1) (s.query.cursor + 1) s →
      s.query.cursor + 1 ≤ replies.length → Sat (setState env fuel .failed) s
        (fun _ => RowDone env request replies s₀.backends.length) (fun _ _ => True)) := by
  intro fuel
  induction fuel with
  | zero => exact ⟨fun _ _ _ _ => trivial, fun _ _ _ _ => trivial⟩
  | succ fuel ih =>
      refine ⟨fun s hready h hle => ?_, fun s hfin h hle =>
        sat_moves henv ih.1 hfin h hle himm.length⟩
      rcases Nat.lt_or_eq_of_le hle with hlt | heq
      · exact sat_replies henv himm ih.2 hready h hlt
      · obtain ⟨hfix, -, hc, hne⟩ := hready
        have hnone : firstReply 0 replies = none :=
          firstReply_none fun j hj => h.before j (by omega)
        refine (sat_passes (fuel + 1) hne hc).mono (fun _ s' hmem => ?_) (fun _ _ _ => trivial)
        rw [h.response, heq] at hmem
        exact .passed hnone (by rw [← hfix.length]; omega) hmem

/-- What a query has come to once it has been started. -/
theorem Fresh.row {s₀ : St} (hfresh : Fresh s₀) (hne : s₀.backends ≠ []) (henv : env.WellBehaved)
    (himm : Immediate env s₀.query.request.type s₀.backends replies) :
    Sat (queryStart env) s₀
      (fun _ => RowDone env s₀.query.request.prepared replies s₀.backends.length)
      (fun _ _ => True) := by
  have hundecided : Undecided replies s₀.query.request.prepared s₀.query.cursor s₀.query.cursor
      s₀ := by
    refine ⟨fun j hj => ?_, rfl, hfresh.response, ?_, fun j hj => ?_⟩
    · rw [hfresh.cursor] at hj
      omega
    · rintro ⟨state, i, r, h⟩
      rw [hfresh.trace] at h
      cases h
    · obtain ⟨r, h⟩ := hj
      rw [hfresh.trace] at h
      cases h
  have hempty : s₀.backends.isEmpty = false := by simpa using hne
  simp only [queryStart, querySetState, sat_bind, sat_get, hempty, Bool.false_eq_true, if_false]
  exact (sat_row henv himm _).1 s₀ (hfresh.ready hne 0) hundecided
    (by rw [hfresh.cursor]; exact Nat.zero_le _)

/-! ### Once the answer is there -/

/-- The answer has been handed over. -/
structure Handed (i n : Nat) (r : Response) (s : St) : Prop where
  state : s.query.state = .done
  cursor : s.query.cursor = n
  response : s.query.response = r
  handed : s.query.callback = true → Obs.callback .done n r ∈ s.trace
  called : ∀ state j r', Obs.callback state j r' ∈ s.trace → state = .done ∧ r' = r
  setups : ∀ j, Entered .setup j s.trace → j ≤ i

theorem Handed.answered {i n : Nat} {r : Response} (h : Handed i n r s) : Answered i n r s :=
  ⟨h.response, Or.inr ⟨h.state, h.cursor, h.handed⟩,
    fun state j r' hmem => ⟨h.state, h.called state j r' hmem⟩,
    fun j r' hmem => h.setups j ⟨r', hmem⟩⟩

/-- No backend runs any more. -/
def answer (i n : Nat) (r : Response) : Stages where
  ready _ _ := False
  run _ _ _ _ := False
  fin k state s := k = 0 ∧ state = .done ∧ Succeeded i r s
  rest k s := k = 0 ∧ (Succeeded i r s ∧ s.unwatched ∨ Handed i n r s)
  bold _ _ _ := True

theorem Gathered.frame {i : Nat} {r : Response} (h : Gathered i r s) (hf : Frame s s') :
    Gathered i r s' := by
  refine ⟨hf.cursor.trans h.cursor, hf.response.trans h.response, ?_, ?_⟩
  · rw [hf.trace]
    exact h.called
  · rw [hf.trace]
    exact h.setups

/-- DONE hands the answer over. -/
theorem Gathered.hand {i n : Nat} {r : Response} (h : Gathered i r s) {s₁ : St}
    (hf : Frame (s.entered .done) s₁) : Handed i n r (s₁.moved n).called := by
  have htrace : s₁.trace = .enter .done s.query.cursor s.query.response :: s.trace := hf.trace
  have hstate : s₁.query.state = .done := hf.state
  have hresp : s₁.query.response = r := hf.response.trans h.response
  have hno : ∀ state j r', Obs.callback state j r' ∉ s₁.trace := by
    intro state j r' hmem
    rw [htrace] at hmem
    rcases List.mem_cons.mp hmem with heq | hold
    · cases heq
    · exact h.called ⟨state, j, r', hold⟩
  have hsetups : ∀ j, Entered .setup j s₁.trace → j ≤ i := by
    intro j hj
    rw [htrace] at hj
    exact h.setups j (by simpa using hj)
  unfold St.called
  split
  · refine ⟨hstate, rfl, hresp, fun _ => ?_, fun state j r' hmem => ?_, fun j hj => ?_⟩
    · show _ ∈ .callback s₁.query.state n s₁.query.response :: s₁.trace
      rw [hstate, hresp]
      exact List.mem_cons_self
    · rcases List.mem_cons.mp hmem with heq | hold
      · injection heq with h₁ _ h₃
        exact ⟨h₁.trans hstate, h₃.trans hresp⟩
      · exact absurd hold (hno state j r')
    · obtain ⟨r', hmem⟩ := hj
      rcases List.mem_cons.mp hmem with heq | hold
      · cases heq
      · exact hsetups j ⟨r', hold⟩
  · rename_i hcb
    exact ⟨hstate, rfl, hresp, fun hcb' => absurd hcb' hcb,
      fun state j r' hmem => absurd hmem (hno state j r'), hsetups⟩

theorem answer_extends {i : Nat} {r : Response} (hno : ∀ b ∈ s₀.backends, b.mandatory = false) :
    Extends env (stages env R s₀) (answer i s₀.backends.length r) fun _ => True where
  frame_stop _ _ := trivial
  run_stop _ := trivial
  report_stop _ _ := trivial
  resolve_stop _ := trivial
  rest_stop _ := trivial
  setUp _ h _ := h.elim
  waiting _ h := h.elim
  impatient _ h := h.elim
  finished _ h := h.elim
  failed _ h := h.elim
  alloc _ h := h.elim
  watchAdd h := h.elim
  watchRemove h := h.elim
  write _ h := h.elim
  addPath h := h.elim
  store _ _ _ h := h.elim
  more _ _ h := h.elim
  zero _ _ h := h.elim
  done := by
    intro k s hP h
    obtain ⟨rfl, -, hdone⟩ := h
    refine ⟨fun hs => absurd hs (by rw [hdone.state]; decide), fun _ => ⟨trivial, fun s₁ hf =>
      ⟨trivial, fun hlt => ?_⟩⟩⟩
    have hfix₁ := (hP.1.entered .done).frame hf
    rw [afterDone_none (mandatory_of_shape hfix₁.shape hno) hlt, hfix₁.length]
    exact ⟨rfl, Or.inr (hdone.hand hf)⟩
  leave _ h := by
    obtain ⟨-, hs, -⟩ := h
    cases hs
  called _ h := absurd h.1 (by simp)
  settled _ h := h.elim
  woken _ h := h.elim
  succeeded _ h := h.elim
  broken hor hs := by
    rcases hor with ⟨-, h⟩ | ⟨-, -, ⟨h, -⟩ | h⟩
    · exact h.elim
    · rw [h.state] at hs
      cases hs
    · rw [h.state] at hs
      cases hs

/-- Where a query without an answer is at rest, whichever events come. -/
inductive Unanswered (replies : List (Option (List Call))) (n : Nat) (s : St) : Prop
  | passed (hlt : replies.length < n) (hs : Obs.enter .setup replies.length {} ∈ s.trace)
  | failed (heq : replies.length = n) (hs : s.query.state = .failed ∧ s.query.response = {} ∧
      ∀ state j r, Obs.callback state j r ∈ s.trace → state = .failed ∧ r = {})

theorem Reachable.row {s₀ s : St} (hfresh : Fresh s₀)
    (hno : ∀ b ∈ s₀.backends, b.mandatory = false)
    (hresult : s₀.query.request.resultTimeout ≠ 0) (henv : env.WellBehaved)
    (himm : Immediate env s₀.query.request.type s₀.backends replies)
    (h : Reachable (· = env) Orderly s₀ s) :
    (Fixed s₀ s ∧ (Waits s₀.context.loop.registered s ∨ Ended s₀.context.loop.registered s)) ∧
      (∀ i writes, firstReply 0 replies = some (i, writes) →
        (answer i s₀.backends.length
          (written env s₀.query.request.prepared i writes {})).rest 0 s) ∧
      (firstReply 0 replies = none → Unanswered replies s₀.backends.length s) := by
  induction h with
  | start env' hP hok =>
      obtain rfl : env' = env := hP
      have hrest := (queryStart_rest hfresh (backends_ne_nil hok) henv).of_ok hok
      refine ⟨hrest, ?_⟩
      cases (hfresh.row (backends_ne_nil hok) henv himm).of_ok hok with
      | answered i writes hfirst hs hw =>
          refine ⟨fun i' writes' h' => ?_, fun h' => ?_⟩
          · rw [hfirst] at h'
            obtain ⟨rfl, rfl⟩ := Prod.mk.inj (Option.some.inj h')
            exact ⟨rfl, Or.inl ⟨hs, hw⟩⟩
          · rw [hfirst] at h'
            cases h'
      | passed hnone hlt hs =>
          refine ⟨fun i' writes' h' => ?_, fun _ => .passed hlt hs⟩
          rw [hnone] at h'
          cases h'
      | failed hnone heq hs =>
          refine ⟨fun i' writes' h' => ?_, fun _ => .failed heq hs⟩
          rw [hnone] at h'
          cases h'
  | @step s s' _ hstep ih =>
      obtain ⟨env', w, horderly, hw, hok⟩ := hstep
      obtain ⟨⟨hfix, hrest⟩, hsome, hnone⟩ := ih
      have htame : Tame s env' w := ⟨horderly, Or.inl (by rw [hfix.resultTimeout]; exact hresult)⟩
      have hwaits : Waits s₀.context.loop.registered s := hrest.resolve_right fun hended => by
        obtain ⟨x, hx, -⟩ := hw
        exact hended.no_watch hx
      refine ⟨(queryDispatch_rest env' ⟨hfix, hrest⟩ htame hw).of_ok hok, fun i writes hfirst => ?_,
        fun h' => ?_⟩
      · obtain ⟨-, hanswer⟩ := hsome i writes hfirst
        refine ((dispatch_follows hfix hwaits htame hw (answer_extends hno) ?_).of_ok hok).2
        intro x hx _
        rcases hanswer with ⟨hdone, hunwatched⟩ | hhanded
        · cases hcb : x.callback with
          | backend j => exact absurd hcb (hunwatched x hx j)
          | timeout t =>
              refine ⟨fun hdue s₁ hf => ?_, fun s₁ _ h₁ hr => ?_⟩
              · rw [hdone.state] at hdue
                obtain rfl : t = .delayed := by cases t <;> simp [Timer.due] at hdue ⊢
                exact ⟨rfl, rfl, hdone.toGathered.frame hf, hf.state.trans hdone.state⟩
              · obtain ⟨-, ⟨h₁, -⟩ | h₁⟩ := h₁
                · exact ⟨rfl, rfl, h₁⟩
                · rw [h₁.state] at hr
                  cases hr
        · rcases hwaits.state with hs | hs | hs <;> rw [hhanded.state] at hs <;> cases hs
      · cases hnone h' with
        | passed hlt hs =>
            obtain ⟨x, hx, -, -⟩ := find_watch hw
            have hinv := logged_invariant (.enter .setup replies.length {}) env'
            refine .passed hlt ((loose_dispatch hinv.toExtends hx ?_ hs).of_ok hok)
            cases x.callback with
            | backend i => exact hs
            | timeout t => exact ⟨fun _ s₁ hf => hinv.frame hf hs, fun s₁ _ h₁ _ => h₁⟩
        | failed heq hs =>
            rcases hwaits.state with hs' | hs' | hs' <;> rw [hs.1] at hs' <;> cases hs'

end

/-! ### Whole runs -/

section

variable {env : Env} {s₀ s : St} {replies : List (Option (List Call))}

/-- The first answer of a row. -/
theorem Reachable.rowAnswered (hrun : Reachable (· = env) Orderly s₀ s) (hfresh : Fresh s₀)
    (hno : ∀ b ∈ s₀.backends, b.mandatory = false)
    (hresult : s₀.query.request.resultTimeout ≠ 0) (henv : env.WellBehaved)
    (himm : Immediate env s₀.query.request.type s₀.backends replies) {i : Nat} {writes : List Call}
    (hfirst : firstReply 0 replies = some (i, writes)) : Answered i s₀.backends.length
      (written env s₀.query.request.prepared i writes {}) s := by
  obtain ⟨-, hsome, -⟩ := hrun.row hfresh hno hresult henv himm
  obtain ⟨-, ⟨hdone, -⟩ | hhanded⟩ := hsome i writes hfirst
  · refine ⟨hdone.response, Or.inl ⟨hdone.state, hdone.cursor⟩, fun state j r' hmem => ?_,
      fun j r' hmem => hdone.setups j ⟨r', hmem⟩⟩
    exact absurd ⟨state, j, r', hmem⟩ hdone.called
  · exact hhanded.answered

/-- A row without an answer. -/
theorem Reachable.rowUnanswered (hrun : Reachable (· = env) Orderly s₀ s) (hfresh : Fresh s₀)
    (hno : ∀ b ∈ s₀.backends, b.mandatory = false)
    (hresult : s₀.query.request.resultTimeout ≠ 0) (henv : env.WellBehaved)
    (himm : Immediate env s₀.query.request.type s₀.backends replies)
    (hfirst : firstReply 0 replies = none) : Unanswered replies s₀.backends.length s :=
  (hrun.row hfresh hno hresult henv himm).2.2 hfirst

/--
**A row of backends that answer at once means its first answer.**  If one of them has an answer, the
query has exactly that answer, no backend behind the first that has one is ever set up, and the
application is handed nothing else, once in DONE.  If none has, the next backend of the list is set
up with nothing in the response, or the query fails with nothing in the response.
-/
theorem first_answer (hfresh : Fresh s₀) (hno : ∀ b ∈ s₀.backends, b.mandatory = false)
    (hresult : s₀.query.request.resultTimeout ≠ 0) (henv : env.WellBehaved)
    (himm : Immediate env s₀.query.request.type s₀.backends replies)
    (hrun : Reachable (· = env) Orderly s₀ s) :
    (∀ i writes, firstReply 0 replies = some (i, writes) → Answered i s₀.backends.length
      (written env s₀.query.request.prepared i writes {}) s) ∧
    (firstReply 0 replies = none → Unanswered replies s₀.backends.length s) :=
  ⟨fun _ _ hfirst => hrun.rowAnswered hfresh hno hresult henv himm hfirst,
    fun hfirst => hrun.rowUnanswered hfresh hno hresult henv himm hfirst⟩

end

/-- A query on three backends, of which the second has an answer. -/
def threeBackends : St := { query := { id := 0 }, backends := [{}, {}, {}] }

def secondAnswers : Env where
  setup i := if i = 0 then [.failed] else if i = 1 then [.addPath oneAddress, .setSecure, .finished]
    else [.newPriv true, .watchAdd 5]

def secondReplies : List (Option (List Call)) := [none, some [.addPath oneAddress, .setSecure]]

theorem threeBackends_fresh : Fresh threeBackends := by
  refine ⟨⟨rfl, rfl, rfl, rfl, fun t => by cases t <;> rfl, rfl, rfl, fun b hb => ?_⟩, rfl, rfl⟩
  simp only [threeBackends, List.mem_cons, List.not_mem_nil, or_false, or_self] at hb
  rw [hb]

theorem secondAnswers_wellBehaved : secondAnswers.WellBehaved := by
  refine ⟨fun i => ?_, fun _ => rfl⟩
  simp only [secondAnswers]
  split
  · rfl
  · split <;> rfl

theorem secondAnswers_immediate :
    Immediate secondAnswers .forward threeBackends.backends secondReplies := by
  refine ⟨by decide, fun i b reply hb hsetup _ => ?_, fun i b reply _ _ hreply => ?_, ?_⟩
  · have hmem := List.mem_of_getElem? hb
    simp only [threeBackends, List.mem_cons, List.not_mem_nil, or_false, or_self] at hmem
    rw [hmem] at hsetup
    cases hsetup
  · match i, hreply with
    | 0, hreply => obtain rfl := Option.some.inj hreply; rfl
    | 1, hreply => obtain rfl := Option.some.inj hreply; rfl
  · intro writes hmem call hcall
    obtain rfl : writes = [.addPath oneAddress, .setSecure] := by simpa [secondReplies] using hmem
    simp only [List.mem_cons, List.not_mem_nil, or_false] at hcall
    rcases hcall with rfl | rfl <;> rfl

theorem first_answer_second : ∃ s, Reachable (· = secondAnswers) Orderly threeBackends s ∧
    s.query.response = { onePathBy 1 with security := .secure } ∧ s.query.state = .done := by
  obtain ⟨s, hplay, hstate⟩ := peek_some (show peek (·.query.state) (play secondAnswers [1])
    threeBackends = some .done by decide +kernel)
  have hrun : Reachable (· = secondAnswers) Orderly threeBackends s :=
    Reachable.play rfl (fun _ _ => secondAnswers_wellBehaved) hplay
  exact ⟨s, hrun, ((first_answer threeBackends_fresh (by simp [threeBackends]) (by decide)
    secondAnswers_wellBehaved secondAnswers_immediate hrun).1 1 _ rfl).response, hstate⟩

end Netresolve
