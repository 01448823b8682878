/-
What a callback that frees its query leaves behind.

The callback is reached at the bottom of nested state changes, and each function on the way
back may look at the query once more.  Two of the ways back are safe: from
`netresolve_query`, and from the dispatch of a backend's watch that ends in ERROR, because there
the change to FAILED is the last thing that is done.  The test for ERROR in
`netresolve_query_dispatch` follows every other change, so that a query that succeeds, or one
that is ended by a timer, is looked at after it has been freed; and so does the test for ERROR
after a setup function that reported nothing, when the query may not wait.  A function that goes on
with the query when `netresolve_query` has returned needs it to have lasted until then.

`fate` tells how a chain of failing backends ends, from what their setup functions call.  The
condition on an event is `Spared`.
-/
import Netresolve.Core.Course
import Netresolve.Proofs.Hostent
import Netresolve.Proofs.Loose
import Netresolve.Proofs.Mirror
import Netresolve.Proofs.Timers

namespace Netresolve.Memory

open Outcome

/-! ### Reading the environment -/

/-- How a chain of backends ends: with one that waits, one that is done, or at the callback. -/
inductive Fate where
  | waits
  | resolves
  | ends (silent : Bool)
  deriving DecidableEq, Repr

/--
What becomes of a query that sets the given backends up one after the other, the first of them
at the given position.  `silent` says that one of them has reported nothing and the query did
not wait for it.
-/
def fate (env : Env) (request : Request) : Nat → Bool → List Backend → Fate
  | _, silent, [] => .ends silent
  | i, silent, b :: rest =>
      if b.setup request.type then
        match told .setup (env.setup i) with
        | .error => fate env request (i + 1) silent rest
        | .setup =>
            if request.requestTimeout ≠ 0 then .waits else fate env request (i + 1) true rest
        | _ => .resolves
      else fate env request (i + 1) silent rest

/-- The query goes on with the backends from the given position. -/
def fateFrom (env : Env) (s : St) (i : Nat) (silent : Bool) : Fate :=
  fate env s.query.request i silent (s.backends.drop i)

/-- The query fails and goes on with the backends behind the one it is at. -/
def fateAfter (env : Env) (s : St) : Fate := fateFrom env s (s.query.cursor + 1) false

/-- No path is accepted that ends the query in the middle of a dispatch function. -/
def Unhurried (env : Env) (s : St) (calls : List Call) : Prop :=
  s.query.state ≠ .waiting ∨ s.query.request.resultTimeout ≠ 0 ∨
    pathFirst env.services s.query.request calls = false

/-- No chain of failures leads the new query to its end. -/
def Lasts (env : Env) (s : St) : Prop :=
  ∀ silent, fateFrom env s s.query.cursor false ≠ .ends silent

/-- The request is for another family than the address. -/
def Excludes (request : Request) (family : Int) : Prop :=
  request.family ≠ AF_UNSPEC ∧ request.family ≠ family

/--
What is done with a query that `netresolve_query` has returned: nothing, or it has not waited for the
end of the query, and there was none.  A path must not end it either.
-/
def SparedFinish (env : Env) (blocking : Bool) (s : St) : Creation → Prop
  | .query => True
  | .getaddrinfo canonname => canonname = true ∨ blocking = false ∧ Lasts env s
  | .gethostbyaddr _ => blocking = false ∧ Lasts env s ∧
      (fateFrom env s s.query.cursor false ≠ .waits ∨ s.query.request.resultTimeout ≠ 0 ∨
        Excludes s.query.request AF_INET)

/-- The start of a query. -/
structure SparedStart (env : Env) (creation : Creation) (blocking : Bool) (s : St) : Prop where
  silent : fateFrom env s s.query.cursor false ≠ .ends true
  finish : SparedFinish env blocking s creation

/--
The dispatch of a watch.  The request timeout may lead on to a backend that waits; a backend may
report an error, with a chain of failures after it that is not silent, or report nothing.
-/
def Spared (env : Env) (s : St) (w : Nat) : Prop :=
  ∀ x, s.query.watches.find? (·.id = w) = some x →
    match x.callback with
    | .timeout .requestTimeout => fateAfter env s = .waits
    | .timeout _ => False
    | .backend i => Unhurried env s (env.dispatch i) ∧
        told s.query.state (env.dispatch i) ≠ .resolved ∧
        (told s.query.state (env.dispatch i) = .error → fateAfter env s ≠ .ends true)

/-- Of two lists of backends that differ in their private data. -/
theorem fate_shape (env : Env) (request : Request) (bs : List Backend) :
    ∀ {bs' : List Backend} (i : Nat) (silent : Bool),
      bs'.map Backend.shape = bs.map Backend.shape →
      fate env request i silent bs' = fate env request i silent bs := by
  induction bs with
  | nil =>
      intro bs' i silent h
      rw [List.map_nil, List.map_eq_nil_iff] at h
      rw [h]
  | cons b rest ih =>
      intro bs' i silent h
      cases bs' with
      | nil => cases h
      | cons b' rest' =>
          rw [List.map_cons, List.map_cons] at h
          injection h with hb hrest
          have hsetup : b'.setup = b.setup := congrArg Prod.snd hb
          simp only [fate, hsetup, ih _ _ hrest]

/-- Setting a backend up changes the request in nothing that matters here. -/
theorem fate_request (env : Env) {request request' : Request}
    (htype : request'.type = request.type)
    (htimeout : request'.requestTimeout = request.requestTimeout) (bs : List Backend) :
    ∀ (i : Nat) (silent : Bool), fate env request' i silent bs = fate env request i silent bs := by
  induction bs with
  | nil => exact fun _ _ => rfl
  | cons b rest ih =>
      intro i silent
      simp only [fate, htype, htimeout, ih]

theorem fateFrom_congr (env : Env) {s s' : St} (htype : s'.query.request.type = s.query.request.type)
    (htimeout : s'.query.request.requestTimeout = s.query.request.requestTimeout)
    (hshape : s'.backends.map Backend.shape = s.backends.map Backend.shape) (i : Nat)
    (silent : Bool) : fateFrom env s' i silent = fateFrom env s i silent := by
  have hdrop : (s'.backends.drop i).map Backend.shape = (s.backends.drop i).map Backend.shape := by
    rw [List.map_drop, List.map_drop, hshape]
  unfold fateFrom
  rw [fate_shape env _ _ i silent hdrop, fate_request env htype htimeout]

/-- What has been silent once stays so. -/
theorem fate_silent (env : Env) (request : Request) (bs : List Backend) :
    ∀ i : Nat, fate env request i true bs ≠ .ends false := by
  induction bs with
  | nil => exact fun _ hc => by cases hc
  | cons b rest ih =>
      intro i
      unfold fate
      split
      · split
        · exact ih (i + 1)
        · split
          · exact Fate.noConfusion
          · exact ih (i + 1)
        · exact Fate.noConfusion
      · exact ih (i + 1)

/-! ### States a list of calls leads to -/

theorem told_setup (calls : List Call) : told .setup calls = .setup ∨
    told .setup calls = .resolved ∨ told .setup calls = .error := by
  have hstates : ∀ state : QueryState, state = .setup ∨ state = .resolved ∨ state = .error →
      told state calls = .setup ∨ told state calls = .resolved ∨ told state calls = .error := by
    induction calls with
    | nil => exact fun _ h => h
    | cons call rest ih =>
        intro state h
        refine ih ((tells call).getD state) ?_
        cases call with
        | finished => exact Or.inr (Or.inl rfl)
        | failed => exact Or.inr (Or.inr rfl)
        | newPriv allocated =>
            cases allocated with
            | true => exact h
            | false => exact Or.inr (Or.inr rfl)
        | _ => exact h
  exact hstates .setup (Or.inl rfl)

/-- The query is in the state or, where this is WAITING, has been given a path. -/
def Follows (state state' : QueryState) : Prop :=
  state' = state ∨ state = .waiting ∧ state' = .waitingMore

theorem Follows.trans {a b c : QueryState} (h : Follows a b) (h' : Follows b c) : Follows a c := by
  rcases h with rfl | ⟨rfl, rfl⟩
  · exact h'
  · rcases h' with rfl | ⟨h', -⟩
    · exact Or.inr ⟨rfl, rfl⟩
    · cases h'

theorem Follows.told {a b : QueryState} (h : Follows a b) (calls : List Call) :
    Follows (told a calls) (told b calls) := by
  induction calls generalizing a b with
  | nil => exact h
  | cons call rest ih =>
      refine ih ?_
      show Follows ((tells call).getD a) ((tells call).getD b)
      cases tells call with
      | none => exact h
      | some state => exact Or.inl rfl

theorem Follows.eq {a b : QueryState} (h : Follows a b) (ha : a ≠ .waiting) : b = a :=
  h.resolve_right fun hw => ha hw.1

/-- A query in a state other than the two waiting ones got there by a report. -/
theorem Follows.eq_iff {a b state : QueryState} (h : Follows a b) (hw : state ≠ .waiting)
    (hm : state ≠ .waitingMore) : b = state ↔ a = state := by
  rcases h with rfl | ⟨rfl, rfl⟩
  · exact Iff.rfl
  · exact ⟨fun hc => absurd hc.symm hm, fun hc => absurd hc.symm hw⟩

/-! ### Code that works on the query -/

/-- The query is where it was, with its request and its backends. -/
structure Near (m m' : Mem) : Prop where
  live : m'.live = m.live
  id : m'.st.query.id = m.st.query.id
  cursor : m'.st.query.cursor = m.st.query.cursor
  request : m'.st.query.request = m.st.query.request
  shape : m'.st.backends.map Backend.shape = m.st.backends.map Backend.shape

theorem Near.refl (m : Mem) : Near m m := ⟨rfl, rfl, rfl, rfl, rfl⟩

theorem Near.trans {m m' m'' : Mem} (h : Near m m') (h' : Near m' m'') : Near m m'' :=
  ⟨h'.live.trans h.live, h'.id.trans h.id, h'.cursor.trans h.cursor, h'.request.trans h.request,
    h'.shape.trans h.shape⟩

theorem Near.alive {m m' : Mem} (h : Near m m') (hm : m.alive) : m'.alive := by
  unfold Mem.alive at *
  rw [h.live, h.id]
  exact hm

theorem Near.length {m m' : Mem} (h : Near m m') :
    m'.st.backends.length = m.st.backends.length := by
  simpa using congrArg List.length h.shape

/-- The run does not use the query after it has been freed. -/
abbrev Spares {α : Type} (x : L α) (m : Mem) (Q : α → Mem → Prop) : Prop :=
  Sat x m Q (fun e _ => e ≠ .useAfterFree)

section

variable {α : Type} {env : Env} {m : Mem} {E : Crash → Mem → Prop}

theorem sat_whenState (h : m.alive) (state : QueryState) (x : L Unit) (Q : Unit → Mem → Prop) :
    Sat (whenState state x) m Q E ↔
      (m.st.query.state = state → Sat x m Q E) ∧ (m.st.query.state ≠ state → Q () m) := by
  unfold whenState
  rw [sat_bind, sat_look h, sat_ite]
  exact Iff.rfl

theorem touch_keeps {x : M α} (hx : Keeps x) (h : m.alive) :
    Spares (touch x) m
      (fun _ m' => Near m m' ∧ m'.st.query.state = m.st.query.state) := by
  refine (sat_touch h _).mpr ((hx m.st).mono (fun _ s hf => ?_) (fun _ _ _ => ?_))
  · exact ⟨⟨rfl, hf.id, hf.cursor, hf.request, hf.shape⟩, hf.state⟩
  · exact Crash.noConfusion

/-- `netresolve_query_set_state` up to its `switch`. -/
def Mem.entered (m : Mem) (state : QueryState) : Mem := { m with st := m.st.entered state }

theorem near_entered (m : Mem) (state : QueryState) : Near m (m.entered state) :=
  ⟨rfl, rfl, rfl, rfl, rfl⟩

theorem sat_setState (h : m.alive) (k : Nat) (state : QueryState) (Q : Unit → Mem → Prop) :
    Sat (setState env (k + 1) state) m Q E ↔
      (state = m.st.query.state → Q () m) ∧ (state ≠ m.st.query.state →
        Sat (enterState env (setState env k) m.st.query.state state) (m.entered state) Q E) := by
  unfold setState
  rw [sat_bind, sat_look h]
  dsimp only
  rw [sat_ite, sat_bind, sat_touch h]
  exact Iff.rfl

/-! ### The calls of a backend -/

/-- What the state changes do that a backend brings about without calling the application. -/
structure Reports (env : Env) (f : QueryState → L Unit) : Prop where
  report : ∀ {m state}, m.alive → state = .resolved ∨ state = .error →
    Spares (f state) m (fun _ m' => Near m m' ∧ m'.st.query.state = state)
  more : ∀ {m}, m.alive → m.st.query.request.resultTimeout ≠ 0 → m.st.query.state = .waiting →
    Spares (f .waitingMore) m (fun _ m' => Near m m' ∧ m'.st.query.state = .waitingMore)

theorem reports_setState (env : Env) (k : Nat) : Reports env (setState env (k + 1)) where
  report {m state} h hstate := by
    refine (sat_setState h k state _).mpr ⟨fun hs => ⟨Near.refl m, hs.symm⟩, fun _ => ?_⟩
    have hentered := near_entered m state
    rcases hstate with rfl | rfl
    · refine (touch_keeps (keeps_enterResolved _) (hentered.alive h)).mono (fun _ m' hm' => ?_)
        (fun _ _ he => he)
      exact ⟨hentered.trans hm'.1, hm'.2⟩
    · exact ⟨hentered, rfl⟩
  more {m} h hresult hs := by
    refine (sat_setState h k .waitingMore _).mpr ⟨fun hc => ?_, fun _ => ?_⟩
    · rw [hs] at hc
      cases hc
    · have hentered := near_entered m .waitingMore
      show Sat (enterWaitingMore env (setState env k)) _ _ _
      unfold enterWaitingMore
      rw [sat_bind, sat_look (hentered.alive h), if_neg (show
        ¬ (m.entered .waitingMore).st.query.request.resultTimeout = 0 from hresult), sat_bind, sat_pure]
      refine (touch_keeps keeps_armResultTimeout (hentered.alive h)).mono (fun _ m' hm' => ?_)
        (fun _ _ he => he)
      exact ⟨hentered.trans hm'.1, hm'.2⟩

theorem reports_querySetState (env : Env) : Reports env (querySetState env) where
  report {m _} h hstate := by
    unfold Spares querySetState
    rw [sat_bind, sat_get]
    exact (reports_setState env (3 * m.st.backends.length + 2)).report h hstate
  more {m} h hresult hs := by
    unfold Spares querySetState
    rw [sat_bind, sat_get]
    exact (reports_setState env (3 * m.st.backends.length + 2)).more h hresult hs

variable {f : QueryState → L Unit}

theorem addPath_spares (hf : Reports env f) (h : m.alive) (path : Path)
    (hpath : m.st.query.state ≠ .waiting ∨ m.st.query.request.resultTimeout ≠ 0) :
    Spares (addPath env f path) m
      (fun _ m' => Near m m' ∧ Follows m.st.query.state m'.st.query.state) := by
  have hstored : Near m { m with st := m.st.stored env path } := ⟨rfl, rfl, rfl, rfl, rfl⟩
  unfold Spares addPath
  rw [sat_bind, sat_touch h]
  show Sat (whenState .waiting (f .waitingMore)) { m with st := m.st.stored env path } _ _
  rw [sat_whenState (hstored.alive h)]
  refine ⟨fun hw => ?_, fun _ => ⟨hstored, Or.inl rfl⟩⟩
  have hw' : m.st.query.state = .waiting := hw
  refine (hf.more (hstored.alive h) (hpath.resolve_left fun hne => hne hw') hw).mono
    (fun _ m' hm' => ?_) (fun _ _ he => he)
  exact ⟨hstored.trans hm'.1, Or.inr ⟨hw', hm'.2⟩⟩

theorem addPaths_spares (hf : Reports env f) (paths : List Path) : ∀ {m : Mem}, m.alive →
    m.st.query.state ≠ .waiting ∨ m.st.query.request.resultTimeout ≠ 0 ∨ paths = [] →
    Spares (forM paths (addPath env f)) m
      (fun _ m' => Near m m' ∧ Follows m.st.query.state m'.st.query.state) := by
  induction paths with
  | nil => exact fun _ _ => ⟨Near.refl _, Or.inl rfl⟩
  | cons path rest ih =>
      intro m h hpath
      have hhead : m.st.query.state ≠ .waiting ∨ m.st.query.request.resultTimeout ≠ 0 := by
        rcases hpath with hpath | hpath | hpath
        · exact Or.inl hpath
        · exact Or.inr hpath
        · cases hpath
      rw [Spares, List.forM_cons, sat_bind]
      refine (addPath_spares hf h path hhead).mono (fun _ m₁ h₁ => ?_) (fun _ _ he => he)
      refine (ih (h₁.1.alive h) ?_).mono (fun _ m₂ h₂ => ?_) (fun _ _ he => he)
      · rcases hhead with hs | hresult
        · exact Or.inl (by rw [h₁.2.eq hs]; exact hs)
        · exact Or.inr (Or.inl (by rw [h₁.1.request]; exact hresult))
      · exact ⟨h₁.1.trans h₂.1, h₁.2.trans h₂.2⟩

/-- The call is on record and the query as it was. -/
theorem runCall_spares (hf : Reports env f) (h : m.alive) {call : Call} {rest : List Call}
    (hcalls : Unhurried env m.st (call :: rest)) :
    Spares (runCall env f call) m (fun _ m' => Near m m' ∧
      Follows ((tells call).getD m.st.query.state) m'.st.query.state) := by
  have hreported : Near m { m with st := m.st.reported call } := ⟨rfl, rfl, rfl, rfl, rfl⟩
  have hm := hreported.alive h
  -- a call that works on the query and reports nothing
  have hquiet : ∀ x : M Unit, tells call = none → (∀ s, Sat x s
      (fun _ s' => s'.query.id = s.query.id ∧ s'.query.cursor = s.query.cursor ∧
        s'.query.request = s.query.request ∧ s'.query.state = s.query.state ∧
        s'.backends.map Backend.shape = s.backends.map Backend.shape) (fun _ _ => True)) →
      Spares (touch x) { m with st := m.st.reported call } (fun _ m' => Near m m' ∧
        Follows ((tells call).getD m.st.query.state) m'.st.query.state) := by
    intro x htells hx
    refine (sat_touch hm _).mpr ((hx _).mono (fun _ s hs => ?_) (fun _ _ _ => Crash.noConfusion))
    obtain ⟨hid, hcursor, hrequest, hstate, hshape⟩ := hs
    rw [htells]
    exact ⟨⟨rfl, hid, hcursor, hrequest, hshape⟩, Or.inl hstate⟩
  have hkeeps : ∀ x : M Unit, tells call = none → Keeps x →
      Spares (touch x) { m with st := m.st.reported call } (fun _ m' => Near m m' ∧
        Follows ((tells call).getD m.st.query.state) m'.st.query.state) :=
    fun x htells hx => hquiet x htells fun s => (hx s).mono
      (fun _ _ hs => ⟨hs.id, hs.cursor, hs.request, hs.state, hs.shape⟩) (fun _ _ _ => trivial)
  unfold Spares runCall
  rw [sat_bind, sat_touch h]
  show Sat _ { m with st := m.st.reported call } _ _
  cases call with
  | addPath a =>
      simp only [backendAddPath, sat_bind, sat_look hm]
      refine (addPaths_spares hf _ hm ?_).mono (fun _ m' hm' => ?_) (fun _ _ he => he)
      · rcases hcalls with hs | hresult | hfirst
        · exact Or.inl hs
        · exact Or.inr (Or.inl hresult)
        · refine Or.inr (Or.inr ?_)
          rw [pathFirst, Bool.or_eq_false_iff, Bool.not_eq_false', List.isEmpty_iff] at hfirst
          exact hfirst.1
      · exact ⟨hreported.trans hm'.1, hm'.2⟩
  | newPriv allocated =>
      simp only [backendNewPriv, sat_bind]
      refine (touch_keeps (keeps_allocPriv allocated) hm).mono (fun _ m₁ h₁ => ?_) (fun _ _ he => he)
      cases allocated with
      | true => exact ⟨hreported.trans h₁.1, Or.inl h₁.2⟩
      | false =>
          refine (hf.report (h₁.1.alive hm) (Or.inr rfl)).mono (fun _ m₂ h₂ => ?_) (fun _ _ he => he)
          exact ⟨(hreported.trans h₁.1).trans h₂.1, Or.inl h₂.2⟩
  | finished =>
      refine (hf.report hm (Or.inl rfl)).mono (fun _ m' hm' => ?_) (fun _ _ he => he)
      exact ⟨hreported.trans hm'.1, Or.inl hm'.2⟩
  | failed =>
      refine (hf.report hm (Or.inr rfl)).mono (fun _ m' hm' => ?_) (fun _ _ he => he)
      exact ⟨hreported.trans hm'.1, Or.inl hm'.2⟩
  | watchAdd fd => exact hkeeps _ rfl (keeps_callWatchAdd env fd)
  | watchRemove k doClose => exact hkeeps _ rfl (keeps_callWatchRemove env k doClose)
  | setCanonicalName name => exact hquiet _ rfl fun _ => ⟨rfl, rfl, rfl, rfl, rfl⟩
  | setDnsAnswer answer => exact hquiet _ rfl fun _ => ⟨rfl, rfl, rfl, rfl, rfl⟩
  | setSecure => exact hquiet _ rfl fun _ => ⟨rfl, rfl, rfl, rfl, rfl⟩
  | addNameInfo nodename =>
      refine hquiet _ rfl fun s => ?_
      unfold backendAddNameInfo modifyQuery
      rw [sat_modify]
      dsimp only
      split
      · exact ⟨rfl, rfl, rfl, rfl, rfl⟩
      · exact ⟨rfl, rfl, rfl, rfl, rfl⟩

theorem tells_ne_waiting (call : Call) : tells call ≠ some .waiting := by
  cases call with
  | newPriv allocated => cases allocated <;> simp [tells]
  | _ => simp [tells]

theorem Unhurried.next {s s' : St} {call : Call} {rest : List Call}
    (h : Unhurried env s (call :: rest)) (hrequest : s'.query.request = s.query.request)
    (hstate : Follows ((tells call).getD s.query.state) s'.query.state) :
    Unhurried env s' rest := by
  unfold Unhurried at *
  rw [hrequest]
  by_cases hw : (tells call).getD s.query.state = .waiting
  · have htells : tells call = none ∧ s.query.state = .waiting := by
      cases htells : tells call with
      | none =>
          rw [htells] at hw
          exact ⟨rfl, hw⟩
      | some state =>
          rw [htells] at hw
          exact absurd (htells.trans (congrArg some hw)) (tells_ne_waiting call)
    rcases h with h | h | h
    · exact absurd htells.2 h
    · exact Or.inr (Or.inl h)
    · refine Or.inr (Or.inr ?_)
      cases call with
      | addPath a =>
          rw [pathFirst, Bool.or_eq_false_iff] at h
          exact h.2
      | finished => cases htells.1
      | failed => cases htells.1
      | _ => exact h
  · exact Or.inl (by rw [hstate.eq hw]; exact hw)

theorem runCalls_spares (hf : Reports env f) (calls : List Call) : ∀ {m : Mem}, m.alive →
    Unhurried env m.st calls →
    Spares (runCalls env f calls) m
      (fun _ m' => Near m m' ∧ Follows (told m.st.query.state calls) m'.st.query.state) := by
  induction calls with
  | nil => exact fun _ _ => ⟨Near.refl _, Or.inl rfl⟩
  | cons call rest ih =>
      intro m h hcalls
      unfold Spares runCalls
      rw [List.forM_cons, sat_bind]
      refine (runCall_spares hf h hcalls).mono (fun _ m₁ h₁ => ?_) (fun _ _ he => he)
      refine (ih (h₁.1.alive h) (hcalls.next h₁.1.request h₁.2)).mono (fun _ m₂ h₂ => ?_)
        (fun _ _ he => he)
      exact ⟨h₁.1.trans h₂.1, (h₁.2.told rest).trans h₂.2⟩

/-! ### The end -/

theorem queryFree_unwatched (env : Env) (s : St) :
    Sat (queryFree env) s (fun _ s' => s'.query.watches = []) (fun _ _ => True) := by
  unfold queryFree
  rw [sat_bind]
  refine (sat_trivial _ s).mono (fun _ s₁ _ => ?_) (fun _ _ he => he)
  rw [sat_bind]
  refine (sat_trivial _ s₁).mono (fun _ s₂ _ => ?_) (fun _ _ he => he)
  rw [sat_bind, sat_get]
  dsimp only
  rw [sat_ite]
  exact ⟨fun h => h.2, fun _ => trivial⟩

/-- The application frees the query, which has no watches then. -/
theorem invokeCallback_spares (h : m.alive) : Spares (invokeCallback env) m
    (fun _ m' => m'.alive ∨ m'.st.query.watches = []) := by
  unfold Spares invokeCallback
  rw [sat_bind, sat_look h, sat_ite]
  refine ⟨fun _ => ?_, fun _ => Or.inl h⟩
  rw [sat_bind, sat_touch h, Netresolve.sat_invokeCallback]
  have hcalled : ({ m with st := m.st.called } : Mem).alive := by
    unfold Mem.alive St.called
    split
    · exact h
    · exact h
  rw [sat_bind, sat_touch hcalled]
  refine (queryFree_unwatched env _).mono (fun _ s hs => ?_) (fun _ _ _ => Crash.noConfusion)
  exact Or.inr hs

/-- Where a chain of backends leaves the query. -/
def After : Fate → Mem → Prop
  | .waits, m => m.alive ∧ m.st.query.state = .waiting
  | .resolves, m => m.alive ∧ m.st.query.state = .resolved
  | .ends _, m => m.alive ∨ m.st.query.watches = []

theorem After.settled {fate : Fate} (h : After fate m) :
    m.alive ∨ m.st.query.watches = [] := by
  cases fate with
  | waits => exact Or.inl h.1
  | resolves => exact Or.inl h.1
  | ends silent => exact h

/-- A chain that has been silent and does not end leaves the query alive and not in ERROR. -/
theorem After.alive {i : Nat} {request : Request} {bs : List Backend}
    (h : After (fate env request i true bs) m) (hne : fate env request i true bs ≠ .ends true) :
    m.alive ∧ m.st.query.state ≠ .error := by
  cases hfate : fate env request i true bs with
  | waits =>
      rw [hfate] at h
      exact ⟨h.1, by rw [h.2]; exact QueryState.noConfusion⟩
  | resolves =>
      rw [hfate] at h
      exact ⟨h.1, by rw [h.2]; exact QueryState.noConfusion⟩
  | ends silent =>
      cases silent with
      | true => exact absurd hfate hne
      | false => exact absurd hfate (fate_silent env request bs i)

/-! ### Chains -/

/-- Setting backends up one after the other, as far as the fuel allows. -/
structure Chain (env : Env) (k : Nat) : Prop where
  failed : ∀ {m silent}, m.alive → m.st.query.state ≠ .failed →
    fateFrom env m.st (m.st.query.cursor + 1) silent ≠ .ends true →
    Spares (setState env k .failed) m
      (fun _ => After (fateFrom env m.st (m.st.query.cursor + 1) silent))
  setup : ∀ {m silent}, m.alive → m.st.query.state ≠ .setup →
    m.st.query.cursor < m.st.backends.length →
    fateFrom env m.st m.st.query.cursor silent ≠ .ends true →
    Spares (setState env k .setup) m (fun _ => After (fateFrom env m.st m.st.query.cursor silent))

theorem spares_fuel (h : m.alive) (state : QueryState) (Q : Unit → Mem → Prop) :
    Spares (setState env 0 state) m Q := by
  show Sat (touch (throw .fuel)) m Q _
  rw [sat_touch h, sat_throw]
  exact Crash.noConfusion

theorem reports_any (env : Env) (k : Nat) : Reports env (setState env k) := by
  cases k with
  | zero => exact ⟨fun h _ => spares_fuel h _ _, fun h _ _ => spares_fuel h _ _⟩
  | succ k => exact reports_setState env k

theorem setState_waiting (h : m.alive) (k : Nat) : Spares (setState env k .waiting) m
    (fun _ m' => Near m m' ∧ m'.st.query.state = .waiting) := by
  cases k with
  | zero => exact spares_fuel h _ _
  | succ k =>
      refine (sat_setState h k .waiting _).mpr ⟨fun hs => ⟨Near.refl m, hs.symm⟩, fun _ => ?_⟩
      have hentered := near_entered m .waiting
      refine (touch_keeps keeps_enterWaiting (hentered.alive h)).mono (fun _ m' hm' => ?_)
        (fun _ _ he => he)
      exact ⟨hentered.trans hm'.1, hm'.2⟩

theorem beginSetup_spec {s : St} {b : Backend} (hb : s.backends[s.query.cursor]? = some b) :
    Sat beginSetup (s.entered .setup) (fun present s' => present = b.setup s.query.request.type ∧
      s' = s.setUp b) (fun _ _ => False) := by
  have hb' : (s.entered .setup).backends[(s.entered .setup).query.cursor]? = some b := hb
  unfold beginSetup
  rw [sat_bind, sat_currentBackend hb']
  exact ⟨rfl, rfl⟩

theorem Chain.enterFailed {k : Nat} (ih : Chain env k) {silent : Bool} (h : m.alive)
    (hfate : fateFrom env m.st (m.st.query.cursor + 1) silent ≠ .ends true) :
    Spares (enterFailed env (setState env k)) (m.entered .failed)
      (fun _ => After (fateFrom env m.st (m.st.query.cursor + 1) silent)) := by
  unfold Spares Memory.enterFailed
  rw [sat_bind, sat_touch ((near_entered m _).alive h)]
  refine (leaveFailed_visible _).mono (fun found s' hs' => ?_) (fun _ _ _ => Crash.noConfusion)
  obtain ⟨s₁, hframe, -, rfl, rfl⟩ := hs'
  have hwarned : (m.entered .failed).st.warned.query = (m.entered .failed).st.query ∧
      (m.entered .failed).st.warned.backends = m.st.backends := by
    unfold St.warned
    split <;> exact ⟨rfl, rfl⟩
  have hcursor : s₁.query.cursor = m.st.query.cursor := by
    rw [hframe.cursor, hwarned.1]
    rfl
  have hrequest : s₁.query.request = m.st.query.request := by
    rw [hframe.request, hwarned.1]
    rfl
  have hshape : s₁.backends.map Backend.shape = m.st.backends.map Backend.shape := by
    rw [hframe.shape, hwarned.2]
  have halive : ({ m with st := s₁.moved (s₁.query.cursor + 1) } : Mem).alive := by
    show s₁.query.id ∈ m.live
    rw [hframe.id, hwarned.1]
    exact h
  have hsame : fateFrom env (s₁.moved (s₁.query.cursor + 1)) (s₁.query.cursor + 1) silent =
      fateFrom env m.st (m.st.query.cursor + 1) silent := by
    rw [hcursor]
    refine fateFrom_congr env ?_ ?_ hshape _ _
    · exact congrArg Request.type hrequest
    · exact congrArg Request.requestTimeout hrequest
  rw [← hsame] at hfate ⊢
  rw [sat_ite]
  refine ⟨fun hfound => ?_, fun hfound => ?_⟩
  · refine ih.setup halive ?_ (of_decide_eq_true hfound) hfate
    show s₁.query.state ≠ .setup
    rw [hframe.state, hwarned.1]
    exact QueryState.noConfusion
  · have hend : fateFrom env (s₁.moved (s₁.query.cursor + 1)) (s₁.query.cursor + 1) silent =
        .ends silent := by
      have hlength : s₁.backends.length ≤ s₁.query.cursor + 1 := by simpa using hfound
      unfold fateFrom
      rw [show (s₁.moved (s₁.query.cursor + 1)).backends = s₁.backends from rfl,
        List.drop_eq_nil_of_le hlength]
      rfl
    rw [hend]
    exact invokeCallback_spares halive

/-- The backend at the cursor and those behind it. -/
theorem fateFrom_cons {s : St} {b : Backend} (hb : s.backends[s.query.cursor]? = some b)
    (silent : Bool) : fateFrom env s s.query.cursor silent =
      if b.setup s.query.request.type then
        match told .setup (env.setup s.query.cursor) with
        | .error => fateFrom env s (s.query.cursor + 1) silent
        | .setup => if s.query.request.requestTimeout ≠ 0 then .waits
            else fateFrom env s (s.query.cursor + 1) true
        | _ => .resolves
      else fateFrom env s (s.query.cursor + 1) silent := by
  obtain ⟨hlt, hget⟩ := List.getElem?_eq_some_iff.mp hb
  rw [fateFrom, List.drop_eq_getElem_cons hlt, hget]
  rfl

theorem setUp_shape (s : St) (b : Backend) :
    (s.setUp b).backends.map Backend.shape = s.backends.map Backend.shape :=
  map_modify_eq Backend.shape _ (by intro b; rfl) _ _

theorem Chain.enterSetup {k : Nat} (ih : Chain env k) {silent : Bool} (h : m.alive)
    (hlt : m.st.query.cursor < m.st.backends.length)
    (hfate : fateFrom env m.st m.st.query.cursor silent ≠ .ends true) :
    Spares (enterSetup env (setState env k)) (m.entered .setup)
      (fun _ => After (fateFrom env m.st m.st.query.cursor silent)) := by
  have hb : m.st.backends[m.st.query.cursor]? = some (m.st.backends[m.st.query.cursor]) :=
    List.getElem?_eq_getElem hlt
  generalize m.st.backends[m.st.query.cursor] = b at hb
  rw [fateFrom_cons hb] at hfate ⊢
  unfold Spares Memory.enterSetup
  rw [sat_bind, sat_touch ((near_entered m _).alive h)]
  refine (beginSetup_spec hb).mono (fun present s' hs' => ?_) (fun _ _ he => he.elim)
  obtain ⟨rfl, rfl⟩ := hs'
  have halive : ({ m with st := m.st.setUp b } : Mem).alive := h
  have hsame : ∀ {m' : Mem}, Near { m with st := m.st.setUp b } m' → ∀ i silent,
      fateFrom env m'.st i silent = fateFrom env m.st i silent := by
    intro m' hnear i silent
    refine fateFrom_congr env ?_ ?_ (hnear.shape.trans (setUp_shape m.st b)) i silent
    · rw [hnear.request]
      rfl
    · rw [hnear.request]
      rfl
  -- the query fails here and goes on behind this backend
  have hfailed : ∀ {m' : Mem} {silent : Bool}, Near { m with st := m.st.setUp b } m' →
      m'.st.query.state ≠ .failed → fateFrom env m.st (m.st.query.cursor + 1) silent ≠ .ends true →
      Spares (setState env k .failed) m'
        (fun _ => After (fateFrom env m.st (m.st.query.cursor + 1) silent)) := by
    intro m' silent hnear hstate hne
    have hcursor : m'.st.query.cursor = m.st.query.cursor := hnear.cursor
    have hnext : fateFrom env m'.st (m'.st.query.cursor + 1) silent =
        fateFrom env m.st (m.st.query.cursor + 1) silent := by
      rw [hcursor, hsame hnear]
    rw [← hnext] at hne ⊢
    exact ih.failed (hnear.alive halive) hstate hne
  change Sat _ ({ m with st := m.st.setUp b } : Mem) _ _
  rw [sat_ite]
  refine ⟨fun hpresent => ?_, fun hpresent => ?_⟩
  · rw [if_pos hpresent] at hfate ⊢
    rw [sat_bind, sat_look halive, sat_bind]
    refine (runCalls_spares (reports_any env k) _ halive
      (Or.inl QueryState.noConfusion)).mono (fun _ m₁ h₁ => ?_) (fun _ _ he => he)
    obtain ⟨hnear, hstate⟩ := h₁
    have hm₁ := hnear.alive halive
    have htold : m₁.st.query.state = told .setup (env.setup m.st.query.cursor) := by
      refine hstate.eq ?_
      rcases told_setup (env.setup m.st.query.cursor) with hs | hs | hs
      all_goals
        intro hc
        have := hs.symm.trans hc
        cases this
    rw [sat_bind, sat_whenState hm₁]
    rcases told_setup (env.setup m.st.query.cursor) with hs | hs | hs
    · -- the setup function has reported nothing
      rw [hs] at htold hfate ⊢
      dsimp only at hfate ⊢
      refine ⟨fun _ => ?_, fun hc => absurd htold hc⟩
      have hrequest : m₁.st.query.request.requestTimeout = m.st.query.request.requestTimeout := by
        rw [hnear.request]
        rfl
      rw [sat_bind, sat_look hm₁, hrequest]
      by_cases htimeout : m.st.query.request.requestTimeout = 0
      · rw [if_neg (not_not.mpr htimeout)] at hfate ⊢
        rw [if_neg (not_not.mpr htimeout)]
        refine (hfailed hnear (by rw [htold]; exact QueryState.noConfusion) hfate).mono
          (fun _ m₂ h₂ => ?_) (fun _ _ he => he)
        obtain ⟨hm₂, hne⟩ := After.alive h₂ hfate
        rw [sat_whenState hm₂]
        exact ⟨fun hc => absurd hc hne, fun _ => h₂⟩
      · rw [if_pos htimeout, if_pos htimeout]
        refine (setState_waiting hm₁ k).mono (fun _ m₂ h₂ => ?_) (fun _ _ he => he)
        rw [sat_whenState (h₂.1.alive hm₁)]
        refine ⟨fun hc => ?_, fun _ => ⟨h₂.1.alive hm₁, h₂.2⟩⟩
        rw [h₂.2] at hc
        cases hc
    · rw [hs] at htold ⊢
      refine ⟨fun hc => ?_, fun _ => ?_⟩
      · rw [htold] at hc
        cases hc
      · rw [sat_whenState hm₁]
        refine ⟨fun hc => ?_, fun _ => ⟨hm₁, htold⟩⟩
        rw [htold] at hc
        cases hc
    · rw [hs] at htold hfate ⊢
      refine ⟨fun hc => ?_, fun _ => ?_⟩
      · rw [htold] at hc
        cases hc
      · rw [sat_whenState hm₁]
        refine ⟨fun _ => ?_, fun hc => absurd htold hc⟩
        exact hfailed hnear (by rw [htold]; exact QueryState.noConfusion) hfate
  · rw [if_neg hpresent] at hfate ⊢
    exact hfailed (Near.refl _) QueryState.noConfusion hfate

theorem chain (env : Env) : ∀ k, Chain env k := by
  intro k
  induction k with
  | zero => exact ⟨fun h _ _ => spares_fuel h _ _, fun h _ _ _ => spares_fuel h _ _⟩
  | succ k ih =>
      refine ⟨fun h hstate hfate => ?_, fun h hstate hlt hfate => ?_⟩
      · exact (sat_setState h k .failed _).mpr
          ⟨fun hc => absurd hc.symm hstate, fun _ => ih.enterFailed h hfate⟩
      · exact (sat_setState h k .setup _).mpr
          ⟨fun hc => absurd hc.symm hstate, fun _ => ih.enterSetup h hlt hfate⟩

/-! ### Events -/

theorem fateAfter_near {m' : Mem} (h : Near m m') : fateAfter env m'.st = fateAfter env m.st := by
  unfold fateAfter
  rw [h.cursor]
  refine fateFrom_congr env ?_ ?_ h.shape _ _
  · rw [h.request]
  · rw [h.request]

theorem querySetState_failed (h : m.alive) (hstate : m.st.query.state ≠ .failed)
    (hfate : fateAfter env m.st ≠ .ends true) :
    Spares (querySetState env .failed) m (fun _ => After (fateAfter env m.st)) := by
  unfold Spares querySetState
  rw [sat_bind, sat_get]
  exact (chain env (nesting m.st)).failed h hstate hfate

theorem queryStart_spares (h : m.alive) (hnew : m.st.toLocal.New)
    (hsilent : fateFrom env m.st m.st.query.cursor false ≠ .ends true) :
    Spares (queryStart env) m
      (fun _ => After (fateFrom env m.st m.st.query.cursor false)) := by
  unfold Spares queryStart
  rw [sat_bind, sat_look h, sat_ite]
  refine ⟨fun _ => Crash.noConfusion, fun hbackends => ?_⟩
  have hlt : m.st.query.cursor < m.st.backends.length := by
    rw [hnew.cursor]
    refine List.length_pos_iff.mpr fun hc => hbackends ?_
    rw [hc]
    rfl
  have hstate : m.st.query.state ≠ .setup := by
    rw [hnew.state]
    exact QueryState.noConfusion
  unfold querySetState
  rw [sat_bind, sat_get]
  exact (chain env (nesting m.st)).setup h hstate hlt hsilent

/-- A query that has lasted is there, waits or has an answer. -/
theorem After.lasts {fate : Fate} (h : After fate m) (hlasts : ∀ silent, fate ≠ .ends silent) :
    m.alive ∧ (m.st.query.state = .waiting ↔ fate = .waits) := by
  cases fate with
  | waits => exact ⟨h.1, iff_of_true h.2 rfl⟩
  | resolves =>
      refine ⟨h.1, iff_of_false (fun hs => ?_) Fate.noConfusion⟩
      rw [h.2] at hs
      cases hs
  | ends silent => exact absurd rfl (hlasts silent)

/-- The start changes the request in its protocol only. -/
theorem queryStart_request {m' : Mem} (hnew : m.st.toLocal.New)
    (hok : Netresolve.queryStart env m.st = .ok () m'.st) :
    ∃ protocol, m'.st.query.request = { m.st.query.request with protocol } := by
  have hrequested : Requested m.st.query.request m.st := by
    refine ⟨⟨m.st.query.request.protocol, rfl⟩, fun _ p hp => ?_⟩
    rw [hnew.response] at hp
    cases hp
  exact ((queryStart_asks.kept hrequested).of_ok hok).same

theorem create_spares (h : m.alive) (hnew : m.st.toLocal.New) {creation : Creation}
    {blocking : Bool} (hstart : SparedStart env creation blocking m.st) :
    Spares (create env creation blocking) m (fun _ m' => m'.alive ∨ m'.st.query.watches = []) := by
  unfold Spares create
  rw [sat_bind]
  refine ((queryStart_spares h hnew hstart.silent).and (mirrors_queryStart env m)).mono
    (fun _ m₁ h₁ => ?_) (fun _ _ he => he.1)
  obtain ⟨hafter, hmirror⟩ := h₁
  rw [sat_ite]
  refine ⟨fun _ => hafter.settled, fun hblocking => ?_⟩
  have hfinish := hstart.finish
  cases creation with
  | query => exact hafter.settled
  | getaddrinfo canonname =>
      cases canonname with
      | true => exact hafter.settled
      | false =>
          obtain ⟨-, hlasts⟩ := hfinish.resolve_left Bool.noConfusion
          obtain ⟨halive, -⟩ := hafter.lasts hlasts
          show Sat (touch emptyNodename) m₁ _ _
          rw [sat_touch halive]
          exact Or.inl halive
  | gethostbyaddr address =>
      obtain ⟨-, hlasts, hpath⟩ := hfinish
      obtain ⟨halive, hwaiting⟩ := hafter.lasts hlasts
      obtain ⟨protocol, hrequest⟩ := queryStart_request hnew (hmirror halive).2
      show Sat (backendAddPath env (querySetState env) _) m₁ _ _
      unfold backendAddPath
      rw [sat_bind, sat_look halive]
      refine (addPaths_spares (reports_querySetState env) _ halive ?_).mono
        (fun _ _ hm₂ => Or.inl (hm₂.1.alive halive)) (fun _ _ he => he)
      rcases hpath with hfate | hresult | hexcludes
      · exact Or.inl (mt hwaiting.mp hfate)
      · exact Or.inr (Or.inl (by rw [hrequest]; exact hresult))
      · refine Or.inr (Or.inr ?_)
        rw [hrequest]
        unfold pathsOf
        exact if_pos hexcludes

/-- The request timeout leads on to a backend that waits. -/
theorem dispatchRequestTimeout_spares (h : m.alive) (hfate : fateAfter env m.st = .waits) :
    Spares (dispatchRequestTimeout env) m
      (fun _ m' => m'.alive ∧ m'.st.query.state = .waiting) := by
  unfold Spares dispatchRequestTimeout
  rw [sat_bind, sat_look h]
  dsimp only
  rw [sat_ite]
  refine ⟨fun hstate => ?_, fun _ => Crash.noConfusion⟩
  unfold dispatchTimeout
  rw [sat_bind, sat_look h, sat_ite]
  refine ⟨fun _ => Crash.noConfusion, fun _ => ?_⟩
  rw [sat_bind]
  refine (touch_keeps (keeps_clearTimeout env .requestTimeout) h).mono (fun _ m₁ h₁ => ?_)
    (fun _ _ he => he)
  obtain ⟨hnear, hsame⟩ := h₁
  have hwaits : fateAfter env m₁.st = .waits := (fateAfter_near hnear).trans hfate
  have hfailed : m₁.st.query.state ≠ .failed := by
    rw [hsame]
    rcases hstate with hs | hs
    · rw [hs]
      exact QueryState.noConfusion
    · rw [hs]
      exact QueryState.noConfusion
  have hne : fateAfter env m₁.st ≠ .ends true := by
    rw [hwaits]
    exact Fate.noConfusion
  refine (querySetState_failed (hnear.alive h) hfailed hne).mono (fun _ m₂ h₂ => ?_)
    (fun _ _ he => he)
  rw [hwaits] at h₂
  exact h₂

theorem queryDispatch_spares (h : m.alive) {w : Nat} (hspared : Spared env m.st w) :
    Spares (queryDispatch env w) m (fun _ m' => m'.alive ∨ m'.st.query.watches = []) := by
  unfold Spares queryDispatch
  rw [sat_bind, sat_look h]
  cases hx : m.st.query.watches.find? (·.id = w) with
  | none => exact Crash.noConfusion
  | some x =>
      have hx' := hspared x hx
      dsimp only
      rw [sat_bind]
      cases hcallback : x.callback with
      | backend i =>
          rw [hcallback] at hx'
          obtain ⟨hcalls, hresolved, herror⟩ := hx'
          refine (runCalls_spares (reports_querySetState env) _ h hcalls).mono (fun _ m₁ h₁ => ?_)
            (fun _ _ he => he)
          obtain ⟨hnear, hfollows⟩ := h₁
          have hm₁ := hnear.alive h
          rw [sat_bind, sat_whenState hm₁]
          refine ⟨fun hc => ?_, fun _ => ?_⟩
          · exact absurd ((hfollows.eq_iff QueryState.noConfusion QueryState.noConfusion).mp hc)
              hresolved
          rw [sat_whenState hm₁]
          refine ⟨fun hc => ?_, fun _ => Or.inl hm₁⟩
          -- the query is in ERROR, and changing to FAILED is the last that is done with it
          have hfate : fateAfter env m₁.st ≠ .ends true := by
            rw [fateAfter_near hnear]
            exact herror ((hfollows.eq_iff QueryState.noConfusion QueryState.noConfusion).mp hc)
          have hfailed : m₁.st.query.state ≠ .failed := by
            rw [hc]
            exact QueryState.noConfusion
          refine (querySetState_failed hm₁ hfailed hfate).mono (fun _ _ h₂ => ?_)
            (fun _ _ he => he)
          exact h₂.settled
      | timeout t =>
          rw [hcallback] at hx'
          cases t with
          | delayed => exact hx'.elim
          | resultTimeout => exact hx'.elim
          | requestTimeout =>
              refine (dispatchRequestTimeout_spares h hx').mono (fun _ m₁ h₁ => ?_)
                (fun _ _ he => he)
              obtain ⟨hm₁, hwaiting⟩ := h₁
              rw [sat_bind, sat_whenState hm₁]
              refine ⟨fun hc => ?_, fun _ => ?_⟩
              · rw [hwaiting] at hc
                cases hc
              rw [sat_whenState hm₁]
              refine ⟨fun hc => ?_, fun _ => Or.inl hm₁⟩
              rw [hwaiting] at hc
              cases hc

/-! ### Runs -/

/-- Between two events the query exists or has nothing left that could be dispatched. -/
theorem Lived.settled {m₀ : Mem} (hnew : m₀.st.toLocal.New) (hlive : m₀.alive)
    (h : Lived SparedStart Spared m₀ m) : m.alive ∨ m.st.query.watches = [] := by
  induction h with
  | start env creation blocking hP hstart => exact (create_spares hlive hnew hP).of_ok hstart
  | step env w _ hP hw hstep ih =>
      rcases ih with ih | ih
      · exact (queryDispatch_spares ih hP).of_ok hstep
      · obtain ⟨x, hx, -⟩ := hw
        rw [ih] at hx
        cases hx
  | others _ ho ih =>
      rw [ho.query, ho.alive]
      exact ih

theorem finish_fueled (env : Env) (creation : Creation) (m : Mem) :
    Sat (creation.finish env) m (fun _ _ => True) (fun e _ => e ≠ .fault .fuel) := by
  cases creation with
  | query => trivial
  | getaddrinfo canonname =>
      cases canonname with
      | true => trivial
      | false =>
          have hempty : ∀ s, Fueled emptyNodename s := by
            intro s
            exact ⟨Nat.le_refl _, rfl⟩
          exact touch_fueled hempty m
  | gethostbyaddr address =>
      have hmirrors : Mirrors
          (Netresolve.backendAddPath env (Netresolve.querySetState env)
            { family := AF_INET, address })
          (backendAddPath env (querySetState env) { family := AF_INET, address }) :=
        .bind (.touch get) fun _ => .forM (mirrors_addPath (mirrors_querySetState env)) _
      exact hmirrors.fueled (fun s => backendAddPath_fueled (querySetState_enough env s) s
        (Nat.le_refl _) (Forward.refl s) _) m

theorem create_fueled (env : Env) (creation : Creation) (blocking : Bool) (m : Mem) :
    Sat (create env creation blocking) m (fun _ _ => True) (fun e _ => e ≠ .fault .fuel) := by
  unfold create
  rw [sat_bind]
  refine ((mirrors_queryStart env).fueled (queryStart_fueled env) m).mono (fun _ m₁ _ => ?_)
    (fun _ _ he => he)
  rw [sat_ite]
  exact ⟨fun _ => trivial, fun _ => finish_fueled env creation m₁⟩

/--
**No event of a run looks at the query after its callback has freed it**, if the callback is
reached from `netresolve_query` or from the dispatch of a backend's watch that ends in ERROR, no
backend before it was given up in silence, and a function that goes on with a new query does so
only when that has not ended.
-/
theorem freed_query_left_alone {m₀ : Mem} (hnew : m₀.st.toLocal.New) (hlive : m₀.alive) :
    (∀ env creation blocking e m, SparedStart env creation blocking m₀.st →
      create env creation blocking m₀ = .error e m → e ≠ .useAfterFree ∧ e ≠ .fault .fuel) ∧
    ∀ m, Lived SparedStart Spared m₀ m → ∀ env w e m', Spared env m.st w →
      (∃ x ∈ m.st.query.watches, x.id = w) → queryDispatch env w m = .error e m' →
      e ≠ .useAfterFree ∧ e ≠ .fault .fuel := by
  refine ⟨fun env creation blocking e m hP herr => ⟨?_, ?_⟩,
    fun m hm env w e m' hP hw herr => ⟨?_, ?_⟩⟩
  · exact (create_spares hlive hnew hP).of_error herr
  · exact (create_fueled env creation blocking m₀).of_error herr
  · rcases hm.settled hnew hlive with halive | hempty
    · exact (queryDispatch_spares halive hP).of_error herr
    · obtain ⟨x, hx, -⟩ := hw
      rw [hempty] at hx
      cases hx
  · exact ((mirrors_queryDispatch env w).fueled (queryDispatch_fueled env w) m).of_error herr

end

/-- A query on a single backend, not freed yet. -/
def aliveBackend : Mem := { st := oneBackend, live := {0} }

/-- The backend asks somebody else, who has no answer. -/
def failsLater : Env :=
  { setup := fun _ => [.newPriv true, .watchAdd 5], dispatch := fun _ => [.failed] }

/--
`netresolve_query_getaddrinfo` empties the name of the query; then the dispatch of the backend's watch
ends the query, and the callback frees it.
-/
theorem freed_query_left_alone_failing : ∃ m m', Lived SparedStart Spared aliveBackend m ∧
    queryDispatch failsLater 1 m = .ok () m' ∧ ¬ m'.alive ∧
    ∀ e m'', queryDispatch failsLater 1 m = .error e m'' →
      e ≠ .useAfterFree ∧ e ≠ .fault .fuel := by
  obtain ⟨m, hm⟩ : ∃ m, m = final (create failsLater (.getaddrinfo false) false) aliveBackend :=
    ⟨_, rfl⟩
  have hstart : create failsLater (.getaddrinfo false) false aliveBackend = .ok () m := by
    rw [hm]
    exact ok_of_returns (by decide +kernel)
  have hfate : fateFrom failsLater oneBackend 0 false = .waits := by decide
  have hspared : SparedStart failsLater (.getaddrinfo false) false aliveBackend.st :=
    ⟨fun h => Fate.noConfusion (hfate.symm.trans h),
      Or.inr ⟨rfl, fun _ h => Fate.noConfusion (hfate.symm.trans h)⟩⟩
  have hlived : Lived SparedStart Spared aliveBackend m := .start _ _ _ hspared hstart
  have hwatch : m.st.query.watches.find? (·.id = 1) = some ⟨1, .backend 5, .backend 0⟩ := by
    rw [hm]
    decide +kernel
  have hspared : Spared failsLater m.st 1 := by
    intro x hx
    rw [hwatch] at hx
    injection hx with hx
    subst hx
    refine ⟨Or.inr (Or.inr rfl), QueryState.noConfusion, fun _ => ?_⟩
    rw [hm]
    decide +kernel
  have hsafe := (freed_query_left_alone oneBackend_fresh.toNew
    (show aliveBackend.alive by decide)).2 m hlived failsLater 1
  have hdispatch : queryDispatch failsLater 1 m = .ok () (final (queryDispatch failsLater 1) m) := by
    rw [hm]
    exact ok_of_returns (by decide +kernel)
  refine ⟨m, _, hlived, hdispatch, ?_, fun e m'' herr => ?_⟩
  · rw [hm]
    decide +kernel
  · exact hsafe e m'' hspared ⟨_, List.mem_of_find?_eq_some hwatch, rfl⟩ herr

/-- The backend knows the answer at once. -/
def knowsAnswer : Env := { setup := fun _ => [.finished] }

/--
The timer that ends a query which was resolved in its setup function calls the application, and
`netresolve_query_dispatch` looks at the state of the query afterwards.
-/
theorem dispatch_reads_freed_query : ¬ ∀ (m₀ : Mem) (env : Env) (ws : List Nat) (m' : Mem),
    m₀.st.toLocal.New → m₀.alive → env.WellBehaved → env.Reliable →
      play env ws m₀ ≠ .error .useAfterFree m' := by
  intro h
  have hbehaved : knowsAnswer.WellBehaved := ⟨fun _ => rfl, fun _ => rfl⟩
  have hreliable : knowsAnswer.Reliable :=
    ⟨fun _ => rfl, fun _ => rfl, fun _ => rfl, fun _ => rfl⟩
  have hfails : fails (play knowsAnswer [1]) aliveBackend = some .useAfterFree := by
    decide +kernel
  exact h aliveBackend knowsAnswer [1] _ oneBackend_fresh.toNew (by decide) hbehaved hreliable
    (error_of_fails hfails)

end Netresolve.Memory
