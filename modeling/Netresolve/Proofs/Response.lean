/-
What a failed backend leaves behind.

Backends write into one response as their data come in, and nothing is taken back when
one of them fails.  So a failed backend leaves the response alone only if it has not
written into it, and the application is handed the data of successful backends only if
no unfinished backend has written when it is called.  `Discreet` is the condition on the
backends under which this is so, event by event; the trace then satisfies `Atomic`.

The second half of the condition is about mandatory backends.  After DONE the
application is called once the restarted backend has been set up, not once it has
ended, so what its setup function writes is handed over too early.
-/
import Netresolve.Core.Course
import Netresolve.Proofs.Loose
import Netresolve.Proofs.Timers

namespace Netresolve

open Outcome Past

/-! ### Who contributed what -/

/-- The positions of the backends whose data are in the response. -/
def Response.origins (r : Response) : List Nat :=
  r.paths.map (·.origin) ++ (r.nodename.toList.map (·.origin) ++
    (r.servname.toList.map (·.origin) ++ r.dns.toList.map (·.origin)))

/-- The running backend has written into the response since it was set up. -/
def contributed : List Obs → Bool
  | [] => false
  | .enter .setup _ _ :: _ => false
  | .path _ _ :: _ => true
  | .report _ call :: past => call.data || contributed past
  | _ :: past => contributed past

/-- The response as it was when the running backend was set up, empty to begin with. -/
def atSetup : List Obs → Response
  | [] => {}
  | .enter .setup _ r :: _ => r
  | _ :: past => atSetup past

/-- All data of the response come from backends that are done, and so does its security. -/
def Credited (r : Response) (tr : List Obs) : Prop :=
  (∀ j ∈ r.origins, Entered .done j tr) ∧
    (r.security = .secure → ∃ j, Obs.report j .setSecure ∈ tr ∧ Entered .done j tr)

/--
FAILED is entered with the response the backend was set up with, and with no path of that
backend; the application is handed data of backends that are done.
-/
def Atomic (o : Obs) (past : List Obs) : Prop :=
  match o with
  | .enter .failed i r => r = atSetup past ∧ ∀ p ∈ r.paths, p.origin ≠ i
  | .callback _ _ r => Credited r past
  | _ => True

/-! ### The condition on the backends -/

/-- The outcome a call reports, success being `true`. -/
def Call.outcome : Call → Option Bool
  | .finished => some true
  | .failed | .newPriv false => some false
  | _ => none

/-- The outcome reported last. -/
def lastOutcome : List Call → Option Bool
  | [] => none
  | call :: rest => (lastOutcome rest).or call.outcome

/-- The call writes into the response of a query with that request. -/
def Call.writes (services : List Service) (request : Request) : Call → Bool
  | .addPath a => !(pathsOf services request a).isEmpty
  | call => call.data

/-- None of the calls writes into the response. -/
def Silent (services : List Service) (request : Request) (calls : List Call) : Prop :=
  ∀ call ∈ calls, call.writes services request = false

/-- A setup function that fails, or is not waited for, writes nothing. -/
def Env.Discreet (env : Env) (request : Request) : Prop :=
  ∀ i, (lastOutcome (env.setup i) = some false ∨
    lastOutcome (env.setup i) = none ∧ request.requestTimeout = 0) →
    Silent env.services request (env.setup i)

/-- The calls an event makes the running backend make. -/
def WatchCallback.calls (env : Env) : WatchCallback → List Call
  | .backend i => env.dispatch i
  | .timeout _ => []

/-- The event ends the running backend in FAILED. -/
def WatchCallback.fails (env : Env) : WatchCallback → Bool
  | .backend i => lastOutcome (env.dispatch i) == some false
  | .timeout t => t == .requestTimeout

/--
The first backend that the event may end in DONE.  The request timer may end the next
one so, if that succeeds while it is set up.
-/
def WatchCallback.ends (env : Env) (cursor : Nat) : WatchCallback → Option Nat
  | .backend i => if lastOutcome (env.dispatch i) = some false then none else some cursor
  | .timeout .requestTimeout => some (cursor + 1)
  | .timeout _ => some cursor

/--
A backend writes into the response only if it goes on to succeed, and it does not write
while it is set up if it is restarted after a success: it is mandatory, or tried
because a mandatory one has failed.
-/
structure Discreet (s : St) (env : Env) (w : Nat) : Prop where
  setup : env.Discreet s.query.request
  failing : ∀ x, s.query.watches.find? (·.id = w) = some x → x.callback.fails env →
    Silent env.services s.query.request (x.callback.calls env) ∧ contributed s.trace = false
  restart : ∀ x, s.query.watches.find? (·.id = w) = some x →
    ∀ b m j, x.callback.ends env s.query.cursor = some b → b < m → m ≤ j →
      Mandatory s.backends m → Silent env.services s.query.request (env.setup j)

/-! ### The trace -/

/-- What is known of the response while the cursor is on backend `c`. -/
structure Kept (c : Nat) (r : Response) (tr : List Obs) : Prop where
  atomic : Always Atomic tr
  origins : ∀ j ∈ r.origins, Entered .done j tr ∨ j = c ∧ contributed tr = true
  secure : r.security = .secure → ∃ j, Obs.report j .setSecure ∈ tr ∧
    (Entered .done j tr ∨ j = c ∧ contributed tr = true)
  setup : contributed tr = false → r = atSetup tr
  dones : ∀ j, Entered .done j tr → j < c

/-- The entries that say nothing about the response. -/
def Obs.mute : Obs → Bool
  | .enter state _ _ => state != .setup && state != .done && state != .failed
  | .report _ call => !call.data
  | .error _ => true
  | _ => false

theorem mute_entered {o : Obs} (ho : o.mute) (i : Nat) (tr : List Obs) :
    Entered .done i (o :: tr) ↔ Entered .done i tr := by
  rw [entered_cons]
  constructor
  · rintro (⟨r, rfl⟩ | h)
    · simp [Obs.mute] at ho
    · exact h
  · exact Or.inr

theorem mute_contributed {o : Obs} (ho : o.mute) (tr : List Obs) :
    contributed (o :: tr) = contributed tr := by
  cases o with
  | enter state i r => cases state <;> first | rfl | simp [Obs.mute] at ho
  | report i call =>
      have hd : call.data = false := by simpa [Obs.mute] using ho
      simp [contributed, hd]
  | error text => rfl
  | path i path => simp [Obs.mute] at ho
  | callback state i r => simp [Obs.mute] at ho

theorem mute_atSetup {o : Obs} (ho : o.mute) (tr : List Obs) :
    atSetup (o :: tr) = atSetup tr := by
  cases o with
  | enter state i r => cases state <;> first | rfl | simp [Obs.mute] at ho
  | _ => rfl

theorem mute_atomic {o : Obs} (ho : o.mute) (tr : List Obs) : Atomic o tr := by
  cases o with
  | enter state i r =>
      cases state with
      | failed => simp [Obs.mute] at ho
      | _ => trivial
  | callback state i r => simp [Obs.mute] at ho
  | _ => trivial

section

variable {c : Nat} {r : Response} {tr : List Obs}

theorem Kept.mute (h : Kept c r tr) {o : Obs} (ho : o.mute) : Kept c r (o :: tr) := by
  refine ⟨⟨mute_atomic ho tr, h.atomic⟩, ?_, ?_, ?_, ?_⟩
  · intro j hj
    rw [mute_entered ho, mute_contributed ho]
    exact h.origins j hj
  · intro hs
    obtain ⟨j, hj, hd⟩ := h.secure hs
    refine ⟨j, List.mem_cons_of_mem _ hj, ?_⟩
    rw [mute_entered ho, mute_contributed ho]
    exact hd
  · rw [mute_contributed ho, mute_atSetup ho]
    exact h.setup
  · intro j hj
    rw [mute_entered ho] at hj
    exact h.dones j hj

/-- A backend that has written nothing leaves a response that others account for. -/
theorem Kept.credited (h : Kept c r tr) (hno : contributed tr = false) : Credited r tr := by
  constructor
  · intro j hj
    rcases h.origins j hj with hd | ⟨-, hc⟩
    · exact hd
    · rw [hno] at hc
      simp at hc
  · intro hs
    obtain ⟨j, hj, hd | ⟨-, hc⟩⟩ := h.secure hs
    · exact ⟨j, hj, hd⟩
    · rw [hno] at hc
      simp at hc

theorem Kept.setUp (h : Kept c r tr) (hcred : Credited r tr) :
    Kept c r (.enter .setup c r :: tr) := by
  refine ⟨⟨trivial, h.atomic⟩, fun j hj => Or.inl ?_, fun hs => ?_, fun _ => rfl, fun j hj => ?_⟩
  · simpa using hcred.1 j hj
  · obtain ⟨j, hj, hd⟩ := hcred.2 hs
    exact ⟨j, List.mem_cons_of_mem _ hj, Or.inl (by simpa using hd)⟩
  · exact h.dones j (by simpa using hj)

/-- The running backend writes: everything it adds to the response is its own. -/
theorem Kept.write (h : Kept c r tr) {o : Obs} {r' : Response} (ho : contributed (o :: tr) = true)
    (hdone : ∀ i, Entered .done i (o :: tr) ↔ Entered .done i tr) (hatom : Atomic o tr)
    (hor : ∀ j ∈ r'.origins, j ∈ r.origins ∨ j = c)
    (hsec : r'.security = .secure → r.security = .secure ∨ o = .report c .setSecure) :
    Kept c r' (o :: tr) := by
  refine ⟨⟨hatom, h.atomic⟩, fun j hj => ?_, fun hs => ?_, fun hno => ?_, fun j hj => ?_⟩
  · rw [hdone]
    rcases hor j hj with hold | hnew
    · rcases h.origins j hold with hd | ⟨hc, -⟩
      · exact Or.inl hd
      · exact Or.inr ⟨hc, ho⟩
    · exact Or.inr ⟨hnew, ho⟩
  · rcases hsec hs with hold | hnew
    · obtain ⟨j, hj, hd | ⟨hc, -⟩⟩ := h.secure hold
      · exact ⟨j, List.mem_cons_of_mem _ hj, Or.inl ((hdone j).mpr hd)⟩
      · exact ⟨j, List.mem_cons_of_mem _ hj, Or.inr ⟨hc, ho⟩⟩
    · exact ⟨c, by rw [hnew]; exact List.mem_cons_self, Or.inr ⟨rfl, ho⟩⟩
  · rw [ho] at hno
    simp at hno
  · exact h.dones j ((hdone j).mp hj)

/-- A backend that is done accounts for what it has written. -/
theorem Kept.done (h : Kept c r tr) {c' : Nat} (hc : c < c') :
    Kept c' r (.enter .done c r :: tr) ∧ Credited r (.enter .done c r :: tr) := by
  have hor : ∀ j, Entered .done j tr ∨ j = c ∧ contributed tr = true →
      Entered .done j (.enter .done c r :: tr) := by
    intro j hj
    rw [entered_enter]
    rcases hj with hd | ⟨rfl, -⟩
    · exact Or.inr hd
    · exact Or.inl ⟨rfl, rfl⟩
  have hcred : Credited r (.enter .done c r :: tr) := by
    refine ⟨fun j hj => hor j (h.origins j hj), fun hs => ?_⟩
    obtain ⟨j, hj, hd⟩ := h.secure hs
    exact ⟨j, List.mem_cons_of_mem _ hj, hor j hd⟩
  refine ⟨⟨⟨trivial, h.atomic⟩, fun j hj => Or.inl (hcred.1 j hj), fun hs => ?_, h.setup,
    fun j hj => ?_⟩, hcred⟩
  · obtain ⟨j, hj, hd⟩ := hcred.2 hs
    exact ⟨j, hj, Or.inl hd⟩
  · rcases (entered_enter ..).mp hj with ⟨-, rfl⟩ | hd
    · exact hc
    · exact Nat.lt_trans (h.dones j hd) hc

/-- FAILED after the backend has written nothing. -/
theorem Kept.fail (h : Kept c r tr) (hno : contributed tr = false) :
    Kept (c + 1) r (.enter .failed c r :: tr) ∧ Credited r (.enter .failed c r :: tr) := by
  have hcred := h.credited hno
  have hcred' : Credited r (.enter .failed c r :: tr) := by
    refine ⟨fun j hj => by simpa using hcred.1 j hj, fun hs => ?_⟩
    obtain ⟨j, hj, hd⟩ := hcred.2 hs
    exact ⟨j, List.mem_cons_of_mem _ hj, by simpa using hd⟩
  refine ⟨⟨⟨⟨h.setup hno, fun p hp => ?_⟩, h.atomic⟩, fun j hj => Or.inl (hcred'.1 j hj),
    fun hs => ?_, h.setup, fun j hj => ?_⟩, hcred'⟩
  · have hd := hcred.1 p.origin (List.mem_append_left _ (List.mem_map_of_mem hp))
    exact Nat.ne_of_lt (h.dones _ hd)
  · obtain ⟨j, hj, hd⟩ := hcred'.2 hs
    exact ⟨j, hj, Or.inl hd⟩
  · exact Nat.lt_succ_of_lt (h.dones j (by simpa using hj))

theorem Credited.mono {o : Obs} (h : Credited r tr) : Credited r (o :: tr) := by
  have hent : ∀ j, Entered .done j tr → Entered .done j (o :: tr) :=
    fun j hj => (entered_cons ..).mpr (Or.inr hj)
  refine ⟨fun j hj => hent j (h.1 j hj), fun hs => ?_⟩
  obtain ⟨j, hj, hd⟩ := h.2 hs
  exact ⟨j, List.mem_cons_of_mem _ hj, hent j hd⟩

theorem Kept.callback (h : Kept c r tr) (hcred : Credited r tr) (state : QueryState) (i : Nat) :
    Kept c r (.callback state i r :: tr) := by
  have hent : ∀ j, Entered .done j (.callback state i r :: tr) ↔ Entered .done j tr := by
    intro j
    rw [entered_cons]
    simp
  refine ⟨⟨hcred, h.atomic⟩, fun j hj => ?_, fun hs => ?_, h.setup, fun j hj => ?_⟩
  · rw [hent]
    exact h.origins j hj
  · obtain ⟨j, hj, hd⟩ := h.secure hs
    exact ⟨j, List.mem_cons_of_mem _ hj, by rw [hent]; exact hd⟩
  · exact h.dones j ((hent j).mp hj)

end

/-! ### What a write adds -/

theorem mem_insertPath (sort : Bool) (path : Sourced Path) : ∀ (ps : List (Sourced Path)),
    ∀ p ∈ insertPath sort path ps, p = path ∨ p ∈ ps := by
  intro ps
  induction ps with
  | nil => intro p hp; exact Or.inl (by simpa [insertPath] using hp)
  | cons q rest ih =>
      intro p hp
      unfold insertPath at hp
      split at hp
      · exact List.mem_cons.mp hp
      · rcases List.mem_cons.mp hp with rfl | hp'
        · exact Or.inr List.mem_cons_self
        · exact (ih p hp').imp_right (List.mem_cons_of_mem _)

theorem origins_stored (env : Env) (s : St) (path : Path) :
    ∀ j ∈ (s.stored env path).query.response.origins,
      j ∈ s.query.response.origins ∨ j = s.query.cursor := by
  intro j hj
  rcases List.mem_append.mp hj with hpath | hrest
  · obtain ⟨p, hp, rfl⟩ := List.mem_map.mp hpath
    rcases mem_insertPath _ _ _ p hp with rfl | hold
    · exact Or.inr rfl
    · exact Or.inl (List.mem_append_left _ (List.mem_map_of_mem hold))
  · exact Or.inl (List.mem_append_right _ hrest)

theorem origins_answer (env : Env) (call : Call) (q : Query) :
    ∀ j ∈ (call.answer env q).origins, j ∈ q.response.origins ∨ j = q.cursor := by
  intro j hj
  cases call with
  | setCanonicalName name =>
      simp only [Call.answer, Response.origins, List.mem_append] at hj ⊢
      simp only [Option.toList_some, List.map_cons, List.map_nil, List.mem_singleton] at hj
      tauto
  | setDnsAnswer answer =>
      simp only [Call.answer, Response.origins, List.mem_append] at hj ⊢
      simp only [Option.toList_some, List.map_cons, List.map_nil, List.mem_singleton] at hj
      tauto
  | addNameInfo nodename =>
      have hnew : ∀ (x : Option String), ∀ j ∈ (x.map fun v =>
          (⟨v, q.cursor⟩ : Sourced String)).toList.map (·.origin), j = q.cursor := by
        intro x j hx
        cases x with
        | none => simp at hx
        | some v => simpa using hx
      simp only [Call.answer] at hj
      split at hj
      · exact Or.inl hj
      · simp only [Response.origins, List.mem_append] at hj ⊢
        rcases hj with hp | hn | hs | hd
        · exact Or.inl (Or.inl hp)
        · exact Or.inr (hnew _ j hn)
        · split at hs
          · exact Or.inl (Or.inr (Or.inr (Or.inl hs)))
          · exact Or.inr (hnew _ j hs)
        · exact Or.inl (Or.inr (Or.inr (Or.inr hd)))
  | _ => exact Or.inl hj

theorem security_answer (env : Env) (call : Call) (q : Query)
    (h : (call.answer env q).security = .secure) :
    q.response.security = .secure ∨ call = .setSecure := by
  cases call with
  | setSecure => exact Or.inr rfl
  | addNameInfo nodename =>
      simp only [Call.answer] at h
      split at h <;> exact Or.inl h
  | _ => exact Or.inl h

/-! ### What is still to come -/

/-- The calls to come end the backend in FAILED. -/
def Fails (request : Request) (rest : List Call) (state : QueryState) : Prop :=
  match lastOutcome rest with
  | some ok => ok = false
  | none => state = .error ∨ state = .setup ∧ request.requestTimeout = 0

section

variable {request : Request} {rest : List Call}

theorem fails_cons {call : Call} (hno : call.outcome = none) (state : QueryState) :
    Fails request (call :: rest) state ↔ Fails request rest state := by
  simp only [Fails, lastOutcome, hno, Option.or_none]

theorem fails_finished (state : QueryState) :
    Fails request (.finished :: rest) state ↔ Fails request rest .resolved := by
  simp only [Fails, lastOutcome, Call.outcome]
  cases lastOutcome rest <;> simp

theorem fails_failed {call : Call} (hcall : call.outcome = some false) (state : QueryState) :
    Fails request (call :: rest) state ↔ Fails request rest .error := by
  simp only [Fails, lastOutcome, hcall]
  cases lastOutcome rest <;> simp

theorem fails_iff {state : QueryState} (he : state ≠ .error) (hs : state ≠ .setup) :
    Fails request rest state ↔ lastOutcome rest = some false := by
  unfold Fails
  cases lastOutcome rest <;> simp [he, hs]

end

/-! ### The stages -/

section

variable (env : Env) (request : Request) (bs : List Backend) (b : Option Nat)

/-- What holds of the response at every stage. -/
structure Holds (s : St) : Prop where
  shape : s.backends.map Backend.shape = bs.map Backend.shape
  kept : Kept s.query.cursor s.query.response s.trace

/-- No setup function from the cursor on writes, as long as a call of the application is owed. -/
def Spared (k : Nat) (s : St) : Prop :=
  0 < k → ∀ j, s.query.cursor ≤ j → Silent env.services request (env.setup j)

/-- A backend is running. -/
structure Doing (k : Nat) (ph : Phase) (rest : List Call) (s : St) : Prop extends Holds bs s where
  asked : s.query.request = request
  setup : ph = .setup →
    s.query.state = .setup ∨ s.query.state = .resolved ∨ s.query.state = .error
  dispatch : ph = .dispatch → k = 0 ∧ s.query.state ≠ .setup ∧
    (b = none → Fails request rest s.query.state)
  quiet : 0 < k ∨ Fails request rest s.query.state →
    Silent env.services request rest ∧ contributed s.trace = false
  spared : Spared env request k s
  bound : ∀ b' ∈ b, b' ≤ s.query.cursor

/-- A backend is about to end. -/
structure Leaving (k : Nat) (state : QueryState) (s : St) : Prop extends Holds bs s where
  asked : s.query.request = request
  new : s.query.state ≠ state
  owed : 0 < k → contributed s.trace = false
  spared : Spared env request k s
  failed : state = .failed → contributed s.trace = false ∧ ∀ b' ∈ b, b' ≤ s.query.cursor + 1
  done : state = .done → ∃ b', b = some b' ∧ b' ≤ s.query.cursor

/-- The query waits for its next event or has ended. -/
structure Resting (s : St) : Prop extends Holds bs s where
  asked : s.query.request = request
  error : s.query.state ≠ .error
  setup : s.query.state ≠ .setup

/-- The stages of an event that ends backends from `b` on in DONE, if any. -/
def discreet : Stages where
  ready k s := Holds bs s ∧ s.query.request.prepared = request ∧
    Credited s.query.response s.trace ∧ Spared env request k s ∧ ∀ b' ∈ b, b' ≤ s.query.cursor
  run k ph rest s := Doing env request bs b k ph rest s
  fin k state s := Leaving env request bs b k state s
  rest k s := Resting request bs s ∧ (0 < k → Credited s.query.response s.trace) ∧
    ∀ b' ∈ b, b' ≤ s.query.cursor
  bold k rest s := k = 0 ∧ ¬ Fails request rest s.query.state

end

section

variable {env : Env} {request : Request} {bs : List Backend} {b : Option Nat} {k : Nat}
  {ph : Phase} {call : Call} {rest : List Call} {s s' : St}

theorem Holds.frame (h : Holds bs s) (hf : Frame s s') : Holds bs s' := by
  refine ⟨hf.shape.trans h.shape, ?_⟩
  rw [hf.cursor, hf.response, hf.trace]
  exact h.kept

theorem Doing.frame (h : Doing env request bs b k ph rest s) (hf : Frame s s') :
    Doing env request bs b k ph rest s' := by
  refine ⟨h.toHolds.frame hf, hf.request.trans h.asked, ?_, ?_, ?_, ?_, ?_⟩
  · rw [hf.state]; exact h.setup
  · rw [hf.state]; exact h.dispatch
  · rw [hf.state, hf.trace]; exact h.quiet
  · unfold Spared
    rw [hf.cursor]
    exact h.spared
  · rw [hf.cursor]; exact h.bound

/-- A call that does not write, and may change the state. -/
theorem Doing.next (h : Doing env request bs b k ph (call :: rest) s)
    (hback : s'.backends = s.backends) (hreq : s'.query.request = s.query.request)
    (hcur : s'.query.cursor = s.query.cursor)
    (hkept : Kept s.query.cursor s'.query.response s'.trace)
    (hcon : contributed s'.trace = contributed s.trace)
    (hfails : Fails request (call :: rest) s.query.state ↔ Fails request rest s'.query.state)
    (hstate : s'.query.state = s.query.state ∨ s'.query.state = .resolved ∨
      s'.query.state = .error) : Doing env request bs b k ph rest s' := by
  refine ⟨⟨by rw [hback]; exact h.shape, by rw [hcur]; exact hkept⟩, hreq.trans h.asked, ?_, ?_,
    ?_, ?_, ?_⟩
  · intro hph
    rcases hstate with hs | hs | hs
    · rw [hs]; exact h.setup hph
    · exact Or.inr (Or.inl hs)
    · exact Or.inr (Or.inr hs)
  · intro hph
    obtain ⟨hk, hne, hb⟩ := h.dispatch hph
    refine ⟨hk, ?_, fun hnone => hfails.mp (hb hnone)⟩
    rcases hstate with hs | hs | hs <;> rw [hs]
    · exact hne
    · decide
    · decide
  · intro hor
    obtain ⟨hsil, hno⟩ := h.quiet (hor.imp_right hfails.mpr)
    exact ⟨fun c hc => hsil c (List.mem_cons_of_mem _ hc), by rw [hcon]; exact hno⟩
  · unfold Spared
    rw [hcur]
    exact h.spared
  · rw [hcur]; exact h.bound

/-- A call that is only noted in the trace. -/
theorem Doing.reported (h : Doing env request bs b k ph (call :: rest) s)
    (hout : call.outcome = none) (hdata : call.data = false) :
    Doing env request bs b k ph rest (s.reported call) := by
  have hm : (Obs.report s.query.cursor call).mute := by simp [Obs.mute, hdata]
  exact h.next rfl rfl rfl (h.kept.mute hm) (mute_contributed hm _) (fails_cons hout _)
    (Or.inl rfl)

theorem Doing.toError (h : Doing env request bs b k ph (call :: rest) s)
    (hout : call.outcome = some false) (hdata : call.data = false) :
    Doing env request bs b k ph rest (s.reported call).toError := by
  have hm : (Obs.report s.query.cursor call).mute := by simp [Obs.mute, hdata]
  unfold St.toError
  split
  · rename_i hs
    refine h.next rfl rfl rfl (h.kept.mute hm) (mute_contributed hm _) ?_ (Or.inr (Or.inr hs))
    rw [fails_failed hout, hs]
  · refine h.next rfl rfl rfl ((h.kept.mute hm).mute rfl) (mute_contributed hm _) ?_
      (Or.inr (Or.inr rfl))
    exact fails_failed hout _

theorem Doing.toResolved (h : Doing env request bs b k ph (.finished :: rest) s) :
    Doing env request bs b k ph rest (s.reported .finished).toResolved := by
  have hm : (Obs.report s.query.cursor .finished).mute := rfl
  unfold St.toResolved
  split
  · rename_i hs
    refine h.next rfl rfl rfl (h.kept.mute hm) (mute_contributed hm _) ?_
      (Or.inr (Or.inl hs))
    rw [fails_finished, hs]
  · refine h.next rfl rfl rfl ((h.kept.mute hm).mute rfl) (mute_contributed hm _) ?_
      (Or.inr (Or.inl rfl))
    exact fails_finished _

/-- A backend that may write is not going to fail, and no call of the application is owed. -/
theorem Doing.wrote (h : Doing env request bs b k ph rest s) (hk : k = 0)
    (hfails : ¬ Fails request rest s.query.state) (hback : s'.backends = s.backends)
    (hreq : s'.query.request = s.query.request) (hcur : s'.query.cursor = s.query.cursor)
    (hstate : s'.query.state = s.query.state)
    (hkept : Kept s.query.cursor s'.query.response s'.trace) :
    Doing env request bs b k ph rest s' := by
  refine ⟨⟨by rw [hback]; exact h.shape, by rw [hcur]; exact hkept⟩, hreq.trans h.asked, ?_, ?_,
    ?_, ?_, ?_⟩
  · rw [hstate]; exact h.setup
  · rw [hstate]; exact h.dispatch
  · rw [hstate]
    rintro (hk' | hf)
    · omega
    · exact absurd hf hfails
  · intro hk'
    omega
  · rw [hcur]; exact h.bound

theorem Doing.resting (h : Doing env request bs b k ph rest s) (hs : s.query.state ≠ .setup)
    (he : s.query.state ≠ .error) (hno : 0 < k → contributed s.trace = false) :
    (discreet env request bs b).rest k s :=
  ⟨⟨h.toHolds, h.asked, he, hs⟩, fun hk => h.kept.credited (hno hk), h.bound⟩

theorem Holds.called {s : St} (h : Holds bs s) (hcred : Credited s.query.response s.trace) :
    Holds bs s.called := by
  unfold St.called
  split
  · exact ⟨h.shape, h.kept.callback hcred _ _⟩
  · exact h

theorem called_query (s : St) : s.called.query = s.query := by
  unfold St.called
  split <;> rfl

theorem Credited.called {s : St} (h : Credited s.query.response s.trace) :
    Credited s.called.query.response s.called.trace := by
  unfold St.called
  split
  · exact h.mono
  · exact h

theorem Resting.called (h : Resting request bs s) (hcred : Credited s.query.response s.trace) :
    Resting request bs s.called := by
  refine ⟨h.toHolds.called hcred, ?_, ?_, ?_⟩
  · rw [called_query]; exact h.asked
  · rw [called_query]; exact h.error
  · rw [called_query]; exact h.setup

/-- Where the query comes to rest after calling the application. -/
theorem discreet_called (h : Resting request bs s) (hcred : Credited s.query.response s.trace)
    (hb : ∀ b' ∈ b, b' ≤ s.query.cursor) : (discreet env request bs b).rest k s.called := by
  refine ⟨h.called hcred, fun _ => hcred.called, ?_⟩
  rw [called_query]
  exact hb

theorem discreet_setUp (hdisc : env.Discreet request) (backend : Backend)
    (h : (discreet env request bs b).ready k s) :
    (discreet env request bs b).run k .setup (env.setup s.query.cursor) (s.setUp backend) ∧
      (discreet env request bs b).fin k .failed (s.setUp backend) := by
  obtain ⟨hold, hreq, hcred, hspared, hbound⟩ := h
  have hholds : Holds bs (s.setUp backend) :=
    ⟨(map_modify_eq _ _ (by intro b; rfl) _ _).trans hold.shape, hold.kept.setUp hcred⟩
  constructor
  · refine ⟨hholds, hreq, fun _ => Or.inl rfl, fun hc => absurd hc (by decide), ?_, hspared, hbound⟩
    rintro (hk | hf)
    · exact ⟨hspared hk _ (Nat.le_refl _), rfl⟩
    · refine ⟨hdisc _ ?_, rfl⟩
      unfold Fails at hf
      cases hl : lastOutcome (env.setup s.query.cursor) with
      | none =>
          rw [hl] at hf
          rcases hf with hf | hf
          · exact absurd hf QueryState.noConfusion
          · exact Or.inr ⟨rfl, hf.2⟩
      | some ok => rw [hl] at hf; exact Or.inl (congrArg some hf)
  · exact ⟨hholds, hreq, QueryState.noConfusion, fun _ => rfl, hspared,
      fun _ => ⟨rfl, fun b' hb => Nat.le_succ_of_le (hbound b' hb)⟩,
      fun hc => absurd hc (by decide)⟩

theorem discreet_write (hd : call.data) (h : Doing env request bs b k ph (call :: rest) s) :
    Doing env request bs b k ph rest (s.answered env call) := by
  have hout : call.outcome = none := by
    cases call <;> first | rfl | simp [Call.data] at hd
  have hwrites : call.writes env.services request = true := by
    cases call <;> first | exact hd | simp [Call.data] at hd
  have hloud : ¬ (0 < k ∨ Fails request (call :: rest) s.query.state) := by
    intro hor
    have := (h.quiet hor).1 call List.mem_cons_self
    rw [hwrites] at this
    simp at this
  have hk : k = 0 := Nat.eq_zero_of_not_pos fun hk => hloud (Or.inl hk)
  have hfails : ¬ Fails request rest s.query.state := by
    rw [← fails_cons hout]
    exact fun hf => hloud (Or.inr hf)
  refine ⟨⟨h.shape, ?_⟩, h.asked, h.setup, fun hph => ?_, fun hor => ?_, h.spared, h.bound⟩
  · refine h.kept.write (by simp [contributed, hd]) (fun i => ?_) trivial
      (origins_answer env call s.query) fun hs => ?_
    · rw [entered_cons]
      simp
    · exact (security_answer env call s.query hs).imp_right fun hc => by rw [hc]
  · obtain ⟨hk, hne, hb⟩ := h.dispatch hph
    exact ⟨hk, hne, fun hnone => (fails_cons hout _).mp (hb hnone)⟩
  · rcases hor with hk' | hf
    · omega
    · exact absurd hf hfails

/-- A query that waits is one whose backend has been set up. -/
theorem Doing.phase (h : Doing env request bs b k ph rest s) (hw : s.query.state = .waiting) :
    ph = .dispatch := by
  cases ph with
  | dispatch => rfl
  | setup => rcases h.setup rfl with hs | hs | hs <;> rw [hs] at hw <;> simp at hw

theorem discreet_more (h : Doing env request bs b k ph rest s) (hk : k = 0)
    (hfails : ¬ Fails request rest s.query.state) (hw : s.query.state = .waiting)
    (hf : Frame (s.entered .waitingMore) s') :
    Doing env request bs b k ph rest s' ∧ (discreet env request bs b).bold k rest s' := by
  have hnew : ¬ Fails request rest .waitingMore := by
    rw [fails_iff (by decide) (by decide)]
    rwa [hw, fails_iff (by decide) (by decide)] at hfails
  obtain rfl := h.phase hw
  have hdoing : Doing env request bs b k .dispatch rest (s.entered .waitingMore) := by
    refine ⟨⟨h.shape, h.kept.mute rfl⟩, h.asked, fun hc => absurd hc (by decide),
      fun _ => ⟨hk, QueryState.noConfusion, fun hnone => ?_⟩, fun hor => ?_, h.spared, h.bound⟩
    · exact absurd ((h.dispatch rfl).2.2 hnone) hfails
    · rcases hor with hk' | hf'
      · omega
      · exact absurd hf' hnew
  refine ⟨hdoing.frame hf, hk, ?_⟩
  rw [hf.state]
  exact hnew

/-- With a result timeout of zero the query goes on from wherever ending the backend led. -/
theorem discreet_zero (h : Doing env request bs b k ph rest s) (hk : k = 0)
    (hfails : ¬ Fails request rest s.query.state) (hw : s.query.state = .waiting) :
    Leaving env request bs b k .done (s.entered .waitingMore) ∧
      ∀ s' s'', (discreet env request bs b).rest k s' → Frame s' s'' →
        Doing env request bs b k ph rest s'' ∧ (discreet env request bs b).bold k rest s'' := by
  have hlast : lastOutcome rest ≠ some false := by
    rwa [hw, fails_iff (by decide) (by decide)] at hfails
  obtain rfl := h.phase hw
  obtain ⟨b', hb'⟩ : ∃ b', b = some b' := by
    cases hb : b with
    | none => exact absurd ((h.dispatch rfl).2.2 hb) hfails
    | some b' => exact ⟨b', rfl⟩
  constructor
  · exact ⟨⟨h.shape, h.kept.mute rfl⟩, h.asked, QueryState.noConfusion, fun hk' => by omega,
      h.spared, fun hc => absurd hc (by decide), fun _ => ⟨b', hb', h.bound b' hb'⟩⟩
  · rintro s' s'' ⟨hrest, -, hbound⟩ hf
    have hno : ¬ Fails request rest s'.query.state := by
      rwa [fails_iff hrest.error hrest.setup]
    have hdoing : Doing env request bs b k .dispatch rest s' := by
      refine ⟨hrest.toHolds, hrest.asked, fun hc => absurd hc (by decide),
        fun _ => ⟨hk, hrest.setup, fun hnone => ?_⟩, fun hor => ?_, fun hk' => by omega, hbound⟩
      · rw [hb'] at hnone
        simp at hnone
      · rcases hor with hk' | hf'
        · omega
        · exact absurd hf' hno
    refine ⟨hdoing.frame hf, hk, ?_⟩
    rw [hf.state]
    exact hno

theorem discreet_done (hprep : request.prepared = request)
    (hrestart : ∀ b' m j, b = some b' → b' < m → m ≤ j → Mandatory bs m →
      Silent env.services request (env.setup j))
    (h : Leaving env request bs b k .done s) {s₁ : St} (hf : Frame (s.entered .done) s₁) :
    Always Atomic s₁.trace ∧
      if s₁.afterDone.2 then (discreet env request bs b).ready (k + 1) (s₁.moved s₁.afterDone.1)
      else (discreet env request bs b).rest k (s₁.moved s₁.afterDone.1).called := by
  obtain ⟨b', hb', hle⟩ := h.done rfl
  have htrace : s₁.trace = .enter .done s.query.cursor s.query.response :: s.trace := hf.trace
  have hcur : s₁.query.cursor = s.query.cursor := hf.cursor
  have hresp : s₁.query.response = s.query.response := hf.response
  have hreq : s₁.query.request = request := hf.request.trans h.asked
  have hshape : s₁.backends.map Backend.shape = bs.map Backend.shape := hf.shape.trans h.shape
  have hmoved : ∀ c', s.query.cursor < c' → Holds bs (s₁.moved c') ∧
      Credited s₁.query.response s₁.trace := by
    intro c' hc
    obtain ⟨hkept, hcred⟩ := h.kept.done hc
    rw [htrace, hresp]
    refine ⟨⟨hshape, ?_⟩, hcred⟩
    show Kept c' s₁.query.response s₁.trace
    rw [htrace, hresp]
    exact hkept
  refine ⟨?_, ?_⟩
  · show Always Atomic s₁.trace
    rw [htrace]
    exact ⟨trivial, h.kept.atomic⟩
  · cases hnext : s₁.afterDone.2 with
    | true =>
        obtain ⟨hgt, -, hm⟩ := afterDone_found hnext
        rw [hcur] at hgt
        have hgt' : b' < s₁.afterDone.1 := by omega
        obtain ⟨hholds, hcred⟩ := hmoved _ hgt
        refine ⟨hholds, ?_, hcred, fun _ j hj => ?_, fun b'' hb'' => ?_⟩
        · show s₁.query.request.prepared = request
          rw [hreq, hprep]
        · exact hrestart b' _ j hb' hgt' hj ((mandatory_congr hshape _).mp hm)
        · obtain rfl : b' = b'' := by rw [hb'] at hb''; exact Option.some.inj hb''
          exact Nat.le_of_lt hgt'
    | false =>
        obtain ⟨h₁, -⟩ := nextMandatory_spec (s₁.backends.drop (s₁.query.cursor + 1))
          (s₁.query.cursor + 1)
        have hgt : s.query.cursor < s₁.afterDone.1 := by
          rw [← hcur]
          exact h₁
        obtain ⟨hholds, hcred⟩ := hmoved _ hgt
        refine discreet_called ⟨hholds, hreq, ?_, ?_⟩ hcred fun b'' hb'' => ?_
        · show s₁.query.state ≠ .error
          rw [hf.state]; exact QueryState.noConfusion
        · show s₁.query.state ≠ .setup
          rw [hf.state]; exact QueryState.noConfusion
        · obtain rfl : b' = b'' := by rw [hb'] at hb''; exact Option.some.inj hb''
          show b' ≤ s₁.afterDone.1
          omega

theorem discreet_leave (hprep : request.prepared = request)
    (h : Leaving env request bs b k .failed s) :
    Always Atomic (s.entered .failed).warned.trace ∧
      ∀ s₁, Frame (s.entered .failed).warned s₁ → Always Atomic s₁.trace ∧
        if s₁.query.cursor + 1 < s₁.backends.length
        then (discreet env request bs b).ready k (s₁.moved (s₁.query.cursor + 1))
        else (discreet env request bs b).rest k (s₁.moved (s₁.query.cursor + 1)).called := by
  obtain ⟨hno, hbound⟩ := h.failed rfl
  obtain ⟨hkept, hcred⟩ := h.kept.fail hno
  have hwarn : (s.entered .failed).warned.query = (s.entered .failed).query ∧
      (s.entered .failed).warned.backends = s.backends ∧
      Kept (s.query.cursor + 1) s.query.response (s.entered .failed).warned.trace ∧
      Credited s.query.response (s.entered .failed).warned.trace := by
    rcases warned_cases (s.entered .failed) with hw | hw <;> rw [hw]
    · exact ⟨rfl, rfl, hkept, hcred⟩
    · exact ⟨rfl, rfl, hkept.mute rfl, hcred.mono⟩
  obtain ⟨hq, hback, hkept', hcred'⟩ := hwarn
  refine ⟨hkept'.atomic, fun s₁ hf => ?_⟩
  have hcur : s₁.query.cursor = s.query.cursor := hf.cursor.trans (by rw [hq]; rfl)
  have hresp : s₁.query.response = s.query.response := hf.response.trans (by rw [hq]; rfl)
  have hreq : s₁.query.request = request := hf.request.trans (by rw [hq]; exact h.asked)
  have hstate : s₁.query.state = .failed := hf.state.trans (by rw [hq]; rfl)
  have hshape : s₁.backends.map Backend.shape = bs.map Backend.shape := by
    rw [hf.shape, hback]; exact h.shape
  rw [← hf.trace, ← hresp] at hkept' hcred'
  have hholds : Holds bs (s₁.moved (s₁.query.cursor + 1)) := by
    refine ⟨hshape, ?_⟩
    show Kept (s₁.query.cursor + 1) s₁.query.response s₁.trace
    rw [hcur]
    exact hkept'
  have hbound' : ∀ b' ∈ b, b' ≤ (s₁.moved (s₁.query.cursor + 1)).query.cursor := by
    intro b' hb
    show b' ≤ s₁.query.cursor + 1
    rw [hcur]
    exact hbound b' hb
  refine ⟨hkept'.atomic, ?_⟩
  split
  · refine ⟨hholds, ?_, hcred', fun hk j hj => h.spared hk j ?_, hbound'⟩
    · show s₁.query.request.prepared = request
      rw [hreq, hprep]
    · have : s₁.query.cursor + 1 ≤ j := hj
      omega
  · refine discreet_called ⟨hholds, hreq, ?_, ?_⟩ hcred' hbound'
    · show s₁.query.state ≠ .error
      rw [hstate]; decide
    · show s₁.query.state ≠ .setup
      rw [hstate]; decide

theorem discreet_extends (hprep : request.prepared = request) (hdisc : env.Discreet request)
    (hrestart : ∀ b' m j, b = some b' → b' < m → m ≤ j → Mandatory bs m →
      Silent env.services request (env.setup j)) :
    Extends env loose (discreet env request bs b) fun s => Always Atomic s.trace where
  frame_stop hf h := by rw [hf.trace]; exact h
  run_stop h := h.kept.atomic
  report_stop _ h := ⟨trivial, h.kept.atomic⟩
  resolve_stop h := ⟨trivial, trivial, h.kept.atomic⟩
  rest_stop h := h.1.kept.atomic
  setUp _ h _ := ⟨fun _ => (discreet_setUp hdisc _ h).1, fun _ => (discreet_setUp hdisc _ h).2⟩
  waiting := by
    intro k s _ h _ _ s' hf _
    refine ⟨⟨?_, hf.request.trans h.asked, ?_, ?_⟩, fun hk => ?_, ?_⟩
    · have hent : Holds bs (s.entered .waiting) := ⟨h.shape, h.kept.mute rfl⟩
      exact hent.frame hf
    · rw [hf.state]; exact QueryState.noConfusion
    · rw [hf.state]; exact QueryState.noConfusion
    · rw [hf.response, hf.trace]
      exact (h.kept.credited (h.quiet (Or.inl hk)).2).mono
    · rw [hf.cursor]; exact h.bound
  impatient := by
    intro k s _ h hs ht
    have hno := (h.quiet (Or.inr (Or.inr ⟨hs, by rw [← h.asked]; exact ht⟩))).2
    refine ⟨h.toHolds, h.asked, by rw [hs]; decide, fun _ => hno, h.spared, fun _ => ⟨hno, ?_⟩,
      fun hc => absurd hc (by decide)⟩
    exact fun b' hb => Nat.le_succ_of_le (h.bound b' hb)
  finished _ h _ hf _ := h.toResolved.frame hf
  failed _ h := h.toError rfl rfl
  alloc := by
    intro k ph rest s allocated _ h s' hf
    cases allocated with
    | true => exact (h.reported rfl rfl).frame hf
    | false => exact (h.toError rfl rfl).frame (toError_frame hf)
  watchAdd h _ hf _ := (h.reported rfl rfl).frame hf
  watchRemove h _ hf := (h.reported rfl rfl).frame hf
  write hd h := discreet_write hd h
  addPath := by
    intro k ph a rest s h
    refine ⟨h.reported rfl rfl, fun hp => ?_⟩
    have hloud : ¬ (0 < k ∨ Fails request (.addPath a :: rest) s.query.state) := by
      intro hor
      have hw := (h.quiet hor).1 _ List.mem_cons_self
      rw [h.asked] at hp
      simp only [Call.writes, Bool.not_eq_false', List.isEmpty_iff] at hw
      exact hp hw
    refine ⟨Nat.eq_zero_of_not_pos fun hk => hloud (Or.inl hk), fun hf => hloud (Or.inr ?_)⟩
    exact (fails_cons rfl _).mpr hf
  store := by
    rintro k ph rest s path - - h ⟨hk, hfails⟩
    refine ⟨h.wrote hk hfails rfl rfl rfl rfl ?_, hk, hfails⟩
    refine h.kept.write rfl (fun i => ?_) trivial (origins_stored env s path) Or.inl
    rw [entered_cons]
    simp
  more _ _ h hbold hw _ _ hf := discreet_more h hbold.1 hbold.2 hw hf
  zero _ _ h hbold hw _ := by
    obtain ⟨hfin, hback⟩ := discreet_zero h hbold.1 hbold.2 hw
    exact ⟨hfin, fun s' s'' _ => hback s' s''⟩
  done _ h := by
    refine ⟨fun hs => absurd hs h.new, fun _ => ⟨⟨trivial, h.kept.atomic⟩, fun s₁ hf => ?_⟩⟩
    obtain ⟨hstop, hnext⟩ := discreet_done hprep hrestart h hf
    exact ⟨hstop, fun _ => hnext⟩
  leave _ h := by
    obtain ⟨hstop, hnext⟩ := discreet_leave hprep h
    exact ⟨fun hs => absurd hs h.new, fun _ => ⟨hstop, fun s₁ hf =>
      ⟨(hnext s₁ hf).1, fun _ => (hnext s₁ hf).2⟩⟩⟩
  called _ h := discreet_called h.1 (h.2.1 (Nat.succ_pos _)) h.2.2
  settled _ h hs he := h.resting hs he fun hk => (h.quiet (Or.inl hk)).2
  woken _ h hr he := h.resting (h.dispatch rfl).2.1 he fun hk => (h.quiet (Or.inl hk)).2
  succeeded := by
    intro k s _ h hs
    obtain ⟨hk, -, hb⟩ := h.dispatch rfl
    refine ⟨h.toHolds, h.asked, by rw [hs]; decide, fun hk' => by omega, h.spared,
      fun hc => absurd hc (by decide), fun _ => ?_⟩
    cases hb' : b with
    | none =>
        have hf := hb hb'
        rw [hs] at hf
        simp [Fails, lastOutcome] at hf
    | some b' => exact ⟨b', rfl, h.bound b' hb'⟩
  broken := by
    rintro k ph s (⟨-, h⟩ | ⟨-, h⟩) hs
    · have hno := (h.quiet (Or.inr (Or.inl hs))).2
      refine ⟨h.toHolds, h.asked, by rw [hs]; decide, fun _ => hno, h.spared,
        fun _ => ⟨hno, fun b' hb => Nat.le_succ_of_le (h.bound b' hb)⟩,
        fun hc => absurd hc (by decide)⟩
    · exact absurd hs h.1.error

end

/-! ### Whole runs -/

theorem prepared_prepared (r : Request) : r.prepared.prepared = r.prepared := by
  unfold Request.prepared
  by_cases h : r.dnsSrvLookup ∧ r.protocol = 0
  · simp [h, IPPROTO_TCP]
  · simp [h]

section

variable {env : Env} {request : Request} {bs : List Backend} {s s₀ : St}

theorem discreet_start (hnew : s₀.toLocal.New) (hdisc : env.Discreet s₀.query.request.prepared) :
    Sat (queryStart env) s₀ (fun _ s => Resting s₀.query.request.prepared s₀.backends s)
      (fun _ s => Always Atomic s.trace) := by
  have hkept : Kept s₀.query.cursor s₀.query.response s₀.trace := by
    rw [hnew.response, hnew.trace]
    refine ⟨trivial, fun j hj => ?_, fun hs => ?_, fun _ => rfl, fun j hj => ?_⟩
    · simp [Response.origins] at hj
    · simp at hs
    · obtain ⟨r, hr⟩ := hj
      simp at hr
  have hcred : Credited s₀.query.response s₀.trace := by
    refine hkept.credited ?_
    rw [hnew.trace]
    rfl
  have hext : Extends env loose (discreet env s₀.query.request.prepared s₀.backends none)
      fun s => Always Atomic s.trace :=
    discreet_extends (prepared_prepared _) hdisc fun _ _ _ h => absurd h (by simp)
  refine (loose_start hext hnew.cursor hnew.state ⟨⟨rfl, hkept⟩, rfl, hcred, fun hk => ?_,
    fun _ hb => ?_⟩ hkept.atomic).mono (fun _ _ h => h.1) (fun _ _ h => h)
  · omega
  · simp at hb

theorem Resting.frame (h : Resting request bs s) {s' : St} (hf : Frame s s') :
    Resting request bs s' := by
  refine ⟨h.toHolds.frame hf, hf.request.trans h.asked, ?_, ?_⟩
  · rw [hf.state]; exact h.error
  · rw [hf.state]; exact h.setup

/-- What an event starts from. -/
theorem Resting.starts (env : Env) (callback : WatchCallback) (h : Resting request bs s)
    (hfail : callback.fails env →
      Silent env.services request (callback.calls env) ∧ contributed s.trace = false) :
    Starts env loose (discreet env request bs (callback.ends env s.query.cursor)) s callback := by
  cases callback with
  | backend i =>
      have hiff : Fails request (env.dispatch i) s.query.state ↔
          lastOutcome (env.dispatch i) = some false := fails_iff h.error h.setup
      refine ⟨h.toHolds, h.asked, fun hc => absurd hc (by decide), fun _ => ⟨rfl, h.setup, ?_⟩, ?_,
        fun hk => by omega, ?_⟩
      · intro hnone
        simp only [WatchCallback.ends] at hnone
        split at hnone
        · rename_i hlast
          exact hiff.mpr hlast
        · simp at hnone
      · rintro (hk | hf)
        · omega
        · exact hfail (by simpa [WatchCallback.fails] using hiff.mp hf)
      · intro b' hb
        simp only [WatchCallback.ends] at hb
        split at hb
        · simp at hb
        · exact Nat.le_of_eq (Option.some.inj hb).symm
  | timeout t =>
      have hb : ∃ b', WatchCallback.ends env s.query.cursor (.timeout t) = some b' := by
        cases t <;> exact ⟨_, rfl⟩
      obtain ⟨b', hb'⟩ := hb
      refine ⟨fun hdue s' hf => ?_, fun s' _ hrest hr => ?_⟩
      · have hfin := h.frame hf
        refine ⟨hfin.toHolds, hfin.asked, ?_, fun hk => by omega, fun hk => by omega, ?_, ?_⟩
        · rw [hf.state]
          intro hc
          rw [hc] at hdue
          cases t <;> simp [Timer.due, Timer.next] at hdue
        · intro hc
          obtain rfl : t = .requestTimeout := by cases t <;> simp [Timer.next] at hc ⊢
          rw [hf.trace, hf.cursor]
          refine ⟨(hfail rfl).2, fun b'' hb'' => ?_⟩
          exact Nat.le_of_eq (Option.some.inj hb'').symm
        · intro hc
          refine ⟨s.query.cursor, ?_, Nat.le_of_eq hf.cursor.symm⟩
          cases t <;> simp [Timer.next, WatchCallback.ends] at hc ⊢
      · rw [hb'] at hrest ⊢
        exact ⟨hrest.1.toHolds, hrest.1.asked, by rw [hr]; decide, fun hk => by omega,
          fun hk => by omega, fun hc => absurd hc (by decide),
          fun _ => ⟨b', rfl, hrest.2.2 b' rfl⟩⟩

theorem discreet_event {w : Nat} (hprep : request.prepared = request) (h : Resting request bs s)
    (hdisc : Discreet s env w) (hw : ∃ x ∈ s.query.watches, x.id = w) :
    Sat (queryDispatch env w) s (fun _ s' => Resting request bs s')
      (fun _ s' => Always Atomic s'.trace) := by
  obtain ⟨x, hx, -, -⟩ := find_watch hw
  have hreq := h.asked
  have hstart := h.starts env x.callback (by rw [← hreq]; exact hdisc.failing x hx)
  have hext : Extends env loose (discreet env request bs (x.callback.ends env s.query.cursor))
      fun s => Always Atomic s.trace := by
    refine discreet_extends hprep (by rw [← hreq]; exact hdisc.setup) fun b' m j hb hm hj hmand => ?_
    rw [← hreq]
    exact hdisc.restart x hx b' m j hb hm hj ((mandatory_congr h.shape m).mpr hmand)
  exact (loose_dispatch hext hx hstart h.kept.atomic).mono (fun _ _ h => h.1) (fun _ _ h => h)

end

theorem Reachable.resting {s₀ s : St} (hnew : s₀.toLocal.New)
    (h : Reachable (·.Discreet s₀.query.request.prepared) Discreet s₀ s) :
    Resting s₀.query.request.prepared s₀.backends s := by
  induction h with
  | start env hP hok => exact (discreet_start hnew hP).of_ok hok
  | step _ hstep ih =>
      obtain ⟨env, w, hdisc, hw, hok⟩ := hstep
      exact (discreet_event (prepared_prepared _) ih hdisc hw).of_ok hok

/--
**A failed backend leaves the response as it found it**, and the application is handed
the data of successful backends only, as long as no backend writes that fails in the end
and none writes from a setup function it is restarted with.
-/
theorem failed_leaves_response {s₀ s : St} (hnew : s₀.toLocal.New)
    (h : Reachable (·.Discreet s₀.query.request.prepared) Discreet s₀ s ∨
      Stopped (·.Discreet s₀.query.request.prepared) Discreet s₀ s) :
    Always Atomic s.trace := by
  rcases h with hrun | hstop
  · exact (hrun.resting hnew).kept.atomic
  · cases hstop with
    | start hP herr => exact (discreet_start hnew hP).of_error herr
    | step hrun hdisc hw herr =>
        exact (discreet_event (prepared_prepared _) (hrun.resting hnew) hdisc hw).of_error herr

theorem answersLater_discreet {request : Request} (h : request.requestTimeout ≠ 0) :
    answersLater.Discreet request := by
  rintro i (hi | hi)
  · simp [answersLater, lastOutcome, Call.outcome] at hi
  · exact absurd hi.2 h

/-- Two backends that ask somebody else: the query waits, and the request timer expires. -/
def twoAsk : St := { query := { id := 0 }, backends := [{}, {}] }

def twoAskWaiting : St := final (queryStart answersLater) twoAsk

def twoAskExpired : St := final (queryDispatch answersLater 2) twoAskWaiting

theorem twoAsk_new : twoAsk.toLocal.New := by
  refine ⟨rfl, rfl, rfl, rfl, fun t => by cases t <;> rfl, rfl, rfl, fun b hb => ?_⟩
  obtain rfl : b = {} := by simpa [twoAsk, St.toLocal] using hb
  rfl

/-- The second backend is set up after the first one, and nothing of that one is left. -/
theorem failed_leaves_response_expired : ∃ s,
    Reachable (·.Discreet twoAsk.query.request.prepared) Discreet twoAsk s ∧
      s.query.cursor = 1 ∧ Always Atomic s.trace := by
  obtain ⟨s₁, hs₁⟩ : ∃ s, twoAskWaiting = s := ⟨_, rfl⟩
  obtain ⟨s₂, hs₂⟩ : ∃ s, twoAskExpired = s := ⟨_, rfl⟩
  have hstart : queryStart answersLater twoAsk = .ok () s₁ := by
    rw [← hs₁]
    exact ok_of_returns (by decide +kernel)
  have hdispatch : queryDispatch answersLater 2 s₁ = .ok () s₂ := by
    rw [← hs₁, ← hs₂]
    exact ok_of_returns (by decide +kernel)
  have hfind : s₁.query.watches.find? (·.id = 2) =
      some ⟨2, .core 2, .timeout .requestTimeout⟩ := by rw [← hs₁]; decide +kernel
  have htimeout : s₁.query.request.requestTimeout = 15000 := by rw [← hs₁]; decide +kernel
  have hcontributed : contributed s₁.trace = false := by rw [← hs₁]; decide +kernel
  have hmandatory : s₁.backends.map (·.mandatory) = [false, false] := by
    rw [← hs₁]
    decide +kernel
  have hcursor : s₂.query.cursor = 1 := by rw [← hs₂]; decide +kernel
  have hdisc : Discreet s₁ answersLater 2 := by
    refine ⟨answersLater_discreet (by rw [htimeout]; decide), fun x hx hf => ?_,
      fun x hx b m j _ _ _ hm => ?_⟩
    · obtain rfl := Option.some.inj (hfind.symm.trans hx)
      exact ⟨fun _ hc => absurd hc List.not_mem_nil, hcontributed⟩
    · obtain ⟨b', hb', htrue⟩ := hm
      have hmem := List.mem_map_of_mem (f := (·.mandatory)) (List.mem_of_getElem? hb')
      rw [hmandatory, htrue] at hmem
      simp at hmem
  have hrun : Reachable (·.Discreet twoAsk.query.request.prepared) Discreet twoAsk s₂ :=
    .step (.start answersLater (answersLater_discreet (by decide)) hstart)
      ⟨answersLater, 2, hdisc, ⟨_, List.mem_of_find?_eq_some hfind, rfl⟩, hdispatch⟩
  exact ⟨s₂, hrun, hcursor, failed_leaves_response twoAsk_new (Or.inl hrun)⟩

/-- The response with the path of backend `i`. -/
def onePathBy (i : Nat) : Response := { paths := [⟨{ onePath with reachable := true }, i⟩] }

/-- The backend answers with a path and does not say whether more will follow. -/
def addsOnly : Env := { answersLater with dispatch := fun _ => [.addPath oneAddress] }

/-- The query on one backend after the path, and after the request timer. -/
def oneBackendMore : St where
  query := { oneBackend.query with
    state := .waitingMore
    watches := [⟨1, .backend 5, .backend 0⟩, ⟨2, .core 2, .timeout .requestTimeout⟩,
      ⟨3, .core 3, .timeout .resultTimeout⟩]
    nfds := 3
    requestTimeout := some 2
    resultTimeout := some 3
    response := onePathBy 0
    priv := some 0 }
  backends := oneBackendWaiting.backends
  trace := [.enter .waitingMore 0 (onePathBy 0), .path 0 onePath,
    .report 0 (.addPath oneAddress)] ++ oneBackendWaiting.trace
  context := { nfds := 3, loop := { count := 3, registered := [3, 2, 1] }, next := 4,
               opened := [.core 3, .core 2] }

def oneBackendTimedOut : St where
  query := { oneBackend.query with state := .failed, cursor := 1, response := onePathBy 0 }
  backends := [{ cleanup := true, history := [.cleanup 0 (some 0), .alloc 0 0, .setup 0 true] }]
  trace := [.callback .failed 1 (onePathBy 0), .error "Failed reply has data.",
    .enter .failed 0 (onePathBy 0)] ++ oneBackendMore.trace
  context := { next := 4 }

/--
The request timer ends a backend that has added a path already.  FAILED is entered with
that path, and the application is handed it.
-/
theorem timed_out_leaves_path :
    Reachable Env.WellBehaved Orderly oneBackend oneBackendTimedOut ∧
      ¬ Always Atomic oneBackendTimedOut.trace := by
  have hwell : addsOnly.WellBehaved := ⟨fun _ => rfl, fun _ => rfl⟩
  have hmore : Reachable Env.WellBehaved Orderly oneBackend oneBackendMore :=
    .step oneBackend_waits ⟨addsOnly, 1, hwell,
      ⟨⟨1, .backend 5, .backend 0⟩, by simp [oneBackendWaiting], rfl⟩, rfl⟩
  refine ⟨.step hmore ⟨addsOnly, 2, hwell,
    ⟨⟨2, .core 2, .timeout .requestTimeout⟩, by simp [oneBackendMore], rfl⟩, rfl⟩, ?_⟩
  intro h
  have hfail : Atomic (.enter .failed 0 (onePathBy 0)) oneBackendMore.trace := h.2.2.1
  exact hfail.2 _ (List.mem_singleton.mpr rfl) rfl

end Netresolve
