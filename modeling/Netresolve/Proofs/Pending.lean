/-
When the DNS backends report.

`pending` counts the lookups that have not been answered, and `check` reports once it is
zero.  `check` is called at the end of a callback, and in `aresdns` once more at the end of a
dispatch.  `ubdns_callback` returns before it when libunbound has failed to resolve, so the
last lookup of a query must not be one that fails so, and a query that issues no lookup to
begin with has no callback at all.
-/
import Netresolve.Proofs.Answers
import Netresolve.Proofs.Dns
import Netresolve.Proofs.Leave

namespace Netresolve.Dns

open Outcome

variable {libs : Libs} {v : Variant} {settings : List String} {request : Request}
variable {p p' q : PrivDns}

/-! ### Watches -/

/-- The calls about watches. -/
def watches : Call → Bool
  | .watchAdd _ | .watchRemove _ _ => true
  | _ => false

/-- The private data without what is kept and called about watches. -/
def PrivDns.unwatched (p : PrivDns) : PrivDns := { p with fds := {}, watched := [], calls := [] }

/-- `p'` differs from `p` in what is kept and called about watches. -/
structure Watched (p p' : PrivDns) : Prop where
  rest : p'.unwatched = p.unwatched
  calls : ∃ new, (∀ c ∈ new, watches c.2 = true) ∧ p'.calls = p.calls ++ new

instance : IsPreorder PrivDns Watched where
  refl p := ⟨rfl, [], fun _ hc => absurd hc List.not_mem_nil, (List.append_nil _).symm⟩
  trans := by
    rintro p p' p'' ⟨hrest, new, hnew, hcalls⟩ ⟨hrest', new', hnew', hcalls'⟩
    refine ⟨hrest'.trans hrest, new ++ new', fun c hc => ?_, ?_⟩
    · exact (List.mem_append.mp hc).elim (hnew c) (hnew' c)
    · rw [hcalls', hcalls, List.append_assoc]

theorem Watched.lookups (h : Watched p p') : p'.lookups = p.lookups := by
  have hrest := congrArg PrivDns.lookups h.rest
  exact hrest

theorem Watched.pending (h : Watched p p') : p'.pending = p.pending := by
  have hrest := congrArg PrivDns.pending h.rest
  exact hrest

theorem Watched.answers (h : Watched p p') : p'.answers = p.answers := by
  have hrest := congrArg PrivDns.answers h.rest
  exact hrest

theorem emit_watched {call : Call} (h : watches call = true) :
    Stays Watched (fun _ => True) (emit call) :=
  Stays.modify fun p => ⟨rfl, [(p.applying, call)],
    fun c hc => by rw [List.mem_singleton.mp hc]; exact h, rfl⟩

theorem keep_watched (p : PrivDns) (fds : Fds) (watched : List Nat) :
    Watched p { p with fds := fds, watched := watched } :=
  ⟨rfl, [], fun _ hc => absurd hc List.not_mem_nil, (List.append_nil _).symm⟩

theorem watchFileDescriptors_watched (fds : Fds) :
    Stays Watched (fun _ => True) (watchFileDescriptors fds) :=
  watchFileDescriptors_stays trivial fds (fun _ => emit_watched rfl) keep_watched

theorem unwatchFileDescriptors_watched : Stays Watched (fun _ => True) unwatchFileDescriptors :=
  unwatchFileDescriptors_stays (fun _ => emit_watched rfl) keep_watched

/-! ### The counter -/

/-- `pending` is the number of lookups that have not been answered. -/
def Balanced (p : PrivDns) : Prop := p.pending = p.lookups.length

theorem Balanced.after (h : Balanced p) (e : Effect) : Balanced (p.after e) := by
  unfold Balanced at *
  simp [PrivDns.after, h]

theorem Balanced.taken (h : Balanced p) {k : Nat} (hk : k < p.lookups.length) (a : Answer) :
    Balanced (p.taken k a) := by
  unfold Balanced at *
  show p.pending - 1 = ((p.lookups.eraseIdx k).length : Int)
  rw [h, List.length_eraseIdx_of_lt hk]
  omega

theorem Balanced.checked (h : Balanced p) : Balanced p.checked := by
  unfold PrivDns.checked
  split
  · exact h.after _
  · exact h

theorem checked_lookups (p : PrivDns) : p.checked.lookups = p.lookups := by
  unfold PrivDns.checked
  split
  · exact List.append_nil _
  · rfl

theorem Balanced.watched (h : Balanced p) (hw : Watched p p') : Balanced p' := by
  unfold Balanced
  rw [hw.pending, hw.lookups]
  exact h

theorem Balanced.completed (h : Balanced p) {k : Nat} {lookup : Lookup}
    (hk : p.lookups[k]? = some lookup) (a : Answer) :
    Balanced (p.completed libs v k lookup a) := by
  have hq := (h.taken (List.getElem?_eq_some_iff.mp hk).1 a).after
    (callbackEffect libs v p lookup.srv a)
  unfold PrivDns.completed
  dsimp only
  split
  · exact hq.checked
  · exact hq

/-- No lookup is left if and only if the counter is zero. -/
theorem Balanced.zero (h : Balanced p) : p.pending = 0 ↔ p.lookups = [] := by
  unfold Balanced at h
  rw [h, Int.natCast_eq_zero, List.length_eq_zero_iff]

theorem complete_balanced (c : Nat × Answer) :
    Stays (Kept Balanced) (fun _ => True) (complete libs v c) := by
  refine Stays.of_kept fun p h => ?_
  obtain ⟨k, a⟩ := c
  refine complete_rule h (fun lookup hk => ?_) (fun e effect hk => ?_)
  · exact h.completed hk a
  · exact (h.taken hk a).after effect

theorem check_balanced : Stays (Kept Balanced) (fun _ => True) check := by
  refine Stays.of_kept fun p h => (check_effect p).mono (fun _ p' hp' => ?_) (fun _ p' hp' => ?_)
  · rw [hp']
    exact h.checked
  · rw [hp'.1]
    exact h

theorem watched_balanced {x : D Unit} (h : Stays Watched (fun _ => True) x) :
    Stays (Kept Balanced) (fun _ => True) x :=
  h.weaken (fun _ _ hw hb => hb.watched hw) (fun _ _ => trivial)

theorem dispatch_balanced (round : Round) :
    Stays (Kept Balanced) (fun _ => True) (dispatch libs v round) := by
  cases v with
  | unbound => exact Stays.forM complete_balanced _
  | ares =>
      refine Stays.bind (watched_balanced unwatchFileDescriptors_watched) fun _ => ?_
      refine Stays.bind (Stays.forM complete_balanced _) fun _ => ?_
      exact Stays.bind (watched_balanced (watchFileDescriptors_watched _)) fun _ => check_balanced

/-! ### Setup -/

/-- The library of the variant is available, so `setup` returns the private data. -/
def ready (libs : Libs) (v : Variant) (settings : List String) : Bool :=
  libs.newPriv && match v with
    | .ares => libs.aresLibraryInit && libs.aresInitOptions
    | .unbound => libs.ctxCreate && (match server settings with
          | some name => libs.ctxSetFwd name
          | none => libs.ctxResolvconf) &&
        (!decide ("validate" ∈ settings) || libs.ctxAddTaFile)

/--
The set-up issues no lookup and does not fail either: a forward query for a family that is
neither of the two of IP, or one for SRV records whose name could not be allocated.
-/
def Idle (libs : Libs) (v : Variant) (settings : List String) (request : Request) : Prop :=
  request.type = .forward ∧ ready libs v settings = true ∧ backendGetNodename request ≠ none ∧
    if request.dnsSrvLookup then libs.asprintf = false
    else (hostEffect request.family {}).spawned = []

/-- The calls of a set-up that does not fail. -/
def opens : Call → Bool
  | .newPriv _ | .watchAdd _ | .watchRemove _ _ => true
  | _ => false

/-- Before the first lookup. -/
structure Prepared (request : Request) (q : PrivDns) : Prop where
  same : q.request = request
  lookups : q.lookups = []
  pending : q.pending = 0
  answered : q.answered = false
  failed : q.failed = false
  targets : q.targets = 0
  applying : q.applying = none
  answers : q.answers = []
  calls : ∀ c ∈ q.calls, opens c.2 = true

/-- After the set-up. -/
structure Begun (libs : Libs) (v : Variant) (settings : List String) (request : Request)
    (q : PrivDns) : Prop where
  balanced : Balanced q
  applying : q.applying = none
  answers : q.answers = []
  targets : q.targets = 0
  answered : q.answered = false
  failed : q.failed = true → q.lookups = []
  calls : ∀ c ∈ q.calls, opens c.2 = true ∨ c.2 = .failed
  reported : (∃ c ∈ q.calls, c.2 = .failed) ↔ q.lookups = [] ∧ ¬ Idle libs v settings request
  idle : Idle libs v settings request → q.lookups = []
  typed : request.type ≠ .dns → q.type = 0

theorem settings_validate (settings : List String) : ∀ p : PrivDns,
    (settings.foldl (applySetting .unbound) p).validate =
      (p.validate || decide ("validate" ∈ settings)) := by
  induction settings with
  | nil => intro p; simp
  | cons setting rest ih =>
      intro p
      rw [List.foldl_cons, ih]
      unfold applySetting
      by_cases htrust : setting = "trust"
      · simp [htrust]
      · by_cases hvalidate : setting = "validate"
        · simp [hvalidate]
        · simp [htrust, hvalidate, Ne.symm hvalidate]

theorem settings_prepared (settings : List String) : ∀ p : PrivDns, Prepared request p →
    Prepared request (settings.foldl (applySetting v) p) ∧
      (settings.foldl (applySetting v) p).type = p.type := by
  induction settings with
  | nil => exact fun p h => ⟨h, rfl⟩
  | cons setting rest ih =>
      intro p h
      have hstep : Prepared request (applySetting v p setting) ∧
          (applySetting v p setting).type = p.type := by
        unfold applySetting
        split
        · exact ⟨{ h with }, rfl⟩
        · split
          · exact ⟨{ h with }, rfl⟩
          · exact ⟨h, rfl⟩
      obtain ⟨hrest, htype⟩ := ih _ hstep.1
      exact ⟨hrest, htype.trans hstep.2⟩

theorem Prepared.called {call : Call} (h : Prepared request q) (hcall : opens call = true) :
    Prepared request (q.after { calls := [call] }) := by
  refine ⟨h.same, ?_, ?_, ?_, ?_, ?_, h.applying, h.answers, ?_⟩
  · simp [PrivDns.after, h.lookups]
  · simp [PrivDns.after, h.pending]
  · simp [PrivDns.after, h.answered]
  · simp [PrivDns.after, h.failed]
  · simp [PrivDns.after, h.targets]
  · intro c hc
    rcases List.mem_append.mp hc with hc | hc
    · exact h.calls c hc
    · obtain rfl : c = (q.applying, call) := by simpa using hc
      exact hcall

theorem setup_prepared (request : Request) :
    Sat (setup libs v settings) { request := request }
      (fun r q => r = ready libs v settings ∧ Prepared request q ∧ q.type = 0 ∧
        (r = true → q.family = request.family ∧ q.srv.name = backendGetNodename request))
      (fun _ _ => False) := by
  have hstart : Prepared request { request := request } :=
    ⟨rfl, rfl, rfl, rfl, rfl, rfl, rfl, rfl, fun c hc => absurd hc List.not_mem_nil⟩
  have hnew := hstart.called (show opens (.newPriv libs.newPriv) = true from rfl)
  unfold setup
  rw [sat_bind, sat_call, sat_ite]
  refine ⟨fun hpriv => ?_, fun hpriv => ⟨by simp [ready, hpriv], hnew, rfl, nofun⟩⟩
  rw [sat_bind, sat_modify, sat_bind, sat_modify]
  obtain ⟨hfold, htype⟩ := settings_prepared (v := v) settings _ hnew
  have hq : ∀ q, Prepared request q → Prepared request { q with
      srv := { q.srv with name := backendGetNodename q.request }, family := q.request.family } :=
    fun q h => { h with }
  cases v with
  | ares =>
      exact ⟨by simp [ready, hpriv], hq _ hfold, htype, fun _ =>
        ⟨congrArg Request.family hfold.same, congrArg backendGetNodename hfold.same⟩⟩
  | unbound =>
      have hvalidate := settings_validate settings
        (PrivDns.after { request := request } { calls := [.newPriv libs.newPriv] })
      generalize settings.foldl (applySetting .unbound)
        (PrivDns.after { request := request } { calls := [.newPriv libs.newPriv] }) = q at *
      have hval : q.validate = decide ("validate" ∈ settings) := hvalidate
      unfold openLibrary
      simp only [sat_bind, sat_get, sat_ite, sat_call, sat_pure]
      refine ⟨fun hopen => ⟨?_, (hq q hfold).called rfl, htype, fun _ => ?_⟩,
        fun hopen => ⟨?_, hq q hfold, htype, nofun⟩⟩
      · rw [hval] at hopen
        simp only [ready, hpriv, Bool.true_and]
        exact hopen.symm
      · exact ⟨congrArg Request.family hfold.same, congrArg backendGetNodename hfold.same⟩
      · rw [hval] at hopen
        simp only [ready, hpriv, Bool.true_and]
        exact ((Bool.not_eq_true _).mp hopen).symm

/-- A lookup is issued, or the query idles, and the channel is watched. -/
theorem Prepared.begun {e : Effect} (h : Prepared request q) (hw : Watched (q.after e) p')
    (htype : request.type ≠ .dns → q.type = 0)
    (he : e.calls = [] ∧ e.answered = false ∧ e.targets = 0)
    (hfailed : e.failed = true → e.spawned = [])
    (hidle : Idle libs v settings request ↔ e.spawned = []) :
    Begun libs v settings request p' := by
  obtain ⟨new, hnew, hcalls⟩ := hw.calls
  have hlookups : p'.lookups = e.spawned := by
    rw [hw.lookups]
    show q.lookups ++ e.spawned = e.spawned
    rw [h.lookups, List.nil_append]
  have hbalanced : Balanced (q.after e) := by
    refine Balanced.after ?_ e
    unfold Balanced
    rw [h.pending, h.lookups]
    rfl
  have hopens : ∀ c ∈ p'.calls, opens c.2 = true := by
    intro c hc
    rw [hcalls] at hc
    rcases List.mem_append.mp hc with hc | hc
    · have hc' : c ∈ q.calls := by simpa [PrivDns.after, he.1] using hc
      exact h.calls c hc'
    · have hwatch := hnew c hc
      obtain ⟨source, call⟩ := c
      cases call <;> first | rfl | simp [watches] at hwatch
  have hrest : ∀ {α : Type} (f : PrivDns → α), f p'.unwatched = f (q.after e).unwatched :=
    fun f => congrArg f hw.rest
  refine ⟨hbalanced.watched hw, (hrest PrivDns.applying).trans h.applying,
    (hrest PrivDns.answers).trans h.answers, ?_, ?_, ?_, fun c hc => Or.inl (hopens c hc), ?_, ?_, ?_⟩
  · refine (hrest PrivDns.targets).trans ?_
    show q.targets + e.targets = 0
    rw [h.targets, he.2.2]
  · refine (hrest PrivDns.answered).trans ?_
    show (q.answered || e.answered) = false
    rw [h.answered, he.2.1]
    rfl
  · intro hf
    rw [hlookups]
    refine hfailed ?_
    have hf' : (q.failed || e.failed) = true := (hrest PrivDns.failed).symm.trans hf
    rw [h.failed] at hf'
    exact hf'
  · constructor
    · rintro ⟨c, hc, hcall⟩
      have := hopens c hc
      rw [hcall] at this
      cases this
    · rintro ⟨hl, hnot⟩
      exact absurd (hidle.mpr (hlookups ▸ hl)) hnot
  · intro hi
    rw [hlookups]
    exact hidle.mp hi
  · intro hne
    exact (hrest PrivDns.type).trans (htype hne)

/-- The set-up fails. -/
theorem Prepared.refused (h : Prepared request q) (htype : request.type ≠ .dns → q.type = 0)
    (hidle : ¬ Idle libs v settings request) :
    Begun libs v settings request (q.after { calls := [.failed] }) := by
  have hlookups : (q.after { calls := [.failed] }).lookups = [] := by
    simp [PrivDns.after, h.lookups]
  refine ⟨?_, h.applying, h.answers, ?_, ?_, fun _ => hlookups, ?_, ?_, fun hi => absurd hi hidle,
    htype⟩
  · refine Balanced.after ?_ _
    unfold Balanced
    rw [h.pending, h.lookups]
    rfl
  · simp [PrivDns.after, h.targets]
  · simp [PrivDns.after, h.answered]
  · intro c hc
    rcases List.mem_append.mp hc with hc | hc
    · exact Or.inl (h.calls c hc)
    · obtain rfl : c = (q.applying, .failed) := by simpa using hc
      exact Or.inr rfl
  · refine ⟨fun _ => ⟨hlookups, hidle⟩, fun _ => ⟨(q.applying, .failed), ?_, rfl⟩⟩
    simp [PrivDns.after]

theorem watchChannel_watched : Stays Watched (fun _ => True) (watchChannel libs v) := by
  cases v with
  | unbound => exact Stays.pure _
  | ares => exact watchFileDescriptors_watched _

/-- Which lookups there are depends on the family alone. -/
theorem hostEffect_spawned (family : Int) (srv srv' : PrivSrv) :
    (hostEffect family srv).spawned = [] ↔ (hostEffect family srv').spawned = [] := by
  unfold hostEffect
  by_cases h4 : family = AF_INET ∨ family = AF_UNSPEC <;>
    by_cases h6 : family = AF_INET6 ∨ family = AF_UNSPEC <;> simp [h4, h6]

theorem query_begun (request : Request) :
    Sat (query libs v settings) { request := request } (fun _ => Begun libs v settings request)
      (fun _ => Balanced) := by
  -- the channel is watched after the lookups
  have hwatch : ∀ q e, Prepared request q → (request.type ≠ .dns → q.type = 0) →
      (e.calls = [] ∧ e.answered = false ∧ e.targets = 0) → (e.failed = true → e.spawned = []) →
      (Idle libs v settings request ↔ e.spawned = []) →
      Sat (watchChannel libs v) (q.after e) (fun _ => Begun libs v settings request)
        (fun _ => Balanced) := by
    intro q e hq htype he hfailed hidle
    have hbalanced : Balanced (q.after e) := by
      refine Balanced.after ?_ e
      unfold Balanced
      rw [hq.pending, hq.lookups]
      rfl
    exact (watchChannel_watched (q.after e)).mono
      (fun _ _ hw => hq.begun hw htype he hfailed hidle) (fun _ _ hw => hbalanced.watched hw.1)
  have hbusy : ∀ e : Effect, e.spawned ≠ [] → request.type ≠ .forward →
      (Idle libs v settings request ↔ e.spawned = []) :=
    fun e he htype => ⟨fun hi => absurd hi.1 htype, fun hs => absurd hs he⟩
  unfold query
  rw [sat_bind, sat_get]
  cases htype : request.type with
  | forward =>
      dsimp only
      unfold queryForward
      rw [sat_bind]
      refine (setup_prepared request).mono (fun r q ⟨hr, hq, htypeq, hname⟩ => ?_)
        (fun _ _ h => h.elim)
      rw [sat_bind, sat_get, sat_ite]
      refine ⟨fun hgo => ?_, fun hstop => ?_⟩
      · obtain ⟨hfamily, hsrv⟩ := hname hgo.1
        have hcond : Idle libs v settings request ↔ if request.dnsSrvLookup then libs.asprintf = false
            else (hostEffect request.family {}).spawned = [] := by
          refine ⟨fun hi => hi.2.2.2, fun hi => ⟨htype, hr ▸ hgo.1, hsrv ▸ hgo.2, hi⟩⟩
        rw [sat_bind, sat_get, sat_bind, sat_ite]
        refine ⟨fun hdns => ?_, fun hdns => ?_⟩
        · -- one lookup for the SRV records
          rw [hq.same] at hdns
          rw [if_pos hdns] at hcond
          unfold lookupSrv
          rw [sat_bind, sat_modify, sat_bind, sat_get, sat_ite]
          have hq' : Prepared request { q with protocol := q.request.protocol } := { hq with }
          refine ⟨fun halloc => ?_, fun halloc => ?_⟩
          · rw [sat_lookupDns]
            refine hwatch _ _ hq' (fun _ => htypeq) ⟨rfl, rfl, rfl⟩ nofun ?_
            rw [hcond, halloc]
            simp
          · rw [sat_failed]
            refine hwatch _ _ hq' (fun _ => htypeq) ⟨rfl, rfl, rfl⟩ (fun _ => rfl) ?_
            rw [hcond]
            simpa using halloc
        · -- up to two lookups for the addresses
          rw [hq.same] at hdns
          rw [if_neg hdns] at hcond
          rw [sat_bind, sat_get, sat_lookupHost]
          refine hwatch _ _ hq (fun _ => htypeq) ⟨rfl, rfl, rfl⟩ nofun ?_
          rw [hcond, hfamily]
          exact hostEffect_spawned _ _ _
      · rw [sat_call]
        refine hq.refused (fun _ => htypeq) fun hi => hstop ⟨hr.trans hi.2.1, ?_⟩
        rw [(hname (hr.trans hi.2.1)).2]
        exact hi.2.2.1
  | reverse =>
      dsimp only
      unfold queryReverse
      rw [sat_bind]
      refine (setup_prepared request).mono (fun r q ⟨hr, hq, htypeq, hname⟩ => ?_)
        (fun _ _ h => h.elim)
      have hforward : request.type ≠ .forward := by rw [htype]; exact nofun
      rw [sat_ite]
      refine ⟨fun _ => ?_, fun _ => ?_⟩
      · have hq' : Prepared request { q with address := q.request.address } := { hq with }
        unfold lookupAddress
        rw [sat_bind, sat_modify, sat_bind, sat_bind, sat_get]
        have hissue : ∀ name, Sat (lookupDns q.srv name LDNS_RR_TYPE_PTR LDNS_RR_CLASS_IN)
            { q with address := q.request.address }
            (fun _ q' => Sat (watchChannel libs v) q' (fun _ => Begun libs v settings request)
              (fun _ => Balanced)) (fun _ => Balanced) := by
          intro name
          rw [sat_lookupDns]
          exact hwatch _ _ hq' (fun _ => htypeq) ⟨rfl, rfl, rfl⟩ nofun (hbusy _ (by simp) hforward)
        rw [sat_ite]
        refine ⟨fun _ => hissue _, fun _ => ?_⟩
        rw [sat_ite]
        refine ⟨fun _ => hissue _, fun _ => ?_⟩
        show Balanced _
        unfold Balanced
        rw [hq'.pending, hq'.lookups]
        rfl
      · rw [sat_call]
        exact hq.refused (fun _ => htypeq) fun hi => hforward hi.1
  | dns =>
      dsimp only
      unfold queryDns
      rw [sat_bind]
      refine (setup_prepared request).mono (fun r q ⟨hr, hq, htypeq, hname⟩ => ?_)
        (fun _ _ h => h.elim)
      have hforward : request.type ≠ .forward := by rw [htype]; exact nofun
      rw [sat_bind, sat_get, sat_ite]
      refine ⟨fun _ => ?_, fun _ => ?_⟩
      · rw [sat_bind, sat_modify, sat_bind, sat_get, sat_bind, sat_lookupDns]
        have hq' : Prepared request { q with
            cls := q.request.dnsClass, type := q.request.dnsType } := { hq with }
        exact hwatch _ _ hq' (fun hne => absurd htype hne) ⟨rfl, rfl, rfl⟩ nofun
          (hbusy _ (by simp) hforward)
      · rw [sat_call]
        exact hq.refused (fun _ => htypeq) fun hi => hforward hi.1

/-! ### Reports -/

/-- There is a report among the calls. -/
def Reported (calls : List (Option Answer × Call)) : Prop := ∃ c ∈ calls, c.2.reports = true

theorem reported_append (new more : List (Option Answer × Call)) :
    Reported (new ++ more) ↔ Reported new ∨ Reported more := by
  unfold Reported
  constructor
  · rintro ⟨c, hc, hr⟩
    exact (List.mem_append.mp hc).imp (fun hc => ⟨c, hc, hr⟩) (fun hc => ⟨c, hc, hr⟩)
  · rintro (⟨c, hc, hr⟩ | ⟨c, hc, hr⟩)
    · exact ⟨c, List.mem_append_left _ hc, hr⟩
    · exact ⟨c, List.mem_append_right _ hc, hr⟩

theorem reported_map (source : Option Answer) (calls : List Call) :
    Reported (calls.map fun call => (source, call)) ↔ ∃ call ∈ calls, call.reports = true := by
  unfold Reported
  simp

theorem verdict_reports (p : PrivDns) : ∃ call ∈ p.verdict, call.reports = true := by
  refine ⟨if p.failed then .failed else .finished, ?_, ?_⟩
  · unfold PrivDns.verdict
    exact List.mem_append_right _ (List.mem_singleton.mpr rfl)
  · split
    · rfl
    · rfl

/-- An answer alone reports nothing, unless there is no memory for an SRV target. -/
theorem recordEffect_quiet (hcalloc : ∀ n, libs.calloc n = true) (family protocol : Int)
    (srv : PrivSrv) (n : Nat) (record : Record) :
    ∀ call ∈ (recordEffect libs family protocol srv n record).calls, call.reports = false := by
  intro call hcall
  cases record with
  | srv priority weight port name =>
      simp only [recordEffect, hcalloc, if_true] at hcall
      rw [List.mem_singleton.mp hcall]
      rfl
  | other type => cases hcall
  | cname name | ptr name | a address ttl | aaaa address ttl =>
      rw [List.mem_singleton.mp hcall]
      rfl

theorem callbackEffect_quiet (hcalloc : ∀ n, libs.calloc n = true) (p : PrivDns) (srv : PrivSrv)
    (a : Answer) : ∀ call ∈ (callbackEffect libs v p srv a).calls, call.reports = false := by
  have hnothing : ∀ call ∈ ([] : List Call), call.reports = false :=
    fun _ hcall => absurd hcall List.not_mem_nil
  refine callbackEffect_rule (X := fun e => ∀ call ∈ e.calls, call.reports = false) p srv a
    (fun _ _ => hnothing) (fun _ _ he => he) hnothing ?_ fun records => ?_
  · intro _ call hcall
    rw [List.mem_singleton.mp hcall]
    rfl
  · refine recordsEffect_rule (X := fun e => ∀ call ∈ e.calls, call.reports = false) hnothing ?_
      (recordEffect_quiet hcalloc _ _ _) records _
    intro e f he hf call hcall
    exact (List.mem_append.mp hcall).elim (he call) (hf call)

/-! ### One dispatch -/

/-- What is known in the middle of a dispatch that started from `p`, with the calls since. -/
structure Fed (libs : Libs) (v : Variant) (p : PrivDns) (new : List (Option Answer × Call))
    (q : PrivDns) : Prop where
  balanced : Balanced q
  calls : q.calls = p.calls ++ new
  ends : p.lookups ≠ [] → q.lookups = [] →
    ∃ last earlier, q.answers = last :: earlier ∧ (last.checks v = true → Reported new)
  early : (∀ n, libs.calloc n = true) → Reported new →
    q.lookups = [] ∧ ∃ last earlier, q.answers = last :: earlier ∧ last.checks v = true

theorem Fed.begin (h : Balanced p) : Fed libs v p [] p := by
  refine ⟨h, (List.append_nil _).symm, fun hne hnone => absurd hnone hne, fun _ hr => ?_⟩
  obtain ⟨c, hc, -⟩ := hr
  exact absurd hc List.not_mem_nil

/-- The lookup at position `k` is answered. -/
theorem Fed.completed {new : List (Option Answer × Call)} (h : Fed libs v p new q) {k : Nat}
    {lookup : Lookup} (hk : q.lookups[k]? = some lookup) (a : Answer) :
    Fed libs v p (new ++ ((callbackEffect libs v q lookup.srv a).calls ++
      q.closing libs v k lookup a).map fun call => (some a, call)) (q.completed libs v k lookup a) := by
  have hlt : k < q.lookups.length := (List.getElem?_eq_some_iff.mp hk).1
  have hopen : q.lookups ≠ [] := by
    intro hnil
    rw [hnil] at hlt
    exact Nat.not_lt_zero k hlt
  have hafter := (h.balanced.taken hlt a).after (callbackEffect libs v q lookup.srv a)
  have hpending : ((q.taken k a).after (callbackEffect libs v q lookup.srv a)).pending = 0 ↔
      (q.completed libs v k lookup a).lookups = [] := by
    rw [completed_lookups]
    exact hafter.zero
  refine ⟨h.balanced.completed hk a, ?_, fun _ hnone => ?_, fun hcalloc hr => ?_⟩
  · rw [completed_calls, h.calls, List.append_assoc]
  · refine ⟨a, q.answers, completed_answers .., fun hchecks => ?_⟩
    rw [reported_append, reported_map]
    obtain ⟨call, hcall, hreports⟩ :=
      verdict_reports ((q.taken k a).after (callbackEffect libs v q lookup.srv a))
    refine Or.inr ⟨call, List.mem_append_right _ ?_, hreports⟩
    unfold PrivDns.closing
    rw [if_pos ⟨hchecks, hpending.mpr hnone⟩]
    exact hcall
  · rw [reported_append, reported_map] at hr
    rcases hr with hr | ⟨call, hcall, hreports⟩
    · exact absurd (h.early hcalloc hr).1 hopen
    · rcases List.mem_append.mp hcall with hcall | hcall
      · rw [callbackEffect_quiet hcalloc q lookup.srv a call hcall] at hreports
        cases hreports
      · unfold PrivDns.closing at hcall
        dsimp only at hcall
        split at hcall
        · next hclose =>
            exact ⟨hpending.mp hclose.2, a, q.answers, completed_answers .., hclose.1⟩
        · cases hcall

theorem complete_fed (c : Nat × Answer) (h : ∃ new, Fed libs v p new q) :
    Sat (complete libs v c) q (fun _ q' => ∃ new, Fed libs v p new q') (fun _ _ => True) := by
  obtain ⟨new, h⟩ := h
  obtain ⟨k, a⟩ := c
  refine complete_rule ⟨new, h⟩ (fun lookup hk => ?_) (fun _ _ _ => trivial)
  exact ⟨_, h.completed hk a⟩

theorem completions_fed (cs : List (Nat × Answer)) (h : Balanced p) :
    Sat (forM cs (complete libs v)) p (fun _ q => ∃ new, Fed libs v p new q) (fun _ _ => True) :=
  sat_forM (fun _ q => ∃ new, Fed libs v p new q) (fun c _ _ hq => complete_fed c hq) cs p
    ⟨[], Fed.begin h⟩

theorem checks_unbound (a : Answer) : a.checks .unbound = true ↔ a.status = .success := by
  unfold Answer.checks
  cases a.status <;> simp

/-- What a dispatch that leaves no lookup has called. -/
def Closes (libs : Libs) (v : Variant) (p p' : PrivDns) : Prop :=
  ∃ new last earlier, p'.calls = p.calls ++ new ∧ p'.answers = last :: earlier ∧
    ((v = .unbound → last.status = .success) → Reported new) ∧
    ((∀ n, libs.calloc n = true) → Reported new → v = .unbound → last.status = .success)

/--
A dispatch of c-ares: the callbacks run between two changes of the watches, and a `check` ends it.
-/
theorem dispatch_rule {round : Round} {Q : PrivDns → Prop}
    (h : ∀ p₁, Watched p p₁ → Sat (forM round.completions (complete libs .ares)) p₁
      (fun _ p₂ => ∀ p₃, Watched p₂ p₃ → Q p₃.checked) (fun _ _ => True)) :
    Sat (dispatch libs .ares round) p (fun _ => Q) (fun _ _ => True) := by
  unfold dispatch
  dsimp only
  rw [sat_bind]
  refine (unwatchFileDescriptors_watched p).mono (fun _ p₁ hw₁ => ?_) (fun _ _ _ => trivial)
  rw [sat_bind]
  refine (h p₁ hw₁).mono (fun _ p₂ h₂ => ?_) (fun _ _ _ => trivial)
  rw [sat_bind]
  refine (watchFileDescriptors_watched round.fds p₂).mono (fun _ p₃ hw₃ => ?_)
    (fun _ _ _ => trivial)
  refine (check_effect p₃).mono (fun _ p' hp' => ?_) (fun _ _ _ => trivial)
  rw [hp']
  exact h₂ p₃ hw₃

theorem dispatch_closes (round : Round) (h : Balanced p) :
    Sat (dispatch libs v round) p
      (fun _ p' => p.lookups ≠ [] → p'.lookups = [] → Closes libs v p p') (fun _ _ => True) := by
  cases v with
  | unbound =>
      refine (completions_fed round.completions h).mono (fun _ p' hp' hopen hnone => ?_)
        (fun _ _ _ => trivial)
      obtain ⟨new, hfed⟩ := hp'
      obtain ⟨last, earlier, hanswers, hreport⟩ := hfed.ends hopen hnone
      refine ⟨new, last, earlier, hfed.calls, hanswers, fun hstatus => ?_, fun hcalloc hr _ => ?_⟩
      · exact hreport ((checks_unbound last).mpr (hstatus rfl))
      · obtain ⟨-, last', earlier', hanswers', hchecks⟩ := hfed.early hcalloc hr
        obtain ⟨rfl, -⟩ : last = last' ∧ earlier = earlier' :=
          List.cons.inj (hanswers.symm.trans hanswers')
        exact (checks_unbound last).mp hchecks
  | ares =>
      refine dispatch_rule fun p₁ hw₁ => ?_
      refine (completions_fed round.completions (h.watched hw₁)).mono
        (fun _ p₂ hp₂ p₃ hw₃ hopen hnone => ?_) (fun _ _ _ => trivial)
      -- the last `check` of the dispatch reports, whatever the callbacks did
      obtain ⟨new₁, -, hcalls₁⟩ := hw₁.calls
      obtain ⟨new₂, hfed⟩ := hp₂
      obtain ⟨new₃, -, hcalls₃⟩ := hw₃.calls
      have hnone₃ : p₃.lookups = [] := by
        rw [checked_lookups] at hnone
        exact hnone
      have hzero : p₃.pending = 0 := (hfed.balanced.watched hw₃).zero.mpr hnone₃
      have hclosed : p₃.checked = p₃.after { calls := p₃.verdict } := by
        rw [PrivDns.checked, if_pos hzero]
      obtain ⟨last, earlier, hanswers, -⟩ := hfed.ends (by rw [hw₁.lookups]; exact hopen)
        (hw₃.lookups.symm.trans hnone₃)
      refine ⟨new₁ ++ new₂ ++ new₃ ++ p₃.verdict.map fun call => (p₃.applying, call), last, earlier,
        ?_, ?_, fun _ => ?_, fun _ _ hv => by cases hv⟩
      · rw [hclosed]
        show p₃.calls ++ _ = _
        rw [hcalls₃, hfed.calls, hcalls₁]
        simp only [List.append_assoc]
      · rw [hclosed]
        show p₃.answers = _
        rw [hw₃.answers, hanswers]
      · rw [reported_append, reported_map]
        exact Or.inr (verdict_reports p₃)

/-! ### Whole runs -/

theorem run_balanced (libs : Libs) (v : Variant) (settings : List String) (request : Request)
    (rounds : List Round) :
    Balanced (final (run libs v settings rounds) { request := request }) := by
  refine Sat.final ?_
  unfold run
  rw [sat_bind]
  refine (query_begun request).mono (fun _ q hq => ?_) (fun _ _ h => h)
  exact (Stays.forM dispatch_balanced rounds).kept hq.balanced

theorem run_append {rounds : List Round} {round : Round} {p₀ : PrivDns}
    (hrun : run libs v settings rounds p₀ = .ok () p)
    (hround : dispatch libs v round p = .ok () p') :
    run libs v settings (rounds ++ [round]) p₀ = .ok () p' := by
  have hsplit : run libs v settings (rounds ++ [round]) =
      run libs v settings rounds >>= fun _ => dispatch libs v round := by
    unfold run
    rw [List.forM_append, bind_assoc]
    simp
  rw [hsplit, bind_of_ok hrun]
  exact hround

/-- The calls of a dispatch, as the core runs them. -/
theorem env_dispatch {rounds : List Round} {round : Round} {new : List (Option Answer × Call)}
    (hrun : run libs v settings rounds { request := request } = .ok () p)
    (hround : dispatch libs v round p = .ok () p') (hcalls : p'.calls = p.calls ++ new) (i : Nat) :
    (env libs v settings request rounds round).dispatch i = new.map (·.2) := by
  show (callsOf libs v settings request (rounds ++ [round])).drop
    (callsOf libs v settings request rounds).length = _
  unfold callsOf
  rw [final_of_ok hrun, final_of_ok (run_append hrun hround), hcalls, List.map_append,
    List.drop_left']
  rfl

/-- The set-up leaves a lookup or fails, unless it is idle. -/
theorem Begun.reported_iff (h : Begun libs v settings request p) :
    (p.lookups = [] → Reported p.calls) ↔ ¬ Idle libs v settings request := by
  constructor
  · intro hreport hidle
    obtain ⟨c, hc, hr⟩ := hreport (h.idle hidle)
    rcases h.calls c hc with hopens | hfailed
    · obtain ⟨source, call⟩ := c
      cases call <;> first | (simp [opens] at hopens; done) | simp [Call.reports] at hr
    · exact (h.reported.mp ⟨c, hc, hfailed⟩).2 hidle
  · intro hidle hnone
    obtain ⟨c, hc, hfailed⟩ := h.reported.mpr ⟨hnone, hidle⟩
    exact ⟨c, hc, by rw [hfailed]; rfl⟩

/-- The answer that came last is not one libunbound failed to get. -/
def LastResolved (v : Variant) (p : PrivDns) : Prop :=
  v = .unbound → ∀ last ∈ p.answers.head?, last.status = .success

/-- The core leaves the backend in the dispatch of one of its watches. -/
def LeavesBackend (env : Env) : Prop :=
  ∀ s s' w x i, s.query.watches.find? (·.id = w) = some x → x.callback = .backend i →
    queryDispatch env w s = .ok () s' → s.query.cursor < s'.query.cursor

/-- A forward query for the IPv4 addresses of a host. -/
def hostRequest : Request := { nodename := some "a", family := AF_INET }

/-- libunbound fails to resolve the only lookup. -/
def failedRound : Round := { completions := [(0, { status := .failure })] }

end Netresolve.Dns
