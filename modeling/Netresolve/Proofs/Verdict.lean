/-
How a forward query of the DNS backends ends.

`check` goes by the `failed` flag alone, and a single answer that is missing raises it.  So
a host with an address of one family and none of the other fails, with data in its reply,
which the core then complains about.  A forward query that has got an address finishes if and
only if none of its answers failed, which is what `Tallied` keeps track of.
-/
import Netresolve.Proofs.Pending

namespace Netresolve.Dns

open Outcome

variable {libs : Libs} {v : Variant} {settings : List String} {request : Request}
variable {p p' q : PrivDns}

/-! ### Answers that fail -/

/-- A packet that is not for an SRV lookup and says that there is nothing, or an error. -/
def Packet.fails (pkt : Packet) : Bool :=
  let rcode := if pkt.rcode = 0 ∧ pkt.answer = [] then LDNS_RCODE_NXDOMAIN else pkt.rcode
  decide (rcode ≠ 0) &&
    !(decide (rcode = LDNS_RCODE_NXDOMAIN) && pkt.question.head? == some LDNS_RR_TYPE_SRV)

/-- What the callback reads of the answer, if it gets that far. -/
def Answer.read (v : Variant) (a : Answer) : Bool :=
  match v with
  | .ares => a.status == .success || a.status == .notFound
  | .unbound => a.status == .success && !a.bogus

/-- The answer raises the `failed` flag of a query that is not a DNS-style one. -/
def Answer.fails (libs : Libs) (v : Variant) (a : Answer) : Bool :=
  if a.read v then
    match libs.wire2pkt a.data with
    | none => true
    | some pkt => pkt.question != [] && pkt.fails
  else !(v == .ares && a.status == .destruction)

def Record.isSrv : Record → Bool
  | .srv _ _ _ _ => true
  | _ => false

/-- The SRV targets `apply_srv` has to allocate for the answer. -/
def Answer.targets (libs : Libs) (v : Variant) (a : Answer) : Nat :=
  if a.read v then
    match libs.wire2pkt a.data with
    | none => 0
    | some pkt =>
        if pkt.question ≠ [] ∧ pkt.rcode = 0 then pkt.answer.countP Record.isSrv else 0
  else 0

section

variable (libs) (family protocol : Int) (srv : PrivSrv)

theorem recordEffect_reads (n : Nat) (record : Record) :
    (recordEffect libs family protocol srv n record).failed = false ∧
      (recordEffect libs family protocol srv n record).targets =
        if record.isSrv = true then 1 else 0 := by
  cases record with
  | srv priority weight port name =>
      simp only [recordEffect]
      split
      · exact ⟨rfl, rfl⟩
      · exact ⟨rfl, rfl⟩
  | _ => exact ⟨rfl, rfl⟩

theorem recordsEffect_reads (records : List Record) : ∀ n,
    (recordsEffect libs family protocol srv n records).failed = false ∧
      (recordsEffect libs family protocol srv n records).targets = records.countP Record.isSrv := by
  induction records with
  | nil => exact fun _ => ⟨rfl, rfl⟩
  | cons record rest ih =>
      intro n
      obtain ⟨hfailed, htargets⟩ := recordEffect_reads libs family protocol srv n record
      obtain ⟨hfailed', htargets'⟩ :=
        ih (n + (recordEffect libs family protocol srv n record).targets)
      simp only [recordsEffect, effect_append, hfailed, hfailed', Bool.or_self, true_and]
      rw [htargets', htargets, List.countP_cons, Nat.add_comm]

/-- An allocation fails among those from `n` on. -/
def Short (n count : Nat) : Prop := ∃ m, n ≤ m ∧ m < n + count ∧ libs.calloc m = false

theorem short_append (n count count' : Nat) :
    Short libs n (count + count') ↔ Short libs n count ∨ Short libs (n + count) count' := by
  unfold Short
  constructor
  · rintro ⟨m, hle, hlt, hm⟩
    by_cases h : m < n + count
    · exact Or.inl ⟨m, hle, h, hm⟩
    · exact Or.inr ⟨m, by omega, by omega, hm⟩
  · rintro (⟨m, hle, hlt, hm⟩ | ⟨m, hle, hlt, hm⟩)
    · exact ⟨m, hle, by omega, hm⟩
    · exact ⟨m, by omega, by omega, hm⟩

/-- The calls of an effect report a failure exactly if an allocation failed. -/
def Candid (n : Nat) (e : Effect) : Prop :=
  (.failed ∈ e.calls ↔ Short libs n e.targets) ∧ .finished ∉ e.calls

theorem candid_quiet {n : Nat} {e : Effect} (htargets : e.targets = 0)
    (hcalls : ∀ call ∈ e.calls, call.reports = false) : Candid libs n e := by
  have hno : ∀ call, call.reports = true → call ∉ e.calls := by
    intro call hr hmem
    rw [hcalls call hmem] at hr
    cases hr
  refine ⟨⟨fun hmem => absurd hmem (hno _ rfl), ?_⟩, hno _ rfl⟩
  rintro ⟨m, hle, hlt, -⟩
  rw [htargets] at hlt
  omega

theorem recordEffect_candid (n : Nat) (record : Record) :
    Candid libs n (recordEffect libs family protocol srv n record) := by
  cases record with
  | srv priority weight port name =>
      simp only [recordEffect]
      split
      · next halloc =>
          refine ⟨⟨fun hmem => ?_, ?_⟩, fun hmem => ?_⟩
          · cases List.mem_singleton.mp hmem
          · rintro ⟨m, hle, hlt, hm⟩
            obtain rfl : n = m := Nat.le_antisymm hle (Nat.lt_succ_iff.mp hlt)
            rw [halloc] at hm
            cases hm
          · cases List.mem_singleton.mp hmem
      · next halloc =>
          refine ⟨⟨fun _ => ?_, fun _ => List.mem_singleton.mpr rfl⟩, fun hmem => ?_⟩
          · exact ⟨n, Nat.le_refl _, Nat.lt_succ_self _, by simpa using halloc⟩
          · cases List.mem_singleton.mp hmem
  | other type => exact candid_quiet libs rfl fun call hcall => absurd hcall List.not_mem_nil
  | _ => exact candid_quiet libs rfl fun call hcall => by rw [List.mem_singleton.mp hcall]; rfl

theorem recordsEffect_candid (records : List Record) : ∀ n,
    Candid libs n (recordsEffect libs family protocol srv n records) := by
  induction records with
  | nil => exact fun n => candid_quiet libs rfl fun call hcall => absurd hcall List.not_mem_nil
  | cons record rest ih =>
      intro n
      obtain ⟨hfailed, hfinished⟩ := recordEffect_candid libs family protocol srv n record
      obtain ⟨hfailed', hfinished'⟩ := ih (n + (recordEffect libs family protocol srv n record).targets)
      refine ⟨?_, fun hmem => (List.mem_append.mp hmem).elim hfinished hfinished'⟩
      show Call.failed ∈ _ ++ _ ↔ Short libs n (_ + _)
      rw [List.mem_append, short_append, hfailed, hfailed']

end

theorem callbackEffect_candid (libs : Libs) (v : Variant) (p : PrivDns) (srv : PrivSrv) (a : Answer) :
    Candid libs p.targets (callbackEffect libs v p srv a) := by
  have hnothing : ∀ call ∈ ([] : List Call), call.reports = false :=
    fun _ hcall => absurd hcall List.not_mem_nil
  refine callbackEffect_rule (X := Candid libs p.targets) p srv a
    (fun _ _ => candid_quiet libs rfl hnothing) (fun secure e he => ?_)
    (candid_quiet libs rfl hnothing) ?_ fun records => recordsEffect_candid libs _ _ _ records _
  · unfold Candid at *
    simpa [effect_append] using he
  · intro _
    exact candid_quiet libs rfl fun call hcall => by rw [List.mem_singleton.mp hcall]; rfl

/-- The fix-up leaves the records to be applied only where the packet says so. -/
theorem packetEffect_reads (libs : Libs) (p : PrivDns) (srv : PrivSrv) {type : Int} {rest : List Int}
    {pkt : Packet} (hq : pkt.question = type :: rest) :
    (packetEffect libs p srv type pkt).failed = pkt.fails ∧
      (packetEffect libs p srv type pkt).targets =
        if pkt.rcode = 0 then pkt.answer.countP Record.isSrv else 0 := by
  unfold packetEffect Packet.fails
  rw [hq]
  dsimp only
  by_cases hfix : pkt.rcode = 0 ∧ pkt.answer = []
  · rw [if_pos hfix, hfix.2]
    by_cases hsrv : type = LDNS_RR_TYPE_SRV
    · simp [hsrv, LDNS_RCODE_NXDOMAIN, hostEffect]
    · simp [hsrv, LDNS_RCODE_NXDOMAIN]
  · rw [if_neg hfix]
    by_cases hzero : pkt.rcode = 0
    · simp [hzero, recordsEffect_reads]
    · by_cases hsrv : pkt.rcode = LDNS_RCODE_NXDOMAIN ∧ type = LDNS_RR_TYPE_SRV
      · simp [hsrv, LDNS_RCODE_NXDOMAIN, hostEffect]
      · rw [if_neg hzero, if_neg hsrv]
        by_cases hnx : pkt.rcode = LDNS_RCODE_NXDOMAIN
        · have hne : type ≠ LDNS_RR_TYPE_SRV := fun h => hsrv ⟨hnx, h⟩
          simp [hzero, hne]
        · simp [hzero, hnx]

theorem answerEffect_reads (libs : Libs) (v : Variant) (htype : p.type = 0) (srv : PrivSrv) (data : List UInt8) :
    (answerEffect libs v p srv data).failed = (match libs.wire2pkt data with
      | none => true
      | some pkt => pkt.question != [] && pkt.fails) ∧
    (answerEffect libs v p srv data).targets = match libs.wire2pkt data with
      | none => 0
      | some pkt =>
          if pkt.question ≠ [] ∧ pkt.rcode = 0 then pkt.answer.countP Record.isSrv else 0 := by
  unfold answerEffect
  rw [if_neg (not_not.mpr htype)]
  cases libs.wire2pkt data with
  | none => exact ⟨rfl, rfl⟩
  | some pkt =>
      dsimp only
      cases hq : pkt.question with
      | nil => exact ⟨rfl, rfl⟩
      | cons type rest =>
          obtain ⟨hfailed, htargets⟩ := packetEffect_reads libs p srv hq
          simp [effect_append, hfailed, htargets]

theorem callbackEffect_reads (libs : Libs) (v : Variant) (htype : p.type = 0) (srv : PrivSrv) (a : Answer) :
    (callbackEffect libs v p srv a).failed = a.fails libs v ∧
      (callbackEffect libs v p srv a).targets = a.targets libs v := by
  obtain ⟨hfailed, htargets⟩ := answerEffect_reads libs v htype srv a.data
  unfold callbackEffect Answer.fails Answer.targets Answer.read
  cases v with
  | ares =>
      cases hstatus : a.status with
      | destruction => exact ⟨rfl, rfl⟩
      | failure => exact ⟨rfl, rfl⟩
      | success => exact ⟨hfailed, htargets⟩
      | notFound => exact ⟨hfailed, htargets⟩
  | unbound =>
      by_cases hstatus : a.status = .success
      · by_cases hbogus : a.bogus = true
        · simp [hstatus, hbogus]
        · simp [hstatus, hbogus, effect_append, hfailed, htargets]
      · simp [hstatus]

/-! ### The flags and the reports -/

/-- The backend has made the call. -/
def Said (p : PrivDns) (call : Call) : Prop := ∃ c ∈ p.calls, c.2 = call

instance (p : PrivDns) (call : Call) : Decidable (Said p call) :=
  inferInstanceAs (Decidable (∃ c ∈ p.calls, c.2 = call))

theorem said_append {calls : List Call} {source : Option Answer} {call : Call}
    (hcalls : p'.calls = p.calls ++ calls.map fun call => (source, call)) :
    Said p' call ↔ Said p call ∨ call ∈ calls := by
  unfold Said
  rw [hcalls]
  constructor
  · rintro ⟨c, hc, rfl⟩
    rcases List.mem_append.mp hc with hc | hc
    · exact Or.inl ⟨c, hc, rfl⟩
    · obtain ⟨call, hcall, rfl⟩ := List.mem_map.mp hc
      exact Or.inr hcall
  · rintro (⟨c, hc, rfl⟩ | hcall)
    · exact ⟨c, List.mem_append_left _ hc, rfl⟩
    · exact ⟨(source, call), List.mem_append_right _ (List.mem_map.mpr ⟨call, hcall, rfl⟩), rfl⟩

/-- How the flags and the reports follow from the answers, for a query that is not DNS-style. -/
structure Tallied (libs : Libs) (v : Variant) (p : PrivDns) : Prop where
  balanced : Balanced p
  type : p.type = 0
  begun : p.answers = [] → p.failed = true → p.lookups = []
  failed : p.answers ≠ [] → p.failed = p.answers.any (·.fails libs v)
  targets : p.targets = (p.answers.map (·.targets libs v)).sum
  finished : Said p .finished → p.lookups = [] ∧ p.failed = false
  refused : p.lookups ≠ [] ∨ p.answers ≠ [] → Said p .failed →
    Short libs 0 p.targets ∨ p.failed = true
  short : Short libs 0 p.targets → Said p .failed
  paths : (∃ args, Said p (.addPath args)) → p.answers ≠ []

/-- Once all lookups have been answered and none failed, the query is finished. -/
def Concluded (p : PrivDns) : Prop :=
  p.lookups = [] → p.answers ≠ [] → p.failed = false → Said p .finished

theorem Begun.tallied (h : Begun libs v settings request p) (htype : request.type ≠ .dns) :
    Tallied libs v p ∧ Concluded p := by
  have hcalls : ∀ call, Said p call → opens call = true ∨ call = .failed := by
    rintro call ⟨c, hc, rfl⟩
    exact h.calls c hc
  refine ⟨⟨h.balanced, h.typed htype, fun _ => h.failed, fun hne => absurd h.answers hne, ?_, ?_, ?_,
    ?_, ?_⟩, fun _ hne => absurd h.answers hne⟩
  · rw [h.targets, h.answers]
    rfl
  · intro hsaid
    rcases hcalls _ hsaid with h | h
    · cases h
    · cases h
  · rintro (hopen | hne) hsaid
    · exact absurd (h.reported.mp hsaid).1 hopen
    · exact absurd h.answers hne
  · rintro ⟨m, -, hlt, -⟩
    rw [h.targets] at hlt
    exact absurd hlt (Nat.not_lt_zero m)
  · rintro ⟨args, hsaid⟩
    rcases hcalls _ hsaid with h | h
    · cases h
    · cases h

theorem verdict_said (p : PrivDns) (call : Call) (hcall : call.reports = true) :
    call ∈ p.verdict ↔ call = if p.failed then .failed else .finished := by
  unfold PrivDns.verdict
  rw [List.mem_append, List.mem_singleton]
  refine ⟨fun h => h.resolve_left fun hsecure => ?_, Or.inr⟩
  split at hsecure
  · rw [List.mem_singleton.mp hsecure] at hcall
    cases hcall
  · cases hsecure

theorem verdict_no_path (p : PrivDns) (args : PathArgs) : .addPath args ∉ p.verdict := by
  unfold PrivDns.verdict
  cases p.answered && p.secure <;> cases p.failed <;> simp

theorem closing_said {k : Nat} {lookup : Lookup} {a : Answer} (call : Call)
    (hcall : call.reports = true) : call ∈ p.closing libs v k lookup a →
      ((p.taken k a).after (callbackEffect libs v p lookup.srv a)).pending = 0 ∧
      call = if (p.completed libs v k lookup a).failed then .failed else .finished := by
  unfold PrivDns.closing
  dsimp only
  split
  · next h =>
      intro hmem
      refine ⟨h.2, ?_⟩
      rw [(verdict_said _ call hcall).mp hmem, completed_failed]
      rfl
  · intro hmem
    cases hmem

theorem Tallied.completed (h : Tallied libs v p) {k : Nat} {lookup : Lookup}
    (hk : p.lookups[k]? = some lookup) (a : Answer) :
    Tallied libs v (p.completed libs v k lookup a) := by
  have hlt : k < p.lookups.length := (List.getElem?_eq_some_iff.mp hk).1
  have hopen : p.lookups ≠ [] := by
    intro hnil
    rw [hnil] at hlt
    exact Nat.not_lt_zero k hlt
  have hpending : ((p.taken k a).after (callbackEffect libs v p lookup.srv a)).pending = 0 ↔
      (p.completed libs v k lookup a).lookups = [] := by
    rw [completed_lookups]
    exact ((h.balanced.taken hlt a).after (callbackEffect libs v p lookup.srv a)).zero
  obtain ⟨hfails, htargets⟩ := callbackEffect_reads libs v h.type lookup.srv a
  obtain ⟨hcandid, hquiet⟩ := callbackEffect_candid libs v p lookup.srv a
  have hsaid : ∀ call, Said (p.completed libs v k lookup a) call ↔ Said p call ∨
      call ∈ (callbackEffect libs v p lookup.srv a).calls ++ p.closing libs v k lookup a :=
    fun call => said_append (completed_calls libs v k lookup a p)
  have hshort : Short libs 0 (p.completed libs v k lookup a).targets ↔
      Short libs 0 p.targets ∨ Short libs p.targets (callbackEffect libs v p lookup.srv a).targets := by
    rw [completed_targets, short_append, Nat.zero_add]
  refine ⟨h.balanced.completed hk a, (completed_settled libs v k lookup a p).type.trans h.type,
    ?_, ?_, ?_, ?_, ?_, ?_, ?_⟩
  · intro hnil
    rw [completed_answers] at hnil
    cases hnil
  · intro _
    rw [completed_failed, completed_answers, List.any_cons, hfails, Bool.or_comm]
    by_cases hfirst : p.answers = []
    · have hnot : p.failed = false := by
        refine (Bool.not_eq_true _).mp fun hf => hopen (h.begun hfirst hf)
      rw [hnot, hfirst]
      rfl
    · rw [h.failed hfirst]
  · rw [completed_targets, completed_answers, List.map_cons, List.sum_cons, htargets, h.targets,
      Nat.add_comm]
  · intro hs
    rcases (hsaid _).mp hs with hs | hmem
    · exact absurd (h.finished hs).1 hopen
    · rcases List.mem_append.mp hmem with hmem | hmem
      · exact absurd hmem hquiet
      · obtain ⟨hzero, hcall⟩ := closing_said _ rfl hmem
        refine ⟨hpending.mp hzero, ?_⟩
        split at hcall
        · cases hcall
        · next hf => simpa using hf
  · intro _ hs
    rw [hshort, completed_failed]
    rcases (hsaid _).mp hs with hs | hmem
    · rcases h.refused (Or.inl hopen) hs with hs | hf
      · exact Or.inl (Or.inl hs)
      · exact Or.inr (by rw [hf]; rfl)
    · rcases List.mem_append.mp hmem with hmem | hmem
      · exact Or.inl (Or.inr (hcandid.mp hmem))
      · obtain ⟨-, hcall⟩ := closing_said _ rfl hmem
        refine Or.inr ?_
        rw [completed_failed] at hcall
        split at hcall
        · next hf => exact hf
        · cases hcall
  · rw [hshort, hsaid]
    rintro (hs | hs)
    · exact Or.inl (h.short hs)
    · exact Or.inr (List.mem_append_left _ (hcandid.mpr hs))
  · intro _ hnil
    rw [completed_answers] at hnil
    cases hnil

theorem Tallied.watched (h : Tallied libs v p) (hw : Watched p p') : Tallied libs v p' := by
  obtain ⟨new, hnew, hcalls⟩ := hw.calls
  have hsaid : ∀ call, watches call = false → (Said p' call ↔ Said p call) := by
    intro call hcall
    unfold Said
    rw [hcalls]
    refine ⟨?_, fun ⟨c, hc, heq⟩ => ⟨c, List.mem_append_left _ hc, heq⟩⟩
    rintro ⟨c, hc, rfl⟩
    refine ⟨c, (List.mem_append.mp hc).resolve_right fun hc => ?_, rfl⟩
    rw [hnew c hc] at hcall
    cases hcall
  have hrest : ∀ {α : Type} (f : PrivDns → α), f p'.unwatched = f p.unwatched :=
    fun f => congrArg f hw.rest
  have hfailed : p'.failed = p.failed := hrest PrivDns.failed
  have htargets : p'.targets = p.targets := hrest PrivDns.targets
  have htype : p'.type = p.type := hrest PrivDns.type
  refine ⟨h.balanced.watched hw, htype.trans h.type, ?_, ?_, ?_, ?_, ?_, ?_, ?_⟩
  · rw [hw.answers, hfailed, hw.lookups]
    exact h.begun
  · rw [hw.answers, hfailed]
    exact h.failed
  · rw [htargets, hw.answers]
    exact h.targets
  · rw [hsaid _ rfl, hw.lookups, hfailed]
    exact h.finished
  · rw [hsaid _ rfl, hw.lookups, hw.answers, htargets, hfailed]
    exact h.refused
  · rw [hsaid _ rfl, htargets]
    exact h.short
  · rintro ⟨args, hs⟩
    rw [hw.answers]
    exact h.paths ⟨args, (hsaid _ rfl).mp hs⟩

/-- At the end of a dispatch of `aresdns`. -/
theorem Tallied.checked (h : Tallied libs v p) :
    Tallied libs v p.checked ∧ Concluded p.checked := by
  unfold PrivDns.checked
  split
  · next hzero =>
      have hnone : p.lookups = [] := h.balanced.zero.mp hzero
      have hsaid : ∀ call, Said (p.after { calls := p.verdict }) call ↔
          Said p call ∨ call ∈ p.verdict := fun call => said_append rfl
      have hlookups : (p.after { calls := p.verdict }).lookups = p.lookups := List.append_nil _
      have hfailed : (p.after { calls := p.verdict }).failed = p.failed := Bool.or_false _
      refine ⟨⟨h.balanced.after _, h.type, ?_, ?_, h.targets, ?_, ?_, ?_, ?_⟩, fun _ _ hf => ?_⟩
      · intro _ _
        rw [hlookups]
        exact hnone
      · rw [hfailed]
        exact h.failed
      · rw [hsaid, hlookups, hfailed, verdict_said p .finished rfl]
        rintro (hs | hcall)
        · exact h.finished hs
        · refine ⟨hnone, ?_⟩
          split at hcall
          · cases hcall
          · next hf => simpa using hf
      · rw [hsaid, hlookups, hfailed, verdict_said p .failed rfl]
        rintro hor (hs | hcall)
        · exact h.refused hor hs
        · refine Or.inr ?_
          split at hcall
          · next hf => exact hf
          · cases hcall
      · rw [hsaid]
        exact fun hs => Or.inl (h.short hs)
      · rintro ⟨args, hs⟩
        exact h.paths ⟨args, ((hsaid _).mp hs).resolve_right (verdict_no_path p args)⟩
      · rw [hfailed] at hf
        rw [hsaid, verdict_said p .finished rfl, hf]
        exact Or.inr rfl
  · next hzero =>
      exact ⟨h, fun hnone => absurd (h.balanced.zero.mpr hnone) hzero⟩

/-- libunbound calls back, and the last answer concludes the query unless one has failed. -/
theorem Tallied.concluded (h : Tallied libs .unbound p) {k : Nat} {lookup : Lookup}
    (hk : p.lookups[k]? = some lookup) (a : Answer) :
    Concluded (p.completed libs .unbound k lookup a) := by
  intro hnone _ hf
  have hlt : k < p.lookups.length := (List.getElem?_eq_some_iff.mp hk).1
  have hzero : ((p.taken k a).after (callbackEffect libs .unbound p lookup.srv a)).pending = 0 := by
    rw [completed_lookups] at hnone
    exact ((h.balanced.taken hlt a).after (callbackEffect libs .unbound p lookup.srv a)).zero.mpr
      hnone
  have hfails : a.fails libs .unbound = false := by
    rw [completed_failed, (callbackEffect_reads libs .unbound h.type lookup.srv a).1,
      Bool.or_eq_false_iff] at hf
    exact hf.2
  have hchecks : a.checks .unbound = true := by
    rw [checks_unbound]
    by_contra hstatus
    simp [Answer.fails, Answer.read, hstatus] at hfails
  refine (said_append (completed_calls libs .unbound k lookup a p)).mpr
    (Or.inr (List.mem_append_right _ ?_))
  unfold PrivDns.closing
  rw [if_pos ⟨hchecks, hzero⟩, verdict_said _ .finished rfl]
  rw [completed_failed] at hf
  show Call.finished = if (p.failed || _) = true then .failed else .finished
  rw [hf]
  rfl

theorem complete_tallied (c : Nat × Answer) (h : Tallied libs v p) :
    Sat (complete libs v c) p
      (fun _ q => Tallied libs v q ∧ (v = .unbound → Concluded p → Concluded q))
      (fun _ _ => True) := by
  obtain ⟨k, a⟩ := c
  refine complete_rule ⟨h, fun _ hc => hc⟩ (fun lookup hk => ?_) (fun _ _ _ => trivial)
  refine ⟨h.completed hk a, fun hv _ => ?_⟩
  subst hv
  exact h.concluded hk a

theorem completions_tallied (cs : List (Nat × Answer)) (h : Tallied libs v p) :
    Sat (forM cs (complete libs v)) p
      (fun _ q => Tallied libs v q ∧ (v = .unbound → Concluded p → Concluded q))
      (fun _ _ => True) := by
  refine sat_forM (fun _ q => Tallied libs v q ∧ (v = .unbound → Concluded p → Concluded q))
    (fun c rest q hq => ?_) cs p ⟨h, fun _ hc => hc⟩
  exact (complete_tallied c hq.1).mono (fun _ _ h' => ⟨h'.1, fun hv hc => h'.2 hv (hq.2 hv hc)⟩)
    (fun _ _ _ => trivial)

theorem dispatch_tallied (round : Round) (h : Tallied libs v p) (hc : Concluded p) :
    Sat (dispatch libs v round) p (fun _ q => Tallied libs v q ∧ Concluded q)
      (fun _ _ => True) := by
  cases v with
  | unbound =>
      exact (completions_tallied round.completions h).mono (fun _ _ hq => ⟨hq.1, hq.2 rfl hc⟩)
        (fun _ _ _ => trivial)
  | ares =>
      refine dispatch_rule fun p₁ hw₁ => ?_
      exact (completions_tallied round.completions (h.watched hw₁)).mono
        (fun _ _ hp₂ _ hw₃ => (hp₂.1.watched hw₃).checked) (fun _ _ _ => trivial)

theorem run_tallied {rounds : List Round} (htype : request.type ≠ .dns)
    (hrun : run libs v settings rounds { request := request } = .ok () p) :
    Tallied libs v p ∧ Concluded p := by
  have hsat : Sat (run libs v settings rounds) { request := request }
      (fun _ q => Tallied libs v q ∧ Concluded q) (fun _ _ => True) := by
    unfold run
    rw [sat_bind]
    refine (query_begun request).mono (fun _ q hq => ?_) (fun _ _ _ => trivial)
    exact sat_forM (fun _ q => Tallied libs v q ∧ Concluded q)
      (fun round _ q hq => dispatch_tallied round hq.1 hq.2) rounds q (hq.tallied htype)
  exact hsat.of_ok hrun

/-! ### Forward queries -/

/-- An address has been added as a path. -/
def Added (services : List Service) (request : Request) (p : PrivDns) : Prop :=
  ∃ args, Said p (.addPath args) ∧ pathsOf services request args ≠ []

/-- The backend ends the query with success and not with failure. -/
def Finishes (p : PrivDns) : Prop := Said p .finished ∧ ¬ Said p .failed

/-- The path of the answer `plainAnswer`. -/
def plainPath : PathArgs := { family := AF_INET, address := [192, 0, 2, 1], ttl := 60 }

/-- An answer for the AAAA records of the same name with rcode 3 (NXDOMAIN). -/
def missingAnswer : List UInt8 :=
  [0, 0, 0x81, 0x83, 0, 1, 0, 0, 0, 0, 0, 0, 1, 0x61, 0, 0, 28, 0, 1]

/-- The AAAA record of the same name. -/
def ipv6Answer : List UInt8 :=
  [0, 0, 0x81, 0x80, 0, 1, 0, 1, 0, 0, 0, 0, 1, 0x61, 0, 0, 28, 0, 1,
    0xc0, 0x0c, 0, 28, 0, 1, 0, 0, 0, 60, 0, 16, 0x20, 0x01] ++ List.replicate 13 0 ++ [1]

/-- A library that can read both addresses. -/
def bothLibs : Libs :=
  { plainLibs with
    wire2pkt := fun data =>
      if data = ipv6Answer then
        some { question := [LDNS_RR_TYPE_AAAA],
               answer := [.aaaa ([0x20, 0x01] ++ List.replicate 13 0 ++ [1]) 60] }
      else plainLibs.wire2pkt data }

/-- Both records are there. -/
def bothRound : Round :=
  { completions := [(0, { data := plainAnswer }), (0, { data := ipv6Answer })] }

/-- A library that can read both answers. -/
def dualLibs : Libs :=
  { plainLibs with
    wire2pkt := fun data =>
      if data = missingAnswer then some { rcode := 3, question := [LDNS_RR_TYPE_AAAA] }
      else plainLibs.wire2pkt data }

/-- The A records are there and the AAAA records are not. -/
def dualRound : Round :=
  { completions := [(0, { data := plainAnswer }), (0, { status := .notFound, data := missingAnswer })] }

end Netresolve.Dns
