/-
Forward queries through the Avahi build of the DNS backend.

When every browser has said that this is all for now, the query is answered with the addresses the
browsers have told of, in the order they came, or left if there is none.  The order in which the
browsers speak does not matter.  A browser that fails before it has said so leaves a lookup pending
that nothing takes back, so the addresses of the other one are lost with it.
-/
import Netresolve.Proofs.Avahi

namespace Netresolve.Avahi

open Dns Outcome

/-! ### What the browsers tell -/

/-- The record types that are browsed for. -/
def hostTypes (family : Int) : List Int :=
  (if family = AF_INET ∨ family = AF_UNSPEC then [LDNS_RR_TYPE_A] else []) ++
    if family = AF_INET6 ∨ family = AF_UNSPEC then [LDNS_RR_TYPE_AAAA] else []

/-- The address an event tells of. -/
def Event.address (libs : Libs) (kinds : List Int) : Event → Option Call
  | .browser k (.new rdata) => (kinds[k]?.bind familyOf).map (addressCall libs 0 {} rdata)
  | _ => none

/-- The addresses of a log. -/
def addresses (libs : Libs) (kinds : List Int) (log : List Event) : List Call :=
  log.filterMap (Event.address libs kinds)

/-- Events on which a failure is reported at once. -/
def Event.trouble : Event → Bool
  | .browser _ .failure | .browser _ .remove | .client true => true
  | _ => false

def Quiet (log : List Event) : Prop := ∀ event ∈ log, event.trouble = false

/-- A browser has failed that has not said that this is all for now. -/
def Stuck (p : PrivAvahi) : Prop := ∃ b ∈ p.browsers, b.failed = true ∧ b.settled = false

/-- The response, vouched for or not. -/
def vouch (r : Response) (secure : Bool) : Response :=
  { r with security := if secure then .secure else .insecure }

/-- All browsers have said that this is all for now. -/
def PrivAvahi.complete (p : PrivAvahi) : Bool := p.unsettled = 0 && !p.browsers.isEmpty

/-- The report `check` has made if there was no trouble. -/
def PrivAvahi.outcome (p : PrivAvahi) : Option Call :=
  if p.complete then some (if p.dns.answered then .finished else .failed) else none

/-- The response is these addresses. -/
def Tells (libs : Libs) (kinds : List Int) (p : PrivAvahi) (secure : Bool) : Prop :=
  ∀ env request, written env request 0 p.said {} =
    vouch (written env request 0 (addresses libs kinds p.log) {}) secure

/-- The browsers are for these types, and what has been said is what they told. -/
structure Hears (libs : Libs) (kinds : List Int) (trusted : Bool) (p : PrivAvahi) : Prop
    extends Counted kinds 0 p where
  resolver : p.resolver = none
  protocol : p.dns.protocol = 0
  plain : ∀ b ∈ p.browsers, ∃ name, b.lookup.srv = { name }
  secure : p.dns.secure = trusted
  range : ∀ k event, Event.browser k event ∈ p.log → k < kinds.length
  answered : p.dns.answered = true ↔ addresses libs kinds p.log ≠ []
  stuck : Stuck p → lastReport none p.said = some .failed
  quiet : Quiet p.log → lastReport none p.said = p.outcome ∧
    Tells libs kinds p (p.complete && p.dns.answered && trusted)

section

variable {libs : Libs} {kinds : List Int} {trusted : Bool} {p p' q : PrivAvahi}

theorem Hears.owed_le (h : Hears libs kinds trusted p) : (p.owed : Int) ≤ p.dns.pending := by
  have := h.pending
  omega

theorem Quiet.left {log more : List Event} (h : Quiet (log ++ more)) : Quiet log :=
  fun event hevent => h event (List.mem_append_left _ hevent)

theorem addresses_append (log more : List Event) :
    addresses libs kinds (log ++ more) = addresses libs kinds log ++ addresses libs kinds more :=
  List.filterMap_append

theorem unsettled_of_stuck (h : Stuck p) : p.unsettled ≠ 0 := by
  obtain ⟨b, hb, -, hsettled⟩ := h
  exact (List.countP_pos_iff.mpr ⟨b, hb, by simp [hsettled]⟩).ne'

theorem outcome_unsettled (h : p.unsettled ≠ 0) : p.outcome = none := by
  simp [PrivAvahi.outcome, PrivAvahi.complete, h]

theorem vouched (h : (p.complete && p.dns.answered && trusted) = true) :
    p.unsettled = 0 ∧ p.dns.answered = true ∧ trusted = true := by
  simp only [Bool.and_eq_true, PrivAvahi.complete, decide_eq_true_eq] at h
  exact ⟨h.1.1.1, h.1.2, h.2⟩

/-- `check` after a callback of a browser. -/
theorem Hears.check (hc : Counted kinds 0 q.checked) (hresolver : q.resolver = none)
    (hprotocol : q.dns.protocol = 0) (hplain : ∀ b ∈ q.browsers, ∃ name, b.lookup.srv = { name })
    (hsecure : q.dns.secure = trusted)
    (hrange : ∀ k event, Event.browser k event ∈ q.log → k < kinds.length)
    (hanswered : q.dns.answered = true ↔ addresses libs kinds q.log ≠ [])
    (hne : q.browsers ≠ []) (hstuck : Stuck q → lastReport none q.said = some .failed)
    (hquiet : Quiet q.log → (q.unsettled ≠ 0 → lastReport none q.said = none) ∧
      ∃ secure, (secure = true → q.unsettled = 0 ∧ q.dns.answered = true ∧ trusted = true) ∧
        Tells libs kinds q secure) : Hears libs kinds trusted q.checked := by
  have hpending : q.dns.pending = q.unsettled := by
    have := hc.pending
    rw [checked_pending, owed_congr (checked_browsers q) (checked_resolver q)] at this
    rw [this]
    simp [PrivAvahi.owed, hresolver]
  have hcomplete : q.checked.complete = decide (q.unsettled = 0) := by
    simp [PrivAvahi.complete, PrivAvahi.unsettled, hne]
  refine ⟨hc, ?_, ?_, ?_, ?_, ?_, ?_, fun h => ?_, fun h => ?_⟩
  · rw [checked_resolver, hresolver]
  · rw [checked_protocol, hprotocol]
  · rw [checked_browsers]
    exact hplain
  · rw [checked_secure, hsecure]
  · rw [checked_log]
    exact hrange
  · rw [checked_answered, checked_log]
    exact hanswered
  · have h : Stuck q := by
      unfold Stuck at h
      rwa [checked_browsers] at h
    have hzero : q.dns.pending ≠ 0 := by
      rw [hpending]
      exact_mod_cast unsettled_of_stuck h
    rw [said_checked, if_neg hzero, List.append_nil]
    exact hstuck h
  · rw [checked_log] at h
    obtain ⟨hreport, secure, hvouched, htells⟩ := hquiet h
    unfold PrivAvahi.outcome Tells
    rw [hcomplete, checked_answered, checked_log, said_checked]
    by_cases hzero : q.unsettled = 0
    · have hpending : q.dns.pending = 0 := by rw [hpending, hzero]; rfl
      simp only [hpending, hzero, if_true, decide_true, Bool.true_and]
      refine ⟨?_, fun env request => ?_⟩
      · rw [lastReport_append, PrivAvahi.verdict, lastReport_append]
        cases q.dns.answered <;> rfl
      · rw [written_append, htells env request]
        unfold PrivAvahi.verdict
        rw [hsecure]
        cases ha : q.dns.answered with
        | true => cases trusted with
          | true => rfl
          | false =>
              have hinsecure : secure = false := by
                cases secure with
                | false => rfl
                | true => exact absurd (hvouched rfl).2.2 (by decide)
              rw [hinsecure]
              rfl
        | false =>
            have hinsecure : secure = false := by
              cases secure with
              | false => rfl
              | true => exact absurd ((hvouched rfl).2.1.symm.trans ha) (by decide)
            rw [hinsecure]
            rfl
    · have hpending : q.dns.pending ≠ 0 := by rw [hpending]; exact_mod_cast hzero
      have hinsecure : secure = false := by
        cases secure with
        | false => rfl
        | true => exact absurd (hvouched rfl).1 hzero
      simp only [hpending, hzero, if_false, decide_false, Bool.false_and, List.append_nil]
      exact ⟨hreport hzero, hinsecure ▸ htells⟩

/-- A step that says nothing of browsers leaves what they told. -/
theorem Hears.keeps (h : Hears libs kinds trusted p) (hc : Counted kinds 0 p') {calls : List Call}
    {events : List Event} (hbrowsers : p'.browsers = p.browsers)
    (hresolver : p'.resolver = p.resolver) (hlog : p'.log = p.log ++ events)
    (hdns : p'.dns = (p.tell calls).dns)
    (hevents : ∀ event ∈ events, event.address libs kinds = none ∧
      ∀ k e, event = .browser k e → k < kinds.length)
    (hcalls : (∀ call ∈ calls, call.adds = false ∧ call.reports = false) ∨
      calls = [.failed] ∧ ¬ Quiet events) : Hears libs kinds trusted p' := by
  have hsaid : p'.said = p.said ++ calls := by
    unfold PrivAvahi.said
    rw [hdns]
    exact said_tell p calls
  have haddresses : addresses libs kinds p'.log = addresses libs kinds p.log := by
    rw [hlog, addresses_append]
    have hnone : addresses libs kinds events = [] :=
      List.filterMap_eq_nil_iff.mpr fun event hevent => (hevents event hevent).1
    rw [hnone, List.append_nil]
  refine ⟨hc, hresolver.trans h.resolver, ?_, ?_, ?_, fun k e hmem => ?_, ?_, fun hs => ?_,
    fun hq => ?_⟩
  · rw [hdns]
    exact h.protocol
  · rw [hbrowsers]
    exact h.plain
  · rw [hdns]
    exact h.secure
  · rw [hlog] at hmem
    rcases List.mem_append.mp hmem with hmem | hmem
    · exact h.range k e hmem
    · exact (hevents _ hmem).2 k e rfl
  · rw [hdns, haddresses]
    exact h.answered
  · have hreport : lastReport none p.said = some .failed := by
      refine h.stuck ?_
      unfold Stuck at hs
      rwa [hbrowsers] at hs
    rw [hsaid, lastReport_append, hreport]
    rcases hcalls with hcalls | ⟨rfl, -⟩
    · exact lastReport_idle (fun call hcall => (hcalls call hcall).2) _
    · rfl
  · rw [hlog] at hq
    have hcalls : ∀ call ∈ calls, call.adds = false ∧ call.reports = false :=
      hcalls.resolve_right fun hnot => hnot.2 fun event hevent =>
        hq event (List.mem_append_right _ hevent)
    obtain ⟨hreport, htells⟩ := h.quiet hq.left
    have hcomplete : p'.complete = p.complete := by
      unfold PrivAvahi.complete PrivAvahi.unsettled
      rw [hbrowsers]
    have hanswered : p'.dns.answered = p.dns.answered := by rw [hdns]; rfl
    unfold PrivAvahi.outcome Tells
    rw [hcomplete, hanswered, haddresses, hsaid, lastReport_append,
      lastReport_idle fun call hcall => (hcalls call hcall).2]
    refine ⟨hreport, fun env request => ?_⟩
    rw [written_append, written_idle _ fun call hcall => (hcalls call hcall).1]
    exact htells env request

theorem Hears.step (h : Hears libs kinds trusted p) (hstep : Step libs p p') :
    Hears libs kinds trusted p' := by
  have hc := h.toCounted.step hstep
  have hindex {k : Nat} {b : Browser} (hb : p.browsers[k]? = some b) :
      kinds[k]? = some b.lookup.type ∧ k < kinds.length := by
    obtain ⟨hk, hget⟩ := List.getElem?_eq_some_iff.mp hb
    refine ⟨?_, by rw [← h.types, List.length_map]; exact hk⟩
    rw [← h.types, List.getElem?_map, hb]
    rfl
  have hpresent {k : Nat} {b : Browser} (hb : p.browsers[k]? = some b) : p.browsers ≠ [] :=
    List.ne_nil_of_mem (List.mem_of_getElem? hb)
  have hrange {k : Nat} {b : Browser} (hb : p.browsers[k]? = some b) (e : BrowserEvent) :
      ∀ j e', Event.browser j e' ∈ p.log ++ [.browser k e] → j < kinds.length := by
    intro j e' hmem
    rcases List.mem_append.mp hmem with hmem | hmem
    · exact h.range j e' hmem
    · cases List.mem_singleton.mp hmem
      exact (hindex hb).2
  have hsilent {k : Nat} (e : BrowserEvent) (he : ∀ rdata, e ≠ .new rdata) :
      addresses libs kinds (p.log ++ [.browser k e]) = addresses libs kinds p.log := by
    rw [addresses_append]
    cases e with
    | new rdata => exact absurd rfl (he rdata)
    | _ => exact List.append_nil _
  have hplain {k : Nat} {b b' : Browser} (hb : p.browsers[k]? = some b)
      (hlookup : b'.lookup = b.lookup) :
      ∀ x ∈ p.browsers.set k b', ∃ name, x.lookup.srv = { name } := by
    intro x hx
    rcases List.mem_or_eq_of_mem_set hx with hx | rfl
    · exact h.plain x hx
    · exact hlookup ▸ h.plain b (List.mem_of_getElem? hb)
  cases hstep with
  | aside ha =>
      obtain ⟨calls, hdns, hcalls⟩ := ha.dns
      exact h.keeps hc ha.browsers ha.resolver (by rw [ha.log, List.append_nil]) hdns (by simp)
        (Or.inl hcalls)
  | client failure =>
      refine h.keeps hc rfl rfl rfl rfl (by simp [Event.address]) ?_
      cases failure with
      | true => exact Or.inr ⟨rfl, fun hq => by simpa [Event.trouble] using hq _ (.head _)⟩
      | false => exact Or.inl (by simp)
  | @found k b rdata family hb hfamily =>
      obtain ⟨name, hsrv⟩ := h.plain b (List.mem_of_getElem? hb)
      have haddress : addresses libs kinds (p.log ++ [.browser k (.new rdata)]) =
          addresses libs kinds p.log ++
            [addressCall libs p.dns.protocol b.lookup.srv rdata family] := by
        rw [addresses_append]
        simp [addresses, Event.address, (hindex hb).1, hfamily, h.protocol, hsrv, addressCall]
      refine Hears.check hc h.resolver h.protocol h.plain h.secure (hrange hb _)
        (iff_of_true rfl ?_) (hpresent hb) (fun hs => ?_) fun hq => ?_
      · show addresses libs kinds (p.log ++ _) ≠ []
        rw [haddress]
        simp
      · show lastReport none (p.tell [_]).said = _
        rw [said_tell, lastReport_append, h.stuck hs]
        rfl
      · obtain ⟨hreport, htells⟩ := h.quiet (Quiet.left hq)
        refine ⟨fun hne => ?_, p.complete && p.dns.answered && trusted, fun hvouched => ?_,
          fun env request => ?_⟩
        · show lastReport none (p.tell [_]).said = none
          rw [said_tell, lastReport_append, hreport, @outcome_unsettled p hne]
          rfl
        · obtain ⟨hzero, -, htrusted⟩ := vouched hvouched
          exact ⟨hzero, rfl, htrusted⟩
        · show written env request 0 (p.tell [_]).said {} =
            vouch (written env request 0 (addresses libs kinds (p.log ++ _)) {}) _
          rw [said_tell, haddress, written_append, written_append, htells env request]
          rfl
  | @foreign k b rdata hb hfamily =>
      have hdns : p.dns = (p.tell []).dns := by rw [tell_nil]
      refine h.keeps hc rfl rfl rfl hdns ?_ (Or.inl (by simp))
      intro event hevent
      rw [List.mem_singleton.mp hevent]
      refine ⟨by simp [Event.address, (hindex hb).1, hfamily], fun j e heq => ?_⟩
      cases heq
      exact (hindex hb).2
  | @removed k b hb =>
      refine h.keeps hc rfl rfl rfl rfl ?_ (Or.inr ⟨rfl, fun hq => ?_⟩)
      · intro event hevent
        rw [List.mem_singleton.mp hevent]
        refine ⟨rfl, fun j e heq => ?_⟩
        cases heq
        exact (hindex hb).2
      · simpa [Event.trouble] using hq _ (.head _)
  | @exhausted k b hb =>
      have haddress := @hsilent k .cacheExhausted nofun
      refine Hears.check hc h.resolver h.protocol h.plain h.secure (hrange hb _) ?_ (hpresent hb)
        h.stuck fun hq => ?_
      · show p.dns.answered = true ↔ addresses libs kinds (p.log ++ _) ≠ []
        rw [haddress]
        exact h.answered
      · obtain ⟨hreport, htells⟩ := h.quiet (Quiet.left hq)
        refine ⟨fun hne => hreport.trans (outcome_unsettled hne), _, vouched, fun env request => ?_⟩
        show written env request 0 p.said {} =
          vouch (written env request 0 (addresses libs kinds (p.log ++ _)) {}) _
        rw [haddress]
        exact htells env request
  | @settled k b hb hsettled =>
      have hne : p.unsettled ≠ 0 := (unsettled_pos hb hsettled).ne'
      have haddress := @hsilent k .allForNow nofun
      refine Hears.check hc h.resolver h.protocol ?_ h.secure (hrange hb _) ?_ ?_ (fun hs => ?_)
        fun hq => ?_
      · exact hplain hb rfl
      · show p.dns.answered = true ↔ addresses libs kinds (p.log ++ _) ≠ []
        rw [haddress]
        exact h.answered
      · show p.browsers.set k _ ≠ []
        rw [Ne, List.set_eq_nil_iff]
        exact hpresent hb
      · -- The browser that is stuck is another one.
        refine h.stuck ?_
        obtain ⟨b', hb', hfailed', hsettled'⟩ := hs
        rcases List.mem_or_eq_of_mem_set hb' with hb' | rfl
        · exact ⟨b', hb', hfailed', hsettled'⟩
        · cases hsettled'
      · obtain ⟨hreport, htells⟩ := h.quiet (Quiet.left hq)
        rw [outcome_unsettled hne] at hreport
        refine ⟨fun _ => hreport, false, by simp, fun env request => ?_⟩
        show written env request 0 p.said {} =
          vouch (written env request 0 (addresses libs kinds (p.log ++ _)) {}) _
        rw [haddress, htells env request]
        simp [PrivAvahi.complete, hne]
  | @failed k b hb =>
      have haddress := @hsilent k .failure nofun
      refine Hears.check hc h.resolver h.protocol ?_ h.secure (hrange hb _) ?_ ?_ (fun hs => ?_)
        fun hq => ?_
      · exact hplain hb rfl
      · show p.dns.answered = true ↔ addresses libs kinds (p.log ++ _) ≠ []
        rw [haddress]
        exact h.answered
      · show p.browsers.set k _ ≠ []
        rw [Ne, List.set_eq_nil_iff]
        exact hpresent hb
      · show lastReport none (PrivAvahi.tell _ [_]).said = _
        rw [said_tell, lastReport_append]
        rfl
      · exact absurd (hq (.browser k .failure) (List.mem_append_right _ (.head _)))
          (by simp [Event.trouble])
  | @resolved r event call hr hsettled hcall =>
      rw [h.resolver] at hr
      cases hr

end

/-! ### Browsing for a host -/

/-- Forward requests without services, when nothing fails that is needed for them. -/
structure Browsable (libs : Libs) (request : Request) : Prop where
  type : request.type = .forward
  services : request.dnsSrvLookup = false
  name : backendGetNodename request ≠ none
  newPriv : libs.newPriv = true
  clientNew : libs.clientNew = true
  browserNew : ∀ n, libs.browserNew n = true

/-- Browsers are being made for these types. -/
structure Browsing (libs : Libs) (kinds : List Int) (trusted : Bool) (p : PrivAvahi) : Prop
    extends Hears libs kinds trusted p where
  log : ∀ event ∈ p.log, ∃ failure, event = .client failure
  unsettled : p.browsers ≠ [] → p.unsettled ≠ 0

section

variable {libs : Libs} {kinds : List Int} {trusted : Bool} {request : Request}
  {settings : List String} {p : PrivAvahi}

theorem addresses_client {log : List Event}
    (h : ∀ event ∈ log, ∃ failure, event = .client failure) : addresses libs kinds log = [] := by
  refine List.filterMap_eq_nil_iff.mpr fun event hevent => ?_
  obtain ⟨failure, rfl⟩ := h event hevent
  rfl

theorem Opening.browsing (h : Opening request settings p) :
    Browsing libs [] (settings.contains "trust") p := by
  have hanswered : p.dns.answered = false := by rw [h.dns]
  have hcomplete : p.complete = false := by simp [PrivAvahi.complete, h.browsers]
  have hnone : addresses libs [] p.log = [] := addresses_client h.log
  refine ⟨⟨h.counted, h.resolver, by rw [h.dns], ?_, by rw [h.dns], ?_, ?_, ?_, fun hq => ?_⟩, h.log,
    fun hne => absurd h.browsers hne⟩
  · simp [h.browsers]
  · intro k e hmem
    obtain ⟨failure, hevent⟩ := h.log _ hmem
    cases hevent
  · simp [hanswered, hnone]
  · rintro ⟨b, hb, -⟩
    rw [h.browsers] at hb
    cases hb
  · rcases h.told with ⟨-, hmem⟩ | ⟨hreport, hadds⟩
    · cases hq _ hmem
    · unfold PrivAvahi.outcome Tells
      rw [hcomplete, hnone]
      exact ⟨hreport, fun env request => written_idle {} hadds⟩

/-- A browser is made. -/
theorem Browsing.looks (h : Browsing libs kinds trusted p) (hnew : ∀ n, libs.browserNew n = true)
    {srv : PrivSrv} (hsrv : ∃ name, srv = { name }) (name : Option String) (type cls : Int) :
    Sat (lookupDns libs srv name type cls) p
      (fun _ => Browsing libs (kinds ++ [type]) trusted) (fun _ _ => False) := by
  simp only [lookupDns, sat_bind, sat_get, sat_modify, hnew, if_true]
  have hadded {b : Browser} (hb : b.settled = false) :
      (p.browsers ++ [b]).countP (!·.settled) = p.unsettled + 1 := by
    simp [PrivAvahi.unsettled, hb]
  have hnone : addresses libs (kinds ++ [type]) p.log = [] := addresses_client h.log
  have hidle : addresses libs kinds p.log = [] := addresses_client h.log
  have hcomplete : p.complete = false := by
    by_cases hb : p.browsers = []
    · simp [PrivAvahi.complete, hb]
    · simp [PrivAvahi.complete, h.unsettled hb]
  refine ⟨⟨⟨?_, ?_⟩, h.resolver, h.protocol, ?_, h.secure, fun k e hmem => ?_, ?_, fun hs => ?_,
    fun hq => ?_⟩, h.log, fun _ => ?_⟩
  · rw [List.map_append, h.types]
    rfl
  · have := h.pending
    simp only [PrivAvahi.owed, h.resolver] at this ⊢
    show p.dns.pending + 1 = (((p.browsers ++ _).countP _ + 0 : Nat) : Int) + _
    rw [hadded rfl]
    omega
  · intro b hb
    rcases List.mem_append.mp hb with hb | hb
    · exact h.plain b hb
    · rw [List.mem_singleton.mp hb]
      exact hsrv
  · have := h.range k e hmem
    simp only [List.length_append, List.length_cons, List.length_nil]
    omega
  · have := h.answered
    rw [hidle] at this
    rwa [hnone]
  · refine h.stuck ?_
    obtain ⟨b, hb, hfailed, hsettled⟩ := hs
    rcases List.mem_append.mp hb with hb | hb
    · exact ⟨b, hb, hfailed, hsettled⟩
    · rw [List.mem_singleton.mp hb] at hfailed
      cases hfailed
  · obtain ⟨hreport, htells⟩ := h.quiet hq
    unfold PrivAvahi.outcome at hreport
    rw [hcomplete] at hreport htells
    have hsame (q : PrivAvahi) (hsaid : q.said = p.said) (hlog : q.log = p.log)
        (hq : q.complete = false) : lastReport none q.said = q.outcome ∧
          Tells libs (kinds ++ [type]) q (q.complete && q.dns.answered && trusted) := by
      unfold PrivAvahi.outcome Tells
      rw [hq, hsaid, hlog, hnone]
      refine ⟨hreport, fun env request => ?_⟩
      have htold := htells env request
      rwa [hidle] at htold
    refine hsame _ rfl rfl ?_
    simp [PrivAvahi.complete, PrivAvahi.unsettled]
  · show (p.browsers ++ _).countP _ ≠ 0
    rw [hadded rfl]
    exact Nat.succ_ne_zero _

/-- The setup of such a request browses for all its types. -/
theorem sat_query_hears (settings : List String) (h : Browsable libs request) :
    Sat (query libs settings) { dns := { request } }
      (fun _ => Hears libs (hostTypes request.family) (settings.contains "trust"))
      (fun _ _ => False) := by
  unfold query
  simp only [sat_bind, sat_get, h.type, queryForward, sat_ite]
  refine (sat_setup libs request settings).mono (fun ready p hsetup => ?_) (fun _ _ he => he)
  cases hsetup with
  | without hnew =>
      rw [h.newPriv] at hnew
      cases hnew
  | opened hnew hopen =>
      have hname : p.dns.srv.name ≠ none := by
        rw [hopen.dns]
        exact h.name
      have hservices : ¬ p.dns.request.dnsSrvLookup = true := by
        rw [hopen.dns]
        simp [h.services]
      have hfamily : p.dns.family = request.family := by rw [hopen.dns]
      have hsrv : ∃ name, p.dns.srv = { name } := ⟨_, by rw [hopen.dns]⟩
      refine ⟨fun _ => ⟨fun hs => absurd hs hservices, fun _ => ?_⟩,
        fun hnot => absurd ⟨h.clientNew, hname⟩ hnot⟩
      simp only [lookupHost, sat_bind, sat_get, sat_ite, sat_pure, hfamily]
      have hsecond {kinds : List Int} {q : PrivAvahi}
          (hq : Browsing libs kinds (settings.contains "trust") q) :
          (request.family = AF_INET6 ∨ request.family = AF_UNSPEC →
            Sat (lookupDns libs p.dns.srv p.dns.srv.name LDNS_RR_TYPE_AAAA LDNS_RR_CLASS_IN) q
              (fun _ => Hears libs (kinds ++
                if request.family = AF_INET6 ∨ request.family = AF_UNSPEC then
                  [LDNS_RR_TYPE_AAAA] else []) (settings.contains "trust")) (fun _ _ => False)) ∧
          (¬ (request.family = AF_INET6 ∨ request.family = AF_UNSPEC) → Hears libs (kinds ++
            if request.family = AF_INET6 ∨ request.family = AF_UNSPEC then
              [LDNS_RR_TYPE_AAAA] else []) (settings.contains "trust") q) := by
        refine ⟨fun hf => ?_, fun hf => ?_⟩
        · rw [if_pos hf]
          exact (hq.looks h.browserNew hsrv ..).mono (fun _ _ hb => hb.toHears) (fun _ _ he => he)
        · rw [if_neg hf, List.append_nil]
          exact hq.toHears
      refine ⟨fun hf => ?_, fun hf => ?_⟩
      · unfold hostTypes
        rw [if_pos hf]
        exact (hopen.browsing.looks h.browserNew hsrv ..).mono (fun _ _ hb => hsecond hb)
          (fun _ _ he => he)
      · unfold hostTypes
        rw [if_neg hf]
        exact hsecond hopen.browsing

end

/-! ### What the query is answered with -/

section

variable {libs : Libs} {kinds : List Int} {trusted : Bool} {settings : List String}
  {env env' : Env} {s₀ s : St} {p : PrivAvahi} {said : List Call}

theorem addresses_paths (libs : Libs) (kinds : List Int) (log : List Event) :
    ∀ call ∈ addresses libs kinds log, ∃ a, call = .addPath a := by
  intro call hcall
  obtain ⟨event, -, heq⟩ := List.mem_filterMap.mp hcall
  unfold Event.address at heq
  split at heq
  · obtain ⟨family, -, rfl⟩ := Option.map_eq_some_iff.mp heq
    exact ⟨_, rfl⟩
  · cases heq

/-- Addresses do not vouch for themselves. -/
theorem written_insecure {env : Env} {request : Request} {calls : List Call}
    (h : ∀ call ∈ calls, ∃ a, call = .addPath a) : ∀ r : Response, r.security = .insecure →
    vouch (written env request 0 calls r) false = written env request 0 calls r := by
  induction calls with
  | nil =>
      intro r hr
      show { r with security := .insecure } = r
      rw [← hr]
  | cons call rest ih =>
      intro r hr
      obtain ⟨a, rfl⟩ := h call (List.mem_cons_self ..)
      exact ih (fun c hc => h c (List.mem_cons_of_mem _ hc)) _ hr

theorem conducted_hears (hbrowsable : Browsable libs s₀.query.request.prepared)
    (hrun : Conducted (avahi libs settings) env s₀ p said s) (hlawful : Lawful p.log) :
    (Hears libs (hostTypes s₀.query.request.prepared.family) (settings.contains "trust") p ∧
      Logged p) ∧ said = p.said :=
  conducted_invariant (fun _ h => h.owed_le) (fun _ _ h hs => h.step hs)
    (sat_query_hears settings hbrowsable) hrun hlawful

theorem complete_answered (hfresh : Fresh s₀) (hno : ∀ b ∈ s₀.backends, b.mandatory = false)
    (hresult : s₀.query.request.resultTimeout ≠ 0)
    (hbrowsable : Browsable libs s₀.query.request.prepared)
    (hrun : Conducted (avahi libs settings) env s₀ p said s) (hlawful : Lawful p.log)
    (hq : Quiet p.log) (hcomplete : p.complete = true)
    (hfound : addresses libs (hostTypes s₀.query.request.prepared.family) p.log ≠ []) :
    Answered 0 s₀.backends.length (vouch (written env s₀.query.request.prepared 0
      (addresses libs (hostTypes s₀.query.request.prepared.family) p.log) {})
      (settings.contains "trust")) s := by
  obtain ⟨⟨hhears, -⟩, rfl⟩ := conducted_hears hbrowsable hrun hlawful
  have hprogress := hrun.progress hfresh hno hresult (avahi_setup libs settings _)
  obtain ⟨hreport, htells⟩ := hhears.quiet hq
  have hanswered : p.dns.answered = true := hhears.answered.mpr hfound
  rw [PrivAvahi.outcome, if_pos hcomplete, if_pos hanswered] at hreport
  have h := hprogress.success hreport
  rw [htells, hcomplete, hanswered] at h
  exact h

/--
**The answer to a forward query is what its browsers have told of.**  Once all of them have said
that this is all for now, and none has reported trouble, the addresses are handed to the
application, vouched for if the backend is trusted to, or the query leaves the backend if there are
none.  Before that they are kept.  A browser that fails before it has said so takes the addresses of
the others with it.  The assertion of `check` holds throughout.
-/
theorem avahi_addresses (hfresh : Fresh s₀) (hno : ∀ b ∈ s₀.backends, b.mandatory = false)
    (hresult : s₀.query.request.resultTimeout ≠ 0)
    (hbrowsable : Browsable libs s₀.query.request.prepared)
    (hrun : Conducted (avahi libs settings) env s₀ p said s) (hlawful : Lawful p.log) :
    let request := s₀.query.request.prepared
    let found := addresses libs (hostTypes request.family) p.log
    let r := written env request 0 found {}
    (Quiet p.log → p.complete = true → found ≠ [] →
      Answered 0 s₀.backends.length (vouch r (settings.contains "trust")) s) ∧
    (Quiet p.log → p.complete = true → found = [] → Entered .failed 0 s.trace) ∧
    (Quiet p.log → p.complete = false →
      (s.query.state = .waiting ∨ s.query.state = .waitingMore) ∧ s.query.response = r ∧
        ¬ CalledBack s.trace ∨
      r.paths ≠ [] ∧ Answered 0 s₀.backends.length r s ∨ Entered .failed 0 s.trace) ∧
    (Stuck p → Entered .failed 0 s.trace) ∧
    (∀ events : List Event, Lawful (p.log ++ events) →
      ∃ p', forM events (handle libs) p = .ok ⟨⟩ p') := by
  intro request found r
  obtain ⟨⟨hhears, hlogged⟩, rfl⟩ := conducted_hears hbrowsable hrun hlawful
  have hprogress := hrun.progress hfresh hno hresult (avahi_setup libs settings _)
  refine ⟨complete_answered hfresh hno hresult hbrowsable hrun hlawful, fun hq hcomplete hfound => ?_,
    fun hq hcomplete => ?_, fun hstuck => hprogress.failure (hhears.stuck hstuck), fun events => ?_⟩
  · obtain ⟨hreport, -⟩ := hhears.quiet hq
    have hanswered : p.dns.answered ≠ true := fun ha => hhears.answered.mp ha hfound
    rw [PrivAvahi.outcome, if_pos hcomplete, if_neg hanswered] at hreport
    exact hprogress.failure hreport
  · obtain ⟨hreport, htells⟩ := hhears.quiet hq
    rw [PrivAvahi.outcome, hcomplete, if_neg Bool.false_ne_true] at hreport
    have hwritten : written env request 0 p.said {} = r := by
      rw [htells env request, hcomplete]
      exact written_insecure (addresses_paths _ _ _) {} rfl
    rcases hprogress.silent hreport with hwork | hrest
    · exact Or.inl ⟨hwork.state.imp_right And.left, hwork.response.trans hwritten, hwork.called⟩
    · rw [hwritten] at hrest
      exact Or.inr hrest
  · exact events_ok (fun _ h => h.owed_le) (fun _ _ h hs => h.step hs) hhears hlogged

/-! ### The order of the events -/

theorem written_paths (env : Env) (request : Request) {calls : List Call}
    (h : ∀ call ∈ calls, ∃ a, call = .addPath a) : ∀ r : Response,
    written env request 0 calls r =
      { r with paths := storedPaths env 0 request calls r.paths } := by
  induction calls with
  | nil => exact fun _ => rfl
  | cons call rest ih =>
      intro r
      obtain ⟨a, rfl⟩ := h call (List.mem_cons_self ..)
      have hrest := ih (fun c hc => h c (List.mem_cons_of_mem _ hc))
        ((Call.addPath a).onto env request 0 r)
      have hcons : storedPaths env 0 request (.addPath a :: rest) r.paths = storedPaths env 0 request
          rest ((Call.addPath a).onto env request 0 r).paths := by
        simp only [storedPaths, Call.path?, List.filterMap_cons, List.flatMap_cons,
          List.foldl_append]
        rfl
      rw [hcons]
      exact hrest

theorem storedPaths_reordered (env : Env) (request : Request) {calls calls' : List Call}
    (h : calls.Perm calls') :
    (storedPaths env 0 request calls []).Perm (storedPaths env 0 request calls' []) := by
  refine (storedPaths_perm env 0 request calls []).trans ?_
  refine List.Perm.trans ?_ (storedPaths_perm env 0 request calls' []).symm
  exact (((h.filterMap _).flatMap_right _).map _).append_left []

/--
**The order of the events does not matter.**  Two runs in which the library calls back with the same
events, in another order or spread over other dispatches, end with the same addresses, and both or
neither vouched for.
-/
theorem avahi_any_order {s' : St} {p' : PrivAvahi} {said' : List Call} (hfresh : Fresh s₀)
    (hno : ∀ b ∈ s₀.backends, b.mandatory = false) (hresult : s₀.query.request.resultTimeout ≠ 0)
    (hbrowsable : Browsable libs s₀.query.request.prepared)
    (hrun : Conducted (avahi libs settings) env s₀ p said s)
    (hrun' : Conducted (avahi libs settings) env s₀ p' said' s') (hlog : p.log.Perm p'.log)
    (hlawful : Lawful p.log) (hq : Quiet p.log) (hcomplete : p.complete = true)
    (hcomplete' : p'.complete = true)
    (hfound : addresses libs (hostTypes s₀.query.request.prepared.family) p.log ≠ []) :
    s.query.response.paths.Perm s'.query.response.paths ∧
      s'.query.response = { s.query.response with paths := s'.query.response.paths } := by
  have hq' : Quiet p'.log := fun event hevent => hq event (hlog.mem_iff.mpr hevent)
  have hperm : (addresses libs (hostTypes s₀.query.request.prepared.family) p.log).Perm
      (addresses libs (hostTypes s₀.query.request.prepared.family) p'.log) := hlog.filterMap _
  have hfound' : addresses libs (hostTypes s₀.query.request.prepared.family) p'.log ≠ [] :=
    fun hnil => hfound (List.perm_nil.mp (hnil ▸ hperm))
  have h := (complete_answered hfresh hno hresult hbrowsable hrun hlawful hq hcomplete hfound).response
  have h' := (complete_answered hfresh hno hresult hbrowsable hrun' (hlawful.perm hlog) hq'
    hcomplete' hfound').response
  rw [written_paths _ _ (addresses_paths _ _ _)] at h h'
  rw [h, h']
  exact ⟨storedPaths_reordered env _ hperm, rfl⟩

end

/-! ### A query for a host -/

def oneHost : St where
  query := { id := 0, request := { nodename := some "host.local" } }
  backends := [{}]

/-- An address of each family, in one order or the other. -/
def firstThenSecond : List Event :=
  [.browser 0 (.new [192, 0, 2, 1]), .browser 1 (.new ([0x20, 0x01] ++ List.replicate 14 0)),
    .browser 0 .allForNow, .browser 1 .allForNow]

def secondThenFirst : List Event :=
  [.browser 1 (.new ([0x20, 0x01] ++ List.replicate 14 0)), .browser 1 .allForNow,
    .browser 0 (.new [192, 0, 2, 1]), .browser 0 .allForNow]

def twoAddresses : List Call :=
  [.addPath { family := AF_INET, address := [192, 0, 2, 1], ttl := 3600 },
    .addPath { family := AF_INET6, address := [0x20, 0x01] ++ List.replicate 14 0, ttl := 3600 }]

theorem oneHost_fresh : Fresh oneHost := by
  refine ⟨⟨rfl, rfl, rfl, rfl, fun t => by cases t <;> rfl, rfl, rfl, fun b hb => ?_⟩, rfl, rfl⟩
  rw [List.mem_singleton.mp hb]

theorem oneHost_browsable : Browsable oneClient oneHost.query.request.prepared :=
  ⟨rfl, rfl, by decide, rfl, rfl, fun _ => rfl⟩

theorem firstThenSecond_conducted : Conducted (avahi oneClient ["trust"]) {} oneHost
    (heard oneHost firstThenSecond) (saidOn oneHost firstThenSecond)
    (dispatched oneHost firstThenSecond) :=
  heard_conducted (by decide +kernel) (by decide +kernel) (by decide +kernel) (by decide +kernel)
    (by decide +kernel)

theorem secondThenFirst_conducted : Conducted (avahi oneClient ["trust"]) {} oneHost
    (heard oneHost secondThenFirst) (saidOn oneHost secondThenFirst)
    (dispatched oneHost secondThenFirst) :=
  heard_conducted (by decide +kernel) (by decide +kernel) (by decide +kernel) (by decide +kernel)
    (by decide +kernel)

theorem firstThenSecond_heard : Lawful (heard oneHost firstThenSecond).log ∧
    Quiet (heard oneHost firstThenSecond).log ∧ addresses oneClient
      (hostTypes oneHost.query.request.prepared.family) (heard oneHost firstThenSecond).log =
        twoAddresses ∧
    (heard oneHost firstThenSecond).complete = true := by
  unfold Quiet
  decide +kernel

theorem secondThenFirst_heard :
    (heard oneHost firstThenSecond).log.Perm (heard oneHost secondThenFirst).log ∧
      (heard oneHost secondThenFirst).complete = true := by
  decide +kernel

theorem avahi_addresses_two : Answered 0 1 (vouch (written {} oneHost.query.request.prepared 0
    twoAddresses {}) true) (dispatched oneHost firstThenSecond) := by
  obtain ⟨hlawful, hquiet, hfound, hcomplete⟩ := firstThenSecond_heard
  have h := (avahi_addresses oneHost_fresh (by simp [oneHost]) (by decide) oneHost_browsable
    firstThenSecond_conducted hlawful).1 hquiet hcomplete (by rw [hfound]; exact List.cons_ne_nil _ _)
  rw [hfound] at h
  exact h

theorem avahi_any_order_two : (dispatched oneHost firstThenSecond).query.response.paths.Perm
    (dispatched oneHost secondThenFirst).query.response.paths := by
  obtain ⟨hlawful, hquiet, hfound, hcomplete⟩ := firstThenSecond_heard
  obtain ⟨hperm, hcomplete'⟩ := secondThenFirst_heard
  exact (avahi_any_order oneHost_fresh (by simp [oneHost]) (by decide) oneHost_browsable
    firstThenSecond_conducted secondThenFirst_conducted hperm hlawful hquiet hcomplete hcomplete'
    (by rw [hfound]; exact List.cons_ne_nil _ _)).1

end Netresolve.Avahi
