/-
The Avahi build of the DNS backend, whatever order its library calls back in, if it calls back no
more often than is `Lawful`.

`check` can only speak when no browser is left that has not said that this is all for now, so a
browser that fails first keeps it silent for good.  The invariant has two sides: what is counted of
the browsers, which every event keeps, and what has been said, which depends on whether the library
has reported trouble.  The response of the query comes from `Proofs/Later.lean`.

A reverse query, a query for services and most DNS queries are never answered: their callbacks set no
`answered`, so `check` turns what they find into a failure.
-/
import Netresolve.Backends.Avahi
import Netresolve.Proofs.Later

namespace Netresolve.Avahi

open Dns Outcome

/-! ### Calls and the check -/

/-- The calls are made. -/
def PrivAvahi.tell (p : PrivAvahi) (calls : List Call) : PrivAvahi :=
  { p with dns := { p.dns with calls := p.dns.calls ++ calls.map (p.dns.applying, ·) } }

/-- What `check` says when nothing is pending. -/
def PrivAvahi.verdict (p : PrivAvahi) : List Call :=
  (if p.dns.answered && p.dns.secure then [.setSecure] else []) ++
    [if p.dns.answered then .finished else .failed]

/-- The private data after `check`. -/
def PrivAvahi.checked (p : PrivAvahi) : PrivAvahi :=
  if p.dns.pending = 0 then p.tell p.verdict else p

/-- The browsers that have not said that this is all for now. -/
def PrivAvahi.unsettled (p : PrivAvahi) : Nat := p.browsers.countP (!·.settled)

section

variable {p : PrivAvahi} {Q : Unit → PrivAvahi → Prop} {E : Dns.Fault → PrivAvahi → Prop}

@[simp] theorem said_tell (p : PrivAvahi) (calls : List Call) :
    (p.tell calls).said = p.said ++ calls := by
  simp [PrivAvahi.said, PrivAvahi.tell, Function.comp_def]

theorem tell_nil (p : PrivAvahi) : p.tell [] = p := by
  simp [PrivAvahi.tell]

theorem tell_append (p : PrivAvahi) (calls more : List Call) :
    (p.tell calls).tell more = p.tell (calls ++ more) := by
  simp [PrivAvahi.tell]

@[simp] theorem sat_emit (call : Call) :
    Sat (shared (emit call)) p Q E ↔ Q ⟨⟩ (p.tell [call]) := Iff.rfl

theorem sat_check (h : 0 ≤ p.dns.pending) (hQ : Q ⟨⟩ p.checked) : Sat check p Q E := by
  revert hQ
  unfold check PrivAvahi.checked PrivAvahi.verdict
  rw [sat_bind, sat_get, sat_ite]
  have hnot : ¬ p.dns.pending < 0 := by omega
  simp only [hnot, false_implies, not_false_eq_true, true_implies, true_and]
  by_cases hzero : p.dns.pending = 0
  · rw [if_pos hzero, if_pos hzero]
    by_cases hvouched : (p.dns.answered && p.dns.secure) = true
    · simp only [hvouched, if_true]
      rw [sat_bind, sat_emit, sat_emit, tell_append]
      exact fun hQ => hQ
    · simp only [hvouched, Bool.false_eq_true, if_false]
      rw [sat_bind, sat_pure, sat_emit]
      exact fun hQ => hQ
  · rw [if_neg hzero, if_neg hzero]
    exact fun hQ => hQ

theorem said_checked : p.checked.said = p.said ++ if p.dns.pending = 0 then p.verdict else [] := by
  unfold PrivAvahi.checked
  split
  · exact said_tell ..
  · exact (List.append_nil _).symm

end

/-! ### Watches and timeouts of the library -/

/-- Nothing has happened but to watches. -/
structure Aside (p p' : PrivAvahi) : Prop where
  dns : ∃ calls, p'.dns = (p.tell calls).dns ∧
    ∀ call ∈ calls, call.adds = false ∧ call.reports = false
  browsers : p'.browsers = p.browsers
  resolver : p'.resolver = p.resolver
  log : p'.log = p.log

section

variable {p p' p'' : PrivAvahi}

theorem Aside.refl (p : PrivAvahi) : Aside p p :=
  ⟨⟨[], by rw [tell_nil], by simp⟩, rfl, rfl, rfl⟩

theorem Aside.trans (h : Aside p p') (h' : Aside p' p'') : Aside p p'' := by
  obtain ⟨calls, hdns, hcalls⟩ := h.dns
  obtain ⟨calls', hdns', hcalls'⟩ := h'.dns
  refine ⟨⟨calls ++ calls', ?_, fun call hcall => ?_⟩, h'.browsers.trans h.browsers,
    h'.resolver.trans h.resolver, h'.log.trans h.log⟩
  · rw [hdns', ← tell_append]
    simp only [PrivAvahi.tell, hdns]
  · exact (List.mem_append.mp hcall).elim (hcalls call) (hcalls' call)

/-- One thing after another. -/
theorem aside_bind {α β : Type} {x : A α} {f : α → A β}
    (hx : Sat x p (fun _ => Aside p) (fun _ _ => False))
    (hf : ∀ a p', Sat (f a) p' (fun _ => Aside p') (fun _ _ => False)) :
    Sat (x >>= f) p (fun _ => Aside p) (fun _ _ => False) := by
  rw [sat_bind]
  refine hx.mono (fun a q hq => ?_) (fun _ _ he => he)
  exact (hf a q).mono (fun _ _ => hq.trans) (fun _ _ he => he)

theorem aside_addWatch (fd : Nat) :
    Sat (addWatch fd) p (fun _ => Aside p) (fun _ _ => False) :=
  ⟨⟨[.watchAdd fd], rfl, by simp [Call.adds, Call.reports]⟩, rfl, rfl, rfl⟩

theorem aside_dropWatch (n : Nat) (doClose : Bool) :
    Sat (dropWatch n doClose) p (fun _ => Aside p) (fun _ _ => False) :=
  ⟨⟨[.watchRemove _ doClose], rfl, by simp [Call.adds, Call.reports]⟩, rfl, rfl, rfl⟩

theorem aside_update (poll : Poll) (doClose : Bool) (fd : Option Nat) :
    Sat (update addWatch dropWatch poll doClose fd) p (fun _ => Aside p) (fun _ _ => False) := by
  unfold update
  refine aside_bind ?_ fun _ q => ?_
  · cases poll.watch with
    | none => exact .refl p
    | some n => exact aside_dropWatch n doClose
  · cases fd with
    | none => exact .refl q
    | some fd => exact aside_bind (aside_addWatch fd) fun _ q' => .refl q'

theorem aside_change (polls : List (Option Poll)) (h : Nat) {f : Poll → A (Option Poll)}
    (hf : ∀ poll, Sat (f poll) p (fun _ => Aside p) (fun _ _ => False)) :
    Sat (change polls h f) p (fun _ => Aside p) (fun _ _ => False) := by
  unfold change
  cases polls[h]?.join with
  | none => exact .refl p
  | some poll => exact aside_bind (hf poll) fun _ q => .refl q

theorem aside_polling (event : PollEvent) :
    Sat (polling event) p (fun _ => Aside p) (fun _ _ => False) := by
  have hevent (polls : List (Option Poll)) :
      Sat (pollEvent addWatch dropWatch polls event) p (fun _ => Aside p) (fun _ _ => False) := by
    cases event with
    | watchNew fd event => exact aside_bind (aside_update ..) fun _ q => .refl q
    | watchUpdate w event =>
        exact aside_change polls w fun _ => aside_bind (aside_update ..) fun _ q => .refl q
    | watchFree w =>
        exact aside_change polls w fun _ => aside_bind (aside_update ..) fun _ q => .refl q
    | timeoutNew timer => exact aside_bind (aside_update ..) fun _ q => .refl q
    | timeoutUpdate t timer =>
        exact aside_change polls t fun _ => aside_bind (aside_update ..) fun _ q => .refl q
    | timeoutFree t =>
        exact aside_change polls t fun _ => aside_bind (aside_update ..) fun _ q => .refl q
  unfold polling
  rw [sat_bind, sat_get]
  refine aside_bind (hevent p.polls) fun polls q => ?_
  exact ⟨⟨[], by rw [tell_nil], by simp⟩, rfl, rfl, rfl⟩

end

/-! ### What an event can do -/

/-- The library has called back. -/
def PrivAvahi.heard (p : PrivAvahi) (event : Event) : PrivAvahi :=
  { p with log := p.log ++ [event] }

/-- The browser at a position is another one. -/
def PrivAvahi.browsing (p : PrivAvahi) (k : Nat) (b : Browser) : PrivAvahi :=
  { p with browsers := p.browsers.set k b }

/-- The resolver is another one. -/
def PrivAvahi.resolving (p : PrivAvahi) (r : Resolver) : PrivAvahi := { p with resolver := some r }

/-- There is an answer. -/
def PrivAvahi.answer (p : PrivAvahi) : PrivAvahi := { p with dns := { p.dns with answered := true } }

/-- One callback less is pending. -/
def PrivAvahi.receive (p : PrivAvahi) : PrivAvahi :=
  { p with dns := { p.dns with pending := p.dns.pending - 1 } }

/-- The family of the addresses in records of a type. -/
def familyOf (type : Int) : Option Int :=
  if type = LDNS_RR_TYPE_A then some AF_INET
  else if type = LDNS_RR_TYPE_AAAA then some AF_INET6
  else none

/-- The call for an address. -/
def addressCall (libs : Libs) (protocol : Int) (srv : PrivSrv) (rdata : List UInt8) (family : Int) :
    Call :=
  .addPath
    { family
      address := rdata
      protocol
      port := srv.port
      priority := srv.priority
      weight := srv.weight
      ttl := toCInt libs.ttl.toNat }

/-- What can happen in one event. -/
inductive Step (libs : Libs) (p : PrivAvahi) : PrivAvahi → Prop
  | aside {p' : PrivAvahi} (h : Aside p p') : Step libs p p'
  | client (failure : Bool) :
      Step libs p ((p.heard (.client failure)).tell (if failure then [.failed] else []))
  | found {k : Nat} {b : Browser} {rdata : List UInt8} {family : Int}
      (hb : p.browsers[k]? = some b) (hfamily : familyOf b.lookup.type = some family) :
      Step libs p (((p.heard (.browser k (.new rdata))).tell
        [addressCall libs p.dns.protocol b.lookup.srv rdata family]).answer.checked)
  | foreign {k : Nat} {b : Browser} {rdata : List UInt8} (hb : p.browsers[k]? = some b)
      (hfamily : familyOf b.lookup.type = none) :
      Step libs p (p.heard (.browser k (.new rdata)))
  | removed {k : Nat} {b : Browser} (hb : p.browsers[k]? = some b) :
      Step libs p ((p.heard (.browser k .remove)).tell [.failed])
  | exhausted {k : Nat} {b : Browser} (hb : p.browsers[k]? = some b) :
      Step libs p (p.heard (.browser k .cacheExhausted)).checked
  | settled {k : Nat} {b : Browser} (hb : p.browsers[k]? = some b) (hsettled : b.settled = false) :
      Step libs p ((p.heard (.browser k .allForNow)).browsing k
        { b with settled := true }).receive.checked
  | failed {k : Nat} {b : Browser} (hb : p.browsers[k]? = some b) :
      Step libs p (((p.heard (.browser k .failure)).browsing k
        { b with failed := true }).tell [.failed]).checked
  | resolved {r : Resolver} {event : ResolverEvent} {call : Call} (hr : p.resolver = some r)
      (hsettled : r.settled = false) (hcall : call = .failed ∨ ∃ name, call = .addNameInfo name) :
      Step libs p (((p.heard (.resolver event)).resolving
        { r with settled := true }).receive.tell [call]).checked

/-- The callbacks the library owes. -/
def PrivAvahi.owed (p : PrivAvahi) : Nat :=
  p.unsettled + match p.resolver with
    | some r => if r.settled then 0 else 1
    | none => 0

section

variable {libs : Libs} {p : PrivAvahi}

theorem set_self {b : Browser} {k : Nat} (hb : p.browsers[k]? = some b) :
    p.browsers.set k b = p.browsers := by
  obtain ⟨hk, rfl⟩ := List.getElem?_eq_some_iff.mp hb
  exact List.set_getElem_self hk

theorem unsettled_pos {b : Browser} {k : Nat} (hb : p.browsers[k]? = some b)
    (hsettled : b.settled = false) : 0 < p.unsettled :=
  List.countP_pos_iff.mpr ⟨b, List.mem_of_getElem? hb, by simp [hsettled]⟩

/-- The callback of a browser. -/
theorem sat_browserEvent {Q : Unit → PrivAvahi → Prop} {E : Dns.Fault → PrivAvahi → Prop}
    {event : BrowserEvent} {k : Nat} {b : Browser} (hb : p.browsers[k]? = some b) :
    Sat (browserEvent libs k event) p Q E ↔ Sat (recordCallback libs b.lookup event)
      ((p.heard (.browser k event)).browsing k (b.after event)) Q E := by
  simp only [browserEvent, sat_bind, sat_get, hb, sat_modify]
  rfl

/-- The callback of the resolver. -/
theorem sat_resolverEvent {Q : Unit → PrivAvahi → Prop} {E : Dns.Fault → PrivAvahi → Prop}
    {event : ResolverEvent} {r : Resolver} (hr : p.resolver = some r) :
    Sat (resolverEvent event) p Q E ↔ Sat (addressCallback event)
      ((p.heard (.resolver event)).resolving { r with settled := true }) Q E := by
  simp only [resolverEvent, sat_bind, sat_get, hr, sat_modify]
  rfl

/-- The library can call back with the event now. -/
def Event.Due (p : PrivAvahi) : Event → Prop
  | .browser k .allForNow => ∀ b, p.browsers[k]? = some b → b.settled = false
  | .resolver _ => ∀ r, p.resolver = some r → r.settled = false
  | _ => True

theorem browserEvent_step (hp : (p.owed : Int) ≤ p.dns.pending) {k : Nat} {b : Browser}
    (hb : p.browsers[k]? = some b) {event : BrowserEvent}
    (hdue : event = .allForNow → b.settled = false) :
    Sat (browserEvent libs k event) p (fun _ => Step libs p) (fun _ _ => False) := by
  have hpending : 0 ≤ p.dns.pending := by omega
  have hsame (e : Event) : (p.heard e).browsing k b = p.heard e := by
    unfold PrivAvahi.browsing PrivAvahi.heard
    rw [set_self hb]
  rw [sat_browserEvent hb]
  cases event with
  | new rdata =>
      rw [show b.after (.new rdata) = b from rfl, hsame]
      simp only [recordCallback, sat_ite]
      have hfound {family : Int} (hfamily : familyOf b.lookup.type = some family) :
          Sat (do
            shared (applyAddress b.lookup.srv family rdata libs.ttl)
            check) (p.heard (.browser k (.new rdata))) (fun _ => Step libs p)
            (fun _ _ => False) := by
        rw [sat_bind]
        exact @sat_check ((p.heard _).tell [_]).answer _ _ hpending (.found hb hfamily)
      refine ⟨fun ha => hfound (by simp [familyOf, ha]), fun ha => ⟨fun haaaa => ?_,
        fun haaaa => ?_⟩⟩
      · exact hfound (by simp [familyOf, haaaa, LDNS_RR_TYPE_A, LDNS_RR_TYPE_AAAA])
      · exact .foreign hb (by simp [familyOf, ha, haaaa])
  | remove =>
      rw [show b.after .remove = b from rfl, hsame]
      exact .removed hb
  | cacheExhausted =>
      rw [show b.after .cacheExhausted = b from rfl, hsame]
      exact sat_check hpending (.exhausted hb)
  | allForNow =>
      have hsettled := hdue rfl
      have howed : 0 ≤ p.dns.pending - 1 := by
        have := unsettled_pos hb hsettled
        have : p.unsettled ≤ p.owed := Nat.le_add_right ..
        omega
      exact sat_check howed (.settled hb hsettled)
  | failure => exact sat_check hpending (.failed hb)

/-- An event that is due is one of these steps, and the assertion of `check` holds. -/
theorem handle_step (hp : (p.owed : Int) ≤ p.dns.pending) {event : Event} (hdue : event.Due p) :
    Sat (handle libs event) p (fun _ => Step libs p) (fun _ _ => False) := by
  have hpending : 0 ≤ p.dns.pending := by omega
  cases event with
  | poll event => exact (aside_polling event).mono (fun _ _ h => .aside h) (fun _ _ he => he)
  | client failure =>
      simp only [handle, clientCallback, sat_bind, sat_modify]
      cases failure with
      | false =>
          have hstep : Step libs p ((p.heard (.client false)).tell []) := .client false
          rw [tell_nil] at hstep
          exact hstep
      | true => exact .client true
  | resolver event =>
      cases hr : p.resolver with
      | none =>
          simp only [handle, resolverEvent, sat_bind, sat_get, hr]
          exact .aside (.refl p)
      | some r =>
          have hsettled := hdue r hr
          have howed : 0 ≤ p.dns.pending - 1 := by
            have : 1 ≤ p.owed := by simp [PrivAvahi.owed, hr, hsettled]
            omega
          show Sat (resolverEvent event) p _ _
          rw [sat_resolverEvent hr]
          cases event with
          | found name =>
              simp only [addressCallback, sat_bind, sat_modify, sat_emit]
              refine sat_check howed ?_
              exact .resolved hr hsettled (Or.inr ⟨_, rfl⟩)
          | failure =>
              simp only [addressCallback, sat_bind, sat_modify, sat_emit]
              refine sat_check howed ?_
              exact .resolved hr hsettled (Or.inl rfl)
  | browser k event =>
      cases hb : p.browsers[k]? with
      | none =>
          simp only [handle, browserEvent, sat_bind, sat_get, hb]
          exact .aside (.refl p)
      | some b =>
          refine browserEvent_step hp hb fun hsettled => ?_
          subst hsettled
          exact hdue b hb

end

/-! ### What the library has called back with -/

/-- The log is the same. -/
def SameLog (p p' : PrivAvahi) : Prop := p'.log = p.log

instance : IsPreorder PrivAvahi SameLog where
  refl _ := rfl
  trans _ _ _ h h' := Eq.trans h' h

/-- Of these events those have been called back with that there is somebody to call for. -/
def Heard (events : List Event) (p p' : PrivAvahi) : Prop :=
  ∃ new, p'.log = p.log ++ new ∧ new.Sublist events

theorem Event.allows_comm (e e' : Event) : e.allows e' = e'.allows e := by
  cases e with
  | browser k event => cases e' with
    | browser j event' => cases event with
      | allForNow => cases event' with
        | allForNow => exact decide_eq_decide.mpr ne_comm
        | _ => rfl
      | _ => cases event' <;> rfl
    | _ => cases event <;> rfl
  | _ => cases e' with
    | browser j event' => cases event' <;> rfl
    | _ => rfl

theorem Lawful.perm {events events' : List Event} (h : Lawful events)
    (hperm : events.Perm events') : Lawful events' :=
  hperm.pairwise h fun {e e'} hallows => (Event.allows_comm e' e).trans hallows

/-- What is settled has been called back. -/
structure Logged (p : PrivAvahi) : Prop where
  settled : ∀ k b, p.browsers[k]? = some b → b.settled = true → .browser k .allForNow ∈ p.log
  resolved : ∀ r, p.resolver = some r → r.settled = true → ∃ event, .resolver event ∈ p.log

section

variable {libs : Libs} {p p' p'' : PrivAvahi}

theorem sameLog_shared {α : Type} (x : D α) : Stays SameLog (fun _ => True) (shared x) := by
  intro p
  unfold Sat shared
  cases x p.dns with
  | ok a q => exact rfl
  | error e q => exact ⟨rfl, trivial⟩

theorem sameLog_check : Stays SameLog (fun _ => True) check := by
  unfold check
  refine .bind .get fun p => .ite (.throw trivial) (.ite (.bind ?_ fun _ => ?_) (.pure _))
  · exact .ite (sameLog_shared _) (.pure _)
  · exact sameLog_shared _

theorem sameLog_recordCallback (lookup : Lookup) (event : BrowserEvent) :
    Stays SameLog (fun _ => True) (recordCallback libs lookup event) := by
  cases event with
  | new rdata =>
      exact .ite (.bind (sameLog_shared _) fun _ => sameLog_check)
        (.ite (.bind (sameLog_shared _) fun _ => sameLog_check) (.pure _))
  | remove => exact sameLog_shared (emit .failed)
  | cacheExhausted => exact sameLog_check
  | allForNow => exact .bind (.modify fun _ => rfl) fun _ => sameLog_check
  | failure => exact .bind (sameLog_shared _) fun _ => sameLog_check

theorem sameLog_addressCallback (event : ResolverEvent) :
    Stays SameLog (fun _ => True) (addressCallback event) := by
  cases event with
  | found name =>
      exact .bind (.modify fun _ => rfl) fun _ => .bind (sameLog_shared _) fun _ => sameLog_check
  | failure =>
      exact .bind (.modify fun _ => rfl) fun _ => .bind (sameLog_shared _) fun _ => sameLog_check

theorem browserEvent_log {k : Nat} {b : Browser} (hb : p.browsers[k]? = some b)
    (event : BrowserEvent) :
    Sat (browserEvent libs k event) p (fun _ p' => p'.log = p.log ++ [.browser k event])
      (fun _ p' => p'.log = p.log ++ [.browser k event]) := by
  rw [sat_browserEvent hb]
  exact (sameLog_recordCallback b.lookup event _).mono (fun _ _ h => h) (fun _ _ h => h.1)

theorem resolverEvent_log {r : Resolver} (hr : p.resolver = some r) (event : ResolverEvent) :
    Sat (resolverEvent event) p (fun _ p' => p'.log = p.log ++ [.resolver event])
      (fun _ p' => p'.log = p.log ++ [.resolver event]) := by
  rw [sat_resolverEvent hr]
  exact (sameLog_addressCallback event _).mono (fun _ _ h => h) (fun _ _ h => h.1)

theorem Heard.of_eq {events : List Event} (h : p'.log = p.log) : Heard events p p' :=
  ⟨[], by rw [h, List.append_nil], List.nil_sublist _⟩

theorem Heard.of_log {event : Event} (h : p'.log = p.log ++ [event]) : Heard [event] p p' :=
  ⟨_, h, .refl _⟩

theorem Heard.cons {event : Event} {events : List Event} (h : Heard [event] p p')
    (h' : Heard events p' p'') : Heard (event :: events) p p'' := by
  obtain ⟨new, hlog, hnew⟩ := h
  obtain ⟨more, hlog', hmore⟩ := h'
  exact ⟨new ++ more, by rw [hlog', hlog, List.append_assoc], hnew.append hmore⟩

/-- What came before was lawful already. -/
theorem Heard.lawful {events : List Event} (h : Heard events p p') (hlawful : Lawful p'.log) :
    Lawful p.log := by
  obtain ⟨new, hlog, -⟩ := h
  rw [hlog] at hlawful
  exact (List.pairwise_append.mp hlawful).1

theorem Heard.of_lawful {events : List Event} (h : Heard events p p')
    (hlawful : Lawful (p.log ++ events)) : Lawful p'.log := by
  obtain ⟨new, hlog, hnew⟩ := h
  rw [hlog]
  exact List.Pairwise.sublist ((List.Sublist.refl _).append hnew) hlawful

theorem handle_heard (event : Event) :
    Sat (handle libs event) p (fun _ => Heard [event] p) (fun _ => Heard [event] p) := by
  cases event with
  | poll event =>
      exact (aside_polling event).mono (fun _ _ h => .of_eq h.log) (fun _ _ he => he.elim)
  | client failure =>
      simp only [handle, clientCallback, sat_bind, sat_modify]
      cases failure <;> exact .of_log rfl
  | browser k event =>
      cases hb : p.browsers[k]? with
      | none =>
          simp only [handle, browserEvent, sat_bind, sat_get, hb]
          exact .of_eq rfl
      | some b => exact (browserEvent_log hb event).mono (fun _ _ => .of_log) (fun _ _ => .of_log)
  | resolver event =>
      cases hr : p.resolver with
      | none =>
          simp only [handle, resolverEvent, sat_bind, sat_get, hr]
          exact .of_eq rfl
      | some r => exact (resolverEvent_log hr event).mono (fun _ _ => .of_log) (fun _ _ => .of_log)

/-- After an event that is not due the log is not lawful. -/
theorem handle_undue (hlogged : Logged p) {event : Event} (hdue : ¬ event.Due p) :
    Sat (handle libs event) p (fun _ p' => ¬ Lawful p'.log) (fun _ p' => ¬ Lawful p'.log) := by
  have hunlawful {p' : PrivAvahi} {earlier : Event} (hmem : earlier ∈ p.log)
      (hallows : earlier.allows event = false) (hlog : p'.log = p.log ++ [event]) :
      ¬ Lawful p'.log := by
    rw [hlog]
    intro hlawful
    have := (List.pairwise_append.mp hlawful).2.2 earlier hmem event (List.mem_singleton_self _)
    rw [hallows] at this
    cases this
  cases event with
  | poll event => exact absurd trivial hdue
  | client failure => exact absurd trivial hdue
  | browser k event =>
      cases event with
      | allForNow =>
          simp only [Event.Due, not_forall, Bool.not_eq_false] at hdue
          obtain ⟨b, hb, hsettled⟩ := hdue
          have hmem := hlogged.settled k b hb hsettled
          have hallows : (Event.browser k .allForNow).allows (.browser k .allForNow) = false := by
            simp [Event.allows]
          exact (browserEvent_log hb .allForNow).mono (fun _ _ => hunlawful hmem hallows)
            (fun _ _ => hunlawful hmem hallows)
      | _ => exact absurd trivial hdue
  | resolver event =>
      simp only [Event.Due, not_forall, Bool.not_eq_false] at hdue
      obtain ⟨r, hr, hsettled⟩ := hdue
      obtain ⟨earlier, hmem⟩ := hlogged.resolved r hr hsettled
      exact (resolverEvent_log hr event).mono (fun _ _ => hunlawful hmem rfl)
        (fun _ _ => hunlawful hmem rfl)

theorem Logged.of_eq (h : Logged p) (hbrowsers : p'.browsers = p.browsers)
    (hresolver : p'.resolver = p.resolver) {events : List Event} (hlog : p'.log = p.log ++ events) :
    Logged p' where
  settled k b hb hsettled := by
    rw [hbrowsers] at hb
    rw [hlog]
    exact List.mem_append_left _ (h.settled k b hb hsettled)
  resolved r hr hsettled := by
    rw [hresolver] at hr
    obtain ⟨event, hmem⟩ := h.resolved r hr hsettled
    exact ⟨event, hlog ▸ List.mem_append_left _ hmem⟩

/-- A browser that has not settled stands where it stood, or this has been called back with. -/
theorem Logged.set (h : Logged p) {k : Nat} {b b' : Browser} {event : Event}
    (hb : p.browsers[k]? = some b)
    (hsettled : b'.settled = true → b.settled = true ∨ event = .browser k .allForNow)
    (hbrowsers : p'.browsers = p.browsers.set k b') (hresolver : p'.resolver = p.resolver)
    (hlog : p'.log = p.log ++ [event]) : Logged p' where
  settled j c hc hset := by
    rw [hlog]
    rw [hbrowsers] at hc
    by_cases hj : k = j
    · subst hj
      rw [List.getElem?_set_self (List.getElem?_eq_some_iff.mp hb).1] at hc
      obtain rfl := Option.some.inj hc
      rcases hsettled hset with hold | rfl
      · exact List.mem_append_left _ (h.settled k b hb hold)
      · exact List.mem_append_right _ (List.mem_singleton_self _)
    · rw [List.getElem?_set_ne hj] at hc
      exact List.mem_append_left _ (h.settled j c hc hset)
  resolved r hr hset := by
    rw [hresolver] at hr
    obtain ⟨event, hmem⟩ := h.resolved r hr hset
    exact ⟨event, hlog ▸ List.mem_append_left _ hmem⟩

end

/-! ### What is pending -/

/--
The browsers are for these record types, and what is pending is what the library owes and this many
lookups that could not be started.
-/
structure Counted (types : List Int) (missing : Nat) (p : PrivAvahi) : Prop where
  types : p.browsers.map (·.lookup.type) = types
  pending : p.dns.pending = p.owed + missing

section

variable {libs : Libs} {types : List Int} {missing : Nat} {p p' : PrivAvahi}

@[simp] theorem checked_browsers (p : PrivAvahi) : p.checked.browsers = p.browsers := by
  unfold PrivAvahi.checked
  split <;> rfl

@[simp] theorem checked_resolver (p : PrivAvahi) : p.checked.resolver = p.resolver := by
  unfold PrivAvahi.checked
  split <;> rfl

@[simp] theorem checked_log (p : PrivAvahi) : p.checked.log = p.log := by
  unfold PrivAvahi.checked
  split <;> rfl

@[simp] theorem checked_pending (p : PrivAvahi) : p.checked.dns.pending = p.dns.pending := by
  unfold PrivAvahi.checked
  split <;> rfl

@[simp] theorem checked_answered (p : PrivAvahi) : p.checked.dns.answered = p.dns.answered := by
  unfold PrivAvahi.checked
  split <;> rfl

@[simp] theorem checked_secure (p : PrivAvahi) : p.checked.dns.secure = p.dns.secure := by
  unfold PrivAvahi.checked
  split <;> rfl

@[simp] theorem checked_protocol (p : PrivAvahi) : p.checked.dns.protocol = p.dns.protocol := by
  unfold PrivAvahi.checked
  split <;> rfl

theorem owed_congr (hbrowsers : p'.browsers = p.browsers) (hresolver : p'.resolver = p.resolver) :
    p'.owed = p.owed := by
  unfold PrivAvahi.owed PrivAvahi.unsettled
  rw [hbrowsers, hresolver]

theorem Counted.of_eq (h : Counted types missing p) (hbrowsers : p'.browsers = p.browsers)
    (hresolver : p'.resolver = p.resolver) (hpending : p'.dns.pending = p.dns.pending) :
    Counted types missing p' :=
  ⟨by rw [hbrowsers, h.types], by rw [hpending, h.pending, owed_congr hbrowsers hresolver]⟩

theorem types_set {k : Nat} {b b' : Browser} (hb : p.browsers[k]? = some b)
    (hbrowsers : p'.browsers = p.browsers.set k b') (hlookup : b'.lookup = b.lookup) :
    p'.browsers.map (·.lookup.type) = p.browsers.map (·.lookup.type) := by
  obtain ⟨hk, rfl⟩ := List.getElem?_eq_some_iff.mp hb
  rw [hbrowsers, List.map_set, hlookup,
    ← List.getElem_map (fun b : Browser => b.lookup.type) (h := by simpa), List.set_getElem_self]

theorem owed_set {k : Nat} {b b' : Browser} (hb : p.browsers[k]? = some b)
    (hbrowsers : p'.browsers = p.browsers.set k b') (hresolver : p'.resolver = p.resolver) :
    p'.owed + (if b.settled then 0 else 1) = p.owed + (if b'.settled then 0 else 1) := by
  obtain ⟨hk, rfl⟩ := List.getElem?_eq_some_iff.mp hb
  have hpos : p.browsers[k].settled = false → 0 < p.browsers.countP (!·.settled) :=
    fun h => List.countP_pos_iff.mpr ⟨_, List.getElem_mem hk, by simp [h]⟩
  unfold PrivAvahi.owed PrivAvahi.unsettled
  rw [hbrowsers, hresolver, List.countP_set hk]
  cases h : p.browsers[k].settled with
  | true => cases b'.settled <;> simp; omega
  | false =>
      have := hpos h
      cases b'.settled <;> simp <;> omega

theorem Counted.step (h : Counted types missing p) (hstep : Step libs p p') :
    Counted types missing p' := by
  cases hstep with
  | aside ha =>
      obtain ⟨calls, hdns, -⟩ := ha.dns
      exact h.of_eq ha.browsers ha.resolver (by rw [hdns]; rfl)
  | client failure => exact h.of_eq rfl rfl rfl
  | found hb hfamily => exact h.of_eq (by simp; rfl) (by simp; rfl) (by simp; rfl)
  | foreign hb hfamily => exact h.of_eq rfl rfl rfl
  | removed hb => exact h.of_eq rfl rfl rfl
  | exhausted hb => exact h.of_eq (by simp; rfl) (by simp; rfl) (by simp; rfl)
  | @settled k b hb hsettled =>
      have hbrowsers : _ = p.browsers.set k { b with settled := true } := checked_browsers
        ((p.heard (.browser k .allForNow)).browsing k { b with settled := true }).receive
      refine ⟨(types_set hb hbrowsers rfl).trans h.types, ?_⟩
      have howed := owed_set hb hbrowsers (checked_resolver _)
      simp only [hsettled, Bool.false_eq_true, if_false, if_true] at howed
      rw [checked_pending]
      show p.dns.pending - 1 = _
      have := h.pending
      omega
  | @failed k b hb =>
      have hbrowsers : _ = p.browsers.set k { b with failed := true } := checked_browsers
        (((p.heard (.browser k .failure)).browsing k { b with failed := true }).tell [.failed])
      refine ⟨(types_set hb hbrowsers rfl).trans h.types, ?_⟩
      have hset := owed_set hb hbrowsers (checked_resolver _)
      have howed := Nat.add_right_cancel hset
      rw [checked_pending]
      show p.dns.pending = _
      have := h.pending
      omega
  | @resolved r event call hr hsettled hcall =>
      refine ⟨?_, ?_⟩
      · rw [checked_browsers]
        exact h.types
      · have howed : p.owed = p.unsettled + 1 := by simp [PrivAvahi.owed, hr, hsettled]
        rw [checked_pending]
        show p.dns.pending - 1 = _
        unfold PrivAvahi.owed PrivAvahi.unsettled
        rw [checked_browsers, checked_resolver]
        show p.dns.pending - 1 = ((p.unsettled + 0 : Nat) : Int) + missing
        have := h.pending
        omega

theorem Logged.step (h : Logged p) (hstep : Step libs p p') : Logged p' := by
  cases hstep with
  | aside ha => exact h.of_eq ha.browsers ha.resolver (by rw [ha.log, List.append_nil])
  | client failure => exact h.of_eq rfl rfl rfl
  | found hb hfamily =>
      exact h.of_eq (checked_browsers _) (checked_resolver _) (checked_log _)
  | foreign hb hfamily => exact h.of_eq rfl rfl rfl
  | removed hb => exact h.of_eq rfl rfl rfl
  | exhausted hb => exact h.of_eq (checked_browsers _) (checked_resolver _) (checked_log _)
  | settled hb hsettled =>
      exact h.set hb (fun _ => Or.inr rfl) (checked_browsers _) (checked_resolver _) (checked_log _)
  | @failed k b hb =>
      have hbrowsers : _ = p.browsers.set k { b with failed := true } := checked_browsers
        (((p.heard (.browser k .failure)).browsing k { b with failed := true }).tell [.failed])
      have hkeeps : ({ b with failed := true } : Browser).settled = true → b.settled = true ∨
          Event.browser k .failure = .browser k .allForNow := Or.inl
      exact h.set hb hkeeps hbrowsers (checked_resolver _) (checked_log _)
  | @resolved r event call hr hsettled hcall =>
      have hlog : _ = p.log ++ [.resolver event] := checked_log
        (((p.heard (.resolver event)).resolving { r with settled := true }).receive.tell [call])
      refine ⟨fun k b hb hset => ?_, fun _ _ _ => ⟨event, hlog ▸ ?_⟩⟩
      · rw [checked_browsers] at hb
        exact hlog ▸ List.mem_append_left _ (h.settled k b hb hset)
      · exact List.mem_append_right _ (List.mem_singleton_self _)

/--
An invariant of the steps holds after any events that the library may call back with, and only on
other events does the assertion of `check` fail.
-/
theorem sat_events {I : PrivAvahi → Prop} (hcount : ∀ p, I p → (p.owed : Int) ≤ p.dns.pending)
    (hstep : ∀ p p', I p → Step libs p p' → I p') (events : List Event) :
    ∀ p, (Lawful p.log → I p ∧ Logged p) → Sat (forM events (handle libs)) p
      (fun _ p' => Heard events p p' ∧ (Lawful p'.log → I p' ∧ Logged p'))
      (fun _ p' => Heard events p p' ∧ ¬ Lawful p'.log) := by
  induction events with
  | nil => exact fun p hp => ⟨.of_eq rfl, hp⟩
  | cons event rest ih =>
      intro p hp
      have hheard := @handle_heard libs p event
      have hevent : Sat (handle libs event) p (fun _ p' => Lawful p'.log → I p' ∧ Logged p')
          (fun _ p' => ¬ Lawful p'.log) := by
        by_cases hlawful : Lawful p.log
        · obtain ⟨hI, hlogged⟩ := hp hlawful
          by_cases hdue : event.Due p
          · exact (handle_step (hcount p hI) hdue).mono
              (fun _ q hs _ => ⟨hstep p q hI hs, hlogged.step hs⟩) (fun _ _ he => he.elim)
          · exact (handle_undue hlogged hdue).mono (fun _ _ hnot h => absurd h hnot)
              (fun _ _ hnot => hnot)
        · exact hheard.mono (fun _ _ h hl => absurd (h.lawful hl) hlawful)
            (fun _ _ h hl => hlawful (h.lawful hl))
      rw [List.forM_cons, sat_bind]
      refine (hheard.and hevent).mono (fun _ q hq => ?_) (fun _ q hq => ⟨?_, hq.2⟩)
      · exact (ih q hq.2).mono (fun _ _ h => ⟨hq.1.cons h.1, h.2⟩)
          (fun _ _ h => ⟨hq.1.cons h.1, h.2⟩)
      · exact hq.1.cons (.of_eq rfl)

/-- The library may call back with all of these events, so the assertion of `check` holds. -/
theorem events_ok {I : PrivAvahi → Prop} (hcount : ∀ p, I p → (p.owed : Int) ≤ p.dns.pending)
    (hstep : ∀ p p', I p → Step libs p p' → I p') (hI : I p) (hlogged : Logged p)
    {events : List Event} (hlawful : Lawful (p.log ++ events)) :
    ∃ p', forM events (handle libs) p = .ok ⟨⟩ p' := by
  have hall := sat_events hcount hstep events p fun _ => ⟨hI, hlogged⟩
  cases hr : forM events (handle libs) p with
  | ok _ p' => exact ⟨p', rfl⟩
  | error e p' =>
      obtain ⟨hheard, hnot⟩ := hall.of_error hr
      exact absurd (hheard.of_lawful hlawful) hnot

end

/-! ### Lookups without an answer -/

/-- Nothing has been said, or a failure. -/
def Unheard (said : List Call) : Prop :=
  lastReport none said = some .failed ∨
    lastReport none said = none ∧ ∀ call ∈ said, call.adds = false

/-- No callback can set `answered`, and when none is owed any more a failure has been reported. -/
structure Barren (kinds : List Int) (lost : Nat) (p : PrivAvahi) : Prop
    extends Counted kinds lost p where
  barren : ∀ type ∈ kinds, familyOf type = none
  alone : p.resolver = none ∨ kinds = []
  started : lost = 0 ∨ kinds = [] ∧ p.resolver = none
  answered : p.dns.answered = false
  unheard : Unheard p.said
  done : p.owed = 0 → kinds ≠ [] ∨ p.resolver ≠ none → lastReport none p.said = some .failed

section

variable {libs : Libs} {types : List Int} {missing : Nat} {p p' : PrivAvahi} {said calls : List Call}

theorem unheard_failed (said : List Call) : Unheard (said ++ [.failed]) := by
  refine Or.inl ?_
  rw [lastReport_append]
  rfl

theorem Unheard.idle (h : Unheard said)
    (hcalls : ∀ call ∈ calls, call.adds = false ∧ call.reports = false) :
    Unheard (said ++ calls) := by
  unfold Unheard
  rw [lastReport_append, lastReport_idle fun call hcall => (hcalls call hcall).2]
  refine h.imp_right fun ⟨hreport, hadds⟩ => ⟨hreport, fun call hcall => ?_⟩
  exact (List.mem_append.mp hcall).elim (hadds call) fun hmem => (hcalls call hmem).1

/-- `check` after a callback. -/
theorem Barren.check {q : PrivAvahi} (h : Barren types missing p)
    (hc : Counted types missing q.checked) (hresolver : q.resolver = none ↔ p.resolver = none)
    (hanswered : q.dns.answered = false) (hsaid : q.dns.pending = 0 ∨ Unheard q.said) :
    Barren types missing q.checked where
  toCounted := hc
  barren := h.barren
  alone := by rw [checked_resolver, hresolver]; exact h.alone
  started := by rw [checked_resolver, hresolver]; exact h.started
  answered := (checked_answered q).trans hanswered
  unheard := by
    rw [said_checked]
    by_cases hzero : q.dns.pending = 0
    · simp only [hzero, if_true, PrivAvahi.verdict, hanswered]
      exact unheard_failed _
    · rw [if_neg hzero, List.append_nil]
      exact hsaid.resolve_left hzero
  done howed hasked := by
    have hzero : q.dns.pending = 0 := by
      have hpending := hc.pending
      have hmissing : missing = 0 := by
        rcases h.started with hm | ⟨htypes, hr⟩
        · exact hm
        · rw [checked_resolver] at hasked
          exact absurd (hresolver.mpr hr) (hasked.resolve_left (not_not.mpr htypes))
      rw [checked_pending, howed, hmissing] at hpending
      exact hpending
    rw [said_checked, hzero, if_pos rfl]
    simp only [PrivAvahi.verdict, hanswered]
    rw [lastReport_append]
    rfl

/-- A failure is reported outside of `check`. -/
theorem Barren.fails (h : Barren types missing p) (hc : Counted types missing p')
    (hresolver : p'.resolver = p.resolver) (hanswered : p'.dns.answered = p.dns.answered)
    (hsaid : p'.said = p.said ++ [.failed]) : Barren types missing p' where
  toCounted := hc
  barren := h.barren
  alone := by rw [hresolver]; exact h.alone
  started := by rw [hresolver]; exact h.started
  answered := hanswered.trans h.answered
  unheard := by rw [hsaid]; exact unheard_failed _
  done _ _ := by
    rw [hsaid, lastReport_append]
    rfl

theorem Barren.step (h : Barren types missing p) (hstep : Step libs p p') :
    Barren types missing p' := by
  have hc := h.toCounted.step hstep
  cases hstep with
  | aside ha =>
      obtain ⟨calls, hdns, hcalls⟩ := ha.dns
      have hsaid : p'.said = p.said ++ calls := by
        unfold PrivAvahi.said
        rw [hdns]
        exact said_tell p calls
      refine ⟨hc, h.barren, by rw [ha.resolver]; exact h.alone, by rw [ha.resolver]; exact h.started,
        by rw [hdns]; exact h.answered, by rw [hsaid]; exact h.unheard.idle hcalls,
        fun howed hasked => ?_⟩
      rw [hsaid, lastReport_append, lastReport_idle fun call hcall => (hcalls call hcall).2]
      rw [owed_congr ha.browsers ha.resolver] at howed
      rw [ha.resolver] at hasked
      exact h.done howed hasked
  | client failure =>
      cases failure with
      | true => exact h.fails hc rfl rfl (said_tell ..)
      | false =>
          have hsaid : ((p.heard (.client false)).tell []).said = p.said := by
            rw [tell_nil]
            rfl
          refine ⟨hc, h.barren, h.alone, h.started, h.answered, ?_, fun howed hasked => ?_⟩
          · exact hsaid ▸ h.unheard
          · exact hsaid ▸ h.done howed hasked
  | found hb hfamily =>
      have hmem : _ ∈ p.browsers.map (·.lookup.type) :=
        List.mem_map_of_mem (List.mem_of_getElem? hb)
      rw [h.types] at hmem
      rw [h.barren _ hmem] at hfamily
      cases hfamily
  | foreign hb hfamily =>
      exact ⟨hc, h.barren, h.alone, h.started, h.answered, h.unheard, h.done⟩
  | removed hb => exact h.fails hc rfl rfl (said_tell ..)
  | exhausted hb => exact h.check hc Iff.rfl h.answered (Or.inr h.unheard)
  | settled hb hsettled => exact h.check hc Iff.rfl h.answered (Or.inr h.unheard)
  | failed hb =>
      refine h.check hc Iff.rfl h.answered (Or.inr ?_)
      rw [said_tell]
      exact unheard_failed _
  | @resolved r event call hr hsettled hcall =>
      -- There is no browser, so nothing is pending any more.
      have hkinds : types = [] := h.alone.resolve_left (by simp [hr])
      have hlost : missing = 0 := h.started.resolve_right fun hnone => by simp [hr] at hnone
      have hbrowsers : p.browsers = [] := List.map_eq_nil_iff.mp (h.types.trans hkinds)
      have howed : p.owed = 1 := by
        simp [PrivAvahi.owed, PrivAvahi.unsettled, hbrowsers, hr, hsettled]
      have hstill : ¬ (some { r with settled := true } : Option Resolver) = none := nofun
      refine h.check hc (iff_of_false hstill (by simp [hr])) h.answered (Or.inl ?_)
      show p.dns.pending - 1 = 0
      have := h.pending
      omega

end

/-! ### Setting up -/

/-- The private data while the client is made. -/
structure Opening (request : Request) (settings : List String) (p : PrivAvahi) : Prop where
  browsers : p.browsers = []
  resolver : p.resolver = none
  dns : p.dns =
    { request
      family := request.family
      srv := { name := backendGetNodename request }
      secure := settings.contains "trust"
      calls := p.dns.calls }
  log : ∀ event ∈ p.log, ∃ failure, event = .client failure
  unfinished : ∀ call ∈ p.said, call ≠ .finished
  told : lastReport none p.said = some .failed ∧ Event.client true ∈ p.log ∨
    lastReport none p.said = none ∧ ∀ call ∈ p.said, call.adds = false

section

variable {libs : Libs} {request : Request} {settings : List String} {p p' : PrivAvahi}

theorem Opening.counted (h : Opening request settings p) : Counted [] 0 p where
  types := by rw [h.browsers]; rfl
  pending := by
    rw [h.dns]
    simp [PrivAvahi.owed, PrivAvahi.unsettled, h.browsers, h.resolver]

theorem Opening.step (h : Opening request settings p) (hstep : Step libs p p') :
    Opening request settings p' := by
  have hno {k : Nat} {b : Browser} (hb : p.browsers[k]? = some b) : False := by
    rw [h.browsers] at hb
    cases hb
  cases hstep with
  | aside ha =>
      obtain ⟨calls, hdns, hcalls⟩ := ha.dns
      have hsaid : p'.said = p.said ++ calls := by
        unfold PrivAvahi.said
        rw [hdns]
        exact said_tell p calls
      refine ⟨ha.browsers.trans h.browsers, ha.resolver.trans h.resolver, ?_, ?_, ?_, ?_⟩
      · rw [hdns]
        unfold PrivAvahi.tell
        rw [h.dns]
      · rw [ha.log]
        exact h.log
      · rw [hsaid]
        rintro call hcall rfl
        rcases List.mem_append.mp hcall with hcall | hcall
        · exact h.unfinished _ hcall rfl
        · cases (hcalls _ hcall).2
      · rw [hsaid, ha.log, lastReport_append, lastReport_idle fun call hcall =>
          (hcalls call hcall).2]
        refine h.told.imp_right fun ⟨hreport, hadds⟩ => ⟨hreport, fun call hcall => ?_⟩
        exact (List.mem_append.mp hcall).elim (hadds call) fun hmem => (hcalls call hmem).1
  | client failure =>
      have hlog : ∀ event ∈ p.log ++ [.client failure], ∃ failure, event = Event.client failure := by
        intro event hevent
        rcases List.mem_append.mp hevent with hevent | hevent
        · exact h.log event hevent
        · exact ⟨failure, List.mem_singleton.mp hevent⟩
      refine ⟨h.browsers, h.resolver, ?_, hlog, ?_, ?_⟩
      · unfold PrivAvahi.tell PrivAvahi.heard
        rw [h.dns]
      · rw [said_tell]
        rintro call hcall rfl
        rcases List.mem_append.mp hcall with hcall | hcall
        · exact h.unfinished _ hcall rfl
        · cases failure <;> simp at hcall
      · rw [said_tell]
        show lastReport none (p.said ++ _) = _ ∧ Event.client true ∈ p.log ++ [.client failure] ∨ _
        cases failure with
        | true => exact Or.inl ⟨by rw [lastReport_append]; rfl, by simp⟩
        | false =>
            rw [if_neg Bool.false_ne_true, List.append_nil]
            rcases h.told with ⟨hreport, hmem⟩ | hnone
            · exact Or.inl ⟨hreport, List.mem_append_left _ hmem⟩
            · exact Or.inr (by rw [List.append_nil]; exact hnone)
  | found hb => exact (hno hb).elim
  | foreign hb => exact (hno hb).elim
  | removed hb => exact (hno hb).elim
  | exhausted hb => exact (hno hb).elim
  | settled hb => exact (hno hb).elim
  | failed hb => exact (hno hb).elim
  | resolved hr =>
      rw [h.resolver] at hr
      cases hr

/-- There is no browser yet and no resolver. -/
theorem Opening.due (h : Opening request settings p) (event : Event) : event.Due p := by
  cases event with
  | browser k event =>
      cases event with
      | allForNow =>
          intro b hb
          rw [h.browsers] at hb
          cases hb
      | _ => trivial
  | resolver event =>
      intro r hr
      rw [h.resolver] at hr
      cases hr
  | _ => trivial

theorem Opening.events (h : Opening request settings p) (events : List Event) :
    Sat (forM events (handle libs)) p (fun _ => Opening request settings) (fun _ _ => False) := by
  refine sat_forM (fun _ => Opening request settings) (fun event _ q hq => ?_) events p h
  have howed : (q.owed : Int) ≤ q.dns.pending := by
    have := hq.counted.pending
    omega
  exact (handle_step howed (hq.due event)).mono (fun _ _ => hq.step) (fun _ _ he => he)

/-- What `setup` returns with: the private data as the client leaves it, or none. -/
inductive SetUp (libs : Libs) (request : Request) (settings : List String) :
    Bool → PrivAvahi → Prop
  | without (hnew : libs.newPriv = false) : SetUp libs request settings false
      (PrivAvahi.tell { dns := { request } } [.newPriv false])
  | opened {p : PrivAvahi} (hnew : libs.newPriv = true) (h : Opening request settings p) :
      SetUp libs request settings libs.clientNew p

theorem sat_setup (libs : Libs) (request : Request) (settings : List String) :
    Sat (setup libs settings) { dns := { request } } (SetUp libs request settings)
      (fun _ _ => False) := by
  unfold setup
  rw [sat_bind, sat_emit, sat_ite]
  refine ⟨fun hnew => ?_, fun hnew => ?_⟩
  · rw [sat_bind, sat_modify, sat_bind]
    refine (@Opening.events libs request settings _ ?_ libs.opening).mono (fun _ q hq => ?_)
      (fun _ _ he => he)
    · refine ⟨rfl, rfl, rfl, fun _ hevent => (List.not_mem_nil hevent).elim, ?_,
        Or.inr ⟨?_, ?_⟩⟩
      · simp [PrivAvahi.said, PrivAvahi.tell]
      · rw [hnew]
        rfl
      · simp [PrivAvahi.said, PrivAvahi.tell, Call.adds]
    · exact .opened hnew hq
  · have hnew : libs.newPriv = false := by simpa using hnew
    rw [hnew]
    exact .without hnew

theorem Opening.barren (h : Opening request settings p) : Barren [] 0 p where
  toCounted := h.counted
  barren := by simp
  alone := Or.inr rfl
  started := Or.inl rfl
  answered := by rw [h.dns]
  unheard := h.told.imp_left And.left
  done _ hasked := (hasked.elim (fun hne => hne rfl) fun hne => hne h.resolver).elim

/-- Other parts of the private data are written. -/
theorem Opening.noted (h : Opening request settings p) {d : PrivDns} (hcalls : d.calls = p.dns.calls)
    (hpending : d.pending = p.dns.pending) (hanswered : d.answered = p.dns.answered) :
    Barren [] 0 { p with dns := d } := by
  have hsaid : PrivAvahi.said { p with dns := d } = p.said := by
    unfold PrivAvahi.said
    rw [hcalls]
  have hb := h.barren
  refine ⟨hb.toCounted.of_eq rfl rfl hpending, hb.barren, hb.alone, hb.started,
    hanswered.trans hb.answered, hsaid ▸ hb.unheard, fun _ hasked => ?_⟩
  exact (hasked.elim (fun hne => hne rfl) fun hne => hne h.resolver).elim

/-- A lookup of a type that is not read. -/
theorem Opening.looks (h : Opening request settings p) {d : PrivDns} (hcalls : d.calls = p.dns.calls)
    (hpending : d.pending = p.dns.pending) (hanswered : d.answered = p.dns.answered) (srv : PrivSrv)
    (name : Option String) {type : Int} (htype : familyOf type = none) (cls : Int) :
    Sat (lookupDns libs srv name type cls) { p with dns := d }
      (fun _ p' => ∃ kinds lost, Barren kinds lost p') (fun _ _ => False) := by
  have hb := h.noted hcalls hpending hanswered
  have hzero : d.pending = 0 := by rw [hpending, h.dns]
  simp only [lookupDns, sat_bind, sat_get, sat_modify, sat_ite, sat_emit]
  refine ⟨fun _ => ⟨[type], 0, ?_⟩, fun _ => ⟨[], 1, ?_⟩⟩
  · refine ⟨⟨by simp [h.browsers], ?_⟩, by simpa using htype, Or.inl h.resolver, Or.inl rfl,
      hb.answered, hb.unheard, fun hdone _ => ?_⟩
    · simp [PrivAvahi.owed, PrivAvahi.unsettled, h.browsers, h.resolver, hzero]
    · simp [PrivAvahi.owed, PrivAvahi.unsettled, h.browsers, h.resolver] at hdone
  · refine ⟨⟨hb.types, ?_⟩, hb.barren, Or.inl h.resolver, Or.inr ⟨rfl, h.resolver⟩, hb.answered, ?_,
      fun _ hasked => ?_⟩
    · simp [PrivAvahi.tell, PrivAvahi.owed, PrivAvahi.unsettled, h.browsers, h.resolver, hzero]
    · rw [said_tell]
      exact unheard_failed _
    · exact (hasked.elim (fun hne => hne rfl) fun hne => hne h.resolver).elim

/-- Requests whose lookups bring nothing that is read. -/
def Unanswerable (request : Request) : Prop :=
  request.type = .reverse ∨ request.type = .forward ∧ request.dnsSrvLookup = true ∨
    request.type = .dns ∧ familyOf request.dnsType = none

/-- `setup` without a lookup. -/
theorem SetUp.fails {ready : Bool} (h : SetUp libs request settings ready p) :
    Barren [] 0 (p.tell [.failed]) := by
  cases h with
  | without hnew =>
      refine ⟨⟨rfl, rfl⟩, by simp, Or.inr rfl, Or.inl rfl, rfl, Or.inl rfl, fun _ hasked => ?_⟩
      exact (hasked.elim (fun hne => hne rfl) fun hne => hne rfl).elim
  | opened hnew hopen =>
      exact hopen.barren.fails (hopen.barren.toCounted.of_eq rfl rfl rfl) rfl rfl (said_tell ..)

theorem SetUp.opening {ready : Bool} (h : SetUp libs request settings ready p)
    (hready : ready = true) :
    libs.clientNew = true ∧ libs.newPriv = true ∧ Opening request settings p := by
  cases h with
  | without hnew => cases hready
  | opened hnew hopen => exact ⟨hready, hnew, hopen⟩

theorem sat_query_barren (libs : Libs) (settings : List String) (hun : Unanswerable request) :
    Sat (query libs settings) { dns := { request } }
      (fun _ p => ∃ kinds lost, Barren kinds lost p) (fun _ _ => False) := by
  have hsetup := sat_setup libs request settings
  unfold query
  rw [sat_bind, sat_get]
  rcases hun with htype | ⟨htype, hsrv⟩ | ⟨htype, hfamily⟩
  · simp only [htype, queryReverse, sat_bind, sat_ite]
    refine hsetup.mono (fun ready p h => ⟨fun hready => ?_, fun _ => ⟨_, _, h.fails⟩⟩)
      (fun _ _ he => he)
    obtain ⟨-, -, hopen⟩ := h.opening hready
    simp only [sat_get, lookupAddress, sat_bind, sat_modify, sat_ite, sat_emit]
    have hpending : p.dns.pending = 0 := by rw [hopen.dns]
    have hbrowsers : p.browsers = [] := hopen.browsers
    refine ⟨fun _ => ⟨[], 0, ?_⟩, fun _ => ⟨[], 1, ?_⟩⟩
    · refine ⟨⟨by simp [hbrowsers], ?_⟩, by simp, Or.inr rfl, Or.inl rfl, hopen.barren.answered,
        hopen.barren.unheard, fun howed _ => ?_⟩
      · simp [PrivAvahi.owed, PrivAvahi.unsettled, hbrowsers, hpending]
      · simp [PrivAvahi.owed] at howed
    · refine ⟨⟨by simp [PrivAvahi.tell, hbrowsers], ?_⟩, by simp, Or.inr rfl,
        Or.inr ⟨rfl, hopen.resolver⟩, hopen.barren.answered, ?_, fun _ hasked => ?_⟩
      · simp [PrivAvahi.tell, PrivAvahi.owed, PrivAvahi.unsettled, hbrowsers, hopen.resolver,
          hpending]
      · rw [said_tell]
        exact unheard_failed _
      · exact (hasked.elim (fun hne => hne rfl) fun hne => hne hopen.resolver).elim
  · simp only [htype, queryForward, sat_bind, sat_get, sat_ite]
    refine hsetup.mono (fun ready p h => ⟨fun hready => ?_, fun _ => ⟨_, _, h.fails⟩⟩)
      (fun _ _ he => he)
    obtain ⟨-, -, hopen⟩ := h.opening hready.1
    refine ⟨fun _ => ?_, fun hnot => absurd (by rw [hopen.dns]; exact hsrv) hnot⟩
    rw [sat_modify]
    simp only [lookupSrv, sat_bind, sat_get, sat_ite, sat_modify]
    refine ⟨fun _ => ?_, fun _ => ⟨[], 0, hopen.noted rfl rfl rfl⟩⟩
    have hnone : familyOf LDNS_RR_TYPE_SRV = none := by decide
    refine hopen.looks ?_ ?_ ?_ _ _ hnone _ <;> rfl
  · simp only [htype, queryDns, sat_bind, sat_get, sat_ite]
    refine hsetup.mono (fun ready p h => ⟨fun hready => ?_, fun _ => ⟨_, _, h.fails⟩⟩)
      (fun _ _ he => he)
    obtain ⟨-, -, hopen⟩ := h.opening hready.1
    rw [sat_modify]
    have hnone : familyOf p.dns.request.dnsType = none := by rw [hopen.dns]; exact hfamily
    refine hopen.looks ?_ ?_ ?_ _ _ hnone _ <;> rfl

end

/-- The setup has reported no success, and nobody has called back on a lookup. -/
structure Begun (p : PrivAvahi) : Prop where
  unfinished : ∀ call ∈ p.said, call ≠ .finished
  browsers : ∀ b ∈ p.browsers, b.settled = false
  resolver : ∀ r, p.resolver = some r → r.settled = false

section

variable {libs : Libs} {p : PrivAvahi}

theorem Begun.logged (h : Begun p) : Logged p where
  settled k b hb hsettled := by
    rw [h.browsers b (List.mem_of_getElem? hb)] at hsettled
    cases hsettled
  resolved r hr hsettled := by
    rw [h.resolver r hr] at hsettled
    cases hsettled

theorem Begun.fails (h : Begun p) : Begun (p.tell [.failed]) := by
  refine ⟨?_, h.browsers, h.resolver⟩
  rw [said_tell]
  rintro call hcall rfl
  rcases List.mem_append.mp hcall with hcall | hcall
  · exact h.unfinished _ hcall rfl
  · simp at hcall

/-- Other parts of the private data are written. -/
theorem Begun.of_dns (h : Begun p) {d : PrivDns} (hcalls : d.calls = p.dns.calls) :
    Begun { p with dns := d } := by
  have hsaid : PrivAvahi.said { p with dns := d } = p.said := by
    unfold PrivAvahi.said
    rw [hcalls]
  exact ⟨hsaid ▸ h.unfinished, h.browsers, h.resolver⟩

theorem begun_lookupDns (h : Begun p) (srv : PrivSrv) (name : Option String)
    (type cls : Int) :
    Sat (lookupDns libs srv name type cls) p (fun _ => Begun) (fun _ _ => False) := by
  simp only [lookupDns, sat_bind, sat_get, sat_modify, sat_ite, sat_emit]
  refine ⟨fun _ => ⟨h.unfinished, fun b hb => ?_, h.resolver⟩, fun _ => Begun.fails ?_⟩
  · rcases List.mem_append.mp hb with hb | hb
    · exact h.browsers b hb
    · rw [List.mem_singleton.mp hb]
  · exact ⟨h.unfinished, h.browsers, h.resolver⟩

theorem begun_lookupHost (h : Begun p) (srv : PrivSrv) :
    Sat (lookupHost libs srv) p (fun _ => Begun) (fun _ _ => False) := by
  simp only [lookupHost, sat_bind, sat_get, sat_ite, sat_pure]
  have hsecond (q : PrivAvahi) (hq : Begun q) :
      Sat (if p.dns.family = AF_INET6 ∨ p.dns.family = AF_UNSPEC then
        lookupDns libs srv srv.name LDNS_RR_TYPE_AAAA LDNS_RR_CLASS_IN else pure ()) q
        (fun _ => Begun) (fun _ _ => False) := by
    rw [sat_ite]
    exact ⟨fun _ => begun_lookupDns hq .., fun _ => hq⟩
  simp only [sat_ite] at hsecond
  refine ⟨fun _ => ?_, fun _ => hsecond p h⟩
  exact (begun_lookupDns h ..).mono (fun _ q hq => hsecond q hq) (fun _ _ he => he)

theorem begun_lookupAddress (h : Begun p) (address : AvahiAddress) :
    Sat (lookupAddress libs address) p (fun _ => Begun) (fun _ _ => False) := by
  simp only [lookupAddress, sat_bind, sat_get, sat_ite, sat_modify, sat_emit]
  refine ⟨fun _ => ⟨h.unfinished, h.browsers, fun r hr => ?_⟩, fun _ => Begun.fails ?_⟩
  · obtain rfl := Option.some.inj hr
    rfl
  · exact ⟨h.unfinished, h.browsers, h.resolver⟩

theorem begun_query (libs : Libs) (settings : List String) (request : Request) :
    Sat (query libs settings) { dns := { request } } (fun _ => Begun) (fun _ _ => False) := by
  have hsetup : Sat (setup libs settings) { dns := { request } } (fun _ => Begun)
      (fun _ _ => False) := by
    refine (sat_setup libs request settings).mono (fun ready p h => ?_) (fun _ _ he => he)
    cases h with
    | without hnew =>
        refine ⟨by simp [PrivAvahi.said, PrivAvahi.tell], fun _ hb => ?_, fun _ hr => ?_⟩
        · exact (List.not_mem_nil hb).elim
        · cases hr
    | opened hnew hopen =>
        refine ⟨hopen.unfinished, fun b hb => ?_, fun r hr => ?_⟩
        · rw [hopen.browsers] at hb
          cases hb
        · rw [hopen.resolver] at hr
          cases hr
  unfold query
  rw [sat_bind, sat_get]
  cases htype : request.type with
  | forward =>
      simp only [queryForward, sat_bind, sat_get, sat_ite]
      refine hsetup.mono (fun ready p h => ⟨fun _ => ⟨fun _ => ?_, fun _ => ?_⟩, fun _ => h.fails⟩)
        (fun _ _ he => he)
      · simp only [lookupSrv, sat_bind, sat_get, sat_ite, sat_modify]
        refine ⟨fun _ => begun_lookupDns ?_ .., fun _ => ?_⟩ <;> exact h.of_dns rfl
      · exact begun_lookupHost h _
  | reverse =>
      simp only [queryReverse, sat_bind, sat_get, sat_ite]
      exact hsetup.mono (fun ready p h => ⟨fun _ => begun_lookupAddress h _, fun _ => h.fails⟩)
        (fun _ _ he => he)
  | dns =>
      simp only [queryDns, sat_bind, sat_get, sat_ite]
      refine hsetup.mono (fun ready p h => ⟨fun _ => ?_, fun _ => h.fails⟩) (fun _ _ he => he)
      rw [sat_modify]
      refine begun_lookupDns ?_ ..
      exact h.of_dns rfl

theorem avahi_setup (libs : Libs) (settings : List String) (request : Request) :
    ∀ call ∈ ((avahi libs settings).setup request).2, call ≠ .finished := by
  obtain ⟨_, q, hq, h⟩ := (begun_query libs settings request).exists_ok
  show ∀ call ∈ (Outcome.final (query libs settings) _).said, _
  rw [final_of_ok hq]
  exact h.unfinished

end

/-! ### Runs -/

section

variable {libs : Libs} {settings : List String} {env : Env} {s₀ s : St} {p p' : PrivAvahi}
  {said : List Call}

/-- What has been said stays said. -/
theorem Step.grows (h : Step libs p p') : ∃ calls, p'.said = p.said ++ calls := by
  have hchecked (q : PrivAvahi) (hq : ∃ calls, q.said = p.said ++ calls) :
      ∃ calls, q.checked.said = p.said ++ calls := by
    obtain ⟨calls, hq⟩ := hq
    exact ⟨_, by rw [said_checked, hq, List.append_assoc]⟩
  cases h with
  | aside ha =>
      obtain ⟨calls, hdns, -⟩ := ha.dns
      refine ⟨calls, ?_⟩
      unfold PrivAvahi.said
      rw [hdns]
      exact said_tell p calls
  | client failure => exact ⟨_, said_tell ..⟩
  | found hb hfamily => exact hchecked _ ⟨_, said_tell ..⟩
  | foreign hb hfamily => exact ⟨[], (List.append_nil _).symm⟩
  | removed hb => exact ⟨_, said_tell ..⟩
  | exhausted hb => exact hchecked _ ⟨[], (List.append_nil _).symm⟩
  | settled hb hsettled => exact hchecked _ ⟨[], (List.append_nil _).symm⟩
  | failed hb => exact hchecked _ ⟨_, said_tell ..⟩
  | resolved hr hsettled hcall => exact hchecked _ ⟨_, said_tell ..⟩

/-- What the setup establishes and every step keeps holds in a run, while the log is lawful. -/
theorem conducted_invariant {I : PrivAvahi → Prop}
    (hcount : ∀ p, I p → (p.owed : Int) ≤ p.dns.pending)
    (hstep : ∀ p p', I p → Step libs p p' → I p')
    (hsetup : Sat (query libs settings) { dns := { request := s₀.query.request.prepared } }
      (fun _ => I) (fun _ _ => False))
    (h : Conducted (avahi libs settings) env s₀ p said s) (hlawful : Lawful p.log) :
    (I p ∧ Logged p) ∧ said = p.said := by
  induction h with
  | start _ _ _ _ =>
      obtain ⟨_, q, hq, hI, hbegun⟩ := ((hsetup.and (begun_query libs settings _)).mono
        (fun _ _ h => h) (fun _ _ he => he.1)).exists_ok
      refine ⟨?_, rfl⟩
      show I (Outcome.final (query libs settings) _) ∧ Logged (Outcome.final (query libs settings) _)
      rw [final_of_ok hq]
      exact ⟨hI, hbegun.logged⟩
  | @spoke p said _ _ _ _ _ events _ _ _ _ _ _ _ ih =>
      have hkeeps (q q' : PrivAvahi) (hq : I q ∧ ∃ calls, q.said = p.said ++ calls)
          (hs : Step libs q q') : I q' ∧ ∃ calls, q'.said = p.said ++ calls := by
        obtain ⟨calls, hcalls⟩ := hq.2
        obtain ⟨more, hmore⟩ := hs.grows
        exact ⟨hstep q q' hq.1 hs, calls ++ more, by rw [hmore, hcalls, List.append_assoc]⟩
      have hall := sat_events (fun q hq => hcount q hq.1) hkeeps events p fun hl =>
        ⟨⟨(ih hl).1.1, [], (List.append_nil _).symm⟩, (ih hl).1.2⟩
      change Lawful (Outcome.final (forM events (handle libs)) p).log at hlawful
      show (I (Outcome.final (forM events (handle libs)) p) ∧
          Logged (Outcome.final (forM events (handle libs)) p)) ∧
        said ++ (Outcome.final (forM events (handle libs)) p).said.drop p.said.length =
          (Outcome.final (forM events (handle libs)) p).said
      unfold Outcome.final at hlawful ⊢
      cases hr : forM events (handle libs) p with
      | ok _ q =>
          rw [hr] at hlawful
          obtain ⟨hheard, hq⟩ := hall.of_ok hr
          obtain ⟨⟨hI, calls, hsaid⟩, hlogged⟩ := hq hlawful
          refine ⟨⟨hI, hlogged⟩, ?_⟩
          obtain ⟨-, rfl⟩ := ih (hheard.lawful hlawful)
          show p.said ++ q.said.drop p.said.length = q.said
          rw [hsaid, List.drop_left]
      | error e q =>
          rw [hr] at hlawful
          exact absurd hlawful (hall.of_error hr).2
  | other _ _ _ _ _ _ ih => exact ih hlawful

/--
**Most lookups of this build are never answered.**  A reverse query, a query for services and a DNS
query for anything but addresses leave the backend as soon as the library has called back for all
that it was asked.  Until then nothing is said, and the assertion of `check` holds throughout.
-/
theorem avahi_unanswered (hfresh : Fresh s₀) (hno : ∀ b ∈ s₀.backends, b.mandatory = false)
    (hresult : s₀.query.request.resultTimeout ≠ 0) (hun : Unanswerable s₀.query.request.prepared)
    (hrun : Conducted (avahi libs settings) env s₀ p said s) (hlawful : Lawful p.log) :
    (s.query.state = .waiting ∧ s.query.response = {} ∧ ¬ CalledBack s.trace ∨
      Entered .failed 0 s.trace) ∧
    (p.owed = 0 → p.browsers ≠ [] ∨ p.resolver ≠ none → Entered .failed 0 s.trace) ∧
    (∀ events : List Event, Lawful (p.log ++ events) →
      ∃ p', forM events (handle libs) p = .ok ⟨⟩ p') := by
  have hcount : ∀ p, (∃ kinds lost, Barren kinds lost p) → (p.owed : Int) ≤ p.dns.pending := by
    rintro p ⟨kinds, lost, h⟩
    have := h.pending
    omega
  have hstep : ∀ p p', (∃ kinds lost, Barren kinds lost p) → Step libs p p' →
      ∃ kinds lost, Barren kinds lost p' :=
    fun p p' ⟨kinds, lost, h⟩ hs => ⟨kinds, lost, h.step hs⟩
  obtain ⟨⟨hbarren, hlogged⟩, rfl⟩ :=
    conducted_invariant hcount hstep (sat_query_barren libs settings hun) hrun hlawful
  have hprogress := hrun.progress hfresh hno hresult (avahi_setup libs settings _)
  refine ⟨?_, fun howed hasked => ?_, fun events => events_ok hcount hstep hbarren hlogged⟩
  · obtain ⟨kinds, lost, h⟩ := hbarren
    rcases h.unheard with hreport | ⟨hreport, hadds⟩
    · exact Or.inr (hprogress.failure hreport)
    · exact hprogress.idle hreport hadds
  · obtain ⟨kinds, lost, h⟩ := hbarren
    refine hprogress.failure (h.done howed (hasked.imp_left fun hne hkinds => hne ?_))
    exact List.map_eq_nil_iff.mp (h.types.trans hkinds)

end

/-- A client that has one watch. -/
def oneClient : Libs := { opening := [.poll (.watchNew 5 true), .client false] }

section

variable (s₀ : St) (events : List Event)

/-- The private data after the setup and after the events of one dispatch. -/
def opened : PrivAvahi := ((avahi oneClient ["trust"]).setup s₀.query.request.prepared).1

def heard : PrivAvahi := ((avahi oneClient ["trust"]).dispatch (opened s₀) events).1

/-- What has been said then. -/
def saidOn : List Call :=
  [.newPriv true, .watchAdd 5] ++ ((avahi oneClient ["trust"]).dispatch (opened s₀) events).2

/-- The backend on these events. -/
def tells : Env where
  setup := answersLater.setup
  dispatch _ := ((avahi oneClient ["trust"]).dispatch (opened s₀) events).2

/-- The query after its setup and after the dispatch. -/
def waiting : St := final (queryStart answersLater) s₀

def dispatched : St := final (queryDispatch (tells s₀ events) 1) (waiting s₀)

end

theorem heard_conducted {s₀ : St} {events : List Event}
    (hsetup : ((avahi oneClient ["trust"]).setup s₀.query.request.prepared).2 =
      [.newPriv true, .watchAdd 5])
    (hstart : returns (queryStart answersLater) s₀ = true)
    (hx : (waiting s₀).query.watches.find? (·.id = 1) = some ⟨1, .backend 5, .backend 0⟩)
    (hbehaved : keepsWatches true ((tells s₀ events).dispatch 0) = true)
    (h : returns (queryDispatch (tells s₀ events) 1) (waiting s₀) = true) :
    Conducted (avahi oneClient ["trust"]) {} s₀ (heard s₀ events) (saidOn s₀ events)
      (dispatched s₀ events) := by
  have hlike : Env.Like {} answersLater := ⟨rfl, rfl, rfl⟩
  have hlike' : Env.Like {} (tells s₀ events) := ⟨rfl, rfl, rfl⟩
  have hwaiting : Conducted (avahi oneClient ["trust"]) {} s₀ (opened s₀)
      [.newPriv true, .watchAdd 5] (waiting s₀) := by
    rw [← hsetup]
    exact .start hlike answersLater_wellBehaved hsetup.symm (ok_of_returns hstart)
  exact .spoke (w := 1) events hwaiting hlike' ⟨fun _ => rfl, fun _ => hbehaved⟩ hx rfl rfl
    (ok_of_returns h)

/-- A reverse query of which the name is found. -/
def oneReverse : St where
  query := { id := 0, request := { type := .reverse, family := AF_INET, address := [192, 0, 2, 1] } }
  backends := [{}]

theorem oneReverse_fresh : Fresh oneReverse := by
  refine ⟨⟨rfl, rfl, rfl, rfl, fun t => by cases t <;> rfl, rfl, rfl, fun b hb => ?_⟩, rfl, rfl⟩
  rw [List.mem_singleton.mp hb]

theorem oneReverse_conducted : Conducted (avahi oneClient ["trust"]) {} oneReverse
    (heard oneReverse [.resolver (.found "host.local")])
    (saidOn oneReverse [.resolver (.found "host.local")])
    (dispatched oneReverse [.resolver (.found "host.local")]) :=
  heard_conducted (by decide +kernel) (by decide +kernel) (by decide +kernel) (by decide +kernel)
    (by decide +kernel)

/-- A query for services, of which two records are found. -/
def oneService : St where
  query :=
    { id := 0
      request := { nodename := some "host.local", servname := some "http", dnsSrvLookup := true } }
  backends := [{}]

def twoRecords : List Event :=
  [.browser 0 (.new [0, 0, 0, 0, 0, 80, 0]), .browser 0 (.new [0, 1, 0, 0, 0, 81, 0]),
    .browser 0 .cacheExhausted, .browser 0 .allForNow]

theorem oneService_fresh : Fresh oneService := by
  refine ⟨⟨rfl, rfl, rfl, rfl, fun t => by cases t <;> rfl, rfl, rfl, fun b hb => ?_⟩, rfl, rfl⟩
  rw [List.mem_singleton.mp hb]

theorem oneService_conducted : Conducted (avahi oneClient ["trust"]) {} oneService
    (heard oneService twoRecords) (saidOn oneService twoRecords)
    (dispatched oneService twoRecords) :=
  heard_conducted (by decide +kernel) (by decide +kernel) (by decide +kernel) (by decide +kernel)
    (by decide +kernel)

theorem avahi_unanswered_both :
    Entered .failed 0 (dispatched oneReverse [.resolver (.found "host.local")]).trace ∧
      Entered .failed 0 (dispatched oneService twoRecords).trace :=
  ⟨(avahi_unanswered oneReverse_fresh (by simp [oneReverse]) (by decide) (Or.inl rfl)
      oneReverse_conducted (by decide +kernel)).2.1 (by decide +kernel) (Or.inr (by decide +kernel)),
    (avahi_unanswered oneService_fresh (by simp [oneService]) (by decide)
      (Or.inr (Or.inl ⟨rfl, rfl⟩)) oneService_conducted (by decide +kernel)).2.1 (by decide +kernel)
      (Or.inl (by decide +kernel))⟩

end Netresolve.Avahi
