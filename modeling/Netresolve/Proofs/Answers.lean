/-
What the callback of a lookup comes to.

A callback of `backends/dns.c` reads an answer, changes a few flags, makes calls and issues
further lookups.  It is deterministic, so all of that can be said by one `Effect`, computed
from the answer and from the parts of the private data that never change after setup.  The
theorems here say so for each function, up to `complete`; everything about the order of
answers is then about effects.
-/
import Netresolve.Backends.Dns
import Netresolve.Library.Outcome

namespace Netresolve.Dns

open Outcome

/-! ### Effects -/

/-- What a callback adds: it raises flags, lowers `secure`, makes calls and issues lookups. -/
structure Effect where
  failed : Bool := false
  answered : Bool := false
  secure : Bool := true
  targets : Nat := 0
  calls : List Call := []
  spawned : List Lookup := []
  deriving DecidableEq, Repr

instance : Append Effect where
  append e f :=
    { failed := e.failed || f.failed
      answered := e.answered || f.answered
      secure := e.secure && f.secure
      targets := e.targets + f.targets
      calls := e.calls ++ f.calls
      spawned := e.spawned ++ f.spawned }

theorem effect_append (e f : Effect) : e ++ f =
    { failed := e.failed || f.failed
      answered := e.answered || f.answered
      secure := e.secure && f.secure
      targets := e.targets + f.targets
      calls := e.calls ++ f.calls
      spawned := e.spawned ++ f.spawned } := rfl

/-- The private data after an effect. -/
def PrivDns.after (p : PrivDns) (e : Effect) : PrivDns :=
  { p with
    pending := p.pending + e.spawned.length
    answered := p.answered || e.answered
    failed := p.failed || e.failed
    secure := p.secure && e.secure
    targets := p.targets + e.targets
    lookups := p.lookups ++ e.spawned
    calls := p.calls ++ e.calls.map fun call => (p.applying, call) }

theorem after_append (p : PrivDns) (e f : Effect) : (p.after e).after f = p.after (e ++ f) := by
  simp [PrivDns.after, effect_append, Bool.or_assoc, Bool.and_assoc, Nat.add_assoc, Int.add_assoc]

theorem nothing_append (e : Effect) : ({} : Effect) ++ e = e := by
  simp [effect_append]

theorem after_nothing (p : PrivDns) : p.after {} = p := by
  simp [PrivDns.after]

/-! ### The effect of an answer -/

/-- `lookup_host`. -/
def hostEffect (family : Int) (srv : PrivSrv) : Effect :=
  { spawned :=
      (if family = AF_INET ∨ family = AF_UNSPEC then
        [⟨srv, srv.name, LDNS_RR_TYPE_A, LDNS_RR_CLASS_IN⟩] else []) ++
      (if family = AF_INET6 ∨ family = AF_UNSPEC then
        [⟨srv, srv.name, LDNS_RR_TYPE_AAAA, LDNS_RR_CLASS_IN⟩] else []) }

/-- `set_name`. -/
def nameCall (name : String) : Call :=
  .addNameInfo (some
    (if name.toList.getLast? = some '.' then String.ofList name.toList.dropLast else name))

/-- `apply_address`. -/
def pathCall (protocol : Int) (srv : PrivSrv) (family : Int) (address : List UInt8)
    (ttl : UInt32) : Call :=
  .addPath
    { family := family
      address := address
      protocol := protocol
      port := srv.port
      priority := srv.priority
      weight := srv.weight
      ttl := toCInt ttl.toNat }

section

variable (libs : Libs) (v : Variant) (family protocol : Int) (p : PrivDns) (srv : PrivSrv)

/-- `apply_record`, when `n` SRV targets have been asked for before. -/
def recordEffect (n : Nat) : Record → Effect
  | .cname name => { calls := [nameCall name] }
  | .ptr name => { calls := [nameCall name], answered := true }
  | .a address ttl => { calls := [pathCall protocol srv AF_INET address ttl], answered := true }
  | .aaaa address ttl => { calls := [pathCall protocol srv AF_INET6 address ttl], answered := true }
  | .srv priority weight port name =>
      if libs.calloc n then
        { hostEffect family ⟨priority.toNat, weight.toNat, port.toNat, some name⟩ with
          targets := 1
          calls := [nameCall name] }
      else { targets := 1, calls := [.failed] }
  | .other _ => {}

/-- The loop over the records of an answer. -/
def recordsEffect : Nat → List Record → Effect
  | _, [] => {}
  | n, record :: rest =>
      recordEffect libs family protocol srv n record ++
        recordsEffect (n + (recordEffect libs family protocol srv n record).targets) rest

/-- The part of `apply_answer` that comes after the AD flag. -/
def packetEffect (type : Int) (pkt : Packet) : Effect :=
  let rcode := if pkt.rcode = 0 ∧ pkt.answer = [] then LDNS_RCODE_NXDOMAIN else pkt.rcode
  if rcode = 0 then recordsEffect libs p.family p.protocol srv p.targets pkt.answer
  else if rcode = LDNS_RCODE_NXDOMAIN ∧ type = LDNS_RR_TYPE_SRV then hostEffect p.family p.srv
  else { failed := true }

/-- `apply_answer`, where it returns. -/
def answerEffect (data : List UInt8) : Effect :=
  if p.type ≠ 0 then { calls := [.setDnsAnswer data], answered := true }
  else match libs.wire2pkt data with
    | none => { failed := true }
    | some pkt => match pkt.question with
        | [] => {}
        | type :: _ =>
            { secure := pkt.ad || (v = .unbound && p.validate) } ++
              packetEffect libs p srv type pkt

/-- The callback of the variant up to `check`. -/
def callbackEffect (a : Answer) : Effect :=
  match v with
  | .ares => match a.status with
      | .destruction => {}
      | .failure => { failed := true }
      | .success | .notFound => answerEffect libs .ares p srv a.data
  | .unbound =>
      if a.status ≠ .success then { failed := true }
      else if a.bogus then { secure := false, failed := true }
      else { secure := a.secure } ++ answerEffect libs .unbound p srv a.data

end

/-- The callback goes on to `check`. -/
def Answer.checks (v : Variant) (a : Answer) : Bool :=
  match v, a.status with
  | _, .success => true
  | .ares, .notFound => true
  | _, _ => false

/-! ### The functions of the callback -/

variable {libs : Libs} {v : Variant} {p : PrivDns} {srv : PrivSrv}
variable {E : Fault → PrivDns → Prop}

theorem sat_call (call : Call) (p : PrivDns) (Q : Unit → PrivDns → Prop) :
    Sat (emit call) p Q E ↔ Q () (p.after { calls := [call] }) := by
  have : p.after { calls := [call] } = { p with calls := p.calls ++ [(p.applying, call)] } := by
    simp [PrivDns.after]
  rw [this]
  exact Iff.rfl

theorem sat_answered (p : PrivDns) (Q : Unit → PrivDns → Prop) :
    Sat (modify fun p : PrivDns => { p with answered := true }) p Q E ↔
      Q () (p.after { answered := true }) := by
  have : p.after { answered := true } = { p with answered := true } := by simp [PrivDns.after]
  rw [this]
  exact Iff.rfl

theorem sat_failed (p : PrivDns) (Q : Unit → PrivDns → Prop) :
    Sat (modify fun p : PrivDns => { p with failed := true }) p Q E ↔
      Q () (p.after { failed := true }) := by
  have : p.after { failed := true } = { p with failed := true } := by simp [PrivDns.after]
  rw [this]
  exact Iff.rfl

theorem sat_lookupDns (srv : PrivSrv) (name : Option String) (type cls : Int) (p : PrivDns)
    (Q : Unit → PrivDns → Prop) : Sat (lookupDns srv name type cls) p Q E ↔
      Q () (p.after { spawned := [⟨srv, name, type, cls⟩] }) := by
  have : p.after { spawned := [⟨srv, name, type, cls⟩] } = { p with
      pending := p.pending + 1, lookups := p.lookups ++ [⟨srv, name, type, cls⟩] } := by
    simp [PrivDns.after]
  rw [this]
  exact Iff.rfl

theorem sat_lookupHost (srv : PrivSrv) (p : PrivDns) (Q : Unit → PrivDns → Prop) :
    Sat (lookupHost srv) p Q E ↔ Q () (p.after (hostEffect p.family srv)) := by
  unfold lookupHost hostEffect
  by_cases h4 : p.family = AF_INET ∨ p.family = AF_UNSPEC <;>
    by_cases h6 : p.family = AF_INET6 ∨ p.family = AF_UNSPEC <;>
    simp [h4, h6, sat_lookupDns, after_append, effect_append, after_nothing]

theorem sat_applyRecord (srv : PrivSrv) (record : Record) (p : PrivDns)
    (Q : Unit → PrivDns → Prop) : Sat (applyRecord libs srv record) p Q E ↔
      Q () (p.after (recordEffect libs p.family p.protocol srv p.targets record)) := by
  cases record with
  | cname name => exact sat_call _ _ _
  | ptr name =>
      simp only [applyRecord, setName, sat_bind, sat_call, sat_answered, after_append]
      exact Iff.rfl
  | a address ttl =>
      simp only [applyRecord, applyAddress, sat_bind, sat_get, sat_call, sat_answered, after_append]
      exact Iff.rfl
  | aaaa address ttl =>
      simp only [applyRecord, applyAddress, sat_bind, sat_get, sat_call, sat_answered, after_append]
      exact Iff.rfl
  | srv priority weight port name =>
      have htarget : { p with targets := p.targets + 1 } = p.after { targets := 1 } := by
        simp [PrivDns.after]
      simp only [applyRecord, applySrv, sat_bind, sat_get, sat_modify, htarget, recordEffect]
      by_cases h : libs.calloc p.targets = true
      · rw [if_pos h, if_pos h]
        simp only [setName, sat_bind, sat_call, sat_lookupHost, after_append]
        exact Iff.rfl
      · rw [if_neg h, if_neg h, sat_call, after_append]
        exact Iff.rfl
  | other type =>
      simp only [applyRecord, sat_pure, recordEffect, after_nothing]

/-- The loop over the records of an answer. -/
theorem sat_applyRecords (srv : PrivSrv) (records : List Record) (p : PrivDns)
    (Q : Unit → PrivDns → Prop) : Sat (forM records (applyRecord libs srv)) p Q E ↔
      Q () (p.after (recordsEffect libs p.family p.protocol srv p.targets records)) := by
  induction records generalizing p with
  | nil =>
      rw [List.forM_nil, sat_pure, recordsEffect, after_nothing]
  | cons record rest ih =>
      rw [List.forM_cons, sat_bind, sat_applyRecord, ih, after_append]
      exact Iff.rfl

theorem sat_applyPacket (srv : PrivSrv) (type : Int) (pkt : Packet) (p : PrivDns)
    (Q : Unit → PrivDns → Prop) : Sat (applyPacket libs srv type pkt) p Q E ↔
      Q () (p.after (packetEffect libs p srv type pkt)) := by
  unfold applyPacket packetEffect
  dsimp only
  generalize (if pkt.rcode = 0 ∧ pkt.answer = [] then LDNS_RCODE_NXDOMAIN else pkt.rcode) = rcode
  split
  · exact sat_applyRecords srv _ p Q
  · split
    · rw [sat_bind, sat_get, sat_lookupHost]
    · exact sat_failed p Q

theorem applyAnswer_effect (srv : PrivSrv) (data : List UInt8) (p : PrivDns) :
    Sat (applyAnswer libs v srv data) p (fun _ p' => p' = p.after (answerEffect libs v p srv data))
      (fun _ p' => p' = p) := by
  unfold applyAnswer answerEffect
  rw [sat_ite]
  refine ⟨fun _ => rfl, fun _ => ?_⟩
  rw [sat_bind, sat_get]
  split
  · rw [sat_bind, sat_call, sat_answered, after_append]
    rfl
  · cases libs.wire2pkt data with
    | none => exact (sat_failed _ _).mpr rfl
    | some pkt =>
        dsimp only
        cases pkt.question with
        | nil => rfl
        | cons type rest =>
            dsimp only
            have hsecure : { p with
                secure := p.secure && (pkt.ad || (v = .unbound && p.validate)) } =
                p.after { secure := pkt.ad || (v = .unbound && p.validate) } := by
              simp [PrivDns.after]
            rw [sat_bind, sat_modify, hsecure, sat_applyPacket, after_append]
            rfl

/-! ### Reporting -/

/-- What `check` calls when no lookup is left. -/
def PrivDns.verdict (p : PrivDns) : List Call :=
  (if p.answered && p.secure then [.setSecure] else []) ++
    [if p.failed then .failed else .finished]

/-- The private data after `check`. -/
def PrivDns.checked (p : PrivDns) : PrivDns :=
  if p.pending = 0 then p.after { calls := p.verdict } else p

theorem check_effect (p : PrivDns) :
    Sat check p (fun _ p' => p' = p.checked) (fun _ p' => p' = p ∧ p.pending < 0) := by
  unfold check PrivDns.checked PrivDns.verdict
  simp only [sat_bind, sat_get, sat_ite, sat_throw, sat_pure, sat_call]
  refine ⟨fun h => ⟨trivial, h⟩, fun _ => ⟨fun h => ?_, fun h => (if_neg h).symm⟩⟩
  rw [if_pos h]
  refine ⟨fun hs => ?_, fun hs => ?_⟩
  · rw [if_pos hs, after_append]
    rfl
  · rw [if_neg hs]
    rfl

/-! ### One completion -/

/-- The lookup at position `k` has been answered with `a`, and its callback starts. -/
def PrivDns.taken (p : PrivDns) (k : Nat) (a : Answer) : PrivDns :=
  { p with
    lookups := p.lookups.eraseIdx k
    answers := a :: p.answers
    applying := some a
    pending := p.pending - 1 }

/-- The callback has returned. -/
def PrivDns.returned (p : PrivDns) : PrivDns := { p with applying := none }

/-- The private data after the callback for the lookup at position `k`, which is `lookup`. -/
def PrivDns.completed (libs : Libs) (v : Variant) (p : PrivDns) (k : Nat) (lookup : Lookup)
    (a : Answer) : PrivDns :=
  let q := (p.taken k a).after (callbackEffect libs v p lookup.srv a)
  (if a.checks v then q.checked else q).returned

theorem callback_effect (lookup : Lookup) (k : Nat) (a : Answer) (p : PrivDns) :
    Sat (match v with
      | .ares => aresdnsCallback libs lookup.srv a
      | .unbound => ubdnsCallback libs lookup.srv a)
      { p with lookups := p.lookups.eraseIdx k, answers := a :: p.answers, applying := some a }
      (fun _ p' => p' = let q := (p.taken k a).after (callbackEffect libs v p lookup.srv a)
        if a.checks v then q.checked else q)
      (fun _ p' => ∃ e, p' = (p.taken k a).after e) := by
  -- `apply_answer` followed by `check`
  have happly : ∀ q e₀, q = (p.taken k a).after e₀ →
      answerEffect libs v q lookup.srv a.data = answerEffect libs v p lookup.srv a.data →
      Sat (do applyAnswer libs v lookup.srv a.data; check) q
        (fun _ p' => p' = ((p.taken k a).after
          (e₀ ++ answerEffect libs v p lookup.srv a.data)).checked)
        (fun _ p' => ∃ e, p' = (p.taken k a).after e) := by
    intro q e₀ hq heff
    rw [sat_bind]
    refine (applyAnswer_effect lookup.srv a.data q).mono (fun _ q' hq' => ?_)
      (fun _ q' hq' => ⟨e₀, hq'.trans hq⟩)
    have hq'' : q' = (p.taken k a).after (e₀ ++ answerEffect libs v p lookup.srv a.data) := by
      rw [hq', heff, hq, after_append]
    subst hq''
    exact (check_effect _).mono (fun _ _ h => h) (fun _ _ h => ⟨_, h.1⟩)
  cases v with
  | ares =>
      unfold aresdnsCallback callbackEffect Answer.checks
      rw [sat_bind, sat_modify]
      cases hstatus : a.status with
      | destruction => exact (after_nothing _).symm
      | failure => exact (sat_failed _ _).mpr rfl
      | success | notFound =>
          have hsat := happly _ {} (after_nothing _).symm rfl
          rw [nothing_append] at hsat
          exact hsat
  | unbound =>
      unfold ubdnsCallback callbackEffect Answer.checks
      rw [sat_bind, sat_modify, sat_ite]
      refine ⟨fun h => ?_, fun h => ?_⟩
      · rw [sat_failed, if_pos h]
        cases hstatus : a.status with
        | success => exact absurd hstatus h
        | notFound | destruction | failure => rfl
      · obtain hstatus : a.status = .success := not_not.mp h
        rw [sat_bind, sat_modify, if_neg h, hstatus]
        by_cases hbogus : a.bogus = true
        · simp only [hbogus, if_true, sat_bind, sat_modify]
          refine (check_effect _).mono (fun _ q hq => hq.trans ?_) (fun _ q hq => ?_)
          · congr 1
            simp [PrivDns.after, PrivDns.taken]
          · refine ⟨{ secure := false, failed := true }, hq.1.trans ?_⟩
            simp [PrivDns.after, PrivDns.taken]
        · simp only [hbogus]
          refine happly _ { secure := a.secure } ?_ rfl
          simp [PrivDns.after, PrivDns.taken]

theorem complete_effect (k : Nat) (a : Answer) (p : PrivDns) :
    Sat (complete libs v (k, a)) p
      (fun _ p' => match p.lookups[k]? with
        | none => p' = p
        | some lookup => p' = p.completed libs v k lookup a)
      (fun _ p' => k < p.lookups.length ∧ ∃ e, p' = (p.taken k a).after e) := by
  unfold complete
  rw [sat_bind, sat_get]
  cases hk : p.lookups[k]? with
  | none => exact rfl
  | some lookup =>
      dsimp only
      rw [sat_bind, sat_modify, sat_bind]
      refine (callback_effect lookup k a p).mono (fun _ q hq => ?_)
        (fun _ q hq => ⟨(List.getElem?_eq_some_iff.mp hk).1, hq⟩)
      rw [sat_modify, hq]
      rfl

/-- A completion is for a lookup that is there, whose callback returns or stops, or for none. -/
theorem complete_rule {P : PrivDns → Prop} {E : Fault → PrivDns → Prop} {k : Nat} {a : Answer}
    {p : PrivDns} (hnone : P p)
    (hsome : ∀ lookup, p.lookups[k]? = some lookup → P (p.completed libs v k lookup a))
    (hstop : ∀ e effect, k < p.lookups.length → E e ((p.taken k a).after effect)) :
    Sat (complete libs v (k, a)) p (fun _ => P) E := by
  refine (complete_effect k a p).mono (fun _ p' hp' => ?_) (fun e p' hp' => ?_)
  · cases hk : p.lookups[k]? with
    | none =>
        rw [hk] at hp'
        rw [hp']
        exact hnone
    | some lookup =>
        rw [hk] at hp'
        rw [hp']
        exact hsome lookup hk
  · obtain ⟨hk, effect, rfl⟩ := hp'
    exact hstop e effect hk

/-! ### Reading the result -/

section

variable (libs v) (k : Nat) (lookup : Lookup) (a : Answer) (p : PrivDns)

/-- What `check` calls at the end of the callback. -/
def PrivDns.closing : List Call :=
  let q := (p.taken k a).after (callbackEffect libs v p lookup.srv a)
  if a.checks v = true ∧ q.pending = 0 then q.verdict else []

theorem completed_eq : p.completed libs v k lookup a =
    (((p.taken k a).after (callbackEffect libs v p lookup.srv a)).after
      { calls := p.closing libs v k lookup a }).returned := by
  unfold PrivDns.completed PrivDns.closing PrivDns.checked
  dsimp only
  by_cases hc : a.checks v = true
  · simp only [hc, if_true, true_and]
    split
    · rfl
    · rw [after_nothing]
  · simp only [hc, Bool.false_eq_true, if_false, false_and, after_nothing]

theorem completed_lookups : (p.completed libs v k lookup a).lookups =
    p.lookups.eraseIdx k ++ (callbackEffect libs v p lookup.srv a).spawned := by
  rw [completed_eq]
  simp [PrivDns.after, PrivDns.taken, PrivDns.returned]

theorem completed_answers : (p.completed libs v k lookup a).answers = a :: p.answers := by
  rw [completed_eq]
  rfl

theorem completed_calls : (p.completed libs v k lookup a).calls = p.calls ++
    ((callbackEffect libs v p lookup.srv a).calls ++ p.closing libs v k lookup a).map
      fun call => (some a, call) := by
  rw [completed_eq]
  simp [PrivDns.after, PrivDns.taken, PrivDns.returned]

theorem completed_failed : (p.completed libs v k lookup a).failed =
    (p.failed || (callbackEffect libs v p lookup.srv a).failed) := by
  rw [completed_eq]
  simp [PrivDns.after, PrivDns.taken, PrivDns.returned]

theorem completed_answered : (p.completed libs v k lookup a).answered =
    (p.answered || (callbackEffect libs v p lookup.srv a).answered) := by
  rw [completed_eq]
  simp [PrivDns.after, PrivDns.taken, PrivDns.returned]

theorem completed_targets : (p.completed libs v k lookup a).targets =
    p.targets + (callbackEffect libs v p lookup.srv a).targets := by
  rw [completed_eq]
  simp [PrivDns.after, PrivDns.taken, PrivDns.returned]

theorem completed_secure : (p.completed libs v k lookup a).secure =
    (p.secure && (callbackEffect libs v p lookup.srv a).secure) := by
  rw [completed_eq]
  simp [PrivDns.after, PrivDns.taken, PrivDns.returned]

/-- What the effect of an answer is computed from, apart from the allocations before it. -/
structure Settled (p p' : PrivDns) : Prop where
  family : p'.family = p.family
  protocol : p'.protocol = p.protocol
  srv : p'.srv = p.srv
  type : p'.type = p.type
  validate : p'.validate = p.validate

theorem completed_settled : Settled p (p.completed libs v k lookup a) := by
  rw [completed_eq]
  constructor <;> simp only [PrivDns.returned, PrivDns.after, PrivDns.taken]

end

/-! ### Rules -/

theorem recordsEffect_rule {X : Effect → Prop} {family protocol : Int} {srv : PrivSrv}
    (hnothing : X {}) (happend : ∀ e f, X e → X f → X (e ++ f))
    (hrecord : ∀ n record, X (recordEffect libs family protocol srv n record))
    (records : List Record) : ∀ n, X (recordsEffect libs family protocol srv n records) := by
  induction records with
  | nil => exact fun _ => hnothing
  | cons record rest ih => exact fun n => happend _ _ (hrecord n record) (ih _)

/-- What holds of the parts of an effect holds of the effect of an answer. -/
theorem callbackEffect_rule {X : Effect → Prop} (p : PrivDns) (srv : PrivSrv) (a : Answer)
    (hflags : ∀ failed secure, X { failed := failed, secure := secure })
    (hlower : ∀ secure e, X e → X (({ secure := secure } : Effect) ++ e))
    (hhost : X (hostEffect p.family p.srv))
    (hdns : p.type ≠ 0 → X { calls := [.setDnsAnswer a.data], answered := true })
    (hrecords : ∀ records, X (recordsEffect libs p.family p.protocol srv p.targets records)) :
    X (callbackEffect libs v p srv a) := by
  have hpacket : ∀ type pkt, X (packetEffect libs p srv type pkt) := by
    intro type pkt
    unfold packetEffect
    dsimp only
    generalize (if pkt.rcode = 0 ∧ pkt.answer = [] then LDNS_RCODE_NXDOMAIN else pkt.rcode) = rcode
    split
    · exact hrecords _
    · split
      · exact hhost
      · exact hflags true true
  have hanswer : X (answerEffect libs v p srv a.data) := by
    unfold answerEffect
    split
    · next htype => exact hdns htype
    · cases libs.wire2pkt a.data with
      | none => exact hflags true true
      | some pkt =>
          dsimp only
          cases pkt.question with
          | nil => exact hflags false true
          | cons type rest => exact hlower _ _ (hpacket _ _)
  unfold callbackEffect
  cases v with
  | ares =>
      dsimp only
      cases a.status with
      | destruction => exact hflags false true
      | failure => exact hflags true true
      | success | notFound => exact hanswer
  | unbound =>
      dsimp only
      split
      · exact hflags true true
      · split
        · exact hflags true false
        · exact hlower _ _ hanswer

end Netresolve.Dns
