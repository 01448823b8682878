/-
When the DNS backends mark a query secure.

`aresdns:trust` is to go by the AD flag of the packets and `ubdns:validate` by what
libunbound says of its results.  `Honest` is the invariant behind that: as long as the
`secure` flag is up, every answer the backend has passed on is one it may vouch for, and
nothing is passed on after the query was marked, because no lookup is left by then.

There is one hole.  `apply_answer` hands the answer of a DNS-style query on before it
looks at the packet, so `aresdns` never reads the AD flag of such an answer.  With
libunbound this does no harm, since `ubdns_callback` has read `secure` before.
-/
import Netresolve.Backends.Dns
import Netresolve.Proofs.Loose

namespace Netresolve.Dns

open Outcome

/-! ### What is asked of a backend -/

/-- The answer carries what the setting of the variant goes by. -/
def Answer.vouched (libs : Libs) (v : Variant) (a : Answer) : Bool :=
  match v with
  | .ares => (libs.wire2pkt a.data).any (·.ad)
  | .unbound => a.secure && !a.bogus

/-- The setting that allows the variant to mark a query secure. -/
def securingSetting : Variant → String
  | .ares => "trust"
  | .unbound => "validate"

/-- The calls that put data into the response. -/
def supplies : Call → Bool
  | .addPath _ | .setCanonicalName _ | .addNameInfo _ | .setDnsAnswer _ => true
  | _ => false

/-- The backend has put something of the answer into the response. -/
def Used (p : PrivDns) (a : Answer) : Prop :=
  ∃ call, (some a, call) ∈ p.calls ∧ supplies call = true

def MarkedSecure (p : PrivDns) : Prop := ∃ source, (source, Call.setSecure) ∈ p.calls

/--
A query is marked secure with the right setting only, and only if everything in the
response comes from answers that carry what the setting goes by.
-/
def OnlyVouched (libs : Libs) (v : Variant) (settings : List String) (p : PrivDns) : Prop :=
  MarkedSecure p →
    securingSetting v ∈ settings ∧ ∀ a, Used p a → a.vouched libs v = true

/-- The callback of c-ares goes on to apply the answer. -/
def Answer.applied (a : Answer) : Prop :=
  (a.status = .success ∨ a.status = .notFound) ∧ a.data ≠ []

/-- An answer without the AD flag has been delivered to a DNS-style query that trusts it. -/
def Unread (libs : Libs) (v : Variant) (settings : List String) (request : Request)
    (answers : List Answer) : Prop :=
  v = .ares ∧ "trust" ∈ settings ∧ request.type = .dns ∧ request.dnsType ≠ 0 ∧
    ∃ a ∈ answers, a.applied ∧ a.vouched libs v = false

/-- What libunbound promises: without a trust anchor no result is secure. -/
def Anchored (v : Variant) (settings : List String) (a : Answer) : Prop :=
  v = .unbound → "validate" ∉ settings → a.secure = false

/-! ### The invariant -/

section

variable (libs : Libs) (v : Variant) (settings : List String) (request : Request)

/-- The answer is vouched for, or it is the kind of answer nothing is read of. -/
def Sound (type : Int) (a : Answer) : Prop :=
  a.vouched libs v = true ∨ (v = .ares ∧ type ≠ 0)

structure Honest (p : PrivDns) : Prop where
  same : p.request = request
  typed : p.type ≠ 0 → request.type = .dns ∧ request.dnsType ≠ 0
  pending : p.pending = p.lookups.length
  setting : v = .ares → p.secure = true → "trust" ∈ settings
  answered : p.answered = true → ∃ a, Used p a
  sound : p.secure = true → ∀ a, Used p a → Sound libs v p.type a
  delivered : ∀ a, Used p a → a ∈ p.answers ∧ (v = .ares → a.applied)
  anchored : ∀ a ∈ p.answers, Anchored v settings a
  marked : MarkedSecure p → p.lookups = [] ∧ (v = .ares → "trust" ∈ settings) ∧
    (∃ a, Used p a) ∧ ∀ a, Used p a → Sound libs v p.type a

/-- In the middle of the callback for an answer. -/
structure Applying (a : Answer) (p : PrivDns) : Prop extends Honest libs v settings request p where
  unmarked : ¬ MarkedSecure p
  applying : p.applying = some a
  arrived : a ∈ p.answers

/-- The same, after what vouches for the answer has been read. -/
structure Reading (a : Answer) (p : PrivDns) : Prop extends Applying libs v settings request a p where
  read : p.secure = true → Sound libs v p.type a
  applied : v = .ares → a.applied

end

variable {libs : Libs} {v : Variant} {settings : List String} {request : Request}
variable {p : PrivDns} {a : Answer}

/-! ### One call -/

theorem sat_emit (call : Call) (p : PrivDns) (Q : Unit → PrivDns → Prop)
    (E : Fault → PrivDns → Prop) :
    Sat (emit call) p Q E ↔ Q () { p with calls := p.calls ++ [(p.applying, call)] } := Iff.rfl

theorem used_emit (p : PrivDns) (call : Call) (a : Answer) :
    Used { p with calls := p.calls ++ [(p.applying, call)] } a ↔
      Used p a ∨ p.applying = some a ∧ supplies call = true := by
  simp only [Used, List.mem_append, List.mem_singleton, Prod.mk.injEq]
  constructor
  · rintro ⟨c, hc | ⟨hc, rfl⟩, hs⟩
    · exact Or.inl ⟨c, hc, hs⟩
    · exact Or.inr ⟨hc.symm, hs⟩
  · rintro (⟨c, hc, hs⟩ | ⟨hc, hs⟩)
    · exact ⟨c, Or.inl hc, hs⟩
    · exact ⟨call, Or.inr ⟨hc.symm, rfl⟩, hs⟩

theorem marked_emit (p : PrivDns) (call : Call) :
    MarkedSecure { p with calls := p.calls ++ [(p.applying, call)] } ↔
      MarkedSecure p ∨ call = .setSecure := by
  simp only [MarkedSecure, List.mem_append, List.mem_singleton, Prod.mk.injEq]
  constructor
  · rintro ⟨source, h | ⟨-, h⟩⟩
    · exact Or.inl ⟨source, h⟩
    · exact Or.inr h.symm
  · rintro (⟨source, h⟩ | rfl)
    · exact ⟨source, Or.inl h⟩
    · exact ⟨p.applying, Or.inr ⟨rfl, rfl⟩⟩

/-- A call that supplies nothing and does not mark the query either. -/
theorem Honest.emit (h : Honest libs v settings request p) {call : Call} (hs : supplies call = false)
    (hm : call ≠ .setSecure) :
    Honest libs v settings request { p with calls := p.calls ++ [(p.applying, call)] } := by
  have hused : ∀ a, Used { p with calls := p.calls ++ [(p.applying, call)] } a ↔ Used p a := by
    intro a
    rw [used_emit, hs]
    simp
  have hmarked : MarkedSecure { p with calls := p.calls ++ [(p.applying, call)] } ↔
      MarkedSecure p := by
    rw [marked_emit]
    simp [hm]
  refine ⟨h.same, h.typed, h.pending, h.setting, ?_, ?_, ?_, h.anchored, ?_⟩
  · simpa only [hused] using h.answered
  · simpa only [hused] using h.sound
  · simpa only [hused] using h.delivered
  · simpa only [hused, hmarked] using h.marked

/-- A call that supplies data, once its answer has been read. -/
theorem Reading.supply (h : Reading libs v settings request a p) {call : Call}
    (hs : supplies call = true) :
    Reading libs v settings request a { p with calls := p.calls ++ [(p.applying, call)] } := by
  have hm : call ≠ .setSecure := by
    rintro rfl
    cases hs
  have hunmarked : ¬ MarkedSecure { p with calls := p.calls ++ [(p.applying, call)] } := by
    rw [marked_emit]
    exact fun hmark => hmark.elim h.unmarked hm
  refine ⟨⟨⟨h.same, h.typed, h.pending, h.setting, ?_, ?_, ?_, h.anchored, fun hmark => absurd hmark hunmarked⟩,
    hunmarked, h.applying, h.arrived⟩, h.read, h.applied⟩
  · intro _
    exact ⟨a, (used_emit p call a).mpr (Or.inr ⟨h.applying, hs⟩)⟩
  · intro hsecure b hb
    rcases (used_emit p call b).mp hb with hb | ⟨hb, -⟩
    · exact h.sound hsecure b hb
    · obtain rfl : a = b := Option.some.inj (h.applying.symm.trans hb)
      exact h.read hsecure
  · intro b hb
    rcases (used_emit p call b).mp hb with hb | ⟨hb, -⟩
    · exact h.delivered b hb
    · obtain rfl : a = b := Option.some.inj (h.applying.symm.trans hb)
      exact ⟨h.arrived, h.applied⟩

/-- The two states differ in nothing the invariant speaks of. -/
structure Alike (p p' : PrivDns) : Prop where
  request : p'.request = p.request
  pending : p'.pending = p.pending
  lookups : p'.lookups = p.lookups
  answered : p'.answered = p.answered
  secure : p'.secure = p.secure
  type : p'.type = p.type
  answers : p'.answers = p.answers
  calls : p'.calls = p.calls

theorem Honest.alike {p' : PrivDns} (h : Honest libs v settings request p) (hp : Alike p p') :
    Honest libs v settings request p' := by
  have hused : ∀ a, Used p' a ↔ Used p a := fun a => by rw [Used, Used, hp.calls]
  have hmarked : MarkedSecure p' ↔ MarkedSecure p := by rw [MarkedSecure, MarkedSecure, hp.calls]
  refine ⟨hp.request.trans h.same, ?_, ?_, ?_, ?_, ?_, ?_, ?_, ?_⟩
  · rw [hp.type]; exact h.typed
  · rw [hp.pending, hp.lookups]; exact h.pending
  · rw [hp.secure]; exact h.setting
  · simpa only [hused, hp.answered] using h.answered
  · simpa only [hused, hp.secure, hp.type] using h.sound
  · simpa only [hused, hp.answers] using h.delivered
  · rw [hp.answers]; exact h.anchored
  · simpa only [hused, hmarked, hp.lookups, hp.type] using h.marked

theorem Applying.alike {p' : PrivDns} (h : Applying libs v settings request a p) (hp : Alike p p')
    (happ : p'.applying = p.applying) : Applying libs v settings request a p' := by
  refine ⟨h.toHonest.alike hp, ?_, happ.trans h.applying, ?_⟩
  · rw [MarkedSecure, hp.calls]; exact h.unmarked
  · rw [hp.answers]; exact h.arrived

theorem Reading.alike {p' : PrivDns} (h : Reading libs v settings request a p) (hp : Alike p p')
    (happ : p'.applying = p.applying) : Reading libs v settings request a p' := by
  refine ⟨h.toApplying.alike hp happ, ?_, h.applied⟩
  rw [hp.secure, hp.type]
  exact h.read

/-! ### Applying an answer -/

theorem Reading.lookup (h : Reading libs v settings request a p) (lookup : Lookup) :
    Reading libs v settings request a
      { p with pending := p.pending + 1, lookups := p.lookups ++ [lookup] } := by
  refine ⟨⟨{ h.toHonest with pending := ?_, marked := fun hmark => absurd hmark h.unmarked },
    h.unmarked, h.applying, h.arrived⟩, h.read, h.applied⟩
  show p.pending + 1 = ((p.lookups ++ [lookup]).length : Int)
  rw [h.pending, List.length_append]
  simp

theorem Reading.answer (h : Reading libs v settings request a p) (hused : Used p a) :
    Reading libs v settings request a { p with answered := true } :=
  ⟨⟨{ h.toHonest with answered := fun _ => ⟨a, hused⟩ }, h.unmarked, h.applying, h.arrived⟩,
    h.read, h.applied⟩

/-- Looking a host up is looking up one or two records. -/
theorem lookupHost_stays {F : PrivDns → PrivDns → Prop} [IsPreorder PrivDns F] {srv : PrivSrv}
    (h : ∀ name type cls, Stays F (fun _ => True) (lookupDns srv name type cls)) :
    Stays F (fun _ => True) (lookupHost srv) := by
  refine Stays.bind Stays.get fun p => Stays.bind ?_ fun _ => ?_
  · exact Stays.ite (h _ _ _) (Stays.pure _)
  · exact Stays.ite (h _ _ _) (Stays.pure _)

theorem lookupHost_reading (srv : PrivSrv) :
    Stays (Kept (Reading libs v settings request a)) (fun _ => True) (lookupHost srv) :=
  lookupHost_stays fun name type cls => Stays.modify fun _ h => h.lookup ⟨srv, name, type, cls⟩

theorem emit_kept {call : Call} (hs : supplies call = true) :
    Stays (Kept (Reading libs v settings request a)) (fun _ => True) (emit call) :=
  Stays.modify fun _ h => h.supply hs

/-- Data are supplied and the answer counts as one. -/
theorem emit_answered {call : Call} (hs : supplies call = true) :
    Stays (Kept (Reading libs v settings request a)) (fun _ => True)
      (do emit call; modify fun p => { p with answered := true }) := by
  intro p
  rw [sat_bind, sat_emit, sat_modify]
  intro h
  exact (h.supply hs).answer ((used_emit p call a).mpr (Or.inr ⟨h.applying, hs⟩))

theorem applySrv_reading (priority weight port : UInt16) (name : String) :
    Stays (Kept (Reading libs v settings request a)) (fun _ => True)
      (applySrv libs priority weight port name) := by
  refine Stays.bind Stays.get fun p => Stays.bind (Stays.modify fun q h => ?_) fun _ =>
    Stays.ite ?_ ?_
  · exact h.alike ⟨rfl, rfl, rfl, rfl, rfl, rfl, rfl, rfl⟩ rfl
  · exact Stays.bind (emit_kept rfl) fun _ => lookupHost_reading _
  · exact Stays.modify fun q h => ⟨⟨h.toHonest.emit rfl (by simp), fun hmark =>
      ((marked_emit q .failed).mp hmark).elim h.unmarked (by simp), h.applying, h.arrived⟩, h.read,
      h.applied⟩

theorem applyRecord_reading (srv : PrivSrv) (record : Record) :
    Stays (Kept (Reading libs v settings request a)) (fun _ => True) (applyRecord libs srv record) := by
  cases record with
  | cname name => exact emit_kept rfl
  | ptr name => exact emit_answered rfl
  | a address ttl => exact Stays.bind Stays.get fun _ => emit_answered rfl
  | aaaa address ttl => exact Stays.bind Stays.get fun _ => emit_answered rfl
  | srv priority weight port name => exact applySrv_reading priority weight port name
  | other type => exact Stays.pure _

theorem applyPacket_reading (srv : PrivSrv) (type : Int) (pkt : Packet) :
    Stays (Kept (Reading libs v settings request a)) (fun _ => True) (applyPacket libs srv type pkt) := by
  refine Stays.ite ?_ (Stays.ite ?_ ?_)
  · exact Stays.forM (applyRecord_reading srv) pkt.answer
  · exact Stays.bind Stays.get fun _ => lookupHost_reading _
  · exact Stays.modify fun p h => h.alike ⟨rfl, rfl, rfl, rfl, rfl, rfl, rfl, rfl⟩ rfl

/-- The flag is never raised after setup. -/
theorem Applying.lower (h : Applying libs v settings request a p) {b : Bool}
    (hb : b = true → p.secure = true) : Applying libs v settings request a { p with secure := b } :=
  ⟨{ h.toHonest with
      setting := fun hv hs => h.setting hv (hb hs)
      sound := fun hs => h.sound (hb hs) }, h.unmarked, h.applying, h.arrived⟩

/-- It is lowered or left up as what is read of the answer demands. -/
theorem Applying.read (h : Applying libs v settings request a p) {b : Bool}
    (hb : p.secure = true → b = true → Sound libs v p.type a) (happlied : v = .ares → a.applied) :
    Reading libs v settings request a { p with secure := p.secure && b } := by
  have hand : (p.secure && b) = true → p.secure = true ∧ b = true := by simp
  exact ⟨h.lower fun hs => (hand hs).1, fun hs => hb (hand hs).1 (hand hs).2, happlied⟩

theorem applyAnswer_applying (srv : PrivSrv) (h : Applying libs v settings request a p)
    (hread : v = .unbound → p.secure = true → a.vouched libs v = true)
    (hstatus : v = .ares → a.status = .success ∨ a.status = .notFound) :
    Sat (applyAnswer libs v srv a.data) p (fun _ => Applying libs v settings request a)
      (fun _ => Applying libs v settings request a) := by
  have hkept : ∀ {x : D Unit} {q : PrivDns},
      Stays (Kept (Reading libs v settings request a)) (fun _ => True) x → Reading libs v settings request a q →
      Sat x q (fun _ => Applying libs v settings request a) (fun _ => Applying libs v settings request a) :=
    fun hx hq => (hx.kept hq).mono (fun _ _ h => h.toApplying) (fun _ _ h => h.toApplying)
  unfold applyAnswer
  rw [sat_ite]
  refine ⟨fun _ => h, fun hdata => ?_⟩
  have happlied : v = .ares → a.applied := fun hv => ⟨hstatus hv, hdata⟩
  rw [sat_bind, sat_get, sat_ite]
  refine ⟨fun htype => ?_, fun _ => ?_⟩
  · -- the answer is handed on unread, so only libunbound has vouched for it
    refine hkept (emit_answered rfl) ⟨h, fun hs => ?_, happlied⟩
    cases v with
    | ares => exact Or.inr ⟨rfl, htype⟩
    | unbound => exact Or.inl (hread rfl hs)
  · cases hpkt : libs.wire2pkt a.data with
    | none => exact h.alike ⟨rfl, rfl, rfl, rfl, rfl, rfl, rfl, rfl⟩ rfl
    | some pkt =>
        dsimp only
        cases hq : pkt.question with
        | nil => exact h
        | cons type rest =>
            dsimp only
            rw [sat_bind, sat_modify]
            refine hkept (applyPacket_reading srv type pkt) (h.read (fun hs hb => Or.inl ?_) happlied)
            cases v with
            | ares => simpa [Answer.vouched, hpkt] using hb
            | unbound => exact hread rfl hs

/-! ### The outcome -/

theorem Honest.mark (h : Honest libs v settings request p) (hl : p.lookups = []) (ha : p.answered = true)
    (hs : p.secure = true) :
    Honest libs v settings request { p with calls := p.calls ++ [(p.applying, .setSecure)] } := by
  have hused : ∀ a, Used { p with calls := p.calls ++ [(p.applying, .setSecure)] } a ↔ Used p a := by
    intro a
    rw [used_emit]
    simp [supplies]
  refine ⟨h.same, h.typed, h.pending, h.setting, ?_, ?_, ?_, h.anchored, fun _ => ⟨hl, ?_, ?_, ?_⟩⟩
  · simpa only [hused] using h.answered
  · simpa only [hused] using h.sound
  · simpa only [hused] using h.delivered
  · exact fun hv => h.setting hv hs
  · simpa only [hused] using h.answered ha
  · simpa only [hused] using h.sound hs

theorem check_honest : Stays (Kept (Honest libs v settings request)) (fun _ => True) check := by
  intro p
  unfold check
  simp only [sat_bind, sat_get, sat_ite, sat_throw, sat_pure]
  refine ⟨fun _ => ⟨id, trivial⟩, fun _ => ⟨fun hpending => ?_, fun _ => id⟩⟩
  have hlookups : Honest libs v settings request p → p.lookups = [] := by
    intro h
    have hlen := h.pending
    rw [hpending] at hlen
    exact List.length_eq_zero_iff.mp (by omega)
  have hend : ∀ q, Sat (emit (if p.failed then .failed else .finished)) q
      (fun _ => Kept (Honest libs v settings request) q)
      (fun _ q' => Kept (Honest libs v settings request) q q' ∧ True) := by
    intro q
    refine Stays.modify (F := Kept _) (fun q h => h.emit ?_ ?_) q <;> split <;> simp [supplies]
  refine ⟨fun hmark => ?_, fun _ => hend p⟩
  simp only [Bool.and_eq_true] at hmark
  rw [sat_emit]
  exact (hend _).mono (fun _ _ hk h => hk (h.mark (hlookups h) hmark.1 hmark.2))
    (fun _ _ hk => ⟨fun h => hk.1 (h.mark (hlookups h) hmark.1 hmark.2), trivial⟩)

/-! ### One completion -/

/-- The lookup is answered: it is taken off the list and counted down. -/
theorem Honest.deliver (h : Honest libs v settings request p) {k : Nat} {lookup : Lookup}
    (hk : p.lookups[k]? = some lookup) (ha : Anchored v settings a) :
    Applying libs v settings request a { p with
      lookups := p.lookups.eraseIdx k
      answers := a :: p.answers
      applying := some a
      pending := p.pending - 1 } := by
  have hlt : k < p.lookups.length := (List.getElem?_eq_some_iff.mp hk).1
  have hunmarked : ¬ MarkedSecure p := by
    intro hmark
    rw [(h.marked hmark).1] at hlt
    exact absurd hlt (Nat.not_lt_zero k)
  refine ⟨{ h with
    pending := ?_
    delivered := fun b hb => ⟨List.mem_cons_of_mem a (h.delivered b hb).1, (h.delivered b hb).2⟩
    anchored := ?_
    marked := fun hmark => absurd hmark hunmarked }, hunmarked, rfl, List.mem_cons_self⟩
  · show p.pending - 1 = ((p.lookups.eraseIdx k).length : Int)
    rw [h.pending, List.length_eraseIdx_of_lt hlt]
    omega
  · intro b hb
    rcases List.mem_cons.mp hb with rfl | hb
    · exact ha
    · exact h.anchored b hb

theorem complete_honest (completion : Nat × Answer) (ha : Anchored v settings completion.2)
    (h : Honest libs v settings request p) :
    Sat (complete libs v completion) p (fun _ => Honest libs v settings request)
      (fun _ => Honest libs v settings request) := by
  obtain ⟨k, a⟩ := completion
  -- after the callback the ghost field is all that changes
  have hafter : ∀ {x : D Unit} {q : PrivDns}, Sat x q (fun _ => Honest libs v settings request)
      (fun _ => Honest libs v settings request) →
      Sat (x >>= fun _ => modify fun p => { p with applying := none }) q
        (fun _ => Honest libs v settings request) (fun _ => Honest libs v settings request) := by
    intro x q hx
    rw [sat_bind]
    exact hx.mono (fun _ _ h => h.alike ⟨rfl, rfl, rfl, rfl, rfl, rfl, rfl, rfl⟩) (fun _ _ h => h)
  have hcheck : ∀ {x : D Unit} {q : PrivDns}, Sat x q (fun _ => Applying libs v settings request a)
      (fun _ => Applying libs v settings request a) → Sat (x >>= fun _ => check) q
        (fun _ => Honest libs v settings request) (fun _ => Honest libs v settings request) := by
    intro x q hx
    rw [sat_bind]
    exact hx.mono (fun _ _ h => check_honest.kept h.toHonest) (fun _ _ h => h.toHonest)
  unfold complete
  rw [sat_bind, sat_get]
  cases hk : p.lookups[k]? with
  | none => exact h
  | some lookup =>
      dsimp only
      rw [sat_bind, sat_modify]
      refine hafter ?_
      have hdeliver := h.deliver hk ha
      cases v with
      | ares =>
          unfold aresdnsCallback
          rw [sat_bind, sat_modify]
          cases hstatus : a.status with
          | destruction => exact hdeliver.toHonest
          | failure => exact hdeliver.toHonest.alike ⟨rfl, rfl, rfl, rfl, rfl, rfl, rfl, rfl⟩
          | success | notFound =>
              exact hcheck (applyAnswer_applying lookup.srv hdeliver (fun hv => by cases hv)
                fun _ => by simp [hstatus])
      | unbound =>
          unfold ubdnsCallback
          rw [sat_bind, sat_modify, sat_ite]
          refine ⟨fun _ => hdeliver.toHonest.alike ⟨rfl, rfl, rfl, rfl, rfl, rfl, rfl, rfl⟩, fun _ => ?_⟩
          rw [sat_bind, sat_modify]
          refine hcheck ?_
          rw [sat_ite]
          refine ⟨fun _ => ?_, fun hbogus => ?_⟩
          · exact (hdeliver.lower (by simp)).alike ⟨rfl, rfl, rfl, rfl, rfl, rfl, rfl, rfl⟩ rfl
          · have hread := hdeliver.read (fun _ (hsecure : a.secure = true) =>
              Or.inl (show a.vouched libs .unbound = true by simp [Answer.vouched, hsecure, hbogus]))
              nofun
            refine applyAnswer_applying lookup.srv hread.toApplying (fun _ hs => ?_) nofun
            rcases hread.read hs with hv | ⟨hv, -⟩
            · exact hv
            · cases hv

/-! ### Descriptors -/

section

variable {F : PrivDns → PrivDns → Prop} [IsPreorder PrivDns F]

/-- Watching is calls about watches, and what is kept about them. -/
theorem watchFileDescriptors_stays {G : Fault → Prop} (hassert : G .assertion) (fds : Fds)
    (hadd : ∀ fd, Stays F G (emit (.watchAdd fd)))
    (hkeep : ∀ p fds watched, F p { p with fds := fds, watched := watched }) :
    Stays F G (watchFileDescriptors fds) := by
  have hwatch : ∀ fd, Stays F G (watchFd fd) :=
    fun fd => Stays.bind (hadd fd) fun _ => Stays.modify fun p => hkeep p p.fds _
  refine Stays.bind Stays.get fun p => Stays.ite (Stays.throw hassert)
    (Stays.bind (Stays.modify fun p => hkeep p fds p.watched) fun _ =>
      Stays.forM (fun fd => Stays.bind ?_ fun _ => ?_) _)
  · exact Stays.ite (hwatch fd) (Stays.pure _)
  · exact Stays.ite (hwatch fd) (Stays.pure _)

theorem unwatchFileDescriptors_stays
    (hremove : ∀ k, Stays F (fun _ => True) (emit (.watchRemove k false)))
    (hkeep : ∀ p fds watched, F p { p with fds := fds, watched := watched }) :
    Stays F (fun _ => True) unwatchFileDescriptors := by
  refine Stays.bind Stays.get fun p => Stays.ite (Stays.throw trivial)
    (Stays.bind (Stays.forM (fun fd => Stays.ite ?_ (Stays.pure _)) _) fun _ =>
      Stays.modify fun p => hkeep p {} p.watched)
  refine Stays.bind Stays.get fun q => Stays.bind Stays.get fun _ => ?_
  exact Stays.bind (hremove _) fun _ => Stays.modify fun p => hkeep p p.fds _

end

theorem watchFileDescriptors_honest (fds : Fds) :
    Stays (Kept (Honest libs v settings request)) (fun _ => True) (watchFileDescriptors fds) :=
  watchFileDescriptors_stays trivial fds (fun _ => Stays.modify fun _ h => h.emit rfl (by simp))
    fun _ _ _ h => h.alike ⟨rfl, rfl, rfl, rfl, rfl, rfl, rfl, rfl⟩

theorem unwatchFileDescriptors_honest :
    Stays (Kept (Honest libs v settings request)) (fun _ => True) unwatchFileDescriptors :=
  unwatchFileDescriptors_stays (fun _ => Stays.modify fun _ h => h.emit rfl (by simp))
    fun _ _ _ h => h.alike ⟨rfl, rfl, rfl, rfl, rfl, rfl, rfl, rfl⟩

/-! ### Whole runs -/

theorem dispatch_honest (round : Round)
    (ha : ∀ c ∈ round.completions, Anchored v settings c.2) (h : Honest libs v settings request p) :
    Sat (dispatch libs v round) p (fun _ => Honest libs v settings request)
      (fun _ => Honest libs v settings request) := by
  have hloop : ∀ q, Honest libs v settings request q → Sat (forM round.completions (complete libs v)) q
      (fun _ => Honest libs v settings request) (fun _ => Honest libs v settings request) := by
    intro q hq
    refine (sat_forM (fun rest q => (∀ c ∈ rest, Anchored v settings c.2) ∧ Honest libs v settings request q)
      (fun c rest q hq => ?_) round.completions q ⟨ha, hq⟩).mono (fun _ _ h => h.2) (fun _ _ h => h)
    refine (complete_honest c (hq.1 c List.mem_cons_self) hq.2).mono
      (fun _ _ h => ⟨fun c' hc' => hq.1 c' (List.mem_cons_of_mem c hc'), h⟩) (fun _ _ h => h)
  cases v with
  | unbound => exact hloop p h
  | ares =>
      unfold dispatch
      dsimp only
      rw [sat_bind]
      refine (unwatchFileDescriptors_honest.kept h).mono (fun _ q hq => ?_) (fun _ _ h => h)
      rw [sat_bind]
      refine (hloop q hq).mono (fun _ q hq => ?_) (fun _ _ h => h)
      exact (Stays.bind (watchFileDescriptors_honest round.fds) fun _ => check_honest).kept hq

/-- A backend that has not been given an answer yet. -/
structure Blank (libs : Libs) (v : Variant) (settings : List String) (request : Request)
    (p : PrivDns) : Prop
    extends Honest libs v settings request p where
  unused : ∀ a, ¬ Used p a
  unmarked : ¬ MarkedSecure p

theorem Blank.alike {p' : PrivDns} (h : Blank libs v settings request p) (hp : Alike p p') :
    Blank libs v settings request p' := by
  refine ⟨h.toHonest.alike hp, fun a => ?_, ?_⟩
  · rw [Used, hp.calls]; exact h.unused a
  · rw [MarkedSecure, hp.calls]; exact h.unmarked

theorem Blank.emit (h : Blank libs v settings request p) {call : Call} (hs : supplies call = false)
    (hm : call ≠ .setSecure) :
    Blank libs v settings request { p with calls := p.calls ++ [(p.applying, call)] } := by
  refine ⟨h.toHonest.emit hs hm, fun a hused => ?_, fun hmark => ?_⟩
  · rcases (used_emit p call a).mp hused with hused | ⟨-, hused⟩
    · exact h.unused a hused
    · rw [hs] at hused
      cases hused
  · exact ((marked_emit p call).mp hmark).elim h.unmarked hm

theorem Blank.lookup (h : Blank libs v settings request p) (lookup : Lookup) :
    Blank libs v settings request
      { p with pending := p.pending + 1, lookups := p.lookups ++ [lookup] } := by
  refine ⟨{ h.toHonest with pending := ?_, marked := fun hmark => absurd hmark h.unmarked },
    h.unused, h.unmarked⟩
  show p.pending + 1 = ((p.lookups ++ [lookup]).length : Int)
  rw [h.pending, List.length_append]
  simp

/-- Before the first answer the flag may be raised and the type set. -/
theorem Blank.raise (h : Blank libs v settings request p) (hs : v = .ares → "trust" ∈ settings) :
    Blank libs v settings request { p with secure := true } :=
  ⟨{ h.toHonest with
      setting := fun hv _ => hs hv
      sound := fun _ a ha => absurd ha (h.unused a) }, h.unused, h.unmarked⟩

theorem Blank.retype (h : Blank libs v settings request p) (hdns : request.type = .dns) :
    Blank libs v settings request { p with type := p.request.dnsType } :=
  ⟨{ h.toHonest with
      typed := fun htype => ⟨hdns, h.same ▸ htype⟩
      sound := fun _ a ha => absurd ha (h.unused a)
      marked := fun hmark => absurd hmark h.unmarked }, h.unused, h.unmarked⟩

theorem settings_blank (l : List String) :
    ∀ p, (∀ setting ∈ l, setting ∈ settings) → Blank libs v settings request p →
      Blank libs v settings request (l.foldl (applySetting v) p) := by
  induction l with
  | nil => exact fun p _ h => h
  | cons setting rest ih =>
      intro p hl h
      refine ih _ (fun s hs => hl s (List.mem_cons_of_mem setting hs)) ?_
      unfold applySetting
      split
      · rename_i htrust
        exact h.raise fun _ => htrust ▸ hl setting List.mem_cons_self
      · split
        · rename_i hv
          have hraised := h.raise fun hares => absurd (hares.symm.trans hv.1) (by decide)
          exact hraised.alike ⟨rfl, rfl, rfl, rfl, rfl, rfl, rfl, rfl⟩
        · exact h

theorem emit_blank {call : Call} (hs : supplies call = false) (hm : call ≠ .setSecure) :
    Stays (Kept (Blank libs v settings request)) (fun _ => True) (emit call) :=
  Stays.modify fun _ h => h.emit hs hm

theorem openLibrary_blank :
    Stays (Kept (Blank libs v settings request)) (fun _ => True) (openLibrary libs settings v) := by
  cases v with
  | ares => exact Stays.pure _
  | unbound =>
      refine Stays.bind Stays.get fun p => Stays.ite ?_ (Stays.pure _)
      exact Stays.bind (emit_blank rfl (by simp)) fun _ => Stays.pure _

theorem setup_blank :
    Stays (Kept (Blank libs v settings request)) (fun _ => True) (setup libs v settings) := by
  refine Stays.bind (emit_blank rfl (by simp)) fun _ => Stays.ite ?_ (Stays.pure _)
  refine Stays.bind (Stays.modify fun p h => settings_blank settings p (fun _ hs => hs) h) fun _ => ?_
  refine Stays.bind (Stays.modify fun p h => ?_) fun _ => openLibrary_blank
  exact h.alike ⟨rfl, rfl, rfl, rfl, rfl, rfl, rfl, rfl⟩

theorem lookupDns_blank (srv : PrivSrv) (name : Option String) (type cls : Int) :
    Stays (Kept (Blank libs v settings request)) (fun _ => True) (lookupDns srv name type cls) :=
  Stays.modify fun _ h => h.lookup ⟨srv, name, type, cls⟩

theorem lookupSrv_blank :
    Stays (Kept (Blank libs v settings request)) (fun _ => True) (lookupSrv libs) := by
  refine Stays.bind Stays.get fun p => Stays.ite (lookupDns_blank _ _ _ _) (Stays.modify fun q h => ?_)
  exact h.alike ⟨rfl, rfl, rfl, rfl, rfl, rfl, rfl, rfl⟩

theorem lookupAddress_blank :
    Stays (Kept (Blank libs v settings request)) (fun _ => True) lookupAddress :=
  Stays.bind Stays.get fun _ => Stays.ite (lookupDns_blank _ _ _ _)
    (Stays.ite (lookupDns_blank _ _ _ _) (Stays.throw trivial))

/-- The lookups of a query are issued, and then its channel is watched. -/
theorem watchChannel_honest {x : D Unit} (hx : Stays (Kept (Blank libs v settings request)) (fun _ => True) x)
    (h : Blank libs v settings request p) :
    Sat (x >>= fun _ => watchChannel libs v) p (fun _ => Honest libs v settings request)
      (fun _ => Honest libs v settings request) := by
  rw [sat_bind]
  refine (hx.kept h).mono (fun _ q hq => ?_) (fun _ _ hq => hq.toHonest)
  cases v with
  | unbound => exact hq.toHonest
  | ares => exact (watchFileDescriptors_honest libs.aresFds).kept hq.toHonest

theorem query_honest (h : Blank libs v settings request p) :
    Sat (query libs v settings) p (fun _ => Honest libs v settings request)
      (fun _ => Honest libs v settings request) := by
  have hfail : ∀ q, Blank libs v settings request q → Sat (emit .failed) q
      (fun _ => Honest libs v settings request) (fun _ => Honest libs v settings request) :=
    fun q hq => (hq.emit rfl (by simp)).toHonest
  unfold query
  rw [sat_bind, sat_get]
  cases htype : p.request.type with
  | forward =>
      dsimp only
      unfold queryForward
      rw [sat_bind]
      refine (setup_blank.kept h).mono (fun ready q hq => ?_) (fun _ _ hq => hq.toHonest)
      rw [sat_bind, sat_get, sat_ite]
      refine ⟨fun _ => ?_, fun _ => hfail q hq⟩
      refine watchChannel_honest (Stays.bind Stays.get fun _ => Stays.ite ?_ ?_) hq
      · exact Stays.bind (Stays.modify fun q h => h.alike ⟨rfl, rfl, rfl, rfl, rfl, rfl, rfl, rfl⟩)
          fun _ => lookupSrv_blank
      · exact Stays.bind Stays.get fun _ => lookupHost_stays (lookupDns_blank _)
  | reverse =>
      dsimp only
      unfold queryReverse
      rw [sat_bind]
      refine (setup_blank.kept h).mono (fun ready q hq => ?_) (fun _ _ hq => hq.toHonest)
      rw [sat_ite]
      refine ⟨fun _ => ?_, fun _ => hfail q hq⟩
      rw [sat_bind, sat_modify]
      exact watchChannel_honest lookupAddress_blank (hq.alike ⟨rfl, rfl, rfl, rfl, rfl, rfl, rfl, rfl⟩)
  | dns =>
      dsimp only
      unfold queryDns
      rw [sat_bind]
      refine (setup_blank.kept h).mono (fun ready q hq => ?_) (fun _ _ hq => hq.toHonest)
      rw [sat_bind, sat_get, sat_ite]
      refine ⟨fun _ => ?_, fun _ => hfail q hq⟩
      rw [sat_bind, sat_modify, sat_bind, sat_get]
      refine watchChannel_honest (lookupDns_blank _ _ _ _) ?_
      exact (hq.retype (h.same ▸ htype)).alike ⟨rfl, rfl, rfl, rfl, rfl, rfl, rfl, rfl⟩

theorem blank_start (request : Request) : Blank libs v settings request { request := request } := by
  have hunused : ∀ a, ¬ Used { request := request } a := by
    rintro a ⟨call, hcall, -⟩
    cases hcall
  have hunmarked : ¬ MarkedSecure { request := request } := by
    rintro ⟨source, hsource⟩
    cases hsource
  exact ⟨⟨rfl, fun h => absurd rfl h, rfl, nofun, nofun, nofun, fun a ha => absurd ha (hunused a), nofun,
    fun hmark => absurd hmark hunmarked⟩, hunused, hunmarked⟩

theorem run_honest (request : Request) (rounds : List Round)
    (ha : ∀ round ∈ rounds, ∀ c ∈ round.completions, Anchored v settings c.2) :
    Honest libs v settings request (final (run libs v settings rounds) { request := request }) := by
  refine Sat.final ?_
  unfold run
  rw [sat_bind]
  refine (query_honest (blank_start request)).mono (fun _ p hp => ?_) (fun _ _ h => h)
  refine (sat_forM (fun rest q => (∀ round ∈ rest, ∀ c ∈ round.completions,
    Anchored v settings c.2) ∧ Honest libs v settings request q) (fun round rest q hq => ?_) rounds p
    ⟨ha, hp⟩).mono (fun _ _ h => h.2) (fun _ _ h => h)
  exact (dispatch_honest round (hq.1 round List.mem_cons_self) hq.2).mono
    (fun _ _ h => ⟨fun r hr => hq.1 r (List.mem_cons_of_mem round hr), h⟩) (fun _ _ h => h)

/-! ### Where the AD flag is not read

A DNS-style query has one lookup.  With `aresdns:trust` the flag is up when its answer
arrives, and the answer is handed on and vouched for whatever it says.
-/

structure Trusting (p : PrivDns) : Prop where
  open_ : p.lookups = [] ∨
    p.lookups.length = 1 ∧ p.pending = 1 ∧ p.type ≠ 0 ∧ p.secure = true
  taken : ∀ a ∈ p.answers, a.applied → Used p a ∧ MarkedSecure p

theorem Trusting.emit (h : Trusting p) (call : Call) :
    Trusting { p with calls := p.calls ++ [(p.applying, call)] } := by
  refine ⟨h.open_, fun a ha happlied => ?_⟩
  obtain ⟨hused, hmarked⟩ := h.taken a ha happlied
  exact ⟨(used_emit p call a).mpr (Or.inl hused), (marked_emit p call).mpr (Or.inl hmarked)⟩

theorem emit_trusting (call : Call) : Stays (Kept Trusting) (fun _ => True) (emit call) :=
  Stays.modify fun _ h => h.emit call

theorem check_trusting : Stays (Kept Trusting) (fun _ => True) check := by
  refine Stays.bind Stays.get fun p => Stays.ite (Stays.throw trivial) (Stays.ite ?_ (Stays.pure _))
  exact Stays.bind (Stays.ite (emit_trusting _) (Stays.pure _)) fun _ => emit_trusting _

/-- The answer that closes the lookup is used and marks the query, if it is applied at all. -/
theorem aresdnsCallback_trusting (srv : PrivSrv) (hl : p.lookups = []) (hpending : p.pending = 1)
    (htype : p.type ≠ 0) (hsecure : p.secure = true) (happ : p.applying = some a)
    (htaken : ∀ b ∈ p.answers, b.applied → b ≠ a → Used p b ∧ MarkedSecure p) :
    Sat (aresdnsCallback libs srv a) p (fun _ => Trusting) (fun _ => Trusting) := by
  have hleft : ¬ a.applied → ∀ b ∈ p.answers, b.applied → Used p b ∧ MarkedSecure p :=
    fun hna b hb happlied => htaken b hb happlied fun hba => hna (hba ▸ happlied)
  unfold aresdnsCallback
  rw [sat_bind, sat_modify]
  cases hstatus : a.status with
  | destruction | failure =>
      exact ⟨Or.inl hl, hleft fun happlied => by simp [Answer.applied, hstatus] at happlied⟩
  | success | notFound =>
      rw [sat_bind]
      unfold applyAnswer
      rw [sat_ite]
      refine ⟨fun hdata => ⟨Or.inl hl, hleft fun happlied => happlied.2 hdata⟩, fun hdata => ?_⟩
      rw [sat_bind, sat_get, sat_ite]
      refine ⟨fun _ => ?_, fun h => absurd htype h⟩
      rw [sat_bind, sat_emit, sat_modify]
      unfold check
      simp only [sat_bind, sat_get, sat_ite, hpending, hsecure]
      refine ⟨fun h => absurd h (by decide), fun _ => ⟨fun _ => ?_, fun h => absurd rfl h⟩⟩
      refine ⟨fun _ => ?_, fun h => absurd rfl h⟩
      rw [sat_emit, sat_emit]
      refine ⟨Or.inl hl, fun b hb happlied => ⟨?_, ?_⟩⟩
      · by_cases hba : b = a
        · exact ⟨.setDnsAnswer a.data, by simp [happ, hba], rfl⟩
        · obtain ⟨call, hcall, hs⟩ := (htaken b hb happlied hba).1
          exact ⟨call, by simp [hcall], hs⟩
      · exact ⟨p.applying, by simp⟩

theorem complete_trusting (completion : Nat × Answer) (h : Trusting p) :
    Sat (complete libs .ares completion) p (fun _ => Trusting) (fun _ => Trusting) := by
  obtain ⟨k, a⟩ := completion
  unfold complete
  rw [sat_bind, sat_get]
  cases hk : p.lookups[k]? with
  | none => exact h
  | some lookup =>
      obtain ⟨hlt, -⟩ := List.getElem?_eq_some_iff.mp hk
      rcases h.open_ with hl | ⟨hl, hpending, htype, hsecure⟩
      · rw [hl] at hlt
        exact absurd hlt (Nat.not_lt_zero k)
      · dsimp only
        rw [sat_bind, sat_modify, sat_bind]
        have herase : p.lookups.eraseIdx k = [] := by
          rw [← List.length_eq_zero_iff, List.length_eraseIdx_of_lt hlt, hl]
        refine Sat.mono (Q := fun _ => Trusting) (E := fun _ => Trusting) ?_
          (fun _ _ h => ⟨h.open_, h.taken⟩) (fun _ _ h => h)
        refine aresdnsCallback_trusting lookup.srv herase hpending htype hsecure rfl
          fun b hb happlied hba => ?_
        exact h.taken b ((List.mem_cons.mp hb).resolve_left hba) happlied

theorem dispatch_trusting (round : Round) :
    Stays (Kept Trusting) (fun _ => True) (dispatch libs .ares round) := by
  have hkeep : ∀ (p : PrivDns) fds watched,
      Kept Trusting p { p with fds := fds, watched := watched } := fun _ _ _ h => ⟨h.open_, h.taken⟩
  refine Stays.bind (unwatchFileDescriptors_stays (fun _ => emit_trusting _) hkeep) fun _ => ?_
  refine Stays.bind (Stays.forM (fun c => Stays.of_kept fun _ => complete_trusting c) _) fun _ => ?_
  refine Stays.bind (watchFileDescriptors_stays trivial _ (fun _ => emit_trusting _) hkeep) fun _ => ?_
  exact check_trusting

/-- The loop over the settings changes the two flags only, and never lowers one. -/
theorem settings_trust (l : List String) :
    ∀ p : PrivDns, ∃ secure validate,
      l.foldl (applySetting v) p = { p with secure := secure, validate := validate } ∧
      (p.secure = true ∨ "trust" ∈ l → secure = true) := by
  induction l with
  | nil => exact fun p => ⟨p.secure, p.validate, rfl, by simp⟩
  | cons setting rest ih =>
      intro p
      obtain ⟨secure, validate, hfold, hsecure⟩ := ih (applySetting v p setting)
      refine ⟨secure, validate, ?_, fun h => hsecure ?_⟩
      · rw [List.foldl_cons, hfold]
        unfold applySetting
        split
        · rfl
        · split <;> rfl
      · unfold applySetting
        split
        · exact Or.inl rfl
        · rename_i hne
          have hrest : p.secure = true ∨ "trust" ∈ rest := by
            rcases h with h | h
            · exact Or.inl h
            · exact Or.inr ((List.mem_cons.mp h).resolve_left fun heq => hne heq.symm)
          split
          · exact Or.inl rfl
          · exact hrest

theorem setup_trusting (htrust : "trust" ∈ settings) (hp : p.lookups = [] ∧ p.answers = [] ∧
    p.pending = 0) : Sat (setup libs .ares settings) p
      (fun ready q => (q.lookups = [] ∧ q.answers = [] ∧ q.pending = 0) ∧ q.request = p.request ∧
        (ready = true → q.secure = true)) (fun _ _ => False) := by
  unfold setup
  rw [sat_bind, sat_emit, sat_ite]
  refine ⟨fun _ => ?_, fun _ => ⟨hp, rfl, nofun⟩⟩
  obtain ⟨secure, validate, hfold, hsecure⟩ := settings_trust (v := .ares) settings
    { p with calls := p.calls ++ [(p.applying, .newPriv libs.newPriv)] }
  rw [sat_bind, sat_modify, hfold, sat_bind, sat_modify]
  exact ⟨hp, rfl, fun _ => hsecure (Or.inr htrust)⟩

theorem queryDns_trusting (htrust : "trust" ∈ settings) (htype : p.request.dnsType ≠ 0)
    (hp : p.lookups = [] ∧ p.answers = [] ∧ p.pending = 0) :
    Sat (queryDns libs .ares settings) p (fun _ => Trusting) (fun _ => Trusting) := by
  unfold queryDns
  rw [sat_bind]
  refine (setup_trusting htrust hp).mono (fun ready q hq => ?_) (fun _ _ h => h.elim)
  obtain ⟨⟨hl, ha, hpending⟩, hrequest, hsecure⟩ := hq
  have htaken : ∀ a ∈ q.answers, a.applied → Used q a ∧ MarkedSecure q := by
    rw [ha]
    nofun
  rw [sat_bind, sat_get, sat_ite]
  refine ⟨fun hready => ?_, fun _ => Trusting.emit ⟨Or.inl hl, htaken⟩ .failed⟩
  rw [sat_bind, sat_modify, sat_bind, sat_get, sat_bind]
  unfold lookupDns
  rw [sat_modify]
  refine (watchFileDescriptors_stays trivial _ (fun _ => emit_trusting _)
    fun _ _ _ h => ⟨h.open_, h.taken⟩).kept ⟨Or.inr ⟨?_, ?_, ?_, hsecure hready.1⟩, htaken⟩
  · simp [hl]
  · simp [hpending]
  · rw [← hrequest] at htype
    exact htype

theorem run_trusting {request : Request} (rounds : List Round) (htrust : "trust" ∈ settings)
    (hdns : request.type = .dns) (htype : request.dnsType ≠ 0) :
    Trusting (final (run libs .ares settings rounds) { request := request }) := by
  refine Sat.final ?_
  unfold run query
  rw [sat_bind, sat_bind, sat_get]
  simp only [hdns]
  refine (queryDns_trusting htrust htype ⟨rfl, rfl, rfl⟩).mono (fun _ q hq => ?_) (fun _ _ h => h)
  exact (Stays.forM dispatch_trusting rounds).kept hq

/-! ### The secure flag -/

theorem Honest.onlyVouched (h : Honest libs v settings request p)
    (hread : ¬ Unread libs v settings request p.answers) : OnlyVouched libs v settings p := by
  intro hmark
  obtain ⟨-, htrust, ⟨a, ha⟩, hsound⟩ := h.marked hmark
  have hvouched : ∀ b, Used p b → b.vouched libs v = true := by
    intro b hb
    rcases hsound b hb with hv | ⟨hv, htype⟩
    · exact hv
    · obtain ⟨hdns, hdnsType⟩ := h.typed htype
      refine Decidable.byContradiction fun hne => hread ⟨hv, htrust hv, hdns, hdnsType, b, ?_⟩
      exact ⟨(h.delivered b hb).1, (h.delivered b hb).2 hv, by simpa using hne⟩
  refine ⟨?_, hvouched⟩
  cases hv : v with
  | ares => exact htrust hv
  | unbound =>
      -- an answer was used, so libunbound has called one secure
      refine Decidable.byContradiction fun hvalidate => ?_
      have hsecure := hvouched a ha
      have hinsecure := h.anchored a (h.delivered a ha).1 hv hvalidate
      rw [hv] at hsecure
      simp [Answer.vouched, hinsecure] at hsecure

/--
**When the DNS backends mark a query as secure.**  Whatever the query, the settings and the
answers, and in whichever order and groups the answers arrive: a query is marked secure
with the right setting only, and only when everything passed on is vouched for, unless
`aresdns:trust` was given an answer without the AD flag to a DNS-style query.  libunbound
is taken to call no result secure without a trust anchor.
-/
theorem secure_iff_read (libs : Libs) (v : Variant) (settings : List String) (request : Request)
    (rounds : List Round)
    (hanchor : ∀ round ∈ rounds, ∀ c ∈ round.completions, Anchored v settings c.2) :
    OnlyVouched libs v settings (final (run libs v settings rounds) { request := request }) ↔
      ¬ Unread libs v settings request
        (final (run libs v settings rounds) { request := request }).answers := by
  constructor
  · rintro honly ⟨rfl, htrust, hdns, htype, a, ha, happlied, hvouched⟩
    obtain ⟨hused, hmarked⟩ := (run_trusting rounds htrust hdns htype).taken a ha happlied
    have hv := (honly hmarked).2 a hused
    rw [hvouched] at hv
    cases hv
  · exact (run_honest request rounds hanchor).onlyVouched

/-- An answer for one A record with the header flags 0x8180: no AD flag. -/
def plainAnswer : List UInt8 :=
  [0, 0, 0x81, 0x80, 0, 1, 0, 1, 0, 0, 0, 0, 1, 0x61, 0, 0, 1, 0, 1,
    0xc0, 0x0c, 0, 1, 0, 1, 0, 0, 0, 60, 0, 4, 192, 0, 2, 1]

/-- A channel with one descriptor, on which only that answer can be read. -/
def plainLibs : Libs :=
  { aresFds := { nfds := 4, rfds := [3] }
    wire2pkt := fun data =>
      if data = plainAnswer then some { question := [LDNS_RR_TYPE_A], answer := [.a [192, 0, 2, 1] 60] }
      else none }

def plainRound : Round := { completions := [(0, { data := plainAnswer })] }

/-- Without a trust anchor the answer of libunbound is used and the query is not marked. -/
theorem secure_iff_read_unanchored :
    OnlyVouched plainLibs .unbound ["trust"]
      (final (run plainLibs .unbound ["trust"] [plainRound])
        { request := { nodename := some "a", family := AF_INET } }) ∧
    Used (final (run plainLibs .unbound ["trust"] [plainRound])
      { request := { nodename := some "a", family := AF_INET } }) { data := plainAnswer } := by
  refine ⟨(secure_iff_read _ _ _ _ _ ?_).mpr fun h => absurd h.1 (by decide), ?_⟩
  · intro round hround c hc
    obtain rfl := List.mem_singleton.mp hround
    obtain rfl := List.mem_singleton.mp hc
    exact fun _ _ => rfl
  · exact ⟨.addPath { family := AF_INET, address := [192, 0, 2, 1], ttl := 60 }, by decide +kernel, rfl⟩

/-- A DNS-style query for the A records of a name. -/
def plainRequest : Request := { type := .dns, dnsName := some "a", dnsClass := 1, dnsType := 1 }

/-- `aresdns:trust` marks a DNS-style query secure on an answer without the AD flag. -/
theorem unread_answer_reported_secure :
    ¬ OnlyVouched plainLibs .ares ["trust"]
      (final (run plainLibs .ares ["trust"] [plainRound]) { request := plainRequest }) ∧
    ∃ s, play (env plainLibs .ares ["trust"] plainRequest [] plainRound) [1]
        { query := { id := 0, request := plainRequest }, backends := [{}] } = .ok () s ∧
      .callback .done 1 { dns := some ⟨plainAnswer, 0⟩, security := .secure } ∈ s.trace := by
  refine ⟨fun h => ?_, ?_⟩
  · have hmarked : MarkedSecure
        (final (run plainLibs .ares ["trust"] [plainRound]) { request := plainRequest }) :=
      ⟨none, by decide +kernel⟩
    have hused : Used (final (run plainLibs .ares ["trust"] [plainRound])
        { request := plainRequest }) { data := plainAnswer } :=
      ⟨.setDnsAnswer plainAnswer, by decide +kernel, rfl⟩
    exact absurd ((h hmarked).2 _ hused) (by decide +kernel)
  · obtain ⟨s, hplay, htrace⟩ := peek_some (show peek
      (fun s => decide (.callback .done 1 { dns := some ⟨plainAnswer, 0⟩, security := .secure } ∈ s.trace))
      (play (env plainLibs .ares ["trust"] plainRequest [] plainRound) [1])
      { query := { id := 0, request := plainRequest }, backends := [{}] } = some true by
        decide +kernel)
    exact ⟨s, hplay, of_decide_eq_true htrace⟩

end Netresolve.Dns
