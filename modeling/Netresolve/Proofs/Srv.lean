/-
The port of an SRV record.

What an SRV record says travels from `apply_srv` through the lookups for its target to
`apply_address`, and arrives in `netresolve_backend_add_path` unchanged.  There, a query with a
service name asks the services for the port whatever the backend has said, because the backend
names no socket type.  So the port of the record is the port of the path only where the services
say the same.
-/
import Netresolve.Proofs.Confluence
import Netresolve.Proofs.Service

namespace Netresolve

/-! ### The path of a call -/

/-- The request when the set-up function of a backend is called. -/
def Request.atSetup (request : Request) : Request :=
  { request with
    protocol := if request.dnsSrvLookup ∧ request.protocol = 0 then IPPROTO_TCP
      else request.protocol }

theorem atSetup_protocol {request : Request} (h : request.dnsSrvLookup = true) :
    request.atSetup.protocol ≠ 0 := by
  unfold Request.atSetup
  dsimp only
  split
  · decide
  · next hnot => exact fun hzero => hnot ⟨h, hzero⟩

/-- The call adds one path, which is for the protocol of the request and has the given data. -/
def OnePath (services : List Service) (request : Request) (priority weight port : Int)
    (args : PathArgs) : Prop :=
  ∃ path, pathsOf services request args = [path] ∧ path.protocol = request.protocol ∧
    path.priority = priority ∧ path.weight = weight ∧ path.port = port

/--
The request asks for addresses of the family, and has no service name or one whose only port is
the given one, with a socket type that the protocol has.
-/
structure Agrees (services : List Service) (request : Request) (port family : Int) : Prop where
  family : request.family = AF_UNSPEC ∨ request.family = family
  port : ∀ name, request.servname = some name →
    servicePorts services name request.protocol = [port] ∧
      paired request.socktype request.protocol = true

section

variable {services : List Service} {request : Request} {a : PathArgs}

/-- The record for which the services are asked. -/
def namedPath (a : PathArgs) (m : Int × Int × Int) : Path :=
  { family := a.family
    address := pathAddress a.family a.address
    ifindex := a.ifindex
    socktype := m.1
    protocol := m.2.1
    port := m.2.2
    priority := a.priority
    weight := a.weight
    ttl := a.ttl }

theorem servicePaths_named {name : String} (hname : request.servname = some name)
    (hsocktype : a.socktype = 0) (hprotocol : a.protocol ≠ 0) :
    servicePaths services request a = ((servicePorts services name a.protocol).flatMap fun port =>
      (rows request.socktype a.protocol).map fun row => (row.socktype, row.protocol, port)).map
        (namedPath a) := by
  unfold servicePaths
  dsimp only
  rw [hname, if_pos ⟨rfl, Or.inl hsocktype⟩, hsocktype, if_neg (not_not.mpr rfl), if_pos hprotocol,
    ← serviceListQuery_triples services name request.socktype hprotocol, List.map_map]
  rfl

/-- One path with the port comes of the call exactly if the services agree. -/
theorem onePath_iff (hunix : a.family ≠ AF_UNIX) (hsocktype : a.socktype = 0)
    (hprotocol : a.protocol = request.protocol) (hgiven : request.protocol ≠ 0) :
    OnePath services request a.priority a.weight a.port a ↔
      Agrees services request a.port a.family := by
  have hpaths : pathsOf services request a =
      if request.family = AF_UNSPEC ∨ request.family = a.family then
        servicePaths services request a else [] := by
    unfold pathsOf
    by_cases hfamily : request.family = AF_UNSPEC ∨ request.family = a.family
    · rw [if_pos hfamily, if_neg fun hnot => hfamily.elim hnot.1 hnot.2,
        if_neg fun hu => hunix hu.1]
    · rw [if_neg hfamily, if_pos (not_or.mp hfamily)]
  unfold OnePath
  rw [hpaths]
  by_cases hfamily : request.family = AF_UNSPEC ∨ request.family = a.family
  · rw [if_pos hfamily]
    cases hname : request.servname with
    | none =>
        have hnone : servicePaths services request a =
            [namedPath a (request.socktype, request.protocol, a.port)] := by
          unfold servicePaths namedPath
          simp [hname, hsocktype, hprotocol, hgiven]
        rw [hnone]
        refine ⟨fun _ => ⟨hfamily, fun name hsome => ?_⟩, fun _ => ⟨_, rfl, rfl, rfl, rfl, rfl⟩⟩
        rw [hname] at hsome
        cases hsome
    | some name =>
        have hgiven' : a.protocol ≠ 0 := by
          rw [hprotocol]
          exact hgiven
        rw [servicePaths_named hname hsocktype hgiven', hprotocol]
        rcases rows_cases request.socktype hgiven with
          ⟨hpaired, row, hrows, hrow⟩ | ⟨hpaired, hrows⟩
        · rw [hrows]
          simp only [List.map_cons, List.map_nil]
          rw [← List.map_eq_flatMap, List.map_map]
          constructor
          · rintro ⟨path, hone, -, -, -, hport⟩
            obtain ⟨port, hports, rfl⟩ := List.map_eq_singleton_iff.mp hone
            refine ⟨hfamily, fun name' hsome => ?_⟩
            obtain rfl := Option.some.inj (hname.symm.trans hsome)
            exact ⟨hports.trans (congrArg ([·]) hport), hpaired⟩
          · intro hagrees
            rw [(hagrees.port name hname).1]
            exact ⟨_, rfl, hrow, rfl, rfl, rfl⟩
        · have hnone : ((servicePorts services name request.protocol).flatMap fun port =>
              ([] : List Protocol).map fun row => (row.socktype, row.protocol, port)) = [] :=
            List.flatMap_eq_nil_iff.mpr fun _ _ => rfl
          rw [hrows, hnone]
          constructor
          · rintro ⟨path, hone, -⟩
            cases hone
          · intro hagrees
            rw [(hagrees.port name hname).2] at hpaired
            cases hpaired
  · rw [if_neg hfamily]
    refine ⟨fun hone => ?_, fun hagrees => absurd hagrees.family hfamily⟩
    obtain ⟨path, hnil, -⟩ := hone
    cases hnil

end

namespace Dns

open Outcome

/-! ### Lookups for the targets of SRV records -/

/-- The address of a record with its family and its TTL. -/
def Record.address? : Record → Option (Int × List UInt8 × UInt32)
  | .a address ttl => some (AF_INET, address, ttl)
  | .aaaa address ttl => some (AF_INET6, address, ttl)
  | _ => none

/-- The records that the callback applies. -/
def Answer.records (libs : Libs) (v : Variant) (a : Answer) : List Record :=
  if a.read v then
    match libs.wire2pkt a.data with
    | none => []
    | some pkt => if pkt.question ≠ [] ∧ pkt.rcode = 0 then pkt.answer else []
  else []

/-- The lookup is for the target of an SRV record that was received, and carries its data. -/
structure TargetOf (libs : Libs) (v : Variant) (p : PrivDns) (lookup : Lookup)
    (priority weight port : UInt16) (target : String) : Prop where
  data : lookup.srv = ⟨priority.toNat, weight.toNat, port.toNat, some target⟩
  name : lookup.name = some target
  received : ∃ a ∈ p.answers, .srv priority weight port target ∈ a.records libs v

/-- The arguments with which `apply_address` adds a path. -/
def pathArgs (protocol : Int) (srv : PrivSrv) (address : Int × List UInt8 × UInt32) : PathArgs :=
  { family := address.1
    address := address.2.1
    protocol := protocol
    port := srv.port
    priority := srv.priority
    weight := srv.weight
    ttl := toCInt address.2.2.toNat }

section

variable {libs : Libs} {v : Variant} {settings : List String} {request : Request}
variable {p p' q : PrivDns}

theorem recordEffect_paths (family protocol : Int) (srv : PrivSrv) (n : Nat) (record : Record) :
    (recordEffect libs family protocol srv n record).calls.filterMap Call.path? =
      record.address?.toList.map (pathArgs protocol srv) := by
  cases record with
  | srv priority weight port name =>
      simp only [recordEffect]
      split <;> rfl
  | _ => rfl

/-- One path for each address. -/
theorem recordsEffect_paths (family protocol : Int) (srv : PrivSrv) (records : List Record) :
    ∀ n, (recordsEffect libs family protocol srv n records).calls.filterMap Call.path? =
      (records.filterMap Record.address?).map (pathArgs protocol srv) := by
  induction records with
  | nil => exact fun _ => rfl
  | cons record rest ih =>
      intro n
      rw [recordsEffect, effect_append, List.filterMap_append, ih, recordEffect_paths,
        ← List.map_append]
      refine congrArg _ ?_
      rw [List.filterMap_cons]
      cases record.address? <;> rfl

theorem recordEffect_spawned (family protocol : Int) (srv : PrivSrv) (n : Nat) {record : Record}
    {lookup : Lookup} (h : lookup ∈ (recordEffect libs family protocol srv n record).spawned) :
    ∃ priority weight port target, record = .srv priority weight port target ∧
      lookup.srv = ⟨priority.toNat, weight.toNat, port.toNat, some target⟩ ∧
      lookup.name = some target := by
  cases record with
  | srv priority weight port target =>
      refine ⟨priority, weight, port, target, rfl, ?_⟩
      simp only [recordEffect] at h
      split at h
      · rcases List.mem_append.mp h with h | h
        · split at h
          · rw [List.mem_singleton.mp h]
            exact ⟨rfl, rfl⟩
          · cases h
        · split at h
          · rw [List.mem_singleton.mp h]
            exact ⟨rfl, rfl⟩
          · cases h
      · cases h
  | _ => cases h

/-- The lookups that the records of an answer lead to are for the targets of its SRV records. -/
theorem recordsEffect_spawned (family protocol : Int) (srv : PrivSrv) (records : List Record) :
    ∀ n, ∀ lookup ∈ (recordsEffect libs family protocol srv n records).spawned,
      ∃ priority weight port target, Record.srv priority weight port target ∈ records ∧
        lookup.srv = ⟨priority.toNat, weight.toNat, port.toNat, some target⟩ ∧
        lookup.name = some target := by
  induction records with
  | nil =>
      intro n lookup h
      cases h
  | cons record rest ih =>
      intro n lookup h
      rcases List.mem_append.mp h with h | h
      · obtain ⟨priority, weight, port, target, rfl, hrest⟩ := recordEffect_spawned _ _ _ _ h
        exact ⟨priority, weight, port, target, List.mem_cons_self, hrest⟩
      · obtain ⟨priority, weight, port, target, hmem, hrest⟩ := ih _ lookup h
        exact ⟨priority, weight, port, target, List.mem_cons_of_mem _ hmem, hrest⟩

theorem hostEffect_srv {family : Int} {srv : PrivSrv} {lookup : Lookup}
    (h : lookup ∈ (hostEffect family srv).spawned) : lookup.srv = srv := by
  rcases List.mem_append.mp h with h | h
  · split at h
    · rw [List.mem_singleton.mp h]
    · cases h
  · split at h
    · rw [List.mem_singleton.mp h]
    · cases h

/-- An effect that comes of the records, or of the host after an SRV lookup without any. -/
def Recorded (libs : Libs) (p : PrivDns) (srv : PrivSrv) (records : List Record) (e : Effect) :
    Prop :=
  e.calls = (recordsEffect libs p.family p.protocol srv p.targets records).calls ∧
    (e.spawned = (recordsEffect libs p.family p.protocol srv p.targets records).spawned ∨
      e.spawned = (hostEffect p.family p.srv).spawned)

theorem packetEffect_recorded (srv : PrivSrv) {type : Int} {rest : List Int} {pkt : Packet}
    (hquestion : pkt.question = type :: rest) :
    Recorded libs p srv (if pkt.question ≠ [] ∧ pkt.rcode = 0 then pkt.answer else [])
      (packetEffect libs p srv type pkt) := by
  unfold packetEffect
  dsimp only
  by_cases hfix : pkt.rcode = 0 ∧ pkt.answer = []
  · rw [if_pos hfix, hfix.2, ite_self, if_neg (by decide)]
    split
    · exact ⟨rfl, Or.inr rfl⟩
    · exact ⟨rfl, Or.inl rfl⟩
  · rw [if_neg hfix]
    by_cases hzero : pkt.rcode = 0
    · rw [if_pos hzero, if_pos ⟨by rw [hquestion]; exact List.cons_ne_nil _ _, hzero⟩]
      exact ⟨rfl, Or.inl rfl⟩
    · rw [if_neg hzero, if_neg fun h => hzero h.2]
      split
      · exact ⟨rfl, Or.inr rfl⟩
      · exact ⟨rfl, Or.inl rfl⟩

theorem Recorded.lower {srv : PrivSrv} {records : List Record} {e : Effect}
    (h : Recorded libs p srv records e) (secure : Bool) :
    Recorded libs p srv records (({ secure := secure } : Effect) ++ e) := h

theorem answerEffect_recorded (htype : p.type = 0) (srv : PrivSrv) (data : List UInt8) :
    Recorded libs p srv (match libs.wire2pkt data with
      | none => []
      | some pkt => if pkt.question ≠ [] ∧ pkt.rcode = 0 then pkt.answer else [])
      (answerEffect libs v p srv data) := by
  unfold answerEffect
  rw [if_neg (not_not.mpr htype)]
  cases libs.wire2pkt data with
  | none => exact ⟨rfl, Or.inl rfl⟩
  | some pkt =>
      dsimp only
      cases hquestion : pkt.question with
      | nil => exact ⟨rfl, Or.inl rfl⟩
      | cons type rest =>
          have hpacket : Recorded libs p srv _ (packetEffect libs p srv type pkt) :=
            packetEffect_recorded srv hquestion
          rw [hquestion] at hpacket
          exact hpacket.lower _

/-- What the callback of a forward or a reverse query does with an answer. -/
theorem callbackEffect_recorded (htype : p.type = 0) (srv : PrivSrv) (a : Answer) :
    Recorded libs p srv (a.records libs v) (callbackEffect libs v p srv a) := by
  have hanswer : Recorded libs p srv _ (answerEffect libs v p srv a.data) :=
    answerEffect_recorded htype srv a.data
  unfold callbackEffect Answer.records Answer.read
  cases v with
  | ares =>
      cases hstatus : a.status with
      | destruction => exact ⟨rfl, Or.inl rfl⟩
      | failure => exact ⟨rfl, Or.inl rfl⟩
      | success => exact hanswer
      | notFound => exact hanswer
  | unbound =>
      by_cases hstatus : a.status = .success
      · by_cases hbogus : a.bogus = true
        · simp only [hstatus, hbogus]
          exact ⟨rfl, Or.inl rfl⟩
        · simp only [hstatus, hbogus]
          exact hanswer.lower _
      · simp only [ne_eq, hstatus, not_false_eq_true, if_true, beq_eq_false_iff_ne.mpr hstatus]
        exact ⟨rfl, Or.inl rfl⟩

/-! ### Runs -/

/--
A forward query with SRV lookup: every lookup that is not answered is for what the query asks
for or for the target of an SRV record.
-/
structure Following (libs : Libs) (v : Variant) (request : Request) (p : PrivDns) : Prop where
  type : p.type = 0
  protocol : p.lookups ≠ [] → p.protocol = request.protocol
  origin : ∀ lookup ∈ p.lookups, lookup.srv = p.srv ∨
    ∃ priority weight port target, TargetOf libs v p lookup priority weight port target

theorem Following.alike (h : Following libs v request p) (hsettled : Settled p p')
    (hlookups : p'.lookups = p.lookups) (hanswers : p'.answers = p.answers) :
    Following libs v request p' := by
  refine ⟨hsettled.type.trans h.type, fun hopen => ?_, fun lookup hlookup => ?_⟩
  · rw [hlookups] at hopen
    exact hsettled.protocol.trans (h.protocol hopen)
  · rw [hlookups] at hlookup
    rcases h.origin lookup hlookup with hown | ⟨priority, weight, port, target, htarget⟩
    · exact Or.inl (hown.trans hsettled.srv.symm)
    · refine Or.inr ⟨priority, weight, port, target, htarget.data, htarget.name, ?_⟩
      rw [hanswers]
      exact htarget.received

theorem Following.watched (h : Following libs v request p) (hw : Watched p p') :
    Following libs v request p' :=
  h.alike hw.settled hw.lookups hw.answers

theorem Following.checked (h : Following libs v request p) : Following libs v request p.checked := by
  refine h.alike ?_ (checked_lookups p) ?_
  · unfold PrivDns.checked
    split
    · exact ⟨rfl, rfl, rfl, rfl, rfl⟩
    · exact ⟨rfl, rfl, rfl, rfl, rfl⟩
  · unfold PrivDns.checked
    split
    · rfl
    · rfl

/-- The lookups that an answer leads to are for the host or for the targets in the answer. -/
theorem Following.completed (h : Following libs v request p) {k : Nat} {lookup : Lookup}
    (hk : p.lookups[k]? = some lookup) (a : Answer) :
    Following libs v request (p.completed libs v k lookup a) := by
  have hsettled := completed_settled libs v k lookup a p
  refine ⟨hsettled.type.trans h.type, fun _ => hsettled.protocol.trans (h.protocol ?_),
    fun lookup' hlookup' => ?_⟩
  · exact List.ne_nil_of_mem (List.mem_of_getElem? hk)
  · rw [completed_lookups] at hlookup'
    rcases List.mem_append.mp hlookup' with hold | hnew
    · rcases h.origin lookup' (List.mem_of_mem_eraseIdx hold) with
        hown | ⟨priority, weight, port, target, htarget⟩
      · exact Or.inl (hown.trans hsettled.srv.symm)
      · obtain ⟨b, hb, hrecord⟩ := htarget.received
        refine Or.inr ⟨priority, weight, port, target, htarget.data, htarget.name, b, ?_, hrecord⟩
        rw [completed_answers]
        exact List.mem_cons_of_mem a hb
    · rcases (callbackEffect_recorded h.type lookup.srv a).2 with hspawned | hspawned
      · rw [hspawned] at hnew
        obtain ⟨priority, weight, port, target, hrecord, hdata, hname⟩ :=
          recordsEffect_spawned _ _ _ _ _ lookup' hnew
        refine Or.inr ⟨priority, weight, port, target, hdata, hname, a, ?_, hrecord⟩
        rw [completed_answers]
        exact List.mem_cons_self
      · rw [hspawned] at hnew
        exact Or.inl ((hostEffect_srv hnew).trans hsettled.srv.symm)

theorem complete_following (c : Nat × Answer) (h : Following libs v request p) :
    Sat (complete libs v c) p (fun _ => Following libs v request) (fun _ _ => True) := by
  obtain ⟨k, a⟩ := c
  exact complete_rule h (fun _ hk => h.completed hk a) (fun _ _ _ => trivial)

theorem completions_following (cs : List (Nat × Answer)) (h : Following libs v request p) :
    Sat (forM cs (complete libs v)) p (fun _ => Following libs v request) (fun _ _ => True) :=
  sat_forM (fun _ => Following libs v request) (fun c _ _ hq => complete_following c hq) cs p h

theorem watched_following {x : D Unit} (hx : Stays Watched (fun _ => True) x)
    (h : Following libs v request p) :
    Sat x p (fun _ => Following libs v request) (fun _ _ => True) :=
  (hx p).mono (fun _ _ hw => h.watched hw) (fun _ _ _ => trivial)

theorem dispatch_following (round : Round) (h : Following libs v request p) :
    Sat (dispatch libs v round) p (fun _ => Following libs v request) (fun _ _ => True) := by
  cases v with
  | unbound => exact completions_following round.completions h
  | ares =>
      refine dispatch_rule fun p₁ hw₁ => ?_
      exact (completions_following round.completions (h.watched hw₁)).mono
        (fun _ _ h₂ _ hw₃ => (h₂.watched hw₃).checked) (fun _ _ _ => trivial)

/-- The set-up looks up the SRV records of the query and nothing else. -/
theorem query_following (hforward : request.type = .forward) (hsrv : request.dnsSrvLookup = true) :
    Sat (query libs v settings) { request := request } (fun _ => Following libs v request)
      (fun _ _ => True) := by
  unfold query
  rw [sat_bind, sat_get, hforward]
  dsimp only
  unfold queryForward
  rw [sat_bind]
  refine (setup_prepared request).mono (fun r q hq => ?_) (fun _ _ _ => trivial)
  obtain ⟨-, hq, htype, -⟩ := hq
  have hnone : ∀ q' : PrivDns, q'.type = 0 → q'.lookups = [] → Following libs v request q' := by
    intro q' htype' hlookups
    refine ⟨htype', fun hopen => absurd hlookups hopen, fun lookup hlookup => ?_⟩
    rw [hlookups] at hlookup
    exact absurd hlookup List.not_mem_nil
  rw [sat_bind, sat_get, sat_ite]
  refine ⟨fun _ => ?_, fun _ => ?_⟩
  · rw [sat_bind, sat_get, sat_bind, sat_ite]
    refine ⟨fun _ => ?_, fun hno => absurd (hq.same ▸ hsrv) hno⟩
    unfold lookupSrv
    rw [sat_bind, sat_modify, sat_bind, sat_get, sat_ite]
    refine ⟨fun _ => ?_, fun _ => ?_⟩
    · rw [sat_lookupDns]
      refine watched_following watchChannel_watched
        ⟨htype, fun _ => congrArg Request.protocol hq.same, fun lookup hlookup => Or.inl ?_⟩
      have hone : lookup ∈ q.lookups ++ [_] := hlookup
      rw [hq.lookups, List.nil_append, List.mem_singleton] at hone
      rw [hone]
      rfl
    · rw [sat_failed]
      refine watched_following watchChannel_watched (hnone _ htype ?_)
      show q.lookups ++ [] = []
      rw [hq.lookups, List.append_nil]
  · rw [sat_call]
    refine hnone _ htype ?_
    show q.lookups ++ [] = []
    rw [hq.lookups, List.append_nil]

/-- In the middle of any dispatch. -/
theorem partway_following (hforward : request.type = .forward)
    (hsrv : request.dnsSrvLookup = true) (rounds : List Round) (cs : List (Nat × Answer)) :
    Sat (partway libs v settings rounds cs) { request := request }
      (fun _ => Following libs v request) (fun _ _ => True) := by
  unfold partway run
  rw [sat_bind, sat_bind]
  refine (query_following hforward hsrv).mono (fun _ p₁ h₁ => ?_) (fun _ _ _ => trivial)
  refine (sat_forM (fun _ => Following libs v request)
    (fun round _ _ h => dispatch_following round h) rounds p₁ h₁).mono (fun _ p₂ h₂ => ?_)
    (fun _ _ _ => trivial)
  rw [sat_bind]
  refine Sat.mono (Q := fun _ => Following libs v request) (E := fun _ _ => True) ?_
    (fun _ p₃ h₃ => completions_following cs h₃) (fun _ _ _ => trivial)
  cases v with
  | unbound => exact h₂
  | ares => exact watched_following unwatchFileDescriptors_watched h₂

/-! ### The paths of a target -/

theorem completed_paths (htype : p.type = 0) (k : Nat) (lookup : Lookup) (a : Answer) :
    ((callbackEffect libs v p lookup.srv a).calls ++ p.closing libs v k lookup a).filterMap
        Call.path? =
      ((a.records libs v).filterMap Record.address?).map (pathArgs p.protocol lookup.srv) := by
  have hclosing : (p.closing libs v k lookup a).filterMap Call.path? = [] := by
    unfold PrivDns.closing
    dsimp only
    split
    · exact verdict_paths _
    · rfl
  rw [List.filterMap_append, hclosing, List.append_nil,
    (callbackEffect_recorded htype lookup.srv a).1, recordsEffect_paths]

theorem address_family {record : Record} {address : Int × List UInt8 × UInt32}
    (h : record.address? = some address) : address.1 ≠ AF_UNIX := by
  cases record with
  | a bytes ttl =>
      obtain rfl := Option.some.inj h
      exact show AF_INET ≠ AF_UNIX by decide
  | aaaa bytes ttl =>
      obtain rfl := Option.some.inj h
      exact show AF_INET6 ≠ AF_UNIX by decide
  | _ => cases h

/-- `_ldap._tcp.a` has an SRV record with priority 5, weight 10, port 3268 and target `a`. -/
def ldapAnswer : List UInt8 :=
  [0, 0, 0x81, 0x80, 0, 1, 0, 1, 0, 0, 0, 0, 5, 0x5f, 0x6c, 0x64, 0x61, 0x70, 4, 0x5f, 0x74, 0x63,
    0x70, 1, 0x61, 0, 0, 33, 0, 1, 0xc0, 0x0c, 0, 33, 0, 1, 0, 0, 0, 60, 0, 9, 0, 5, 0, 10, 0x0c,
    0xc4, 1, 0x61, 0]

/-- Libraries that can read this answer and the one with an address of `a`. -/
def ldapLibs : Libs :=
  { plainLibs with
    wire2pkt := fun data =>
      if data = ldapAnswer then
        some { question := [LDNS_RR_TYPE_SRV], answer := [.srv 5 10 3268 "a."] }
      else plainLibs.wire2pkt data }

/-- A forward query for the IPv4 addresses of the LDAP servers of a host. -/
def ldapRequest : Request :=
  { nodename := some "a", servname := some "ldap", family := AF_INET, dnsSrvLookup := true }

/-- The answer for the SRV records has arrived, and the one for the target is about to. -/
def ldapMiddle : PrivDns :=
  final (partway ldapLibs .ares [] [] [(0, { data := ldapAnswer })])
    { request := ldapRequest.atSetup }

/-- The lookup for the target. -/
def ldapLookup : Lookup :=
  ⟨⟨5, 10, 3268, some "a."⟩, some "a.", LDNS_RR_TYPE_A, LDNS_RR_CLASS_IN⟩

theorem ldap_partway : partway ldapLibs .ares [] [] [(0, { data := ldapAnswer })]
    { request := ldapRequest.atSetup } = .ok () ldapMiddle :=
  ok_of_returns (by decide +kernel)

theorem ldap_target : TargetOf ldapLibs .ares ldapMiddle ldapLookup 5 10 3268 "a." :=
  ⟨rfl, rfl, { data := ldapAnswer }, by decide +kernel, by decide +kernel⟩

theorem ldap_complete : complete ldapLibs .ares (0, { data := plainAnswer }) ldapMiddle =
    .ok () (final (complete ldapLibs .ares (0, { data := plainAnswer })) ldapMiddle) :=
  ok_of_returns (by decide +kernel)

/-- The core with a backend that gets both answers in one dispatch, and a port for LDAP. -/
def ldapEnv : Env :=
  let round : Round :=
    { completions := [(0, { data := ldapAnswer }), (0, { data := plainAnswer })] }
  { env ldapLibs .ares [] ldapRequest.atSetup [] round with
    services := [⟨IPPROTO_TCP, 389, "ldap"⟩] }

end

end Dns

end Netresolve
