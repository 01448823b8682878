/-
Looking up services.

`netresolve_service_list_query` decides which calls of `found_port` there are, and `found_port`
which rows of the table are used.  `portCalls` and `rows` are these two on their own.

A name that is not a number but starts with one leaves that number in `port`, and entries with
other ports are passed over.  And where the socket type or the protocol is not known, only the
default rows are used, even if none of them agrees with what is known.
-/
import Netresolve.Proofs.Paths

namespace Netresolve

/-! ### The table -/

/-- The socket type and the protocol are a pair of the table, or have a default in it. -/
def paired (socktype protocol : Int) : Bool :=
  if socktype = 0 then protocol = IPPROTO_TCP || protocol = IPPROTO_UDP
  else protocols.any fun row => row.socktype = socktype && row.protocol = protocol

/-- The rows of the table that `found_port` uses. -/
def rows (socktype proto : Int) : List Protocol :=
  protocols.filter fun p =>
    !(socktype != 0 && socktype != p.socktype) &&
    !(proto != 0 && proto != p.protocol) &&
    !((socktype == 0 || proto == 0) && !p.defaultpair)

theorem foundPort_eq (name : Option String) (socktype proto port : Int) :
    foundPort name socktype proto port =
      (rows socktype proto).map fun p => ⟨name, p.socktype, p.protocol, port⟩ := rfl

/-- There is at most one row for a protocol that is given. -/
theorem rows_cases (socktype : Int) {proto : Int} (hproto : proto ≠ 0) :
    (paired socktype proto = true ∧ ∃ row, rows socktype proto = [row] ∧ row.protocol = proto) ∨
      (paired socktype proto = false ∧ rows socktype proto = []) := by
  by_cases hsocktype : socktype = 0
  · subst hsocktype
    by_cases htcp : proto = IPPROTO_TCP
    · subst htcp
      exact Or.inl ⟨rfl, _, rfl, rfl⟩
    · by_cases hudp : proto = IPPROTO_UDP
      · subst hudp
        exact Or.inl ⟨rfl, _, rfl, rfl⟩
      · refine Or.inr ⟨by simp [paired, htcp, hudp], ?_⟩
        simp [rows, protocols, htcp, hudp, hproto]
  · cases hpaired : paired socktype proto with
    | true =>
        refine Or.inl ⟨rfl, ?_⟩
        simp only [paired, if_neg hsocktype, protocols, List.any_cons, List.any_nil, Bool.or_false,
          Bool.or_eq_true, Bool.and_eq_true, decide_eq_true_eq] at hpaired
        -- the pairs of the table are different from each other
        rcases hpaired with ⟨rfl, rfl⟩ | ⟨rfl, rfl⟩ | ⟨rfl, rfl⟩ | ⟨rfl, rfl⟩ | ⟨rfl, rfl⟩ |
          ⟨rfl, rfl⟩ | ⟨rfl, rfl⟩
        · exact ⟨_, rfl, rfl⟩
        · exact ⟨_, rfl, rfl⟩
        · exact ⟨_, rfl, rfl⟩
        · exact ⟨_, rfl, rfl⟩
        · exact ⟨_, rfl, rfl⟩
        · exact ⟨_, rfl, rfl⟩
        · exact absurd rfl hproto
    | false =>
        refine Or.inr ⟨rfl, List.filter_eq_nil_iff.mpr fun row hrow hkept => ?_⟩
        simp only [paired, if_neg hsocktype, List.any_eq_false] at hpaired
        refine hpaired row hrow ?_
        simp only [Bool.and_eq_true, Bool.not_eq_true', Bool.and_eq_false_iff, bne_eq_false_iff_eq,
          hsocktype, hproto, false_or] at hkept
        simp only [Bool.and_eq_true, decide_eq_true_eq]
        exact ⟨hkept.1.1.symm, hkept.1.2.symm⟩

/-- What `found_port` has a row for. -/
def admitted (socktype protocol : Int) : Bool :=
  if socktype = 0 then protocol = 0 || protocol = IPPROTO_TCP || protocol = IPPROTO_UDP
  else if protocol = 0 then socktype = SOCK_STREAM || socktype = SOCK_DGRAM || socktype = SOCK_RAW
  else protocols.any fun row => row.socktype = socktype && row.protocol = protocol

theorem rows_ne_nil_iff (socktype protocol : Int) :
    rows socktype protocol ≠ [] ↔ admitted socktype protocol = true := by
  by_cases hprotocol : protocol = 0
  · subst hprotocol
    by_cases hsocktype : socktype = 0
    · subst hsocktype
      decide
    · -- a row without a default is not for this
      unfold admitted
      rw [if_neg hsocktype, if_pos rfl]
      by_cases hstream : socktype = SOCK_STREAM
      · subst hstream
        decide
      by_cases hdgram : socktype = SOCK_DGRAM
      · subst hdgram
        decide
      by_cases hraw : socktype = SOCK_RAW
      · subst hraw
        decide
      simp [rows, protocols, hsocktype, hstream, hdgram, hraw]
  · have hsame : admitted socktype protocol = paired socktype protocol := by
      unfold admitted paired
      simp [hprotocol]
    rw [hsame]
    rcases rows_cases socktype hprotocol with ⟨hpaired, row, hrows, -⟩ | ⟨hpaired, hrows⟩
    · simp [hpaired, hrows]
    · simp [hpaired, hrows]

/-! ### The calls of `found_port` -/

/-- The arguments of a call of `found_port`. -/
structure PortCall where
  name : Option String
  socktype : Int
  proto : Int
  port : Int
  deriving DecidableEq, Repr

def PortCall.matches (call : PortCall) : List ServiceMatch :=
  foundPort call.name call.socktype call.proto call.port

/-- The call for an entry of the list. -/
def Service.call (socktype : Int) (service : Service) : PortCall :=
  ⟨some service.name, socktype, service.protocol, service.port⟩

/-- The calls `netresolve_service_list_query` makes, in order. -/
def portCalls (services : List Service) (name : Option String) (socktype protocol port : Int) :
    List PortCall :=
  let number : Int × Bool := match name with
    | some str =>
        if port = 0 then (toCInt (strtol str.toList).1, (strtol str.toList).2.isEmpty)
        else (port, false)
    | none => (port, false)
  let port := number.1
  if number.2 then [⟨name, socktype, protocol, port⟩]
  else
    let found := services.filter (serviceMatches name protocol port)
    if found.isEmpty then
      [⟨if port != 0 then some (toString port) else none, socktype, protocol, port⟩]
    else found.map (Service.call socktype)

theorem serviceListQuery_eq (services : List Service) (name : Option String)
    (socktype protocol port : Int) : serviceListQuery services name socktype protocol port =
      (portCalls services name socktype protocol port).flatMap PortCall.matches := by
  have hnumber : ∀ number : Int × Bool,
      (if number.2 then foundPort name socktype protocol number.1
        else if (services.filter (serviceMatches name protocol number.1)).isEmpty then
          foundPort (if number.1 != 0 then some (toString number.1) else none) socktype protocol
            number.1
        else (services.filter (serviceMatches name protocol number.1)).flatMap fun service =>
          foundPort (some service.name) socktype service.protocol service.port) =
      (if number.2 then [⟨name, socktype, protocol, number.1⟩]
        else if (services.filter (serviceMatches name protocol number.1)).isEmpty then
          [⟨if number.1 != 0 then some (toString number.1) else none, socktype, protocol, number.1⟩]
        else (services.filter (serviceMatches name protocol number.1)).map
          (Service.call socktype)).flatMap PortCall.matches := by
    intro number
    split
    · rw [List.flatMap_singleton]
      rfl
    · split
      · rw [List.flatMap_singleton]
        rfl
      · rw [List.flatMap_map]
        rfl
  exact hnumber _

theorem PortCall.mem_matches {call : PortCall} {m : ServiceMatch} (h : m ∈ call.matches) :
    m.name = call.name ∧ m.port = call.port := by
  unfold PortCall.matches at h
  rw [foundPort_eq] at h
  obtain ⟨row, -, rfl⟩ := List.mem_map.mp h
  exact ⟨rfl, rfl⟩

theorem PortCall.matches_ne_nil_iff (call : PortCall) :
    call.matches ≠ [] ↔ admitted call.socktype call.proto = true := by
  unfold PortCall.matches
  rw [foundPort_eq, ← rows_ne_nil_iff, not_iff_not, List.map_eq_nil_iff]

/-! ### Names -/

/-- The number a service name starts with, as it is stored in `port`. -/
def nameNumber (name : String) : Int := toCInt (strtol name.toList).1

/-- `strtol` takes the whole of the name for a number. -/
def isNumber (name : String) : Bool := (strtol name.toList).2.isEmpty

/-- The entries with the name and a protocol that is not another one than the given one. -/
def namedEntries (services : List Service) (name : String) (protocol : Int) : List Service :=
  services.filter fun service =>
    service.name = name && (protocol = 0 || service.protocol = protocol)

/-- Those of them that are not passed over for their port. -/
def heeded (services : List Service) (name : String) (protocol : Int) : List Service :=
  (namedEntries services name protocol).filter fun service =>
    nameNumber name = 0 || service.port = nameNumber name

theorem filter_named (services : List Service) (name : String) (protocol : Int) :
    services.filter (serviceMatches (some name) protocol (nameNumber name)) =
      heeded services name protocol := by
  unfold heeded namedEntries
  rw [List.filter_filter]
  refine List.filter_congr fun service _ => ?_
  rw [Bool.eq_iff_iff]
  simp only [serviceMatches, Option.isSome_some, Option.isNone_some, Bool.true_and, Bool.or_false,
    Bool.and_eq_true, Bool.or_eq_true, Bool.not_eq_true', Bool.and_eq_false_iff, bne_eq_false_iff_eq,
    decide_eq_true_eq, Option.some.injEq]
  grind

theorem portCalls_number (services : List Service) {name : String} (h : isNumber name = true)
    (socktype protocol : Int) : portCalls services (some name) socktype protocol 0 =
      [⟨some name, socktype, protocol, nameNumber name⟩] := by
  unfold portCalls
  dsimp only
  rw [if_pos rfl]
  exact if_pos h

theorem portCalls_word (services : List Service) {name : String} (h : isNumber name = false)
    (socktype protocol : Int) : portCalls services (some name) socktype protocol 0 =
      if heeded services name protocol = [] then
        [⟨if nameNumber name != 0 then some (toString (nameNumber name)) else none, socktype,
          protocol, nameNumber name⟩]
      else (heeded services name protocol).map (Service.call socktype) := by
  unfold portCalls
  dsimp only
  rw [if_pos rfl, show (strtol name.toList).2.isEmpty = false from h]
  dsimp only
  rw [show toCInt (strtol name.toList).1 = nameNumber name from rfl, filter_named,
    if_neg Bool.false_ne_true]
  simp only [List.isEmpty_iff]

theorem portCalls_none (services : List Service) {name : String} (h : isNumber name = false)
    (socktype : Int) {protocol : Int} (hnone : heeded services name protocol = []) :
    portCalls services (some name) socktype protocol 0 =
      [⟨if nameNumber name != 0 then some (toString (nameNumber name)) else none, socktype,
        protocol, nameNumber name⟩] := by
  rw [portCalls_word services h, if_pos hnone]

theorem portCalls_some (services : List Service) {name : String} (h : isNumber name = false)
    (socktype : Int) {protocol : Int} (hsome : heeded services name protocol ≠ []) :
    portCalls services (some name) socktype protocol 0 =
      (heeded services name protocol).map (Service.call socktype) := by
  rw [portCalls_word services h, if_neg hsome]

/-- Where the name starts with a number, no call has another port. -/
theorem portCalls_port (services : List Service) {name : String} (hnumber : nameNumber name ≠ 0)
    (socktype protocol : Int) :
    ∀ call ∈ portCalls services (some name) socktype protocol 0, call.port = nameNumber name := by
  intro call hcall
  cases hname : isNumber name with
  | true =>
      rw [portCalls_number services hname] at hcall
      rw [List.mem_singleton.mp hcall]
  | false =>
      by_cases hheeded : heeded services name protocol = []
      · rw [portCalls_none services hname socktype hheeded] at hcall
        rw [List.mem_singleton.mp hcall]
      · rw [portCalls_some services hname socktype hheeded] at hcall
        obtain ⟨service, hservice, rfl⟩ := List.mem_map.mp hcall
        have hport := (List.mem_filter.mp hservice).2
        rw [Bool.or_eq_true, decide_eq_true_eq, decide_eq_true_eq] at hport
        exact hport.resolve_left hnumber

/--
**The entries of a name are used, and no other port, if and only if the name starts with no number
or they all have it as their port.**
-/
theorem named_entries_used_iff (services : List Service) (name : String) (socktype protocol : Int)
    (hname : isNumber name = false) (hentries : namedEntries services name protocol ≠ []) :
    (portCalls services (some name) socktype protocol 0 =
        (namedEntries services name protocol).map (Service.call socktype) ∧
      ∀ m ∈ serviceListQuery services (some name) socktype protocol 0,
        ∃ service ∈ namedEntries services name protocol, m.port = service.port) ↔
      nameNumber name = 0 ∨
        ∀ service ∈ namedEntries services name protocol, service.port = nameNumber name := by
  constructor
  · rintro ⟨hcalls, -⟩
    refine or_iff_not_imp_left.mpr fun hnumber service hservice => ?_
    refine portCalls_port services hnumber socktype protocol (service.call socktype) ?_
    rw [hcalls]
    exact List.mem_map_of_mem hservice
  · intro hports
    have hheeded : heeded services name protocol = namedEntries services name protocol := by
      refine List.filter_eq_self.mpr fun service hservice => ?_
      rw [Bool.or_eq_true, decide_eq_true_eq, decide_eq_true_eq]
      exact hports.imp_right fun hall => hall service hservice
    have hcalls := portCalls_some services hname socktype (hheeded ▸ hentries)
    rw [hheeded] at hcalls
    refine ⟨hcalls, fun m hm => ?_⟩
    rw [serviceListQuery_eq, hcalls] at hm
    obtain ⟨call, hcall, hm⟩ := List.mem_flatMap.mp hm
    obtain ⟨service, hservice, rfl⟩ := List.mem_map.mp hcall
    exact ⟨service, hservice, (PortCall.mem_matches hm).2⟩

/-- A name that starts with no number, with an entry for each of two protocols. -/
theorem named_entries_used_domain :
    isNumber "domain" = false ∧
    namedEntries [⟨IPPROTO_TCP, 53, "domain"⟩, ⟨IPPROTO_TCP, 80, "http"⟩,
      ⟨IPPROTO_UDP, 53, "domain"⟩] "domain" 0 ≠ [] ∧
    portCalls [⟨IPPROTO_TCP, 53, "domain"⟩, ⟨IPPROTO_TCP, 80, "http"⟩,
        ⟨IPPROTO_UDP, 53, "domain"⟩] (some "domain") 0 0 0 =
      [⟨some "domain", 0, IPPROTO_TCP, 53⟩, ⟨some "domain", 0, IPPROTO_UDP, 53⟩] := by
  have hname : isNumber "domain" = false := by decide
  have hentries : namedEntries [⟨IPPROTO_TCP, 53, "domain"⟩, ⟨IPPROTO_TCP, 80, "http"⟩,
      ⟨IPPROTO_UDP, 53, "domain"⟩] "domain" 0 ≠ [] := by decide
  have hused := (named_entries_used_iff _ "domain" 0 0 hname hentries).mpr (Or.inl (by decide))
  exact ⟨hname, hentries, hused.1.trans (by decide)⟩

/-- The port of `9pfs` is taken to be 9. -/
theorem leading_digit_hides_entry :
    isNumber "9pfs" = false ∧
    namedEntries [⟨IPPROTO_TCP, 564, "9pfs"⟩] "9pfs" IPPROTO_TCP = [⟨IPPROTO_TCP, 564, "9pfs"⟩] ∧
    serviceListQuery [⟨IPPROTO_TCP, 564, "9pfs"⟩] (some "9pfs") SOCK_STREAM IPPROTO_TCP 0 =
      [⟨some "9", SOCK_STREAM, IPPROTO_TCP, 9⟩] ∧
    ¬ (portCalls [⟨IPPROTO_TCP, 564, "9pfs"⟩] (some "9pfs") SOCK_STREAM IPPROTO_TCP 0 =
        (namedEntries [⟨IPPROTO_TCP, 564, "9pfs"⟩] "9pfs" IPPROTO_TCP).map
          (Service.call SOCK_STREAM) ∧
      ∀ m ∈ serviceListQuery [⟨IPPROTO_TCP, 564, "9pfs"⟩] (some "9pfs") SOCK_STREAM IPPROTO_TCP 0,
        ∃ service ∈ namedEntries [⟨IPPROTO_TCP, 564, "9pfs"⟩] "9pfs" IPPROTO_TCP,
          m.port = service.port) := by
  have hquery : serviceListQuery [⟨IPPROTO_TCP, 564, "9pfs"⟩] (some "9pfs") SOCK_STREAM IPPROTO_TCP
      0 = [⟨some "9", SOCK_STREAM, IPPROTO_TCP, 9⟩] := by decide
  refine ⟨by decide, by decide, hquery, ?_⟩
  rintro ⟨-, hport⟩
  rw [hquery] at hport
  exact absurd hport (by decide)

/--
The ports of a service name: the number that it is, or else those of the entries for the name and
the protocol, or else the number that it starts with.
-/
def servicePorts (services : List Service) (name : String) (protocol : Int) : List Int :=
  let number := toCInt (strtol name.toList).1
  if (strtol name.toList).2.isEmpty then [number]
  else
    let found := services.filter (serviceMatches (some name) protocol number)
    if found.isEmpty then [number] else found.map (·.port)

theorem serviceListQuery_triples (services : List Service) (name : String) (socktype : Int)
    {protocol : Int} (hprotocol : protocol ≠ 0) :
    (serviceListQuery services (some name) socktype protocol 0).map
        (fun m => (m.socktype, m.protocol, m.port)) =
      (servicePorts services name protocol).flatMap fun port =>
        (rows socktype protocol).map fun row => (row.socktype, row.protocol, port) := by
  have hfound : ∀ name proto port, (foundPort name socktype proto port).map
      (fun m => (m.socktype, m.protocol, m.port)) =
        (rows socktype proto).map fun row => (row.socktype, row.protocol, port) := by
    intro name proto port
    rw [foundPort_eq, List.map_map]
    rfl
  unfold serviceListQuery servicePorts
  dsimp only
  rw [if_pos rfl]
  dsimp only
  split
  · rw [hfound, List.flatMap_singleton]
  · split
    · rw [hfound, List.flatMap_singleton]
    · rw [List.map_flatMap, List.flatMap_map]
      refine List.flatMap_congr fun service hservice => ?_
      -- an entry is used only if it is for the protocol
      have hsame : service.protocol = protocol := by
        have hkept := (List.mem_filter.mp hservice).2
        simp only [serviceMatches, Bool.and_eq_true, Bool.not_eq_true', Bool.and_eq_false_iff,
          bne_eq_false_iff_eq] at hkept
        exact (hkept.1.2.resolve_left hprotocol).symm
      rw [hfound, hsame]

/-! ### Ports -/

/-- The entries with the port and a protocol that is not another one than the given one. -/
def portEntries (services : List Service) (protocol port : Int) : List Service :=
  services.filter fun service =>
    service.port = port && (protocol = 0 || service.protocol = protocol)

theorem filter_ported (services : List Service) (protocol port : Int) :
    services.filter (serviceMatches none protocol port) = portEntries services protocol port := by
  unfold portEntries
  refine List.filter_congr fun service _ => ?_
  rw [Bool.eq_iff_iff]
  simp only [serviceMatches, Option.isSome_none, Option.isNone_none, Bool.false_and, Bool.or_true,
    Bool.true_and, Bool.not_false, Bool.and_eq_true, Bool.or_eq_true, Bool.not_eq_true',
    Bool.and_eq_false_iff, bne_eq_false_iff_eq, decide_eq_true_eq]
  grind

theorem portCalls_unnamed (services : List Service) (socktype protocol port : Int) :
    portCalls services none socktype protocol port =
      if portEntries services protocol port = [] then
        [⟨if port != 0 then some (toString port) else none, socktype, protocol, port⟩]
      else (portEntries services protocol port).map (Service.call socktype) := by
  unfold portCalls
  dsimp only
  rw [filter_ported, if_neg Bool.false_ne_true]
  simp only [List.isEmpty_iff]

/-- The first name that is passed on. -/
theorem findSome_matches (calls : List PortCall) :
    (calls.flatMap PortCall.matches).findSome? (·.name) = calls.findSome? fun call =>
      if admitted call.socktype call.proto = true then call.name else none := by
  induction calls with
  | nil => rfl
  | cons call rest ih =>
      have hfirst : call.matches.findSome? (·.name) =
          if admitted call.socktype call.proto = true then call.name else none := by
        split
        · next h =>
            obtain ⟨m, more, hmatches⟩ :=
              List.exists_cons_of_ne_nil ((PortCall.matches_ne_nil_iff call).mpr h)
            have hall : ∀ m ∈ call.matches, m.name = call.name :=
              fun m hm => (PortCall.mem_matches hm).1
            rw [hmatches] at hall ⊢
            rw [List.findSome?_cons, hall m List.mem_cons_self]
            cases hname : call.name with
            | none =>
                refine List.findSome?_eq_none_iff.mpr fun m' hm' => ?_
                rw [hall m' (List.mem_cons_of_mem m hm'), hname]
            | some name => rfl
        · next h =>
            rw [not_not.mp (mt (PortCall.matches_ne_nil_iff call).mp h)]
            rfl
      rw [List.flatMap_cons, List.findSome?_append, ih, hfirst, List.findSome?_cons]
      cases (if admitted call.socktype call.proto = true then call.name else none) with
      | none => rfl
      | some name => rfl

theorem findSome_entries (entries : List Service) :
    (entries.map (Service.call 0)).findSome? (fun call =>
      if admitted call.socktype call.proto = true then call.name else none) =
        (entries.find? fun service => admitted 0 service.protocol).map (·.name) := by
  induction entries with
  | nil => rfl
  | cons service rest ih =>
      have hcall : admitted (service.call 0).socktype (service.call 0).proto =
          admitted 0 service.protocol := rfl
      rw [List.map_cons, List.findSome?_cons, List.find?_cons, ih, hcall]
      cases admitted 0 service.protocol with
      | true => rfl
      | false => rfl

/-- The name of the first entry for the port, or its number. -/
def portName (services : List Service) (protocol port : Int) : String :=
  match (portEntries services protocol port).head? with
  | some service => service.name
  | none => toString port

theorem reverseServname_iff (services : List Service) {request : Request}
    (hport : request.port ≠ 0) :
    reverseServname services request = some (portName services request.protocol request.port) ↔
      admitted 0 request.protocol = true ∧
        ((portEntries services request.protocol request.port).find? fun service =>
            admitted 0 service.protocol).map (·.name) =
          (portEntries services request.protocol request.port).head?.map (·.name) := by
  unfold reverseServname portName
  rw [serviceListQuery_eq, findSome_matches, portCalls_unnamed]
  by_cases hempty : portEntries services request.protocol request.port = []
  · rw [if_pos hempty, hempty]
    simp [hport]
  · rw [if_neg hempty, findSome_entries]
    obtain ⟨service, rest, hentries⟩ := List.exists_cons_of_ne_nil hempty
    -- an entry is for the protocol that is asked for
    have hfor : admitted 0 request.protocol = false →
        (portEntries services request.protocol request.port).find?
          (fun service => admitted 0 service.protocol) = none := by
      intro hnot
      refine List.find?_eq_none.mpr fun entry hentry => ?_
      have hmatch := (List.mem_filter.mp hentry).2
      rw [Bool.and_eq_true, Bool.or_eq_true, decide_eq_true_eq, decide_eq_true_eq,
        decide_eq_true_eq] at hmatch
      rcases hmatch.2 with hzero | hsame
      · rw [hzero] at hnot
        cases hnot
      · rw [hsame, hnot]
        exact Bool.false_ne_true
    rw [hentries] at hfor ⊢
    cases hadmitted : admitted 0 request.protocol with
    | true => simp
    | false =>
        rw [hfor hadmitted]
        simp

/--
**The first name info of a reverse query names the first entry for the port, or the port itself, if
and only if the protocol is no other than TCP and UDP and the first entry for one of these two has
the name of the first entry.**
-/
theorem name_info_servname_iff (env : Env) (s : St) (nodename : Option String)
    (hnodename : s.query.response.nodename = none) (hservname : s.query.response.servname = none)
    (hport : 0 < s.query.request.port) :
    (∃ s', backendAddNameInfo env nodename s = .ok () s' ∧
      s'.query.response.servname.map (·.value) =
        some (portName env.services s.query.request.protocol s.query.request.port)) ↔
      admitted 0 s.query.request.protocol = true ∧
        ((portEntries env.services s.query.request.protocol s.query.request.port).find?
            fun service => admitted 0 service.protocol).map (·.name) =
          (portEntries env.services s.query.request.protocol s.query.request.port).head?.map
            (·.name) := by
  rw [← reverseServname_iff env.services (Int.ne_of_gt hport)]
  have hcall : ∃ s', backendAddNameInfo env nodename s = .ok () s' ∧
      s'.query.response.servname.map (·.value) = reverseServname env.services s.query.request := by
    refine ⟨_, rfl, ?_⟩
    dsimp only
    rw [hnodename, hservname]
    simp [Function.comp_def]
  obtain ⟨s', hok, hname⟩ := hcall
  constructor
  · rintro ⟨s'', hok', hname'⟩
    rw [hok] at hok'
    cases hok'
    exact hname.symm.trans hname'
  · exact fun hsame => ⟨s', hok, hname.trans hsame⟩

/-- A reverse query for a port. -/
def reverseQuery (protocol port : Int) : St :=
  { query := { id := 0, request := { type := .reverse, protocol, port } }
    backends := [] }

/-- Two entries for port 80, and a query that names no protocol. -/
theorem name_info_servname_http :
    0 < (reverseQuery 0 80).query.request.port ∧
    ∃ s', backendAddNameInfo { services := [⟨IPPROTO_TCP, 80, "http"⟩, ⟨IPPROTO_TCP, 80, "www"⟩] }
        (some "localhost") (reverseQuery 0 80) = .ok () s' ∧
      s'.query.response.servname.map (·.value) = some "http" := by
  have hport : 0 < (reverseQuery 0 80).query.request.port := by decide
  exact ⟨hport, (name_info_servname_iff
    { services := [⟨IPPROTO_TCP, 80, "http"⟩, ⟨IPPROTO_TCP, 80, "www"⟩] } (reverseQuery 0 80) _
    rfl rfl hport).mpr (by decide)⟩

/-- An entry for SCTP is never named. -/
theorem name_info_omits_sctp :
    portName [⟨IPPROTO_SCTP, 2905, "m3ua"⟩] IPPROTO_SCTP 2905 = "m3ua" ∧
    ¬ ∃ s', backendAddNameInfo { services := [⟨IPPROTO_SCTP, 2905, "m3ua"⟩] } (some "localhost")
        (reverseQuery IPPROTO_SCTP 2905) = .ok () s' ∧
      s'.query.response.servname.map (·.value) =
        some (portName [⟨IPPROTO_SCTP, 2905, "m3ua"⟩] IPPROTO_SCTP 2905) := by
  refine ⟨by decide, ?_⟩
  rintro ⟨s', hok, hname⟩
  cases hok
  exact absurd hname (by decide)

/-! ### Addresses -/

/--
A lookup of the name makes a path: there is a row for the hints or, if entries of the name are
used, for the socket type and the protocol of one of them.
-/
def Served (services : List Service) (name : String) (socktype protocol : Int) : Prop :=
  if isNumber name = true ∨ heeded services name protocol = [] then
    admitted socktype protocol = true
  else ∃ service ∈ heeded services name protocol, admitted socktype service.protocol = true

theorem serviceListQuery_ne_nil_iff (services : List Service) (name : String)
    (socktype protocol : Int) :
    serviceListQuery services (some name) socktype protocol 0 ≠ [] ↔
      Served services name socktype protocol := by
  have hsingle : ∀ call : PortCall, [call].flatMap PortCall.matches ≠ [] ↔
      admitted call.socktype call.proto = true := by
    intro call
    rw [List.flatMap_singleton]
    exact call.matches_ne_nil_iff
  rw [serviceListQuery_eq]
  unfold Served
  cases hname : isNumber name with
  | true =>
      rw [portCalls_number services hname, if_pos (Or.inl rfl)]
      exact hsingle _
  | false =>
      by_cases hheeded : heeded services name protocol = []
      · rw [portCalls_none services hname socktype hheeded, if_pos (Or.inr hheeded)]
        exact hsingle _
      · rw [portCalls_some services hname socktype hheeded,
          if_neg fun h => h.elim Bool.false_ne_true hheeded, List.flatMap_map, ne_eq,
          List.flatMap_eq_nil_iff, not_forall]
        refine exists_congr fun service => ?_
        rw [Classical.not_imp]
        exact and_congr_right fun _ => (service.call socktype).matches_ne_nil_iff

/-- The socket types with which an address is looked up. -/
def socktypesOf (request : Request) (family : Int) : List Int :=
  if family = AF_UNIX then [SOCK_STREAM, SOCK_DGRAM] else [request.socktype]

theorem servicePaths_ne_nil_iff (services : List Service) {request : Request} {name : String}
    (hname : request.servname = some name) {a : PathArgs} (hprotocol : a.protocol = 0)
    (hport : a.port = 0) : servicePaths services request a ≠ [] ↔
      Served services name (if a.socktype ≠ 0 then a.socktype else request.socktype)
        request.protocol := by
  unfold servicePaths
  dsimp only
  rw [if_pos ⟨hname ▸ rfl, Or.inr (Or.inr hport)⟩, hname, if_neg (not_not.mpr hprotocol), ne_eq,
    List.map_eq_nil_iff]
  exact serviceListQuery_ne_nil_iff services name _ _

theorem pathsOf_ne_nil_iff (services : List Service) {request : Request} {name : String}
    (hname : request.servname = some name) {a : PathArgs} (hsocktype : a.socktype = 0)
    (hprotocol : a.protocol = 0) (hport : a.port = 0) : pathsOf services request a ≠ [] ↔
      (request.family = AF_UNSPEC ∨ request.family = a.family) ∧
        ∃ socktype ∈ socktypesOf request a.family,
          Served services name socktype request.protocol := by
  unfold pathsOf socktypesOf
  by_cases hfamily : request.family = AF_UNSPEC ∨ request.family = a.family
  · rw [if_neg fun h => hfamily.elim h.1 h.2]
    refine Iff.trans ?_ (and_iff_right hfamily).symm
    by_cases hunix : a.family = AF_UNIX
    · -- the two calls that the function makes of itself
      rw [if_pos ⟨hunix, hsocktype⟩, if_pos hunix, ne_eq, List.flatMap_eq_nil_iff, not_forall]
      refine exists_congr fun socktype => ?_
      rw [Classical.not_imp]
      refine and_congr_right fun hmem => ?_
      have hgiven : socktype ≠ 0 := by
        rintro rfl
        exact absurd hmem (by decide)
      have hpaths := @servicePaths_ne_nil_iff services request name hname
        { a with ifindex := 0, socktype := socktype, protocol := 0, port := 0 } rfl rfl
      rw [if_pos hgiven] at hpaths
      exact hpaths
    · rw [if_neg fun h => hunix h.1, if_neg hunix,
        servicePaths_ne_nil_iff services hname hprotocol hport, if_neg (not_not.mpr hsocktype)]
      simp
  · rw [if_pos (not_or.mp hfamily)]
    exact ⟨fun h => absurd rfl h, fun h => absurd h.1 hfamily⟩

section

variable (env : Env) (reach : Nat → Path → Bool) (fresh : Nat → Nat → Path)

/-- The call adds at least one path to the response, and all that it adds are for the address. -/
def GetsPath (request : Request) (calls : List PathArgs) (a : PathArgs) : Prop :=
  ∃ r r' added, PathArray.backendAddPaths env reach fresh request calls = some r ∧
    r.backendAddPath env reach fresh request a = some r' ∧ r'.paths.Perm (r.paths ++ added) ∧
    added ≠ [] ∧
    ∀ path ∈ added, path.family = a.family ∧ path.address = pathAddress a.family a.address

theorem getsPath_iff (request : Request) (calls : List PathArgs) (a : PathArgs) :
    GetsPath env reach fresh request calls a ↔ pathsOf env.services request a ≠ [] := by
  obtain ⟨r, r', hr, hr', -, -, hperm⟩ := backendAddPath_perm env reach fresh request calls a
  constructor
  · rintro ⟨r₁, r₂, added, hr₁, hr₂, hadded, hne, -⟩ hnil
    obtain rfl := Option.some.inj (hr.symm.trans hr₁)
    obtain rfl := Option.some.inj (hr'.symm.trans hr₂)
    have hlength := (hperm.symm.trans hadded).length_eq
    rw [hnil, List.length_append, List.length_append] at hlength
    refine hne (List.eq_nil_of_length_eq_zero ?_)
    exact (Nat.add_left_cancel hlength).symm
  · intro hne
    refine ⟨r, r', _, hr, hr', hperm, fun hnil => hne ?_, fun path hpath => ?_⟩
    · refine List.eq_nil_of_length_eq_zero ?_
      rw [← checkedPaths_length env reach (pathsOf env.services request a) r.pathcount, hnil]
      rfl
    · obtain ⟨i, first, hfirst, rfl⟩ := mem_checkedPaths env reach _ _ hpath
      obtain ⟨reachable, heq⟩ := checkedPath_eq env reach i first
      rw [heq]
      have hgiven := pathsOf_given env.services request a first hfirst
      exact ⟨hgiven.family, hgiven.address⟩

end

/--
A request with a hint that a row of the table agrees with, for whose protocol the service is
known.
-/
structure Asked (services : List Service) (request : Request) (name : String) : Prop where
  hint : request.socktype ≠ 0 ∨ request.protocol ≠ 0
  row : ∃ row ∈ protocols, (request.socktype = 0 ∨ row.socktype = request.socktype) ∧
    (request.protocol = 0 ∨ row.protocol = request.protocol) ∧
    (isNumber name = true ∨
      ∃ service ∈ services, service.name = name ∧ service.protocol = row.protocol)

/--
**An address gets a path if and only if its family is asked for and the rows that are left to the
lookup include one.**
-/
theorem address_gets_path_iff (env : Env) (reach : Nat → Path → Bool) (fresh : Nat → Nat → Path)
    (request : Request) (name : String) (hname : request.servname = some name)
    (calls : List PathArgs) (a : PathArgs) (hsocktype : a.socktype = 0) (hprotocol : a.protocol = 0)
    (hport : a.port = 0) :
    (Asked env.services request name → GetsPath env reach fresh request calls a) ↔
      (Asked env.services request name →
        (request.family = AF_UNSPEC ∨ request.family = a.family) ∧
          ∃ socktype ∈ socktypesOf request a.family,
            Served env.services name socktype request.protocol) := by
  refine imp_congr_right fun _ => ?_
  rw [getsPath_iff]
  exact pathsOf_ne_nil_iff env.services hname hsocktype hprotocol hport

/-- An address for a stream socket and a service that has an entry for TCP. -/
theorem address_gets_path_http :
    Asked [⟨IPPROTO_TCP, 80, "http"⟩] { servname := some "http", socktype := SOCK_STREAM } "http" ∧
    GetsPath { services := [⟨IPPROTO_TCP, 80, "http"⟩] } (fun _ _ => true) (fun _ _ => Path.zero)
      { servname := some "http", socktype := SOCK_STREAM } []
      { family := AF_INET, address := [127, 0, 0, 1] } := by
  have hasked : Asked [⟨IPPROTO_TCP, 80, "http"⟩]
      { servname := some "http", socktype := SOCK_STREAM } "http" :=
    ⟨by decide, by decide⟩
  refine ⟨hasked, (address_gets_path_iff { services := [⟨IPPROTO_TCP, 80, "http"⟩] }
    (fun _ _ => true) (fun _ _ => Path.zero) { servname := some "http", socktype := SOCK_STREAM }
    "http" rfl [] { family := AF_INET, address := [127, 0, 0, 1] } rfl rfl rfl).mpr
    (fun _ => ⟨by decide, SOCK_STREAM, by decide, ?_⟩) hasked⟩
  unfold Served
  decide

/-- An address is dropped for SCTP, if the socket type is not given as well. -/
theorem address_dropped_for_sctp :
    ¬ (Asked [] { servname := some "80", protocol := IPPROTO_SCTP } "80" →
      GetsPath {} (fun _ _ => true) (fun _ _ => Path.zero)
        { servname := some "80", protocol := IPPROTO_SCTP } []
        { family := AF_INET, address := [127, 0, 0, 1] }) := by
  intro hgets
  have hpath := hgets ⟨by decide, by decide⟩
  rw [getsPath_iff] at hpath
  exact hpath (by decide)

end Netresolve
