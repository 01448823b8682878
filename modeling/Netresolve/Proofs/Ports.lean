/-
Where the port of a path comes from.

A port is a number that is written somewhere: in the call of a backend, in the service name, or in
a line of the services file.  On its way into the path it passes `strtol` and an `int`, and on its
way into a socket address a field of 16 bits, and none of them looks whether it fits.  `sources`
has the number that was written beside the port that the path gets.
-/
import Netresolve.Proofs.Addrinfo
import Netresolve.Proofs.Service
import Netresolve.Proofs.ServiceFile

namespace Netresolve

open ServiceFile CString Lines

/-! ### Numbers in the services file -/

/-- An entry of the services list, and the number of its line. -/
structure Written where
  service : Service
  number : Int
  deriving DecidableEq, Repr

/-- The number of a line, which stands behind its name. -/
def lineNumber (line : Text) : Int :=
  match splitToken blank line with
  | none => 0
  | some (_, rest) => ((splitToken slash rest).map fun split => leadingNumber split.1).getD 0

/-- The entries of a call of `read_service`. -/
def writtenOf (call : ServiceFile.Call) : List Written :=
  call.added.map fun service => ⟨service, lineNumber call.line⟩

/-- The entries of the file. -/
def writtenIn (calls : List ServiceFile.Call) : List Written := calls.flatMap writtenOf

theorem writtenIn_service (calls : List ServiceFile.Call) :
    (writtenIn calls).map (·.service) = calls.flatMap ServiceFile.Call.added := by
  unfold writtenIn
  rw [List.map_flatMap]
  refine List.flatMap_congr fun call _ => ?_
  unfold writtenOf
  rw [List.map_map]
  exact List.map_id _

/-- What is left of a number that is read as a `long` and stored in an `int`. -/
def stored (n : Int) : Int := toCInt (clampLong n)

theorem stored_eq {n : Int} (hlow : 0 ≤ n) (hhigh : n ≤ 65535) : stored n = n :=
  toCInt_clampLong (by omega) (by omega)

theorem serviceOf_port {line : Text} {added : List Service} (h : serviceOf line = .ok added) :
    ∀ service ∈ added, service.port = stored (lineNumber line) := by
  intro service hservice
  unfold serviceOf at h
  unfold lineNumber
  cases hname : splitToken blank line with
  | none =>
      rw [hname] at h
      cases h
      cases hservice
  | some split =>
      obtain ⟨name, rest⟩ := split
      rw [hname] at h
      dsimp only at h ⊢
      cases hnumber : splitToken slash rest with
      | none =>
          rw [hnumber] at h
          cases h
      | some split₂ =>
          obtain ⟨number, rest₂⟩ := split₂
          rw [hnumber] at h
          dsimp only at h
          split at h
          · cases h
            cases hservice
          · split at h
            · cases h
              cases hservice
            · cases h
              obtain ⟨label, -, rfl⟩ := List.mem_map.mp hservice
              show toCInt (strtol number).1 = _
              rw [strtol_fst]
              rfl

/-- Every entry has the port that is left of its number. -/
theorem written_port {choice : Nat → Nat} {memory content : Text} {fuel : Nat}
    {calls : List ServiceFile.Call}
    (hread : readServicesCalls choice memory fuel content = .ok calls) :
    ∀ w ∈ writtenIn calls, w.service.port = stored w.number := by
  have hcalls : ∀ call ∈ calls, ∀ service ∈ call.added,
      service.port = stored (lineNumber call.line) := by
    refine readLoop_all (fun {memory out memory'} hitem call hcall => ?_) 1024 choice fuel hread
    unfold callReadService at hitem
    have hdoes := readService_does memory
    cases hservice : readService memory with
    | error e =>
        rw [hservice] at hitem
        cases hitem
    | ok result =>
        rw [hservice] at hitem hdoes
        cases hitem
        rw [List.mem_singleton.mp hcall]
        cases hline : serviceOf (cstring memory) with
        | error e =>
            rw [hline] at hdoes
            cases hdoes
        | ok added =>
            rw [hline] at hdoes
            obtain ⟨memory'', hresult, -⟩ := hdoes
            cases hresult
            exact serviceOf_port hline
  intro w hw
  obtain ⟨call, hcall, hw⟩ := List.mem_flatMap.mp hw
  obtain ⟨service, hservice, rfl⟩ := List.mem_map.mp hw
  exact hcalls call hcall service hservice

/-! ### The number behind a port -/

/-- A number that is written somewhere, and the port that a path gets for it. -/
structure PortSource where
  number : Int
  port : Int
  deriving DecidableEq, Repr

/--
The calls of `found_port` for a name, with the number that is written for each: that of the entry
if entries are used, and else the one the name starts with.
-/
def writtenCalls (written : List Written) (name : String) (socktype protocol : Int) :
    List (Int × PortCall) :=
  let found := written.filter fun w =>
    serviceMatches (some name) protocol (nameNumber name) w.service
  if isNumber name = true ∨ found = [] then
    (portCalls [] (some name) socktype protocol 0).map fun call => (leadingNumber name.toList, call)
  else found.map fun w => (w.number, w.service.call socktype)

theorem filter_written (written : List Written) (name : String) (protocol : Int) :
    (written.filter fun w => serviceMatches (some name) protocol (nameNumber name) w.service).map
        (·.service) = heeded (written.map (·.service)) name protocol := by
  rw [← filter_named, List.filter_map]
  rfl

theorem writtenCalls_snd (written : List Written) (name : String) (socktype protocol : Int) :
    (writtenCalls written name socktype protocol).map Prod.snd =
      portCalls (written.map (·.service)) (some name) socktype protocol 0 := by
  have hheeded := filter_written written name protocol
  unfold writtenCalls
  dsimp only
  generalize (written.filter fun w =>
    serviceMatches (some name) protocol (nameNumber name) w.service) = found at hheeded ⊢
  split
  · next hnone =>
      rw [List.map_map]
      refine (List.map_id _).trans ?_
      cases hname : isNumber name with
      | true => rw [portCalls_number [] hname, portCalls_number _ hname]
      | false =>
          have hempty : found = [] := hnone.resolve_left (by simp [hname])
          rw [hempty] at hheeded
          rw [portCalls_none [] hname socktype rfl, portCalls_none _ hname socktype hheeded.symm]
  · next hsome =>
      obtain ⟨hname, hfound⟩ := not_or.mp hsome
      have hne : heeded (written.map (·.service)) name protocol ≠ [] := by
        rw [← hheeded]
        exact fun hnil => hfound (List.map_eq_nil_iff.mp hnil)
      rw [portCalls_some _ (Bool.eq_false_iff.mpr hname) socktype hne, ← hheeded, List.map_map,
        List.map_map]
      rfl

theorem nameNumber_eq (name : String) : nameNumber name = stored (leadingNumber name.toList) := by
  unfold nameNumber
  rw [strtol_fst]
  rfl

theorem writtenCalls_port {written : List Written}
    (hwritten : ∀ w ∈ written, w.service.port = stored w.number) (name : String)
    (socktype protocol : Int) :
    ∀ c ∈ writtenCalls written name socktype protocol, c.2.port = stored c.1 := by
  intro c hc
  unfold writtenCalls at hc
  dsimp only at hc
  split at hc
  · obtain ⟨call, hcall, rfl⟩ := List.mem_map.mp hc
    refine Eq.trans ?_ (nameNumber_eq name)
    cases hname : isNumber name with
    | true =>
        rw [portCalls_number [] hname] at hcall
        rw [List.mem_singleton.mp hcall]
    | false =>
        rw [portCalls_none [] hname socktype rfl] at hcall
        rw [List.mem_singleton.mp hcall]
  · obtain ⟨w, hw, rfl⟩ := List.mem_map.mp hc
    exact hwritten w (List.mem_filter.mp hw).1

/-- The sources for one record, or for one for each match of the service name. -/
def serviceSources (written : List Written) (request : Request) (a : PathArgs) : List PortSource :=
  match request.servname with
  | none => [⟨a.port, a.port⟩]
  | some name =>
      if a.socktype = 0 ∨ a.protocol = 0 ∨ a.port = 0 then
        (writtenCalls written name (if a.socktype ≠ 0 then a.socktype else request.socktype)
          (if a.protocol ≠ 0 then a.protocol else request.protocol)).flatMap fun c =>
            c.2.matches.map fun m => ⟨c.1, m.port⟩
      else [⟨a.port, a.port⟩]

/-- The sources of the ports of the paths that `netresolve_backend_add_path` adds. -/
def sources (written : List Written) (request : Request) (a : PathArgs) : List PortSource :=
  if request.family ≠ AF_UNSPEC ∧ request.family ≠ a.family then []
  else if a.family = AF_UNIX ∧ a.socktype = 0 then
    [SOCK_STREAM, SOCK_DGRAM].flatMap fun socktype =>
      serviceSources written request
        { a with ifindex := 0, socktype := socktype, protocol := 0, port := 0 }
  else serviceSources written request a

/-- There is one source for each path. -/
theorem serviceSources_ports (written : List Written) (request : Request) (a : PathArgs) :
    (serviceSources written request a).map (·.port) =
      (servicePaths (written.map (·.service)) request a).map (·.port) := by
  unfold serviceSources servicePaths
  cases hname : request.servname with
  | none => rfl
  | some name =>
      dsimp only
      by_cases hasks : a.socktype = 0 ∨ a.protocol = 0 ∨ a.port = 0
      · have hboth : (some name).isSome = true ∧ (a.socktype = 0 ∨ a.protocol = 0 ∨ a.port = 0) :=
          ⟨rfl, hasks⟩
        rw [if_pos hasks, if_pos hboth, serviceListQuery_eq, ← writtenCalls_snd, List.flatMap_map,
          List.map_flatMap, List.map_flatMap, List.map_flatMap]
        refine List.flatMap_congr fun c _ => ?_
        rw [List.map_map, List.map_map]
        rfl
      · have hboth : ¬ ((some name).isSome = true ∧
            (a.socktype = 0 ∨ a.protocol = 0 ∨ a.port = 0)) := fun h => hasks h.2
        rw [if_neg hasks, if_neg hboth]
        rfl

theorem sources_ports (written : List Written) (request : Request) (a : PathArgs) :
    (sources written request a).map (·.port) =
      (pathsOf (written.map (·.service)) request a).map (·.port) := by
  unfold sources pathsOf
  split
  · rfl
  · split
    · rw [List.map_flatMap, List.map_flatMap]
      exact List.flatMap_congr fun socktype _ => serviceSources_ports written request _
    · exact serviceSources_ports written request a

/-- The port is the number, or what is left of it. -/
def PortSource.Kept (source : PortSource) : Prop :=
  source.port = source.number ∨ source.port = stored source.number

theorem serviceSources_kept {written : List Written}
    (hwritten : ∀ w ∈ written, w.service.port = stored w.number) (request : Request)
    (a : PathArgs) : ∀ source ∈ serviceSources written request a, source.Kept := by
  intro source hsource
  unfold serviceSources at hsource
  split at hsource
  · rw [List.mem_singleton.mp hsource]
    exact Or.inl rfl
  · split at hsource
    · obtain ⟨c, hc, hsource⟩ := List.mem_flatMap.mp hsource
      obtain ⟨m, hm, rfl⟩ := List.mem_map.mp hsource
      exact Or.inr ((PortCall.mem_matches hm).2.trans (writtenCalls_port hwritten _ _ _ c hc))
    · rw [List.mem_singleton.mp hsource]
      exact Or.inl rfl

theorem sources_kept {written : List Written}
    (hwritten : ∀ w ∈ written, w.service.port = stored w.number) (request : Request)
    (a : PathArgs) : ∀ source ∈ sources written request a, source.Kept := by
  intro source hsource
  unfold sources at hsource
  split at hsource
  · cases hsource
  · split at hsource
    · obtain ⟨socktype, -, hsource⟩ := List.mem_flatMap.mp hsource
      exact serviceSources_kept hwritten request _ source hsource
    · exact serviceSources_kept hwritten request a source hsource

/-! ### Socket addresses -/

/-- The port of a socket address of the path is the port of the path. -/
def SameSockaddr (path : Path) : Prop :=
  ∀ sa, Addrinfo.getSockaddr path = some sa → Addrinfo.ntohs ((sa.drop 2).take 2) = path.port

theorem sameSockaddr {path : Path} (hlow : 0 ≤ path.port) (hhigh : path.port ≤ 65535) :
    SameSockaddr path := by
  intro sa hsa
  have hport : ∀ rest, Addrinfo.ntohs (((Bytes.ofInt 2 path.family ++ Addrinfo.htons path.port ++
      rest).drop 2).take 2) = path.port := by
    intro rest
    obtain ⟨-, hnext, -⟩ := Addrinfo.header_fields (Bytes.ofInt 2 path.family)
      (Addrinfo.htons path.port) rest (Bytes.ofInt_length 2 _) (Addrinfo.htons_length _)
    rw [hnext, Addrinfo.ntohs_htons hlow hhigh]
  unfold Addrinfo.getSockaddr at hsa
  split at hsa
  · rw [← Option.some.inj hsa, List.append_assoc]
    exact hport _
  · split at hsa
    · rw [← Option.some.inj hsa, List.append_assoc, List.append_assoc]
      exact hport _
    · cases hsa

/-! ### The ports of a response -/

theorem checkedPaths_ports (env : Env) (reach : Nat → Path → Bool) (paths : List Path) : ∀ n,
    (checkedPaths env reach n paths).map (·.port) = paths.map (·.port) := by
  induction paths with
  | nil => exact fun _ => rfl
  | cons path rest ih =>
      intro n
      obtain ⟨reachable, heq⟩ := checkedPath_eq env reach n path
      rw [checkedPaths, List.map_cons, List.map_cons, ih, heq]

/-- The response has one path for each source, with its port. -/
theorem backendAddPaths_ports (env : Env) (reach : Nat → Path → Bool) (fresh : Nat → Nat → Path)
    (written : List Written) (henv : env.services = written.map (·.service)) (request : Request)
    (adds : List PathArgs) :
    ∃ r, PathArray.backendAddPaths env reach fresh request adds = some r ∧
      (r.paths.map (·.port)).Perm ((adds.flatMap (sources written request)).map (·.port)) := by
  obtain ⟨r, hr, hholds⟩ := backendAddPaths_holds env reach fresh request adds
  have hperm := Insertion.insertAll_perm (r := pathLt env.sort) (produced env reach request adds) []
  rw [← hholds.paths, List.nil_append] at hperm
  have hports : (adds.flatMap (sources written request)).map (·.port) =
      (produced env reach request adds).map (·.port) := by
    unfold produced
    rw [checkedPaths_ports, List.map_flatMap, List.map_flatMap, henv]
    exact List.flatMap_congr fun a _ => sources_ports written request a
  refine ⟨r, hr, ?_⟩
  rw [hports]
  exact hperm.map _

/--
**Every path has the port that was written, which is that of its socket address as well, if and only
if all numbers that are used are between 0 and 65535.**
-/
theorem ports_kept_iff (choice : Nat → Nat) (memory content : Text) (fuel : Nat)
    (calls : List ServiceFile.Call)
    (hread : readServicesCalls choice memory fuel content = .ok calls)
    (env : Env) (henv : readServices choice memory fuel content = .ok env.services)
    (reach : Nat → Path → Bool) (fresh : Nat → Nat → Path) (request : Request)
    (adds : List PathArgs) :
    ∃ r, PathArray.backendAddPaths env reach fresh request adds = some r ∧
      (r.paths.map (·.port)).Perm
        ((adds.flatMap (sources (writtenIn calls) request)).map (·.port)) ∧
      ((∀ path ∈ r.paths, 0 ≤ path.port ∧ path.port ≤ 65535 ∧ SameSockaddr path) ∧
          (∀ source ∈ adds.flatMap (sources (writtenIn calls) request),
            source.port = source.number) ↔
        ∀ source ∈ adds.flatMap (sources (writtenIn calls) request),
          0 ≤ source.number ∧ source.number ≤ 65535) := by
  have hservices : env.services = (writtenIn calls).map (·.service) := by
    unfold readServices at henv
    rw [hread] at henv
    rw [writtenIn_service]
    exact (Except.ok.inj henv).symm
  obtain ⟨r, hr, hperm⟩ := backendAddPaths_ports env reach fresh _ hservices request adds
  refine ⟨r, hr, hperm, ?_⟩
  constructor
  · rintro ⟨hpaths, hsame⟩ source hsource
    rw [← hsame source hsource]
    have hport := hperm.mem_iff.mpr (List.mem_map_of_mem hsource)
    obtain ⟨path, hpath, heq⟩ := List.mem_map.mp hport
    have hrange := hpaths path hpath
    rw [show path.port = source.port from heq] at hrange
    exact ⟨hrange.1, hrange.2.1⟩
  · intro hrange
    have hsame : ∀ source ∈ adds.flatMap (sources (writtenIn calls) request),
        source.port = source.number := by
      intro source hsource
      obtain ⟨a, -, hkept⟩ := List.mem_flatMap.mp hsource
      obtain ⟨hlow, hhigh⟩ := hrange source hsource
      rcases sources_kept (written_port hread) request a source hkept with h | h
      · exact h
      · exact h.trans (stored_eq hlow hhigh)
    refine ⟨fun path hpath => ?_, hsame⟩
    have hport := hperm.mem_iff.mp (List.mem_map_of_mem hpath)
    obtain ⟨source, hsource, heq⟩ := List.mem_map.mp hport
    have hnumber : path.port = source.number := heq.symm.trans (hsame source hsource)
    obtain ⟨hlow, hhigh⟩ := hrange source hsource
    rw [← hnumber] at hlow hhigh
    exact ⟨hlow, hhigh, sameSockaddr hlow hhigh⟩

/-- A request for a service on a stream socket. -/
def streamRequest (name : String) : Request := { servname := some name, socktype := SOCK_STREAM }

/-- The address of the machine itself. -/
def loopback : PathArgs := { family := AF_INET, address := [127, 0, 0, 1] }

/-- A file with one line, and an address for its service. -/
theorem ports_kept_http :
    readServicesCalls (fun _ => 1024) [] 13 "http 80/tcp\n".toList =
      .ok [⟨"http 80/tcp".toList, [⟨IPPROTO_TCP, 80, "http"⟩]⟩] ∧
    ∃ r, PathArray.backendAddPaths { services := [⟨IPPROTO_TCP, 80, "http"⟩] } (fun _ _ => true)
        (fun _ _ => Path.zero) (streamRequest "http") [loopback] = some r ∧
      r.paths.map (·.port) = [80] ∧
      ∀ path ∈ r.paths, 0 ≤ path.port ∧ path.port ≤ 65535 ∧ SameSockaddr path := by
  have hread : readServicesCalls (fun _ => 1024) [] 13 "http 80/tcp\n".toList =
      .ok [⟨"http 80/tcp".toList, [⟨IPPROTO_TCP, 80, "http"⟩]⟩] := by decide +kernel
  have hservices : readServices (fun _ => 1024) [] 13 "http 80/tcp\n".toList =
      .ok [⟨IPPROTO_TCP, 80, "http"⟩] := by
    unfold readServices
    rw [hread]
    rfl
  obtain ⟨r, hr, hperm, hiff⟩ := ports_kept_iff _ _ _ _ _ hread
    { services := [⟨IPPROTO_TCP, 80, "http"⟩] } hservices (fun _ _ => true) (fun _ _ => Path.zero)
    (streamRequest "http") [loopback]
  exact ⟨hread, r, hr, List.perm_singleton.mp hperm, (hiff.mpr (by decide)).1⟩

/-- The path for port 70000 has port 4464 in its socket address. -/
theorem port_70000_wraps :
    ∃ r, PathArray.backendAddPaths {} (fun _ _ => true) (fun _ _ => Path.zero)
        (streamRequest "70000") [loopback] = some r ∧
      r.paths.map (·.port) = [70000] ∧
      r.paths.map (fun path => (Addrinfo.getSockaddr path).map fun sa =>
        Addrinfo.ntohs ((sa.drop 2).take 2)) = [some 4464] ∧
      ¬ ∀ path ∈ r.paths, 0 ≤ path.port ∧ path.port ≤ 65535 ∧ SameSockaddr path := by
  have hrun : ∃ r, PathArray.backendAddPaths {} (fun _ _ => true) (fun _ _ => Path.zero)
        (streamRequest "70000") [loopback] = some r ∧
      r.paths.map (·.port) = [70000] ∧
      r.paths.map (fun path => (Addrinfo.getSockaddr path).map fun sa =>
        Addrinfo.ntohs ((sa.drop 2).take 2)) = [some 4464] :=
    ⟨_, rfl, by decide, by decide⟩
  obtain ⟨r, hr, hport, hsockaddr⟩ := hrun
  refine ⟨r, hr, hport, hsockaddr, fun hall => ?_⟩
  have hmem : (70000 : Int) ∈ r.paths.map (·.port) := by
    rw [hport]
    exact List.mem_singleton.mpr rfl
  obtain ⟨path, hpath, heq⟩ := List.mem_map.mp hmem
  have hhigh := (hall path hpath).2.1
  omega

end Netresolve
