/-
What `netresolve_query_gethostbyaddr` gives back.

The path it adds comes after the query has ended, so it changes no state, and the only thing that
can keep it out or put it beside others is what the reverse lookup has left: the request it was
made with and the paths backends have added.  `add_path` lets in no path of another family, in any
run, so the host entry has the family of the request.
-/
import Netresolve.Core.Hostent
import Netresolve.Proofs.Calls

namespace Netresolve

open Outcome

/-! ### What a run keeps of its request -/

/-- The query has this request, but for the protocol, and no path of a family it excludes. -/
structure Requested (request : Request) (s : St) : Prop where
  same : ∃ protocol, s.query.request = { request with protocol }
  paths : request.family ≠ AF_UNSPEC →
    ∀ p ∈ s.query.response.paths, p.value.family = request.family

/-- `x` leaves the request alone and lets in no path the request excludes. -/
abbrev Asks {α : Type} (request : Request) (x : M α) : Prop :=
  Stays (Kept (Requested request)) (fun _ => True) x

theorem Requested.congr {request : Request} {s s' : St} (h : Requested request s)
    (hrequest : s'.query.request = s.query.request)
    (hpaths : s'.query.response.paths = s.query.response.paths) : Requested request s' where
  same := by
    rw [hrequest]
    exact h.same
  paths := by
    rw [hpaths]
    exact h.paths

section

variable {request : Request} {env : Env}

theorem Keeps.asks {α : Type} {x : M α} (h : Keeps x) : Asks request x :=
  h.weaken (fun _ _ hf hs => hs.congr hf.request (congrArg Response.paths hf.response))
    fun _ _ => trivial

theorem asks_modify {f : St → St} (hf : ∀ s, (f s).query.request = s.query.request ∧
    (f s).query.response.paths = s.query.response.paths) : Asks request (modify f) :=
  .modify fun s h => h.congr (hf s).1 (hf s).2

theorem asks_modifyQuery {f : Query → Query} (hf : ∀ q, (f q).request = q.request ∧
    (f q).response.paths = q.response.paths) : Asks request (modifyQuery f) :=
  asks_modify fun s => hf s.query

theorem asks_observe (o : Obs) : Asks request (observe o) := asks_modify fun _ => ⟨rfl, rfl⟩

theorem asks_whenState {state : QueryState} {x : M Unit} (hx : Asks request x) :
    Asks request (whenState state x) :=
  .bind .get fun _ => .ite hx (.pure _)

/-! ### The calls of a backend -/

theorem checkReachability_address (path : Path) :
    (checkReachability env path).address = path.address := by
  unfold checkReachability
  split <;> rfl

theorem checkReachability_family (path : Path) :
    (checkReachability env path).family = path.family := by
  unfold checkReachability
  split <;> rfl

theorem storePath_asks {path : Path}
    (hpath : request.family ≠ AF_UNSPEC → path.family = request.family) :
    Asks request (storePath env path) := by
  refine .bind .get fun _ => .bind (asks_observe _) fun _ => .modify fun s h => ⟨h.same, ?_⟩
  intro hfamily p hp
  rcases List.mem_cons.mp ((insertPath_perm _ _ _).mem_iff.mp hp) with rfl | hold
  · exact (checkReachability_family path).trans (hpath hfamily)
  · exact h.paths hfamily p hold

/-- `add_path` is called for paths of the family of the request only. -/
theorem backendAddPath_asks {f : QueryState → M Unit} (hf : ∀ state, Asks request (f state))
    (a : PathArgs) : Asks request (backendAddPath env f a) := by
  refine .of_kept fun s hs => ?_
  unfold backendAddPath
  rw [sat_bind, sat_get]
  obtain ⟨protocol, hrequest⟩ := hs.same
  have hfamily : s.query.request.family = request.family := by
    rw [hrequest]
  have hall : request.family ≠ AF_UNSPEC →
      ∀ path ∈ pathsOf env.services s.query.request a, path.family = request.family := by
    rw [← hfamily]
    exact pathsOf_family env.services s.query.request a
  refine (sat_forM (fun rest s' => Requested request s' ∧
    (request.family ≠ AF_UNSPEC → ∀ path ∈ rest, path.family = request.family))
    (fun path rest s' h => ?_) _ s ⟨hs, hall⟩).mono (fun _ _ h => h.1) fun _ _ h => h
  have hadd : Asks request (addPath env f path) :=
    .bind (storePath_asks fun hne => h.2 hne path List.mem_cons_self) fun _ =>
      .bind .get fun _ => .ite (hf _) (.pure _)
  exact (hadd.kept h.1).mono
    (fun _ _ hs' => ⟨hs', fun hne p hp => h.2 hne p (List.mem_cons_of_mem _ hp)⟩) fun _ _ he => he

theorem runCall_asks {f : QueryState → M Unit} (hf : ∀ state, Asks request (f state))
    (call : Call) : Asks request (runCall env f call) := by
  refine .bind .get fun _ => .bind (asks_observe _) fun _ => ?_
  cases call with
  | addPath a => exact backendAddPath_asks hf a
  | setCanonicalName name => exact asks_modifyQuery fun _ => ⟨rfl, rfl⟩
  | addNameInfo nodename => exact asks_modifyQuery fun q => by split <;> exact ⟨rfl, rfl⟩
  | setDnsAnswer answer => exact asks_modifyQuery fun _ => ⟨rfl, rfl⟩
  | setSecure => exact asks_modifyQuery fun _ => ⟨rfl, rfl⟩
  | newPriv allocated =>
      exact .bind (keeps_allocPriv allocated).asks fun _ => .ite (.pure _) (hf _)
  | watchAdd fd => exact (keeps_callWatchAdd env fd).asks
  | watchRemove k doClose => exact (keeps_callWatchRemove env k doClose).asks
  | finished => exact hf _
  | failed => exact hf _

/-! ### The states of a query -/

theorem enterSetup_asks {f : QueryState → M Unit} (hf : ∀ state, Asks request (f state)) :
    Asks request (enterSetup env f) := by
  refine .bind keeps_currentBackend.asks fun backend => ?_
  cases backend with
  | none => exact .throw trivial
  | some backend =>
      refine .bind (.modify fun s h => ⟨?_, h.paths⟩) fun _ => .bind .get fun _ =>
        .bind (Keeps.asks (keeps_modifyBackend fun _ => rfl)) fun _ => .ite ?_ (hf _)
      · obtain ⟨protocol, hrequest⟩ := h.same
        have hset : ∀ (r : Request) (p : Int), r = { request with protocol } →
            ({ r with protocol := p } : Request) = { request with protocol := p } := by
          rintro r p rfl
          rfl
        exact ⟨_, hset _ _ hrequest⟩
      · refine .bind (.forM (runCall_asks hf) _) fun _ => .bind ?_ fun _ => asks_whenState (hf _)
        exact asks_whenState (.bind .get fun _ => hf _)

theorem invokeCallback_asks : Asks request invokeCallback :=
  .bind .get fun _ => .ite (asks_observe _) (.pure _)

theorem enterDone_asks {f : QueryState → M Unit} (hf : ∀ state, Asks request (f state)) :
    Asks request (enterDone env f) := by
  refine .bind (.bind (keeps_cleanupQuery env).asks fun _ => .bind .get fun s => ?_) fun found => ?_
  · exact .ite (.bind (asks_modifyQuery fun _ => ⟨rfl, rfl⟩) fun _ => .pure _)
      (.bind (asks_modifyQuery fun _ => ⟨rfl, rfl⟩) fun _ => .throw trivial)
  · exact .bind (.ite (hf _) (.pure _)) fun _ => invokeCallback_asks

theorem enterFailed_asks {f : QueryState → M Unit} (hf : ∀ state, Asks request (f state)) :
    Asks request (enterFailed env f) := by
  refine .bind (.bind .get fun s => .bind (.ite (asks_observe _) (.pure _)) fun _ =>
    .bind (keeps_cleanupQuery env).asks fun _ => .bind ?_ fun _ => .pure _) fun found =>
      .ite (hf _) invokeCallback_asks
  exact .bind (asks_modifyQuery fun _ => ⟨rfl, rfl⟩) fun _ => keeps_currentBackend.asks

/-- The only state that drops paths drops them all. -/
theorem enterState_asks {f : QueryState → M Unit} (hf : ∀ state, Asks request (f state))
    (old state : QueryState) : Asks request (enterState env f old state) := by
  cases state with
  | none =>
      exact .modify fun s h => ⟨h.same, fun _ p hp => absurd hp List.not_mem_nil⟩
  | setup => exact enterSetup_asks hf
  | waiting => exact .bind .get fun _ => .ite (keeps_setTimeout env _).asks (.pure _)
  | waitingMore =>
      exact .bind .get fun _ => .bind (.ite (hf _) (.pure _)) fun _ =>
        .bind .get fun _ => .ite (keeps_setTimeout env _).asks (.pure _)
  | resolved =>
      refine .ite (.bind (.bind .get fun _ => .ite ?_ (.throw trivial)) fun _ =>
        (keeps_setTimeout env _).asks) (.pure _)
      exact (keeps_modifyContext fun _ => Nat.le_succ _).asks
  | done => exact enterDone_asks hf
  | error => exact .pure _
  | failed => exact enterFailed_asks hf

theorem setState_asks (fuel : Nat) : ∀ state, Asks request (setState env fuel state) := by
  induction fuel with
  | zero => exact fun state => .throw trivial
  | succ fuel ih =>
      intro state
      refine .bind .get fun _ => .ite (.pure _) ?_
      exact .bind (asks_modifyQuery fun _ => ⟨rfl, rfl⟩) fun _ => .bind .get fun _ =>
        .bind (asks_observe _) fun _ => enterState_asks ih _ state

theorem querySetState_asks (state : QueryState) : Asks request (querySetState env state) :=
  .bind .get fun _ => setState_asks _ state

/-! ### Runs -/

theorem queryStart_asks : Asks request (queryStart env) :=
  .bind .get fun _ => .ite (.throw trivial) (querySetState_asks _)

theorem dispatchTimeout_asks (t : Timer) (state : QueryState) :
    Asks request (dispatchTimeout env t state) :=
  .bind .get fun _ => .ite (.throw trivial)
    (.bind (keeps_clearTimeout env t).asks fun _ => querySetState_asks state)

theorem watchCallback_asks (callback : WatchCallback) :
    Asks request (watchCallback env callback) := by
  cases callback with
  | backend i => exact .forM (runCall_asks querySetState_asks) _
  | timeout t =>
      cases t with
      | delayed => exact .bind .get fun _ => .ite (dispatchTimeout_asks _ _) (.throw trivial)
      | requestTimeout => exact .bind .get fun _ => .ite (dispatchTimeout_asks _ _) (.throw trivial)
      | resultTimeout => exact .bind .get fun _ => .ite (dispatchTimeout_asks _ _) (.throw trivial)

theorem queryDispatch_asks (w : Nat) : Asks request (queryDispatch env w) := by
  refine .bind .get fun s => ?_
  cases s.query.watches.find? (·.id = w) with
  | none => exact .throw trivial
  | some watch =>
      exact .bind (watchCallback_asks _) fun _ =>
        .bind (asks_whenState (querySetState_asks _)) fun _ => asks_whenState (querySetState_asks _)

end

/-- **A run keeps the request of its query and lets in no path of another family.** -/
theorem Reachable.requested {P₀ : Env → Prop} {P : St → Env → Nat → Prop} {s₀ s : St}
    (h : Reachable P₀ P s₀ s) (hnew : s₀.toLocal.New) : Requested s₀.query.request s := by
  have hstart : Requested s₀.query.request s₀ := by
    refine ⟨⟨s₀.query.request.protocol, rfl⟩, fun _ p hp => ?_⟩
    rw [hnew.response] at hp
    cases hp
  induction h with
  | start env _ hok => exact (queryStart_asks.kept hstart).of_ok hok
  | step _ hstep ih =>
      obtain ⟨env, w, -, -, hok⟩ := hstep
      exact ((queryDispatch_asks w).kept ih).of_ok hok

/-! ### A path from outside -/

section

variable {env : Env} {f : QueryState → M Unit}

theorem addPath_ended {s : St} (hs : s.query.state ≠ .waiting) (path : Path) :
    addPath env f path s = .ok () (s.stored env path) := by
  have hsat : Sat (addPath env f path) s (fun _ s' => s' = s.stored env path) fun _ _ => False := by
    simp only [addPath, storePath, observe, modifyQuery, sat_bind, sat_get, sat_modify, sat_ite,
      sat_pure]
    exact ⟨fun hw => absurd hw hs, fun _ => rfl⟩
  unfold Sat at hsat
  cases hrun : addPath env f path s with
  | ok a s' =>
      rw [hrun] at hsat
      rw [show s' = s.stored env path from hsat]
  | error e s' =>
      rw [hrun] at hsat
      exact hsat.elim

theorem addPaths_ended (paths : List Path) : ∀ {s : St}, s.query.state ≠ .waiting →
    forM paths (addPath env f) s = .ok () (paths.foldl (St.stored env) s) := by
  induction paths with
  | nil => exact fun _ => rfl
  | cons path rest ih =>
      intro s hs
      rw [List.forM_cons, List.foldl_cons, ← ih (s := s.stored env path) hs]
      show EStateM.bind _ _ s = _
      unfold EStateM.bind
      rw [addPath_ended hs]

/-- What is added after the end is stored, and changes nothing else. -/
theorem foldl_stored_query (paths : List Path) : ∀ s : St,
    (paths.foldl (St.stored env) s).query = { s.query with response := { s.query.response with
      paths := paths.foldl (fun stored path =>
        insertPath env.sort ⟨checkReachability env path, s.query.cursor⟩ stored)
        s.query.response.paths } } := by
  induction paths with
  | nil => exact fun _ => rfl
  | cons path rest ih =>
      intro s
      rw [List.foldl_cons, ih]
      rfl

variable (env) in
theorem foldl_stored_perm (paths : List Path) : ∀ s : St,
    ((paths.foldl (St.stored env) s).query.response.paths.map (·.value)).Perm
      (s.query.response.paths.map (·.value) ++ paths.map (checkReachability env)) := by
  induction paths with
  | nil =>
      intro s
      rw [List.map_nil, List.append_nil]
      exact List.Perm.refl _
  | cons path rest ih =>
      intro s
      rw [List.foldl_cons, List.map_cons]
      refine (ih (s.stored env path)).trans ?_
      exact (((insertPath_perm _ _ _).map _).append_right _).trans List.perm_middle.symm

end

/-! ### The host entry of a list of paths -/

namespace Compat

/-- One of the two families a host entry can have. -/
def isIp (path : Path) : Bool := path.family = AF_INET ∨ path.family = AF_INET6

/-- The addresses of a family, in the order of the paths. -/
def addressesOf (paths : List Path) (family : Int) : List (List UInt8) :=
  (paths.filter (·.family = family)).map (·.address.take (familyToLength family))

theorem addressesOf_cons_of_eq {path : Path} {family : Int} (h : path.family = family)
    (rest : List Path) : addressesOf (path :: rest) family =
      path.address.take (familyToLength family) :: addressesOf rest family := by
  unfold addressesOf
  rw [List.filter_cons_of_pos (by simpa using h), List.map_cons]

theorem addressesOf_cons_of_ne {path : Path} {family : Int} (h : path.family ≠ family)
    (rest : List Path) : addressesOf (path :: rest) family = addressesOf rest family := by
  unfold addressesOf
  rw [List.filter_cons_of_neg (by simpa using h)]

theorem foldl_add_chosen {family : Int} (hfamily : family = AF_INET ∨ family = AF_INET6)
    (paths : List Path) : ∀ he : Hostent, he.addrtype = family →
      he.length = familyToLength family →
      paths.foldl Hostent.add he = { he with addrs := he.addrs ++ addressesOf paths family } := by
  have hne : family ≠ 0 := by
    rcases hfamily with rfl | rfl <;> decide
  induction paths with
  | nil =>
      intro he _ _
      exact congrArg (fun addrs => { he with addrs }) (List.append_nil _).symm
  | cons path rest ih =>
      intro he hhe hlength
      rw [List.foldl_cons]
      by_cases hpath : path.family = family
      · have hadd : he.add path =
            { he with addrs := he.addrs ++ [path.address.take (familyToLength family)] } := by
          unfold Hostent.add
          rw [if_neg (fun h => hfamily.elim (fun h4 => h.1 (hpath.trans h4))
            fun h6 => h.2 (hpath.trans h6)), if_pos (by rw [hhe]; exact hne),
            if_neg (fun h => h (hhe.trans hpath.symm)), hlength]
        rw [hadd, addressesOf_cons_of_eq hpath]
        refine (ih { he with addrs := he.addrs ++ [path.address.take (familyToLength family)] } hhe
          hlength).trans ?_
        rw [List.append_assoc]
        rfl
      · have hadd : he.add path = he := by
          unfold Hostent.add
          split
          · rfl
          · rw [if_pos (by rw [hhe]; exact hne), if_pos (fun h => hpath (h.symm.trans hhe))]
        rw [hadd, ih he hhe hlength, addressesOf_cons_of_ne hpath]

/-- The first path of one of the two families decides. -/
theorem foldl_add_eq (paths : List Path) (name : Option String) :
    paths.foldl Hostent.add { name } =
      match paths.find? isIp with
      | none => { name }
      | some first =>
          { name
            addrtype := first.family
            length := familyToLength first.family
            addrs := addressesOf paths first.family } := by
  induction paths with
  | nil => rfl
  | cons path rest ih =>
      rw [List.foldl_cons]
      by_cases hip : path.family = AF_INET ∨ path.family = AF_INET6
      · have hadd : Hostent.add { name } path =
            { name
              addrtype := path.family
              length := familyToLength path.family
              addrs := [path.address.take (familyToLength path.family)] } := by
          unfold Hostent.add
          rw [if_neg (fun h => hip.elim h.1 h.2), if_neg (fun h => h rfl)]
          rcases hip with h | h <;> rw [h] <;> rfl
        rw [hadd, foldl_add_chosen hip rest _ rfl rfl,
          List.find?_cons_of_pos (show isIp path = true from decide_eq_true hip)]
        dsimp only
        rw [addressesOf_cons_of_eq rfl]
        rfl
      · have hadd : Hostent.add { name } path = { name } := by
          unfold Hostent.add
          rw [if_pos (not_or.mp hip)]
        rw [hadd, ih, List.find?_cons_of_neg (show ¬ isIp path = true by simpa [isIp] using hip)]
        cases hfind : rest.find? isIp with
        | none => rfl
        | some first =>
            have hfirst : isIp first = true := List.find?_some hfind
            have hne : path.family ≠ first.family := by
              intro heq
              refine hip ?_
              rw [heq]
              simpa [isIp] using hfirst
            dsimp only
            rw [addressesOf_cons_of_ne hne]

theorem getHostent_eq (q : Query) : getHostent q =
    match (q.response.paths.map (·.value)).find? isIp with
    | none => { name := getNodeName q }
    | some first =>
        { name := getNodeName q
          addrtype := first.family
          length := familyToLength first.family
          addrs := addressesOf (q.response.paths.map (·.value)) first.family } :=
  foldl_add_eq _ _

theorem getHostent_name (q : Query) : (getHostent q).name = getNodeName q := by
  rw [getHostent_eq]
  split <;> rfl

/-- A host entry with a family has it from one of the paths. -/
theorem exists_family {q : Query} {family : Int} (h : (getHostent q).addrtype = family)
    (hne : family ≠ 0) : ∃ p ∈ q.response.paths, p.value.family = family := by
  rw [getHostent_eq] at h
  cases hfind : (q.response.paths.map (·.value)).find? isIp with
  | none =>
      rw [hfind] at h
      exact absurd h.symm hne
  | some first =>
      rw [hfind] at h
      obtain ⟨p, hp, rfl⟩ := List.mem_map.mp (List.mem_of_find?_eq_some hfind)
      exact ⟨p, hp, h⟩

/-- The paths are all of one of the two families. -/
theorem getHostent_of_family {q : Query} {family : Int}
    (hfamily : family = AF_INET ∨ family = AF_INET6)
    (hall : ∀ p ∈ q.response.paths, p.value.family = family) :
    (getHostent q).addrs =
      q.response.paths.map (fun p => p.value.address.take (familyToLength family)) ∧
    (q.response.paths ≠ [] →
      (getHostent q).addrtype = family ∧ (getHostent q).length = familyToLength family) := by
  rw [getHostent_eq]
  have hvalues : ∀ path ∈ q.response.paths.map (·.value), path.family = family := by
    intro path hpath
    obtain ⟨p, hp, rfl⟩ := List.mem_map.mp hpath
    exact hall p hp
  have haddresses : addressesOf (q.response.paths.map (·.value)) family =
      q.response.paths.map (fun p => p.value.address.take (familyToLength family)) := by
    unfold addressesOf
    rw [List.filter_eq_self.mpr fun path hpath => decide_eq_true (hvalues path hpath), List.map_map]
    rfl
  cases hfind : (q.response.paths.map (·.value)).find? isIp with
  | none =>
      have hnil : q.response.paths = [] := by
        refine List.eq_nil_iff_forall_not_mem.mpr fun p hp => ?_
        have hnot := List.find?_eq_none.mp hfind p.value (List.mem_map_of_mem hp)
        exact hnot (by simpa [isIp, hall p hp] using hfamily)
      rw [hnil]
      exact ⟨rfl, fun h => absurd rfl h⟩
  | some first =>
      dsimp only
      rw [hvalues first (List.mem_of_find?_eq_some hfind)]
      exact ⟨haddresses, fun _ => ⟨rfl, rfl⟩⟩

/-! ### `netresolve_query_gethostbyaddr` -/

section

variable (env : Env) (reverse : Request → St) (config : Config) (address : List UInt8)
  (length family : Int)

/-- What the reverse query has come to. -/
def looked : St := reverse (reverseRequest config family address)

/-- The reverse query has run to its end, with or without a name. -/
structure Completed : Prop where
  run : ∃ s₀, s₀.toLocal.New ∧ s₀.query.request = reverseRequest config family address ∧
    Reachable (fun _ => True) (fun _ _ _ => True) s₀ (looked reverse config address family)
  ended : (looked reverse config address family).query.state = .done ∨
    (looked reverse config address family).query.state = .failed

/-- An address of four bytes or of sixteen, as the family wants it. -/
def Matching : Prop := family = AF_INET ∧ length = 4 ∨ family = AF_INET6 ∧ length = 16

/-- The host entry of one address, with the name that was found. -/
structure Gives (q : Query) : Prop where
  name : (gethostbyaddrDone q).name =
    (looked reverse config address family).query.response.nodename.map (·.value)
  addrtype : (gethostbyaddrDone q).addrtype = family
  length : (gethostbyaddrDone q).length = familyToLength family
  addrs : (gethostbyaddrDone q).addrs = [address]

/-- What is expected for a combination of family and length. -/
structure Right : Prop where
  accepted : Matching length family → ∃ s,
    queryGethostbyaddr env reverse config address length family = some (.ok () s) ∧
    Gives reverse config address family s.query
  refused : ¬ Matching length family →
    queryGethostbyaddr env reverse config address length family = none

/-- The records the response has and those the address adds. -/
def records : List Path :=
  (looked reverse config address family).query.response.paths.map (·.value) ++
    pathsOf env.services (looked reverse config address family).query.request { family, address }

/-- The addresses the reverse query has found. -/
def found : List (List UInt8) :=
  (looked reverse config address family).query.response.paths.map (·.value.address.take 4)

/-- How many records a request makes of an address: one without a service, else the matches. -/
def served (services : List Service) (request : Request) : Nat :=
  if request.servname.isSome then
    (serviceListQuery services request.servname request.socktype request.protocol 0).length
  else 1

/--
The address is not an IPv6 address.  The family of an IPv4 address is not forced to be another one,
and it has one record: the reverse query has found no address and the request makes one record of
this one, or it has found this one and the services have no match.
-/
structure Sound : Prop where
  ipv4 : ¬ (family = AF_INET6 ∧ length = 16)
  alone : family = AF_INET → length = 4 →
    (config.forceFamily = AF_UNSPEC ∨ config.forceFamily = AF_INET) ∧
    (found reverse config address family = [] ∧ address.length ≤ 4 ∧
        served env.services (looked reverse config address family).query.request = 1 ∨
      found reverse config address family = [address] ∧
        served env.services (looked reverse config address family).query.request = 0)

end

theorem servicePaths_address (services : List Service) (request : Request)
    (address : List UInt8) :
    (servicePaths services request { family := AF_INET, address }).map (·.address.take 4) =
      List.replicate (served services request) (address.take 4) := by
  have htake : (pathAddress AF_INET address).take 4 = address.take 4 := by
    rw [show pathAddress AF_INET address = address.take 4 from rfl, List.take_take, Nat.min_self]
  unfold servicePaths served
  by_cases hname : request.servname.isSome = true
  · simp [hname, htake, Function.comp_def, List.map_const']
  · simp [hname, htake]

theorem gethostbyaddrAccepts_iff (family length : Int) :
    gethostbyaddrAccepts family length = true ↔ family = AF_INET ∧ length = 4 := by
  unfold gethostbyaddrAccepts
  by_cases h4 : family = AF_INET
  · by_cases hl : length = 4 <;> simp [h4, hl]
  · by_cases h6 : family = AF_INET6 <;> simp [h4, h6]

section

variable {env : Env} {reverse : Request → St} {config : Config} {address : List UInt8}

variable (env) in
/-- The family a path of the response can have. -/
theorem records_family {family : Int} (h : Completed reverse config address family)
    (hforced : (reverseRequest config family address).family ≠ AF_UNSPEC) :
    ∀ path ∈ records env reverse config address family,
      path.family = (reverseRequest config family address).family := by
  obtain ⟨⟨s₀, hnew, hrequest, hrun⟩, _⟩ := h
  have hrequested := hrun.requested hnew
  rw [hrequest] at hrequested
  obtain ⟨protocol, hsame⟩ := hrequested.same
  intro path hpath
  rcases List.mem_append.mp hpath with hold | hadded
  · obtain ⟨p, hp, rfl⟩ := List.mem_map.mp hold
    exact hrequested.paths hforced p hp
  · have hfamily := pathsOf_family env.services _ _ (by rw [hsame]; exact hforced) path hadded
    rw [hfamily, hsame]

variable (env) in
/-- The query of an IPv4 address, and how its paths come from the records. -/
theorem queryGethostbyaddr_ipv4 (h : Completed reverse config address AF_INET) : ∃ s,
    queryGethostbyaddr env reverse config address 4 AF_INET = some (.ok () s) ∧
    getNodeName s.query =
      (looked reverse config address AF_INET).query.response.nodename.map (·.value) ∧
    (s.query.response.paths.map fun p => p.value.family).Perm
      ((records env reverse config address AF_INET).map (·.family)) ∧
    (s.query.response.paths.map fun p => p.value.address.take 4).Perm
      ((records env reverse config address AF_INET).map (·.address.take 4)) := by
  obtain ⟨⟨s₀, hnew, hrequest, hrun⟩, hended⟩ := h
  obtain ⟨protocol, hsame⟩ := (hrun.requested hnew).same
  rw [hrequest] at hsame
  have hwaiting : (looked reverse config address AF_INET).query.state ≠ .waiting := by
    rcases hended with hstate | hstate <;> rw [hstate] <;> decide
  have hperm : ∀ {β : Type} (g : Path → β), (∀ path, g (checkReachability env path) = g path) →
      (((pathsOf env.services (looked reverse config address AF_INET).query.request
        { family := AF_INET, address }).foldl (St.stored env)
          (looked reverse config address AF_INET)).query.response.paths.map fun p => g p.value).Perm
        ((records env reverse config address AF_INET).map g) := by
    intro β g hg
    have hstored := (foldl_stored_perm env (pathsOf env.services
      (looked reverse config address AF_INET).query.request { family := AF_INET, address })
      (looked reverse config address AF_INET)).map g
    rw [List.map_map, List.map_append, List.map_map, List.map_map,
      show g ∘ checkReachability env = g from funext hg] at hstored
    rw [records, List.map_append, List.map_map]
    exact hstored
  refine ⟨_, ?_, ?_, hperm _ checkReachability_family,
    hperm (fun path => path.address.take 4) fun path =>
      congrArg (List.take 4) (checkReachability_address path)⟩
  · unfold queryGethostbyaddr
    rw [if_pos ((gethostbyaddrAccepts_iff AF_INET 4).mpr ⟨rfl, rfl⟩)]
    exact congrArg some (addPaths_ended _ hwaiting)
  · rw [foldl_stored_query]
    unfold getNodeName
    dsimp only
    cases (looked reverse config address AF_INET).query.response.nodename with
    | some name => rfl
    | none =>
        -- A reverse query has no name of its own to give back.
        have htype : (looked reverse config address AF_INET).query.request.type ≠ .forward := by
          rw [hsame]
          exact RequestType.noConfusion
        dsimp only
        rw [if_pos htype, ite_self]
        rfl

/-- An IPv4 address is accepted, so everything depends on what the query gives. -/
theorem right_ipv4_iff {s : St}
    (hs : queryGethostbyaddr env reverse config address 4 AF_INET = some (.ok () s)) :
    Right env reverse config address 4 AF_INET ↔
      Gives reverse config address AF_INET s.query := by
  have hmatching : Matching 4 AF_INET := Or.inl ⟨rfl, rfl⟩
  refine ⟨fun h => ?_, fun h => ⟨fun _ => ⟨s, hs, h⟩, fun hnot => absurd hmatching hnot⟩⟩
  obtain ⟨s', hs', hgives⟩ := h.accepted hmatching
  rw [hs] at hs'
  cases hs'
  exact hgives

theorem reverseRequest_forced (hne : config.forceFamily ≠ AF_UNSPEC) (family : Int) :
    (reverseRequest config family address).family = config.forceFamily := if_pos hne

theorem reverseRequest_inet (address : List UInt8)
    (hforced : config.forceFamily = AF_UNSPEC ∨ config.forceFamily = AF_INET) :
    (reverseRequest config AF_INET address).family = AF_INET := by
  by_cases hne : config.forceFamily = AF_UNSPEC
  · exact if_neg (not_not.mpr hne)
  · exact (reverseRequest_forced hne AF_INET).trans (hforced.resolve_left hne)

variable (env) in
/-- There is one record, of the address, in two cases. -/
theorem records_alone_iff (hcompleted : Completed reverse config address AF_INET)
    (hforced : config.forceFamily = AF_UNSPEC ∨ config.forceFamily = AF_INET) :
    (records env reverse config address AF_INET).map (·.address.take 4) = [address] ↔
      found reverse config address AF_INET = [] ∧ address.length ≤ 4 ∧
          served env.services (looked reverse config address AF_INET).query.request = 1 ∨
        found reverse config address AF_INET = [address] ∧
          served env.services (looked reverse config address AF_INET).query.request = 0 := by
  obtain ⟨⟨s₀, hnew, hrequest, hrun⟩, -⟩ := hcompleted
  obtain ⟨protocol, hsame⟩ := (hrun.requested hnew).same
  rw [hrequest] at hsame
  have hfamily : (looked reverse config address AF_INET).query.request.family = AF_INET := by
    rw [hsame]
    exact reverseRequest_inet address hforced
  have hpaths : pathsOf env.services (looked reverse config address AF_INET).query.request
      { family := AF_INET, address } = servicePaths env.services
        (looked reverse config address AF_INET).query.request { family := AF_INET, address } := by
    unfold pathsOf
    rw [if_neg (fun h => h.2 hfamily),
      if_neg (fun h => absurd h.1 (show ¬ AF_INET = AF_UNIX by decide))]
  rw [records, hpaths, List.map_append, List.map_map, servicePaths_address]
  change found reverse config address AF_INET ++ _ = _ ↔ _
  have htake : address.take 4 = address ↔ address.length ≤ 4 := by
    refine ⟨fun h => ?_, List.take_of_length_le⟩
    have hlength := congrArg List.length h
    rw [List.length_take] at hlength
    omega
  rw [List.append_eq_singleton_iff, ← htake]
  rcases served env.services (looked reverse config address AF_INET).query.request with _ | _ | n
  · simp
  · simp
  · simp [List.replicate_succ]

/-- Which family the records have depends on the request alone. -/
theorem paths_inet (hcompleted : Completed reverse config address AF_INET) {s : St}
    (hfamilies : (s.query.response.paths.map fun p => p.value.family).Perm
      ((records env reverse config address AF_INET).map (·.family)))
    (hforced : config.forceFamily = AF_UNSPEC ∨ config.forceFamily = AF_INET) :
    ∀ p ∈ s.query.response.paths, p.value.family = AF_INET := by
  intro p hp
  have hfamily := reverseRequest_inet address hforced
  obtain ⟨path, hpath, heq⟩ := List.mem_map.mp (hfamilies.mem_iff.mp (List.mem_map_of_mem hp))
  rw [← heq, records_family env hcompleted (by rw [hfamily]; decide) path hpath, hfamily]

/-- There is an IPv4 path only if no other family is forced. -/
theorem forced_of_inet (hcompleted : Completed reverse config address AF_INET) {s : St}
    (hfamilies : (s.query.response.paths.map fun p => p.value.family).Perm
      ((records env reverse config address AF_INET).map (·.family)))
    (hinet : ∃ p ∈ s.query.response.paths, p.value.family = AF_INET) :
    config.forceFamily = AF_UNSPEC ∨ config.forceFamily = AF_INET := by
  obtain ⟨p, hp, hp4⟩ := hinet
  obtain ⟨path, hpath, heq⟩ := List.mem_map.mp (hfamilies.mem_iff.mp (List.mem_map_of_mem hp))
  refine or_iff_not_imp_left.mpr fun hne => ?_
  have hforce : (reverseRequest config AF_INET address).family = config.forceFamily :=
    reverseRequest_forced hne AF_INET
  rw [← hforce, ← records_family env hcompleted (by rw [hforce]; exact hne) path hpath, heq, hp4]

/-- An IPv4 address, with the query that comes back. -/
theorem gives_ipv4_iff (hcompleted : Completed reverse config address AF_INET) {s : St}
    (hname : getNodeName s.query =
      (looked reverse config address AF_INET).query.response.nodename.map (·.value))
    (hfamilies : (s.query.response.paths.map fun p => p.value.family).Perm
      ((records env reverse config address AF_INET).map (·.family)))
    (haddresses : (s.query.response.paths.map fun p => p.value.address.take 4).Perm
      ((records env reverse config address AF_INET).map (·.address.take 4))) :
    Gives reverse config address AF_INET s.query ↔
      (config.forceFamily = AF_UNSPEC ∨ config.forceFamily = AF_INET) ∧
      (records env reverse config address AF_INET).map (·.address.take 4) = [address] := by
  constructor
  · intro hgives
    have hforced := forced_of_inet hcompleted hfamilies
      (exists_family hgives.addrtype (by decide))
    refine ⟨hforced, ?_⟩
    have haddrs := (getHostent_of_family (Or.inl rfl)
      (paths_inet hcompleted hfamilies hforced)).1
    rw [show (getHostent s.query).addrs = [address] from hgives.addrs] at haddrs
    exact List.perm_singleton.mp (haddresses.symm.trans (List.Perm.of_eq haddrs.symm))
  · rintro ⟨hforced, halone⟩
    obtain ⟨haddrs, hfamily⟩ := getHostent_of_family (Or.inl rfl)
      (paths_inet hcompleted hfamilies hforced)
    rw [halone] at haddresses
    have hone := List.perm_singleton.mp haddresses
    have hpaths : s.query.response.paths ≠ [] := by
      intro hnil
      rw [hnil] at hone
      cases hone
    exact ⟨(getHostent_name _).trans hname, (hfamily hpaths).1, (hfamily hpaths).2,
      haddrs.trans hone⟩

end

theorem new_of_request (request : Request) :
    ({ query := { id := 0, request }, backends := [{}] } : St).toLocal.New where
  state := rfl
  cursor := rfl
  watches := rfl
  nfds := rfl
  timeout t := by cases t <;> rfl
  response := rfl
  trace := rfl
  data b hb := by
    rw [List.mem_singleton.mp hb]

/-- The reverse query of an address, on a single backend. -/
def reverseQuery (address : List UInt8) (family : Int) : St :=
  { query := { id := 0, request := reverseRequest {} family address }, backends := [{}] }

/-- The backend knows the name of every address. -/
def knowsName : Env := { setup := fun _ => [.addNameInfo (some "localhost"), .finished] }

/-- A query that is answered when its timer has expired. -/
theorem reverseQuery_completed {s : St} {address : List UInt8} {family : Int}
    (hplay : play knowsName [1] (reverseQuery address family) = .ok () s)
    (hstate : s.query.state = .done) : Completed (fun _ => s) {} address family where
  run := ⟨_, new_of_request (reverseRequest {} family address), rfl,
    Reachable.play trivial (fun _ _ => trivial) hplay⟩
  ended := Or.inl hstate

def ipv4Loopback : List UInt8 := [127, 0, 0, 1]

def ipv6Loopback : List UInt8 := List.replicate 15 0 ++ [1]

end Compat

end Netresolve
