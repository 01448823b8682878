/-
What becomes of the replies of a module for the two families.

`query_forward` asks for the IPv4 and for the IPv6 addresses, and applies the addresses of each
family with the ttl that came with those of the other.  Nobody notices if the two are the same, or
if there is nothing to apply.  A service name without a match leaves no path at all.
-/
import Netresolve.Backends.Nss
import Netresolve.Proofs.Service

namespace Netresolve.Nss

open Compat (Hostent)

/-! ### The calls -/

/-- The paths a backend adds. -/
def addPathArgs (calls : List Call) : List PathArgs :=
  calls.filterMap fun call =>
    match call with
    | .addPath a => some a
    | _ => none

/-- The arguments for an address of a host entry. -/
def hostentArgs (he : Hostent) (ttl : Int) : List PathArgs :=
  he.addrs.map fun addr => { family := he.addrtype, address := addr, ttl }

theorem addPathArgs_append (calls more : List Call) :
    addPathArgs (calls ++ more) = addPathArgs calls ++ addPathArgs more :=
  List.filterMap_append

theorem addPathArgs_setCanonicalName (name : Option String) :
    addPathArgs (name.map Call.setCanonicalName).toList = [] := by
  cases name <;> rfl

theorem addPathArgs_applyHostent (he : Hostent) (ttl : Int) :
    addPathArgs (applyHostent he ttl) = hostentArgs he ttl := by
  rw [applyHostent, addPathArgs_append, addPathArgs_setCanonicalName, List.append_nil]
  unfold addPathArgs hostentArgs
  rw [List.filterMap_map]
  exact List.filterMap_eq_map_iff_forall_eq_some.mpr fun _ _ => rfl

theorem addPathArgs_applyReplies (reply4 reply6 : Reply) : addPathArgs (applyReplies reply4 reply6) =
    if combineStatuses reply4.status reply6.status = NSS_STATUS_SUCCESS then
      (if reply6.status = NSS_STATUS_SUCCESS then hostentArgs reply6.he reply4.ttl else []) ++
      (if reply4.status = NSS_STATUS_SUCCESS then hostentArgs reply4.he reply6.ttl else [])
    else [] := by
  have hname : ∀ (c : Prop) [Decidable c] (name : Option String) (rest : List Call),
      addPathArgs rest = [] →
      addPathArgs (if c then (name.map Call.setCanonicalName).toList else rest) = [] := by
    intro c _ name rest hrest
    split
    · exact addPathArgs_setCanonicalName name
    · exact hrest
  have hhostent : ∀ (c : Prop) [Decidable c] (he : Hostent) (ttl : Int),
      addPathArgs (if c then applyHostent he ttl else []) =
        if c then hostentArgs he ttl else [] := by
    intro c _ he ttl
    split
    · exact addPathArgs_applyHostent he ttl
    · rfl
  unfold applyReplies
  split
  · rw [addPathArgs_append, addPathArgs_append, addPathArgs_append, hhostent, hhostent,
      hname _ _ _ (hname _ _ _ rfl)]
    exact List.append_nil _
  · rfl

theorem finished_mem_applyReplies (reply4 reply6 : Reply) :
    .finished ∈ applyReplies reply4 reply6 ↔
      combineStatuses reply4.status reply6.status = NSS_STATUS_SUCCESS := by
  unfold applyReplies
  split
  · next h => exact iff_of_true (List.mem_append_right _ List.mem_cons_self) h
  · next h => exact iff_of_false (by simp) h

/-! ### The paths -/

section

variable (env : Env) (reach : Nat → Path → Bool) (fresh : Nat → Nat → Path)

/-- A property that has nothing to do with reachability. -/
theorem exists_checkedPaths {P : Path → Prop}
    (hP : ∀ path reachable, P { path with reachable } ↔ P path) (paths : List Path) : ∀ n,
    (∃ path ∈ checkedPaths env reach n paths, P path) ↔ ∃ path ∈ paths, P path := by
  induction paths with
  | nil => exact fun _ => Iff.rfl
  | cons first rest ih =>
      intro n
      obtain ⟨reachable, heq⟩ := checkedPath_eq env reach n first
      rw [checkedPaths, List.exists_mem_cons_iff, List.exists_mem_cons_iff, heq, hP, ih]

/-- The response after the calls, told by what each of them adds. -/
theorem exists_backendAddPaths (request : Request) (calls : List PathArgs) :
    ∃ r, PathArray.backendAddPaths env reach fresh request calls = some r ∧
      ∀ P : Path → Prop, (∀ path reachable, P { path with reachable } ↔ P path) →
        ((∃ path ∈ r.paths, P path) ↔
          ∃ a ∈ calls, ∃ path ∈ pathsOf env.services request a, P path) := by
  obtain ⟨r, hr, hholds⟩ := backendAddPaths_holds env reach fresh request calls
  have hperm := Insertion.insertAll_perm (r := pathLt env.sort) (produced env reach request calls) []
  rw [← hholds.paths, List.nil_append] at hperm
  refine ⟨r, hr, fun P hP => ?_⟩
  have hmem : (∃ path ∈ r.paths, P path) ↔ ∃ path ∈ produced env reach request calls, P path :=
    exists_congr fun path => and_congr_left fun _ => hperm.mem_iff
  rw [hmem, produced, exists_checkedPaths env reach hP]
  simp only [List.mem_flatMap]
  constructor
  · rintro ⟨path, ⟨a, ha, hpath⟩, hPpath⟩
    exact ⟨a, ha, path, hpath, hPpath⟩
  · rintro ⟨a, ha, path, hpath, hPpath⟩
    exact ⟨path, ⟨a, ha, hpath⟩, hPpath⟩

end

/-! ### The addresses and their ttls -/

/-- There is no service name, or it has a match. -/
def Answered (services : List Service) (request : Request) : Prop :=
  ∀ name, request.servname = some name → Served services name request.socktype request.protocol

section

variable {services : List Service} {request : Request} {family : Int} {address : List UInt8}
  {ttl : Int} (hfamily : family = AF_INET ∨ family = AF_INET6)
  (hrequest : request.family = family ∨ request.family = AF_UNSPEC)
include hfamily

/-- What an address of the family adds. -/
theorem pathsOf_ip_path (hlength : address.length = familyToLength family) :
    ∀ path ∈ pathsOf services request { family, address, ttl },
      path.family = family ∧ path.address = address ∧ path.ttl = ttl := by
  intro path hpath
  have hgiven := pathsOf_given services request _ path hpath
  refine ⟨hgiven.family, hgiven.address.trans ?_, hgiven.ttl⟩
  have hlen : familyToLength family ≠ 0 := by
    rcases hfamily with rfl | rfl <;> decide
  unfold pathAddress
  rw [if_pos hlen, ← hlength]
  exact List.take_length

include hrequest

theorem pathsOf_ip : pathsOf services request { family, address, ttl } =
    servicePaths services request { family, address, ttl } := by
  have hunix : family ≠ AF_UNIX := by
    rcases hfamily with rfl | rfl <;> decide
  unfold pathsOf
  rw [if_neg (fun h => hrequest.elim h.2 h.1), if_neg (fun h => hunix h.1)]

theorem pathsOf_ip_ne_nil_iff : pathsOf services request { family, address, ttl } ≠ [] ↔
    Answered services request := by
  rw [pathsOf_ip hfamily hrequest]
  unfold Answered
  cases hname : request.servname with
  | none =>
      refine iff_of_true ?_ (fun name h => by cases h)
      unfold servicePaths
      dsimp only
      rw [if_neg (by rw [hname]; exact fun h => Bool.false_ne_true h.1)]
      exact List.cons_ne_nil _ _
  | some name =>
      rw [servicePaths_ne_nil_iff services hname rfl rfl, if_neg (not_not.mpr rfl)]
      constructor
      · intro h name' hname'
        rw [← Option.some.inj hname']
        exact h
      · intro h
        exact h name rfl

end

/-- A host entry for the family, if the status is success. -/
structure Reply.Proper (reply : Reply) (family : Int) : Prop where
  addrtype : reply.status = NSS_STATUS_SUCCESS → reply.he.addrtype = family
  length : reply.status = NSS_STATUS_SUCCESS →
    ∀ address ∈ reply.he.addrs, address.length = familyToLength family

/-- The addresses the module has found. -/
def Due (reply4 reply6 : Reply) (family : Int) (address : List UInt8) : Prop :=
  (family = AF_INET ∧ reply4.status = NSS_STATUS_SUCCESS ∧ address ∈ reply4.he.addrs) ∨
    (family = AF_INET6 ∧ reply6.status = NSS_STATUS_SUCCESS ∧ address ∈ reply6.he.addrs)

/-- The first of two values for IPv4, and the second one for IPv6. -/
def pick (ttl4 ttl6 family : Int) : Int := if family = AF_INET then ttl4 else ttl6

theorem mem_hostentArgs {reply : Reply} {family ttl : Int} (hproper : reply.Proper family)
    (hstatus : reply.status = NSS_STATUS_SUCCESS) {a : PathArgs} :
    a ∈ hostentArgs reply.he ttl ↔ ∃ address ∈ reply.he.addrs, a = { family, address, ttl } := by
  unfold hostentArgs
  rw [hproper.addrtype hstatus, List.mem_map]
  exact exists_congr fun address => and_congr_right fun _ => eq_comm

section

variable {reply4 reply6 : Reply} (hproper4 : reply4.Proper AF_INET)
  (hproper6 : reply6.Proper AF_INET6)
include hproper4 hproper6

/-- Each address is applied with the ttl of the other family. -/
theorem mem_addPathArgs
    (hcombine : combineStatuses reply4.status reply6.status = NSS_STATUS_SUCCESS) {a : PathArgs} :
    a ∈ addPathArgs (applyReplies reply4 reply6) ↔ ∃ family address,
      Due reply4 reply6 family address ∧
        a = { family, address, ttl := pick reply6.ttl reply4.ttl family } := by
  rw [addPathArgs_applyReplies, if_pos hcombine, List.mem_append]
  have hdistinct : AF_INET6 ≠ AF_INET := by decide
  constructor
  · rintro (h | h)
    · by_cases hstatus : reply6.status = NSS_STATUS_SUCCESS
      · rw [if_pos hstatus, mem_hostentArgs hproper6 hstatus] at h
        obtain ⟨address, haddress, rfl⟩ := h
        refine ⟨AF_INET6, address, Or.inr ⟨rfl, hstatus, haddress⟩, ?_⟩
        rw [pick, if_neg hdistinct]
      · rw [if_neg hstatus] at h
        cases h
    · by_cases hstatus : reply4.status = NSS_STATUS_SUCCESS
      · rw [if_pos hstatus, mem_hostentArgs hproper4 hstatus] at h
        obtain ⟨address, haddress, rfl⟩ := h
        exact ⟨AF_INET, address, Or.inl ⟨rfl, hstatus, haddress⟩, rfl⟩
      · rw [if_neg hstatus] at h
        cases h
  · rintro ⟨family, address, ⟨rfl, hstatus, haddress⟩ | ⟨rfl, hstatus, haddress⟩, rfl⟩
    · right
      rw [if_pos hstatus, mem_hostentArgs hproper4 hstatus]
      exact ⟨address, haddress, rfl⟩
    · left
      rw [if_pos hstatus, mem_hostentArgs hproper6 hstatus, pick, if_neg hdistinct]
      exact ⟨address, haddress, rfl⟩

end

/-! ### The result -/

/-- The call was made, if its status is success. -/
theorem callFor_success {uninitialized : Hostent} {f : Int → Reply} {requested family : Int}
    (h : (callFor uninitialized f requested family).status = NSS_STATUS_SUCCESS) :
    (requested = family ∨ requested = AF_UNSPEC) ∧
      callFor uninitialized f requested family = f family := by
  unfold callFor at h ⊢
  by_cases hasked : requested = family ∨ requested = AF_UNSPEC
  · exact ⟨hasked, if_pos hasked⟩
  · rw [if_neg hasked] at h
    cases h

theorem callFor_proper {f : Int → Reply} {family : Int} (h : (f family).Proper family)
    (uninitialized : Hostent) (requested : Int) :
    (callFor uninitialized f requested family).Proper family where
  addrtype hstatus := by
    have heq := (callFor_success hstatus).2
    rw [heq] at hstatus ⊢
    exact h.addrtype hstatus
  length hstatus := by
    have heq := (callFor_success hstatus).2
    rw [heq] at hstatus ⊢
    exact h.length hstatus

section

variable (env : Env) (reach : Nat → Path → Bool) (fresh : Nat → Nat → Path) (request : Request)
  (uninitialized : Hostent) (f : Int → Reply)

/-- The reply for a family, as it is in the variables of `query_forward`. -/
def replyFor (family : Int) : Reply := callFor uninitialized f request.family family

/-- The addresses that were found for the families of the request. -/
def Found (family : Int) (address : List UInt8) : Prop :=
  Due (replyFor request uninitialized f AF_INET) (replyFor request uninitialized f AF_INET6)
    family address

/--
What is expected of the calls: the query is finished if the combined status is success, and then the
response has the addresses that were found and no others, each with the ttl of its own call.
-/
structure Right (calls : List Call) : Prop where
  finished : .finished ∈ calls ↔
    combineStatuses (replyFor request uninitialized f AF_INET).status
      (replyFor request uninitialized f AF_INET6).status = NSS_STATUS_SUCCESS
  paths : combineStatuses (replyFor request uninitialized f AF_INET).status
      (replyFor request uninitialized f AF_INET6).status = NSS_STATUS_SUCCESS →
    ∃ r, PathArray.backendAddPaths env reach fresh request (addPathArgs calls) = some r ∧
      (∀ family address, (∃ path ∈ r.paths, path.family = family ∧ path.address = address) ↔
        Found request uninitialized f family address) ∧
      ∀ path ∈ r.paths,
        (path.family = AF_INET → path.ttl = (replyFor request uninitialized f AF_INET).ttl) ∧
        (path.family = AF_INET6 → path.ttl = (replyFor request uninitialized f AF_INET6).ttl)

/-- The replies for which it makes no difference whose ttl is used. -/
def Sound : Prop :=
  combineStatuses (replyFor request uninitialized f AF_INET).status
      (replyFor request uninitialized f AF_INET6).status ≠ NSS_STATUS_SUCCESS ∨
    (∀ family address, ¬ Found request uninitialized f family address) ∨
    (Answered env.services request ∧
      (replyFor request uninitialized f AF_INET).ttl =
        (replyFor request uninitialized f AF_INET6).ttl)

variable (hproper4 : (f AF_INET).Proper AF_INET) (hproper6 : (f AF_INET6).Proper AF_INET6)
include hproper4 hproper6

/-- The paths of the response, with their ttls. -/
theorem exists_path_iff
    (hcombine : combineStatuses (replyFor request uninitialized f AF_INET).status
      (replyFor request uninitialized f AF_INET6).status = NSS_STATUS_SUCCESS) :
    ∃ r, PathArray.backendAddPaths env reach fresh request
        (addPathArgs (queryFamilies uninitialized f request.family)) = some r ∧
      ∀ family address ttl,
        (∃ path ∈ r.paths, path.family = family ∧ path.address = address ∧ path.ttl = ttl) ↔
          Found request uninitialized f family address ∧ Answered env.services request ∧
            ttl = pick (replyFor request uninitialized f AF_INET6).ttl
              (replyFor request uninitialized f AF_INET).ttl family := by
  have hproper4 := callFor_proper hproper4 uninitialized request.family
  have hproper6 := callFor_proper hproper6 uninitialized request.family
  obtain ⟨r, hr, hpaths⟩ := exists_backendAddPaths env reach fresh request
    (addPathArgs (queryFamilies uninitialized f request.family))
  refine ⟨r, hr, fun family address ttl => ?_⟩
  rw [hpaths _ fun _ _ => Iff.rfl]
  have hfound : ∀ {family address}, Found request uninitialized f family address →
      (family = AF_INET ∨ family = AF_INET6) ∧
      (request.family = family ∨ request.family = AF_UNSPEC) ∧
      address.length = familyToLength family := by
    rintro family address (⟨rfl, hstatus, haddress⟩ | ⟨rfl, hstatus, haddress⟩)
    · exact ⟨Or.inl rfl, (callFor_success hstatus).1, hproper4.length hstatus _ haddress⟩
    · exact ⟨Or.inr rfl, (callFor_success hstatus).1, hproper6.length hstatus _ haddress⟩
  constructor
  · rintro ⟨a, ha, path, hpath, hfamily, haddress, httl⟩
    obtain ⟨family', address', hdue, rfl⟩ := (mem_addPathArgs hproper4 hproper6 hcombine).mp ha
    obtain ⟨hip, hasked, hlength⟩ := hfound hdue
    obtain ⟨hfamily', haddress', httl'⟩ := pathsOf_ip_path hip hlength path hpath
    obtain rfl := hfamily'.symm.trans hfamily
    obtain rfl := haddress'.symm.trans haddress
    exact ⟨hdue, (pathsOf_ip_ne_nil_iff hip hasked).mp (List.ne_nil_of_mem hpath),
      httl.symm.trans httl'⟩
  · rintro ⟨hdue, hanswered, rfl⟩
    obtain ⟨hip, hasked, hlength⟩ := hfound hdue
    refine ⟨_, (mem_addPathArgs hproper4 hproper6 hcombine).mpr ⟨family, address, hdue, rfl⟩, ?_⟩
    obtain ⟨path, hpath⟩ := List.exists_mem_of_ne_nil _
      ((pathsOf_ip_ne_nil_iff hip hasked).mpr hanswered)
    exact ⟨path, hpath, pathsOf_ip_path hip hlength path hpath⟩

end

/-- The module is asked through `gethostbyname3_r`. -/
structure Module.Uses (m : Module) (g : String → Int → Reply) (family : Int) : Prop where
  getaddrinfo : m.getaddrinfo = none
  four : m.gethostbyname4R = none ∨ family ≠ AF_UNSPEC
  three : m.gethostbyname3R = some g

theorem queryForward_eq {m : Module} {g : String → Int → Reply} {request : Request}
    (h : m.Uses g request.family) (uninitialized : Hostent) (node : String) (loopback : Bool) :
    queryForward uninitialized (some m) (some node) request loopback =
      queryFamilies uninitialized (g node) request.family := by
  have hfour : (if request.family = AF_UNSPEC then m.gethostbyname4R else none) = none := by
    rcases h.four with hnone | hfamily
    · rw [hnone, ite_self]
    · rw [if_neg hfamily]
  unfold queryForward
  dsimp only
  rw [h.getaddrinfo, h.three]
  dsimp only
  rw [hfour]

/--
**The ttls of the two families are exchanged.**  What becomes of the replies is right if and only if
the combined status is not success, nothing was found, or the service name has a match and the two
ttls are the same, where that of a call that was not made is zero.
-/
theorem replies_applied_iff (env : Env) (reach : Nat → Path → Bool) (fresh : Nat → Nat → Path)
    (request : Request) (uninitialized : Hostent) {m : Module} {g : String → Int → Reply}
    (huses : m.Uses g request.family) (node : String) (loopback : Bool)
    (hproper4 : (g node AF_INET).Proper AF_INET) (hproper6 : (g node AF_INET6).Proper AF_INET6) :
    Right env reach fresh request uninitialized (g node)
        (queryForward uninitialized (some m) (some node) request loopback) ↔
      Sound env request uninitialized (g node) := by
  rw [queryForward_eq huses]
  have hfinished : .finished ∈ queryFamilies uninitialized (g node) request.family ↔
      combineStatuses (replyFor request uninitialized (g node) AF_INET).status
        (replyFor request uninitialized (g node) AF_INET6).status = NSS_STATUS_SUCCESS :=
    finished_mem_applyReplies _ _
  by_cases hcombine : combineStatuses (replyFor request uninitialized (g node) AF_INET).status
      (replyFor request uninitialized (g node) AF_INET6).status = NSS_STATUS_SUCCESS
  · obtain ⟨r, hr, hpaths⟩ := exists_path_iff env reach fresh request uninitialized (g node) hproper4
      hproper6 hcombine
    have hdistinct : AF_INET6 ≠ AF_INET := by decide
    have hpath : ∀ path ∈ r.paths, Found request uninitialized (g node) path.family path.address ∧
        Answered env.services request ∧
        path.ttl = pick (replyFor request uninitialized (g node) AF_INET6).ttl
          (replyFor request uninitialized (g node) AF_INET).ttl path.family :=
      fun path hmem => (hpaths _ _ _).mp ⟨path, hmem, rfl, rfl, rfl⟩
    constructor
    · intro hright
      obtain ⟨r', hr', haddresses, httls⟩ := hright.paths hcombine
      obtain rfl := Option.some.inj (hr.symm.trans hr')
      by_cases hnone : ∀ family address, ¬ Found request uninitialized (g node) family address
      · exact Or.inr (Or.inl hnone)
      · simp only [not_forall, not_not] at hnone
        obtain ⟨family, address, hfound⟩ := hnone
        obtain ⟨path, hmem, rfl, rfl⟩ := (haddresses family address).mpr hfound
        obtain ⟨_, hanswered, httl⟩ := hpath path hmem
        refine Or.inr (Or.inr ⟨hanswered, ?_⟩)
        rcases hfound with ⟨hfamily, _⟩ | ⟨hfamily, _⟩
        · rw [← (httls path hmem).1 hfamily, httl, hfamily]
          rfl
        · rw [← (httls path hmem).2 hfamily, httl, hfamily, pick, if_neg hdistinct]
    · intro hsound
      refine ⟨hfinished, fun _ => ⟨r, hr, fun family address => ⟨?_, ?_⟩, fun path hmem => ?_⟩⟩
      · rintro ⟨path, hmem, rfl, rfl⟩
        exact (hpath path hmem).1
      · intro hfound
        rcases hsound with hfailed | hnone | ⟨hanswered, _⟩
        · exact absurd hcombine hfailed
        · exact absurd hfound (hnone family address)
        · obtain ⟨path, hmem, hfamily, haddress, _⟩ :=
            (hpaths family address _).mpr ⟨hfound, hanswered, rfl⟩
          exact ⟨path, hmem, hfamily, haddress⟩
      · obtain ⟨hfound, _, httl⟩ := hpath path hmem
        rcases hsound with hfailed | hnone | ⟨_, hsame⟩
        · exact absurd hcombine hfailed
        · exact absurd hfound (hnone _ _)
        · rw [httl, hsame]
          unfold pick
          constructor
          · intro _
            rw [ite_self]
          · intro _
            rw [ite_self]
  · exact iff_of_true ⟨hfinished, fun h => absurd h hcombine⟩ (Or.inl hcombine)

/-- A module that finds an address for each family. -/
def twoFamilies (ttl4 ttl6 : Int) (_ : String) (family : Int) : Reply :=
  if family = AF_INET then
    ⟨NSS_STATUS_SUCCESS, { addrtype := AF_INET, length := 4, addrs := [[192, 0, 2, 1]] }, ttl4, none⟩
  else
    ⟨NSS_STATUS_SUCCESS,
      { addrtype := AF_INET6, length := 16, addrs := [0x20 :: List.replicate 15 1] }, ttl6, none⟩

theorem twoFamilies_proper (ttl4 ttl6 : Int) (node : String) :
    (twoFamilies ttl4 ttl6 node AF_INET).Proper AF_INET ∧
      (twoFamilies ttl4 ttl6 node AF_INET6).Proper AF_INET6 := by
  refine ⟨⟨fun _ => rfl, fun _ address haddress => ?_⟩, ⟨fun _ => rfl, fun _ address haddress => ?_⟩⟩
  · rw [List.mem_singleton.mp haddress]
    rfl
  · rw [List.mem_singleton.mp haddress]
    rfl

/-- The same ttl for both families. -/
theorem replies_applied_same_ttl :
    Right {} (fun _ _ => true) (fun _ _ => Path.zero) {} {} (twoFamilies 60 60 "host")
      (queryForward {} (some { gethostbyname3R := some (twoFamilies 60 60) }) (some "host") {}
        true) :=
  (replies_applied_iff {} (fun _ _ => true) (fun _ _ => Path.zero) {} {} ⟨rfl, Or.inl rfl, rfl⟩
    "host" true (twoFamilies_proper 60 60 "host").1 (twoFamilies_proper 60 60 "host").2).mpr
    (Or.inr (Or.inr ⟨fun _ h => (by cases h), rfl⟩))

/-- The IPv4 address is reported with the ttl of the IPv6 address. -/
theorem ttls_are_exchanged :
    ¬ Right {} (fun _ _ => true) (fun _ _ => Path.zero) {} {} (twoFamilies 300 60 "host")
      (queryForward {} (some { gethostbyname3R := some (twoFamilies 300 60) }) (some "host") {}
        true) := by
  intro hright
  obtain ⟨hproper4, hproper6⟩ := twoFamilies_proper 300 60 "host"
  obtain ⟨r, hr, hpaths⟩ := exists_path_iff {} (fun _ _ => true) (fun _ _ => Path.zero) {} {}
    (twoFamilies 300 60 "host") hproper4 hproper6 rfl
  obtain ⟨r', hr', _, httls⟩ := hright.paths rfl
  obtain rfl := Option.some.inj (hr.symm.trans hr')
  obtain ⟨path, hmem, hfamily, _, httl⟩ := (hpaths AF_INET [192, 0, 2, 1] 60).mpr
    ⟨Or.inl ⟨rfl, rfl, List.mem_singleton_self _⟩, fun _ h => (by cases h), rfl⟩
  have hown := (httls path hmem).1 hfamily
  rw [httl] at hown
  exact absurd hown (by decide)

end Netresolve.Nss
