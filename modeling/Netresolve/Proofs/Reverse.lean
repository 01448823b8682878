/-
What the backends read in the request of a reverse query.

The option for the address sets the family as well, after everything that the context has, so the
two belong together.  The family that the environment forces is set behind the options and without
regard to the type of the query: the backends then take the bytes for an address of that family.
-/
import Netresolve.Backends.Hosts
import Netresolve.Backends.Loopback
import Netresolve.Proofs.Dns
import Netresolve.Proofs.Hostent
import Netresolve.Proofs.Libc
import Netresolve.Proofs.ReverseName

namespace Netresolve.Options

open Bytes CString Outcome
open Compat (Config reverseRequest)
open PathText (IsAddress)

/-! ### The request -/

theorem configured_forceFamily (environment : Environment) (calls : List (List RequestOption)) :
    (configured environment calls).forceFamily = environment.forceFamily := by
  have hfold : ∀ (calls : List (List RequestOption)) (config : Config),
      (calls.foldl contextSetOptions config).forceFamily = config.forceFamily := by
    intro calls
    induction calls with
    | nil => exact fun config => rfl
    | cons options rest ih => exact fun config => ih (contextSetOptions config options)
  exact hfold calls (contextNew environment)

theorem copyAddress_take {target source : List UInt8} {n : Nat} (h : source.length = n) :
    (copyAddress target source n).take n = source := by
  unfold copyAddress
  rw [List.take_of_length_le h.le, ← h, List.take_left]

/-- What the option for the address does to the request. -/
theorem addressOption_spec {args : ReverseArgs} (h : IsAddress args.family args.address) :
    ∃ option, args.addressOption = some option ∧ ∀ r, setOption r option =
      ({ r with
          family := args.family
          address := copyAddress r.address args.address (familyToLength args.family) }, true) := by
  rcases h with ⟨hfamily, _⟩ | ⟨hfamily, _⟩
  · refine ⟨.ip4Address args.address, if_pos hfamily, fun r => ?_⟩
    rw [hfamily]
    rfl
  · have hne : args.family ≠ AF_INET := by
      rw [hfamily]
      decide
    refine ⟨.ip6Address args.address, (if_neg hne).trans (if_pos hfamily), fun r => ?_⟩
    rw [hfamily]
    rfl

/-- The options behind the address leave the address and the family alone. -/
theorem queryReverse_eq (config : Config) {args : ReverseArgs}
    (h : IsAddress args.family args.address) :
    queryReverse config args = some { config.request with
      type := .reverse
      family := if config.forceFamily ≠ 0 then config.forceFamily else args.family
      address := copyAddress config.request.address args.address (familyToLength args.family)
      ifindex := copyPositive config.request.ifindex args.ifindex
      protocol := copyPositive config.request.protocol args.protocol
      port := copyPositive config.request.port args.port } := by
  obtain ⟨option, hoption, hset⟩ := addressOption_spec h
  rw [queryReverse, hoption]
  dsimp only
  rw [query, setOptions, hset]
  dsimp only [setOptions, setOption]
  split <;> rfl

/--
The request of the reverse query in `gethostbyaddr_r` is the one that `netresolve_query_reverse`
makes without an interface, a protocol and a port.
-/
theorem queryReverse_eq_reverseRequest (config : Config) {family : Int} {address : List UInt8}
    (h : IsAddress family address) :
    queryReverse config { family, address } = some (reverseRequest config family address) := by
  rw [queryReverse_eq config h]
  rfl

end Netresolve.Options

/-! ### The hosts file -/

namespace Netresolve.Hosts

open CString

/-- The names that the items have for an address. -/
def namesOf (family : Int) (address : List UInt8) (items : List Item) : List Text :=
  (items.takeWhile (·.name.isSome)).filterMap fun item =>
    if item.family = family ∧ item.address.take (familyToLength family) = address then item.name
    else none

theorem reverseCalls_eq (family : Int) (address : List UInt8) (items : List Item) :
    reverseCalls family address items =
      (namesOf family (address.take (familyToLength family)) items).map fun name =>
        .addNameInfo (some (String.ofList name)) := by
  induction items with
  | nil => rfl
  | cons item rest ih =>
      unfold namesOf at ih ⊢
      unfold reverseCalls
      cases hname : item.name with
      | none =>
          rw [List.takeWhile_cons_of_neg (by rw [hname]; exact Bool.false_ne_true)]
          rfl
      | some name =>
          rw [List.takeWhile_cons_of_pos (by rw [hname]; rfl), List.filterMap_cons]
          dsimp only
          by_cases hfamily : item.family = family
          · rw [if_neg (not_not.mpr hfamily.symm)]
            by_cases haddress : item.address.take (familyToLength family) =
                address.take (familyToLength family)
            · rw [if_neg (not_not.mpr haddress.symm), if_pos ⟨hfamily, haddress⟩, hname, ih]
              rfl
            · rw [if_pos (Ne.symm haddress), if_neg fun h => haddress h.2, ih]
          · rw [if_pos (Ne.symm hfamily), if_neg fun h => hfamily h.1, ih]

end Netresolve.Hosts

/-! ### The addresses of the local host -/

namespace Netresolve.Loopback

open PathText (IsAddress)

theorem isConstant_iff {inaddr in6addr address array : List UInt8} {family : Int}
    (h : IsAddress family address) (harray : array.take (familyToLength family) = address)
    (hinaddr : inaddr.length = 4) (hin6addr : in6addr.length = 16) :
    isConstant inaddr in6addr family array = true ↔ address = inaddr ∨ address = in6addr := by
  unfold isConstant
  rcases h with ⟨rfl, hlength⟩ | ⟨rfl, hlength⟩
  · rw [if_pos rfl, decide_eq_true_iff, ← harray]
    refine ⟨Or.inl, fun hor => hor.resolve_right fun heq => ?_⟩
    rw [harray] at heq
    rw [heq, hin6addr] at hlength
    cases hlength
  · rw [if_neg (by decide), if_pos rfl, decide_eq_true_iff, ← harray]
    refine ⟨Or.inr, fun hor => hor.resolve_left fun heq => ?_⟩
    rw [harray] at heq
    rw [heq, hinaddr] at hlength
    cases hlength

end Netresolve.Loopback

/-! ### The lookup of the DNS backends -/

namespace Netresolve.Dns

open Outcome
open PathText (IsAddress)

/-- The private data of a request, before there is a lookup. -/
structure Ready (request : Request) (p : PrivDns) : Prop where
  same : p.request = request
  family : p.family = request.family
  lookups : p.lookups = []

theorem foldl_applySetting (v : Variant) (settings : List String) : ∀ p : PrivDns,
    (settings.foldl (applySetting v) p).request = p.request ∧
    (settings.foldl (applySetting v) p).lookups = p.lookups := by
  induction settings with
  | nil => exact fun p => ⟨rfl, rfl⟩
  | cons setting rest ih =>
      intro p
      have hstep : (applySetting v p setting).request = p.request ∧
          (applySetting v p setting).lookups = p.lookups := by
        unfold applySetting
        split
        · exact ⟨rfl, rfl⟩
        split <;> exact ⟨rfl, rfl⟩
      exact ⟨(ih _).1.trans hstep.1, (ih _).2.trans hstep.2⟩

theorem openLibrary_ready (libs : Libs) (v : Variant) (settings : List String)
    {request : Request} {p : PrivDns} (h : Ready request p) :
    Sat (openLibrary libs settings v) p (fun _ p' => Ready request p') (fun _ _ => False) := by
  cases v with
  | ares => exact h
  | unbound =>
      simp only [openLibrary, sat_bind, sat_get, sat_ite]
      exact ⟨fun _ => ⟨h.same, h.family, h.lookups⟩, fun _ => h⟩

theorem setup_ready (libs : Libs) (v : Variant) (settings : List String) (request : Request) :
    Sat (setup libs v settings) { request }
      (fun ready p => p.lookups = [] ∧ (ready = true → Ready request p)) (fun _ _ => False) := by
  simp only [setup, emit, sat_bind, sat_modify, sat_ite]
  refine ⟨fun _ => ?_, fun _ => ⟨rfl, fun h => absurd h (by decide)⟩⟩
  refine (openLibrary_ready libs v settings ?_).mono (fun _ _ h => ⟨h.lookups, fun _ => h⟩)
    fun _ _ h => h
  obtain ⟨hrequest, hlookups⟩ := foldl_applySetting v settings
    ({ request := request, calls := [] ++ [(none, .newPriv libs.newPriv)] } : PrivDns)
  exact ⟨hrequest, congrArg Request.family hrequest, hlookups⟩

/-- The lookups are for this name. -/
def For (name : String) (p : PrivDns) : Prop := ∀ l ∈ p.lookups, l.name = some name

theorem watchChannel_for (libs : Libs) (v : Variant) (name : String) :
    Stays (Outcome.Kept (For name)) (fun f => f ≠ .abort) (watchChannel libs v) := by
  cases v with
  | unbound => exact Stays.pure _
  | ares =>
      exact watchFileDescriptors_stays Fault.noConfusion libs.aresFds
        (fun _ => Stays.modify fun _ h => h) fun _ _ _ h => h

/-- A reverse query looks up the name of its address, and does not give up on it. -/
theorem queryReverse_for (libs : Libs) (v : Variant) (settings : List String) {request : Request}
    {family : Int} {address : List UInt8} (hfamily : request.family = family)
    (haddress : request.address.take (familyToLength family) = address)
    (h : IsAddress family address) :
    Sat (queryReverse libs v settings) { request }
      (fun _ p => For (addressName family address) p)
      (fun f p => For (addressName family address) p ∧ f ≠ .abort) := by
  simp only [queryReverse, sat_bind]
  refine (setup_ready libs v settings request).mono (fun ready p hsetup => ?_)
    fun _ _ h => h.elim
  obtain ⟨hlookups, hready⟩ := hsetup
  rw [sat_ite]
  constructor
  · intro hset
    have hp := hready hset
    have htarget : Target { p with address := p.request.address } family address :=
      ⟨hp.family.trans hfamily, by rw [hp.same]; exact haddress, h⟩
    rw [sat_bind, sat_modify, sat_bind, sat_of_eq htarget.asksFor]
    have hfor : For (addressName family address) { p with
        address := p.request.address
        pending := p.pending + 1
        lookups := p.lookups ++
          [⟨p.srv, some (addressName family address), LDNS_RR_TYPE_PTR, LDNS_RR_CLASS_IN⟩] } := by
      intro l hl
      change l ∈ p.lookups ++ _ at hl
      rw [hlookups, List.nil_append] at hl
      rw [List.mem_singleton.mp hl]
    exact (watchChannel_for libs v _ _).mono (fun _ _ hkept => hkept hfor)
      fun _ _ hkept => ⟨hkept.1 hfor, hkept.2⟩
  · intro _ l hl
    change l ∈ p.lookups at hl
    rw [hlookups] at hl
    cases hl

end Netresolve.Dns

/-! ### What the backends read -/

namespace Netresolve.Options

open Bytes CString Outcome
open Compat (Config)
open PathText (IsAddress)

/-- The place of the address in a socket address. -/
def addressOffset (family : Int) : Nat := if family = AF_INET then 4 else 8

/-- The socket address of the libc backend has the address in its place. -/
theorem sockaddr_address {request : Request} {family : Int} {address : List UInt8}
    (hfamily : request.family = family)
    (haddress : request.address.take (familyToLength family) = address)
    (h : IsAddress family address) : ∃ sa salen, Libc.sockaddr request = some (sa, salen) ∧
      (ofBytes (sa.take 2) : Int) = family ∧
      (sa.drop (addressOffset family)).take (familyToLength family) = address := by
  rcases h with ⟨rfl, hlength⟩ | ⟨rfl, hlength⟩
  · refine ⟨_, _, Libc.sockaddr_ipv4 hfamily, rfl, ?_⟩
    change request.address.take 4 = address at haddress
    rw [haddress]
    exact List.take_left' hlength
  · refine ⟨_, _, Libc.sockaddr_ipv6 hfamily, rfl, ?_⟩
    change request.address.take 16 = address at haddress
    rw [haddress]
    exact List.take_left' hlength

/-- The address for Avahi is of the family, with the bytes at its start. -/
theorem avahiAddress_of {array address : List UInt8} {family : Int}
    (harray : array.take (familyToLength family) = address) (h : IsAddress family address) :
    (Dns.avahiAddress family array).proto =
        (if family = AF_INET then Dns.AVAHI_PROTO_INET else Dns.AVAHI_PROTO_INET6) ∧
      (Dns.avahiAddress family array).data.take (familyToLength family) = address := by
  unfold Dns.avahiAddress
  rcases h with ⟨rfl, hlength⟩ | ⟨rfl, hlength⟩
  · rw [if_pos rfl, if_pos rfl]
    change array.take 4 = address at harray
    rw [harray]
    exact ⟨rfl, List.take_left' hlength⟩
  · rw [if_neg (by decide), if_pos rfl, if_neg (by decide)]
    change array.take 16 = address at harray
    rw [harray]
    exact ⟨rfl, List.take_of_length_le hlength.le⟩

/-- The backends read the family of the address and its bytes, and look it up. -/
structure Reads (family : Int) (address : List UInt8) (request : Request) : Prop where
  ofFamily : request.family = family
  bytes : request.address.take (familyToLength request.family) = address
  hosts : ∀ items, Hosts.reverseCalls request.family request.address items =
    (Hosts.namesOf family address items).map fun name => .addNameInfo (some (String.ofList name))
  any : Loopback.isAny request.family request.address = true ↔
    address = Loopback.inaddrAny ∨ address = Loopback.in6addrAny
  loopback : Loopback.isLoopback request.family request.address = true ↔
    address = Loopback.inaddrLoopback ∨ address = Loopback.in6addrLoopback
  dns : ∀ libs v settings, Sat (Dns.queryReverse libs v settings) { request }
    (fun _ p => Dns.For (Dns.addressName family address) p)
    (fun f p => Dns.For (Dns.addressName family address) p ∧ f ≠ .abort)
  avahi : (Dns.avahiAddress request.family request.address).proto =
      (if family = AF_INET then Dns.AVAHI_PROTO_INET else Dns.AVAHI_PROTO_INET6) ∧
    (Dns.avahiAddress request.family request.address).data.take (familyToLength family) = address
  libc : ∃ sa salen, Libc.sockaddr request = some (sa, salen) ∧
    (ofBytes (sa.take 2) : Int) = family ∧
    (sa.drop (addressOffset family)).take (familyToLength family) = address

theorem reads_of {request : Request} {family : Int} {address : List UInt8}
    (hfamily : request.family = family)
    (haddress : request.address.take (familyToLength family) = address)
    (h : IsAddress family address) : Reads family address request where
  ofFamily := hfamily
  bytes := by rw [hfamily, haddress]
  hosts items := by rw [Hosts.reverseCalls_eq, hfamily, haddress]
  any := by rw [hfamily]; exact Loopback.isConstant_iff h haddress rfl rfl
  loopback := by rw [hfamily]; exact Loopback.isConstant_iff h haddress rfl rfl
  dns libs v settings := Dns.queryReverse_for libs v settings hfamily haddress h
  avahi := by rw [hfamily]; exact avahiAddress_of haddress h
  libc := sockaddr_address hfamily haddress h

/-- With the family and the array as `netresolve_query` leaves them. -/
theorem reads_iff {config : Config} {args : ReverseArgs} (h : IsAddress args.family args.address)
    {request : Request} (hfamily : request.family =
      if config.forceFamily ≠ 0 then config.forceFamily else args.family)
    (haddress : request.address =
      copyAddress config.request.address args.address (familyToLength args.family)) :
    Reads args.family args.address request ↔
      config.forceFamily = AF_UNSPEC ∨ config.forceFamily = args.family := by
  have hlength : args.address.length = familyToLength args.family := by
    rcases h with ⟨hargs, hlength⟩ | ⟨hargs, hlength⟩ <;> rw [hargs, hlength] <;> rfl
  constructor
  · intro hreads
    refine or_iff_not_imp_left.mpr fun hne => ?_
    have hforced : request.family = config.forceFamily := hfamily.trans (if_pos hne)
    exact hforced.symm.trans hreads.ofFamily
  · intro hforced
    refine reads_of (hfamily.trans ?_) (by rw [haddress, copyAddress_take hlength]) h
    by_cases hne : config.forceFamily ≠ 0
    · rw [if_pos hne]
      exact hforced.resolve_left hne
    · exact if_neg hne

/-! ### The queries of `getnameinfo` -/

/-- A socket address that is accepted has an address of its family. -/
theorem reverseArgs_isAddress {sa : List UInt8} {salen flags : Nat} {args : ReverseArgs}
    (hsa : salen ≤ sa.length) (h : reverseArgs sa salen flags = some args) :
    IsAddress args.family args.address := by
  have hsize : sizeofSockaddrIn = 16 := rfl
  have hsize6 : sizeofSockaddrIn6 = 28 := rfl
  unfold reverseArgs at h
  dsimp only at h
  by_cases hinet : (ofBytes (sa.take 2) : Int) = AF_INET
  · rw [if_pos hinet] at h
    by_cases hlength : salen = sizeofSockaddrIn
    · rw [if_neg (not_not.mpr hlength)] at h
      obtain rfl := Option.some.inj h
      refine Or.inl ⟨hinet, ?_⟩
      rw [List.length_take, List.length_drop]
      omega
    · rw [if_pos hlength] at h
      cases h
  rw [if_neg hinet] at h
  by_cases hinet6 : (ofBytes (sa.take 2) : Int) = AF_INET6
  · rw [if_pos hinet6] at h
    by_cases hlength : salen = sizeofSockaddrIn6
    · rw [if_neg (not_not.mpr hlength)] at h
      obtain rfl := Option.some.inj h
      refine Or.inr ⟨hinet6, ?_⟩
      rw [List.length_take, List.length_drop]
      omega
    · rw [if_pos hlength] at h
      cases h
  · rw [if_neg hinet6] at h
    cases h

/--
**So are the queries of `getnameinfo` and `gethostbyaddr`**: the backends read the address that was
passed if and only if no other family is forced.
-/
theorem entry_points_read_iff (config : Config) :
    (∀ (sa : List UInt8) (salen flags : Nat) (args : ReverseArgs), salen ≤ sa.length →
      reverseArgs sa salen flags = some args → ∃ request,
        queryGetnameinfo config sa salen flags = some request ∧
          (Reads args.family args.address request ↔
            config.forceFamily = AF_UNSPEC ∨ config.forceFamily = args.family)) ∧
    ∀ (family : Int) (address : List UInt8), IsAddress family address →
      (Reads family address (Compat.reverseRequest config family address) ↔
        config.forceFamily = AF_UNSPEC ∨ config.forceFamily = family) := by
  constructor
  · intro sa salen flags args hsa hargs
    have haddress := reverseArgs_isAddress hsa hargs
    have hquery : queryGetnameinfo config sa salen flags = queryReverse config args := by
      rw [queryGetnameinfo, hargs]
      rfl
    exact ⟨_, hquery.trans (queryReverse_eq config haddress), reads_iff haddress rfl rfl⟩
  · intro family address haddress
    have hrequest : Compat.reverseRequest config family address = _ :=
      Option.some.inj ((queryReverse_eq_reverseRequest config haddress).symm.trans
        (queryReverse_eq config haddress))
    rw [hrequest]
    exact @reads_iff config { family, address } haddress _ rfl rfl

/-- Forcing the family that the address has anyway does no harm. -/
example : Reads AF_INET Loopback.inaddrLoopback
    (Compat.reverseRequest { forceFamily := AF_INET } AF_INET Loopback.inaddrLoopback) :=
  ((entry_points_read_iff _).2 _ _ (Or.inl ⟨rfl, rfl⟩)).mpr (Or.inr rfl)

/-! ### Runs -/

/--
**A reverse query is about its address unless another family is forced.**  For every context, with
any options set on it, and every address, in every state of the query: the backends read the family
and the bytes of the address if and only if the environment forces no family or that of the
address.
-/
theorem reverse_reads_iff (environment : Environment) (calls : List (List RequestOption))
    (args : ReverseArgs) (h : IsAddress args.family args.address) : ∃ request,
    queryReverse (configured environment calls) args = some request ∧
    ∀ s₀ s : St, s₀.toLocal.New → s₀.query.request = request →
      Reachable (fun _ => True) (fun _ _ _ => True) s₀ s →
      (Reads args.family args.address s.query.request ↔
        environment.forceFamily = AF_UNSPEC ∨ environment.forceFamily = args.family) := by
  refine ⟨_, queryReverse_eq _ h, fun s₀ s hnew hrequest hrun => ?_⟩
  obtain ⟨protocol, hsame⟩ := (hrun.requested hnew).same
  rw [hrequest] at hsame
  rw [← configured_forceFamily environment calls]
  exact reads_iff h (by rw [hsame]) (by rw [hsame])

/-- A query on a single backend. -/
def started (request : Request) : St :=
  { query := { id := 0, request }, backends := [{}] }

/-- The address 127.0.0.1. -/
def localAddress : ReverseArgs := { family := AF_INET, address := Loopback.inaddrLoopback }

/-- A context for IPv6 only does not matter. -/
theorem reads_localAddress : ∃ request s,
    queryReverse (configured {} [[.family AF_INET6]]) localAddress = some request ∧
    Reachable (fun _ => True) (fun _ _ _ => True) (started request) s ∧
    Reads AF_INET Loopback.inaddrLoopback s.query.request := by
  obtain ⟨request, hrequest, hreads⟩ := reverse_reads_iff {} [[.family AF_INET6]] localAddress
    (Or.inl ⟨rfl, rfl⟩)
  obtain ⟨s, hplay, -⟩ := peek_some (show peek (·.query.state)
    (play {} []) (started request) = some .waiting by
      obtain rfl := Option.some.inj hrequest
      decide +kernel)
  have hrun : Reachable (fun _ => True) (fun _ _ _ => True) (started request) s :=
    Reachable.play trivial (fun _ _ => trivial) hplay
  exact ⟨request, s, hrequest, hrun, (hreads (started request) s (Compat.new_of_request request) rfl hrun).mpr
    (Or.inl rfl)⟩

/-- With IPv6 forced, the four bytes are taken for the start of an IPv6 address. -/
theorem forced_family_misread : ∃ request s,
    queryReverse (configured { forceFamily := AF_INET6 } []) localAddress = some request ∧
    Reachable (fun _ => True) (fun _ _ _ => True) (started request) s ∧
    s.query.request.family = AF_INET6 ∧ ¬ Reads AF_INET Loopback.inaddrLoopback s.query.request := by
  obtain ⟨s, hplay, hfamily⟩ := peek_some (show peek (·.query.request.family) (play {} [])
    (started { type := .reverse, family := AF_INET6, address := Loopback.inaddrLoopback }) =
      some AF_INET6 by decide +kernel)
  refine ⟨_, s, rfl, Reachable.play trivial (fun _ _ => trivial) hplay, hfamily, fun h => ?_⟩
  exact absurd (hfamily.symm.trans h.ofFamily) (by decide)

end Netresolve.Options
