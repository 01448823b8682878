/-
The round trip of a response through a list of `struct addrinfo`.

Item by item, a socket address gives back what the record had, up to what it has no room for:
the index of an interface survives for link-local addresses only.  The list as a whole is
inserted again in the order in which it stands.  It stands in the order of the first response,
so every record goes to the end.
-/
import Netresolve.Core.Addrinfo
import Netresolve.Proofs.Paths

namespace Netresolve.Addrinfo

open Bytes

/-! ### One record -/

/--
A record that an item of the list has room for.  The bounds on the index and the ttl are those
of their types.
-/
structure Portable (p : Path) : Prop where
  family : p.family = AF_INET ∨ p.family = AF_INET6
  address : p.address.length = familyToLength p.family
  ifindex : p.ifindex = 0 ∨ (p.family = AF_INET6 ∧ isLinkLocal p.address = true)
  index : -2147483648 ≤ p.ifindex ∧ p.ifindex ≤ INT32_MAX
  socktype : p.socktype ≠ 0
  protocol : p.protocol ≠ 0
  port : 1 ≤ p.port ∧ p.port ≤ 65535
  ttl : p.ttl ≤ INT32_MAX

/-- The record with what the list does not carry. -/
def rebuilt (ttl : Int) (p : Path) : Path := { p with priority := 0, weight := 0, ttl }

/-- The same before `check_reachability`. -/
def unchecked (ttl : Int) (p : Path) : Path := { rebuilt ttl p with reachable := false }

theorem ntohs_htons {n : Int} (hlow : 0 ≤ n) (hhigh : n ≤ 65535) : ntohs (htons n) = n := by
  unfold ntohs htons
  rw [List.reverse_reverse, ofBytes_ofInt]
  omega

theorem addressBytes_eq {n : Nat} {p : Path} (h : p.address.length = n) :
    addressBytes n p = p.address := by
  unfold addressBytes
  rw [← h, List.take_left]

theorem htons_length (n : Int) : (htons n).length = 2 := by
  simp [htons]

/-- Both kinds of socket address start with the family and the port. -/
theorem header_fields (family port rest : List UInt8) (hfamily : family.length = 2)
    (hport : port.length = 2) :
    (family ++ port ++ rest).take 2 = family ∧ ((family ++ port ++ rest).drop 2).take 2 = port ∧
      ∀ k, 4 ≤ k → (family ++ port ++ rest).drop k = rest.drop (k - 4) := by
  have hheader : (family ++ port).length = 4 := by simp [hfamily, hport]
  refine ⟨?_, ?_, ?_⟩
  · rw [List.append_assoc, ← hfamily, List.take_left]
  · rw [List.append_assoc, ← hfamily, List.drop_left, hfamily, ← hport, List.take_left]
  · intro k hk
    rw [List.drop_append, hheader, List.drop_eq_nil_of_le (by omega), List.nil_append]

/-- The record `netresolve_backend_add_path` makes when it does not look at the services. -/
theorem pathsOf_complete {services : List Service} {request : Request} {a : PathArgs}
    (hrequest : request.family = AF_UNSPEC) (hunix : a.family ≠ AF_UNIX) (hsocktype : a.socktype ≠ 0)
    (hprotocol : a.protocol ≠ 0) (hport : a.port ≠ 0) :
    pathsOf services request a =
      [{ family := a.family, address := pathAddress a.family a.address, ifindex := a.ifindex,
         socktype := a.socktype, protocol := a.protocol, port := a.port, priority := a.priority,
         weight := a.weight, ttl := a.ttl }] := by
  simp [pathsOf, servicePaths, hrequest, hunix, hsocktype, hprotocol, hport]

/-- The item that the loop makes of a record. -/
def itemOf (p : Path) (sa : List UInt8) (canonname : Option String) : Addrinfo :=
  { family := ofBytes (sa.take 2), socktype := p.socktype, protocol := p.protocol, addr := sa,
    canonname }

/-- What an item comes to when it is added to a new query. -/
def Restores (p : Path) (sa : List UInt8) : Prop :=
  ∀ (services : List Service) (request : Request) (canonname : Option String) (ttl : Int),
    request.family = AF_UNSPEC → pathsOf services request (pathArgs ttl (itemOf p sa canonname)) =
      [unchecked ttl p]

theorem restores_inet {p : Path} (hp : Portable p) (hfamily : p.family = AF_INET) :
    ∃ sa, getSockaddr p = some sa ∧ Restores p sa := by
  have haddress : p.address.length = 4 := by
    rw [hp.address, hfamily]
    rfl
  have hifindex : p.ifindex = 0 := by
    rcases hp.ifindex with h | h
    · exact h
    · rw [hfamily] at h
      exact absurd h.1 (by decide)
  have hport := hp.port
  refine ⟨_, if_pos hfamily, ?_⟩
  intro services request canonname ttl hrequest
  rw [List.append_assoc, addressBytes_eq haddress]
  obtain ⟨htake, hnext, hdrop⟩ := header_fields (ofInt 2 p.family) (htons p.port)
    (p.address ++ List.replicate 8 0) (ofInt_length 2 _) (htons_length _)
  have hbytes : (ofBytes (ofInt 2 p.family) : Int) = AF_INET := by
    rw [ofBytes_ofInt, hfamily]
    rfl
  have hargs : pathArgs ttl (itemOf p (ofInt 2 p.family ++ htons p.port ++
      (p.address ++ List.replicate 8 0)) canonname) =
      { family := AF_INET, address := p.address ++ List.replicate 12 0, socktype := p.socktype,
        protocol := p.protocol, port := p.port, ttl } := by
    have hread : (p.address ++ List.replicate 8 (0 : UInt8)).take 4 = p.address := by
      rw [← haddress, List.take_left]
    simp only [pathArgs, itemOf, htake, hbytes, if_true, hnext, hdrop 4 (by omega), Nat.sub_self,
      List.drop_zero, hread, ntohs_htons (show 0 ≤ p.port by omega) hport.2]
  rw [hargs, pathsOf_complete hrequest (show AF_INET ≠ AF_UNIX by decide) hp.socktype hp.protocol
    (show p.port ≠ 0 by omega)]
  have hkept : pathAddress AF_INET (p.address ++ List.replicate 12 0) = p.address := by
    show (p.address ++ List.replicate 12 0).take 4 = p.address
    rw [← haddress, List.take_left]
  simp only [unchecked, rebuilt, hkept, hfamily, hifindex]

theorem restores_inet6 {p : Path} (hp : Portable p) (hfamily : p.family = AF_INET6) :
    ∃ sa, getSockaddr p = some sa ∧ Restores p sa := by
  have haddress : p.address.length = 16 := by
    rw [hp.address, hfamily]
    rfl
  have hport := hp.port
  have hne : ¬ p.family = AF_INET := by
    rw [hfamily]
    decide
  refine ⟨_, (if_neg hne).trans (if_pos hfamily), ?_⟩
  intro services request canonname ttl hrequest
  rw [List.append_assoc, List.append_assoc (ofInt 2 p.family ++ htons p.port),
    addressBytes_eq haddress]
  obtain ⟨htake, hnext, hdrop⟩ := header_fields (ofInt 2 p.family) (htons p.port)
    (List.replicate 4 0 ++ (p.address ++ ofInt 4 p.ifindex)) (ofInt_length 2 _) (htons_length _)
  have hbytes : (ofBytes (ofInt 2 p.family) : Int) = AF_INET6 := by
    rw [ofBytes_ofInt, hfamily]
    rfl
  have hread : ((List.replicate 4 (0 : UInt8) ++ (p.address ++ ofInt 4 p.ifindex)).drop 4).take 16 =
      p.address := by
    rw [List.drop_left' (by simp), ← haddress, List.take_left]
  have hscope : ((List.replicate 4 (0 : UInt8) ++ (p.address ++ ofInt 4 p.ifindex)).drop 20).take 4 =
      ofInt 4 p.ifindex := by
    rw [← List.append_assoc, List.drop_left' (by simp [haddress]), List.take_of_length_le (by simp)]
  have hindex : (if isLinkLocal p.address = true then toInt (ofInt 4 p.ifindex) else 0) =
      p.ifindex := by
    have hrange := hp.index
    split
    · exact toInt_ofInt 4 p.ifindex (by simp only [INT32_MAX] at hrange; omega)
        (by simp only [INT32_MAX] at hrange; omega)
    · next hlocal =>
        rcases hp.ifindex with h | h
        · exact h.symm
        · exact absurd h.2 hlocal
  have hargs : pathArgs ttl (itemOf p (ofInt 2 p.family ++ htons p.port ++
      (List.replicate 4 0 ++ (p.address ++ ofInt 4 p.ifindex))) canonname) =
      { family := AF_INET6, address := p.address, ifindex := p.ifindex, socktype := p.socktype,
        protocol := p.protocol, port := p.port, ttl } := by
    have hfamilies : ¬ AF_INET6 = AF_INET := by decide
    simp only [pathArgs, itemOf, htake, hbytes, hfamilies, if_true, if_false, hnext,
      hdrop 8 (by omega), hdrop 24 (by omega), Nat.reduceSub, hread, hscope, hindex,
      ntohs_htons (show 0 ≤ p.port by omega) hport.2]
  rw [hargs, pathsOf_complete hrequest (show AF_INET6 ≠ AF_UNIX by decide) hp.socktype hp.protocol
    (show p.port ≠ 0 by omega)]
  have hkept : pathAddress AF_INET6 p.address = p.address :=
    List.take_of_length_le (show p.address.length ≤ 16 by omega)
  simp only [unchecked, rebuilt, hkept, hfamily]

/-- An item gives back the record it was made of. -/
theorem Portable.restores {p : Path} (hp : Portable p) :
    ∃ sa, getSockaddr p = some sa ∧ Restores p sa := by
  rcases hp.family with h | h
  · exact restores_inet hp h
  · exact restores_inet6 hp h

/-! ### The list -/

/-- What the loop knows of the ttl: the least of those it has seen. -/
structure Least (clampTtl start : Int) (paths : List Path) (ttl : Int) : Prop where
  bound : ttl ≤ start
  all : ∀ p ∈ paths, ttl ≤ auxTtl clampTtl p
  found : ttl = start ∨ ∃ p ∈ paths, ttl = auxTtl clampTtl p

theorem Least.cons {clampTtl start : Int} {p : Path} {rest : List Path} {ttl : Int}
    (h : Least clampTtl
      (if auxTtl clampTtl p < start then auxTtl clampTtl p else start) rest ttl) :
    Least clampTtl start (p :: rest) ttl := by
  have hstart := h.bound
  have hfound := h.found
  by_cases hlt : auxTtl clampTtl p < start
  · rw [if_pos hlt] at hstart hfound
    refine ⟨by omega, fun q hq => ?_, ?_⟩
    · rcases List.mem_cons.mp hq with rfl | hq
      · exact hstart
      · exact h.all q hq
    · rcases hfound with heq | ⟨q, hq, heq⟩
      · exact Or.inr ⟨p, List.mem_cons_self, heq⟩
      · exact Or.inr ⟨q, List.mem_cons_of_mem p hq, heq⟩
  · rw [if_neg hlt] at hstart hfound
    refine ⟨hstart, fun q hq => ?_, ?_⟩
    · rcases List.mem_cons.mp hq with rfl | hq
      · omega
      · exact h.all q hq
    · rcases hfound with heq | ⟨q, hq, heq⟩
      · exact Or.inl heq
      · exact Or.inr ⟨q, List.mem_cons_of_mem p hq, heq⟩

/-- The minimum, when the running minimum starts at the greatest value. -/
theorem Least.attained {clampTtl : Int} {paths : List Path} {ttl : Int}
    (h : Least clampTtl INT32_MAX paths ttl) (hne : paths ≠ [])
    (hbound : ∀ p ∈ paths, auxTtl clampTtl p ≤ INT32_MAX) :
    ∃ p ∈ paths, ttl = auxTtl clampTtl p := by
  rcases h.found with heq | hfound
  · obtain ⟨p, hp⟩ := List.exists_mem_of_ne_nil paths hne
    refine ⟨p, hp, ?_⟩
    exact le_antisymm (h.all p hp) (heq ▸ hbound p hp)
  · exact hfound

theorem buildList_eq {calloc : Nat → Bool} (hcalloc : ∀ i, calloc i = true) (clampTtl : Int)
    (canonname : Option String) (paths : List Path) : ∀ (i : Nat) (start : Int),
    (∀ p ∈ paths, Portable p) →
      ∃ items ttl, buildList calloc clampTtl canonname i start paths = .ok (items, ttl) ∧
        items.length = paths.length ∧ Least clampTtl start paths ttl ∧
        ∀ (services : List Service) (request : Request) (t : Int), request.family = AF_UNSPEC →
          (items.map (pathArgs t)).flatMap (pathsOf services request) =
            paths.map (unchecked t) := by
  induction paths with
  | nil =>
      intro i start _
      exact ⟨[], start, rfl, rfl, ⟨le_rfl, by simp, Or.inl rfl⟩, fun _ _ _ _ => rfl⟩
  | cons p rest ih =>
      intro i start hpaths
      obtain ⟨sa, hsa, hrestores⟩ := (hpaths p List.mem_cons_self).restores
      obtain ⟨items, ttl, hbuild, hlength, hleast, hadded⟩ := ih (i + 1)
        (if auxTtl clampTtl p < start then auxTtl clampTtl p else start)
        fun q hq => hpaths q (List.mem_cons_of_mem p hq)
      refine ⟨itemOf p sa (if i = 0 then canonname.filter (· ≠ "") else none) :: items, ttl, ?_,
        ?_, hleast.cons, ?_⟩
      · simp only [buildList, hcalloc i, if_true, hsa, hbuild]
        rfl
      · rw [List.length_cons, hlength, List.length_cons]
      · intro services request t hrequest
        rw [List.map_cons, List.flatMap_cons, hrestores services request _ t hrequest,
          hadded services request t hrequest]
        rfl

/-! ### The new response -/

/-- The check of a new query finds the addresses as it found them for the response. -/
def SameReach (reach : Nat → Path → Bool) (paths : List Path) : Prop :=
  ∀ n, ∀ p ∈ paths, ∀ q : Path, q.family = p.family → q.address = p.address →
    q.ifindex = p.ifindex → reach n q = p.reachable

theorem checkedPaths_rebuilt (env : Env) {reach : Nat → Path → Bool} (ttl : Int)
    (paths : List Path) : ∀ n, (∀ p ∈ paths, Portable p) → SameReach reach paths →
    checkedPaths env reach n (paths.map (unchecked ttl)) =
      paths.map (rebuilt ttl) := by
  induction paths with
  | nil => exact fun _ _ _ => rfl
  | cons p rest ih =>
      intro n hpaths hreach
      have hcheck : checkedPath env reach n (unchecked ttl p) = rebuilt ttl p := by
        have hfound := hreach n p List.mem_cons_self (unchecked ttl p) rfl rfl rfl
        have hfamily : (unchecked ttl p).family = AF_INET ∨ (unchecked ttl p).family = AF_INET6 :=
          (hpaths p List.mem_cons_self).family
        unfold checkedPath checkReachability
        rw [if_pos hfamily]
        simp only [hfound]
        rfl
      rw [List.map_cons, checkedPaths, hcheck, List.map_cons,
        ih (n + 1) (fun q hq => hpaths q (List.mem_cons_of_mem p hq))
          fun m q hq => hreach m q (List.mem_cons_of_mem p hq)]

/-- What the list does not carry has no part in the order. -/
theorem ordered_rebuilt {sort : Bool} {paths : List Path} (ttl : Int)
    (h : Insertion.Ordered (pathLt sort) paths) :
    Insertion.Ordered (pathLt sort) (paths.map (rebuilt ttl)) :=
  List.pairwise_map.mpr h

/-- A link-local address with an interface, and an IPv4 address. -/
def localAndPublic : List Path :=
  [{ family := AF_INET6, address := 0xfe :: 0x80 :: List.replicate 13 0 ++ [1], ifindex := 2,
     reachable := true, socktype := SOCK_STREAM, protocol := IPPROTO_TCP, port := 443,
     priority := 10, weight := 5, ttl := 300 },
   { family := AF_INET, address := [192, 0, 2, 1], ifindex := 0, reachable := true,
     socktype := SOCK_STREAM, protocol := IPPROTO_TCP, port := 443, priority := 10, weight := 5,
     ttl := 60 }]

/-- The arguments that produce a path. -/
def argsOf (p : Path) : PathArgs :=
  { family := p.family, address := p.address, ifindex := p.ifindex, socktype := p.socktype,
    protocol := p.protocol, port := p.port, priority := p.priority, weight := p.weight,
    ttl := p.ttl }

theorem localAndPublic_portable : ∀ p ∈ localAndPublic, Portable p := by
  intro p hp
  rcases List.mem_cons.mp hp with rfl | hp
  · exact ⟨Or.inr rfl, rfl, Or.inr ⟨rfl, by decide⟩, by decide, by decide, by decide, by decide,
      by decide⟩
  · rw [List.mem_singleton.mp hp]
    exact ⟨Or.inl rfl, rfl, Or.inl rfl, by decide, by decide, by decide, by decide, by decide⟩

end Netresolve.Addrinfo
