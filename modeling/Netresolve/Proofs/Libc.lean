/-
What `netresolve_query_getnameinfo` reads in the socket addresses of the libc backend.

The backend stores the port as it is, where the other side expects it in network byte order, so a
port comes back with its two bytes exchanged.  The length it passes is that of an IPv4 socket
address in both cases, which the other side does not accept for an IPv6 one.
-/
import Netresolve.Backends.Libc

namespace Netresolve.Libc

open Addrinfo Bytes Options

/-! ### Ports -/

theorem ofInt_two (n : Int) : ofInt 2 n =
    [UInt8.ofNat (n % 65536).toNat, UInt8.ofNat ((n % 65536).toNat / 256)] := rfl

theorem ntohs_ofInt {port : Int} (hlow : 0 ≤ port) (hhigh : port ≤ 65535) :
    ntohs (ofInt 2 port) = port / 256 + 256 * (port % 256) := by
  have hmod : port % 65536 = port := Int.emod_eq_of_lt hlow (by omega)
  rw [ofInt_two, hmod]
  show ((ofBytes [UInt8.ofNat (port.toNat / 256), UInt8.ofNat port.toNat] : Nat) : Int) = _
  simp only [ofBytes, UInt8.toNat_ofNat']
  omega

/-- Exchanging the bytes of a port changes nothing only if they are equal. -/
theorem ntohs_ofInt_eq_iff {port : Int} (hlow : 0 ≤ port) (hhigh : port ≤ 65535) :
    ntohs (ofInt 2 port) = port ↔ port % 257 = 0 := by
  rw [ntohs_ofInt hlow hhigh]
  omega

/-! ### The round trip -/

/-- The family, the address, the scope id and the port come back. -/
structure Same (request : Request) (args : ReverseArgs) : Prop where
  family : args.family = request.family
  address : args.address = request.address.take (familyToLength request.family)
  ifindex : args.ifindex = request.ifindex
  port : args.port = request.port

/-- What the backend passes to `getnameinfo` is accepted and stands for the request. -/
def RoundTrips (request : Request) : Prop :=
  ∃ sa salen args, sockaddr request = some (sa, salen) ∧ reverseArgs sa salen 0 = some args ∧
    Same request args

theorem take_four {address : List UInt8} (h : 4 ≤ address.length) :
    ∃ a b c d, address.take 4 = [a, b, c, d] := by
  rcases address with _ | ⟨a, _ | ⟨b, _ | ⟨c, _ | ⟨d, rest⟩⟩⟩⟩
  case cons.cons.cons.cons => exact ⟨a, b, c, d, rfl⟩
  all_goals simp at h

theorem sockaddr_ipv4 {request : Request} (hfamily : request.family = AF_INET) :
    sockaddr request = some (ofInt 2 AF_INET ++ ofInt 2 request.port ++ request.address.take 4 ++
      List.replicate 20 0, sizeofSockaddrIn) := by
  unfold sockaddr
  rw [hfamily]
  rfl

theorem sockaddr_ipv6 {request : Request} (hfamily : request.family = AF_INET6) :
    sockaddr request = some (ofInt 2 AF_INET6 ++ ofInt 2 request.port ++ List.replicate 4 0 ++
      request.address.take 16 ++ List.replicate 4 0, sizeofSockaddrIn) := by
  unfold sockaddr
  rw [hfamily]
  rfl

theorem reverseArgs_ipv4 {request : Request} (haddress : 4 ≤ request.address.length) :
    reverseArgs (ofInt 2 AF_INET ++ ofInt 2 request.port ++ request.address.take 4 ++
      List.replicate 20 0) sizeofSockaddrIn 0 =
    some { family := AF_INET, address := request.address.take 4, protocol := IPPROTO_TCP,
           port := ntohs (ofInt 2 request.port) } := by
  obtain ⟨a, b, c, d, htake⟩ := take_four haddress
  rw [htake]
  rfl

/-- The length is never that of an IPv6 socket address. -/
theorem not_accepted_ipv6 {request : Request} (hfamily : request.family = AF_INET6)
    {sa : List UInt8} {salen : Nat} (h : sockaddr request = some (sa, salen)) :
    reverseArgs sa salen 0 = none := by
  obtain ⟨rfl, rfl⟩ := Prod.mk.inj (Option.some.inj ((sockaddr_ipv6 hfamily).symm.trans h))
  rfl

/--
**The round trip of the libc backend.**  The socket address is accepted and gives back the family,
the address, the scope id and the port if and only if the address is an IPv4 address, no scope id
is given and the two bytes of the port are equal.
-/
theorem roundTrips_iff (request : Request)
    (hfamily : request.family = AF_INET ∨ request.family = AF_INET6)
    (haddress : familyToLength request.family ≤ request.address.length)
    (hlow : 0 ≤ request.port) (hhigh : request.port ≤ 65535) :
    RoundTrips request ↔
      request.family = AF_INET ∧ request.ifindex = 0 ∧ request.port % 257 = 0 := by
  rcases hfamily with h4 | h6
  · have hlength : familyToLength request.family = 4 := by
      rw [h4]
      rfl
    have hsockaddr := sockaddr_ipv4 h4
    have hdecode := reverseArgs_ipv4 (hlength ▸ haddress)
    constructor
    · rintro ⟨sa, salen, args, hsa, hargs, hsame⟩
      obtain ⟨rfl, rfl⟩ := Prod.mk.inj (Option.some.inj (hsockaddr.symm.trans hsa))
      obtain rfl := Option.some.inj (hdecode.symm.trans hargs)
      exact ⟨h4, hsame.ifindex.symm, (ntohs_ofInt_eq_iff hlow hhigh).mp hsame.port⟩
    · rintro ⟨_, hifindex, hport⟩
      refine ⟨_, _, _, hsockaddr, hdecode, h4.symm, ?_, hifindex.symm, ?_⟩
      · rw [hlength]
      · exact (ntohs_ofInt_eq_iff hlow hhigh).mpr hport
  · refine iff_of_false ?_ fun h => absurd (h.1.symm.trans h6) (by decide)
    rintro ⟨sa, salen, args, hsa, hargs, _⟩
    rw [not_accepted_ipv6 h6 hsa] at hargs
    cases hargs

/-- The reverse request for a port of the local host. -/
def localRequest (port : Int) : Request :=
  { type := .reverse, family := AF_INET, address := [127, 0, 0, 1], port }

theorem roundTrips_port_257 : RoundTrips (localRequest 257) :=
  (roundTrips_iff (localRequest 257) (Or.inl rfl) (by decide) (by decide) (by decide)).mpr
    ⟨rfl, rfl, by decide⟩

/-- Port 80 comes back as port 20480. -/
theorem not_roundTrips_port_80 :
    (∃ sa salen args, sockaddr (localRequest 80) = some (sa, salen) ∧
      reverseArgs sa salen 0 = some args ∧ args.port = 20480) ∧
    ¬ RoundTrips (localRequest 80) := by
  refine ⟨⟨_, _, _, rfl, rfl, by decide⟩, ?_⟩
  rintro ⟨sa, salen, args, hsa, hargs, hsame⟩
  obtain ⟨rfl, rfl⟩ := Prod.mk.inj (Option.some.inj hsa)
  obtain rfl := Option.some.inj hargs
  exact absurd hsame.port (by decide)

end Netresolve.Libc
