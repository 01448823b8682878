/-
Which addresses the host name has.

The first pass is there to leave out the loopback addresses.  It compares four bytes of an IPv6
address with those of `::1`, which are zero, and so it leaves out every address that starts with
four zero bytes.  That goes unnoticed only when there is no such address besides `::1`, or when
there is nothing else in the list: then the second pass adds them all.
-/
import Netresolve.Backends.Hostname
import Mathlib.Data.List.ReduceOption

namespace Netresolve.Hostname

open Loopback (inaddrLoopback in6addrLoopback)

/-! ### What is expected -/

/-- An IPv4 or IPv6 address. -/
def Sockaddr.isIp : Sockaddr → Bool
  | .other => false
  | _ => true

/-- 127.0.0.1 or `::1`. -/
def Sockaddr.isLoopback : Sockaddr → Bool
  | .inet addr => addr.toList = inaddrLoopback
  | .inet6 addr _ => addr.toList = in6addrLoopback
  | .other => false

/-- The path of an address, with its scope id. -/
def Sockaddr.args : Sockaddr → PathArgs
  | .inet addr => { family := AF_INET, address := addr.toList }
  | .inet6 addr scopeId =>
      { family := AF_INET6, address := addr.toList, ifindex := toCInt scopeId.toNat }
  | .other => { family := AF_UNSPEC, address := [] }

/-- The IP addresses of the list. -/
def ips (list : List (Option Sockaddr)) : List Sockaddr := list.reduceOption.filter (·.isIp)

/-- The addresses other than loopback addresses, or all of them if there is none. -/
def wanted (list : List (Option Sockaddr)) : List Sockaddr :=
  let outside := (ips list).filter fun sa => !sa.isLoopback
  if outside = [] then ips list else outside

/-- The paths that calls add. -/
def added (calls : List Call) : List PathArgs :=
  calls.filterMap fun call =>
    match call with
    | .addPath args => some args
    | _ => none

/-- The paths are those of the addresses, and no address is left out. -/
structure Right (list : List (Option Sockaddr)) (calls : List Call) : Prop where
  paths : added calls = (wanted list).map Sockaddr.args
  complete : ∀ sa ∈ ips list, sa.isLoopback = false → sa.args ∈ added calls

/-! ### The two passes -/

/-- The address is left out by the first pass. -/
def Sockaddr.skipped : Sockaddr → Bool
  | .inet addr => same addr.toList inaddrLoopback sizeofInaddrLoopback
  | .inet6 addr _ => same addr.toList in6addrLoopback sizeofInaddrLoopback
  | .other => false

theorem pathArgs_some (filter : Bool) (sa : Sockaddr) : pathArgs filter (some sa) =
    if sa.isIp && !(filter && sa.skipped) then some sa.args else none := by
  have hflip : ∀ (b : Bool) (args : PathArgs),
      (if b = true then none else some args) = if (true && !b) = true then some args else none := by
    intro b args
    cases b <;> rfl
  cases sa with
  | inet addr => exact hflip _ _
  | inet6 addr scopeId => exact hflip _ _
  | other => rfl

/-- The addresses that a pass adds. -/
def passed (filter : Bool) (list : List (Option Sockaddr)) : List Sockaddr :=
  (ips list).filter fun sa => !(filter && sa.skipped)

theorem passed_eq_filter (filter : Bool) (list : List (Option Sockaddr)) : passed filter list =
    list.reduceOption.filter fun sa => sa.isIp && !(filter && sa.skipped) := by
  rw [passed, ips, List.filter_filter]
  exact List.filter_congr fun sa _ => Bool.and_comm _ _

theorem addAddresses_eq (filter : Bool) (list : List (Option Sockaddr)) :
    addAddresses filter list = ((passed filter list).map fun sa => .addPath sa.args,
      !(passed filter list).isEmpty) := by
  induction list with
  | nil => rfl
  | cons item rest ih =>
      unfold addAddresses
      cases item with
      | none => exact ih
      | some sa =>
          have hpassed : passed filter (some sa :: rest) =
              if sa.isIp && !(filter && sa.skipped) then sa :: passed filter rest
              else passed filter rest := by
            rw [passed_eq_filter, passed_eq_filter, List.reduceOption_cons_of_some,
              List.filter_cons]
          rw [pathArgs_some, hpassed]
          by_cases hc : (sa.isIp && !(filter && sa.skipped)) = true
          · rw [if_pos hc, if_pos hc]
            dsimp only
            rw [ih]
            rfl
          · rw [if_neg hc, if_neg hc]
            exact ih

theorem passed_false (list : List (Option Sockaddr)) : passed false list = ips list :=
  List.filter_eq_self.mpr fun _ _ => rfl

/-- The second pass is made if the first has added nothing. -/
theorem addPaths_eq (list : List (Option Sockaddr)) : addPaths list =
    (if passed true list = [] then ips list else passed true list).map fun sa =>
      .addPath sa.args := by
  unfold addPaths
  rw [addAddresses_eq, addAddresses_eq, passed_false]
  by_cases hnil : passed true list = []
  · rw [if_pos hnil, hnil]
    rfl
  · rw [if_neg hnil, if_pos (by simpa using hnil)]

theorem added_addPaths (list : List (Option Sockaddr)) (rest : List Call) :
    added (addPaths list ++ rest) =
      (if passed true list = [] then ips list else passed true list).map Sockaddr.args ++
        added rest := by
  rw [addPaths_eq, added, List.filterMap_append, List.filterMap_map]
  exact congrArg (· ++ added rest) (congrFun List.filterMap_eq_map _)

/-! ### When the result is right -/

/-- Another address than `::1` that starts as `::1` does. -/
def Mistaken (sa : Sockaddr) : Prop := sa.skipped = true ∧ sa.isLoopback = false

theorem skipped_of_isLoopback {sa : Sockaddr} (h : sa.isLoopback = true) : sa.skipped = true := by
  cases sa with
  | inet addr =>
      have haddr : addr.toList = inaddrLoopback := of_decide_eq_true h
      rw [Sockaddr.skipped, haddr]
      rfl
  | inet6 addr scopeId =>
      have haddr : addr.toList = in6addrLoopback := of_decide_eq_true h
      rw [Sockaddr.skipped, haddr]
      rfl
  | other => cases h

/-- What the first pass leaves is part of what is wanted. -/
theorem passed_eq (list : List (Option Sockaddr)) : passed true list =
    ((ips list).filter fun sa => !sa.isLoopback).filter fun sa => !sa.skipped := by
  rw [List.filter_filter, passed]
  refine List.filter_congr fun sa _ => ?_
  cases hsa : sa.isLoopback with
  | true =>
      rw [skipped_of_isLoopback hsa]
      rfl
  | false => exact (Bool.and_true _).symm

theorem wanted_complete {list : List (Option Sockaddr)} {sa : Sockaddr} (hsa : sa ∈ ips list)
    (hloopback : sa.isLoopback = false) : sa ∈ wanted list := by
  have hmem : sa ∈ (ips list).filter fun sa => !sa.isLoopback :=
    List.mem_filter.mpr ⟨hsa, by rw [hloopback]; rfl⟩
  unfold wanted
  dsimp only
  rw [if_neg (List.ne_nil_of_mem hmem)]
  exact hmem

/-- The addresses that are added are those wanted. -/
theorem added_eq_wanted_iff (list : List (Option Sockaddr)) :
    (if passed true list = [] then ips list else passed true list).map Sockaddr.args =
        (wanted list).map Sockaddr.args ↔
      (∀ sa ∈ ips list, ¬ Mistaken sa) ∨ ∀ sa ∈ ips list, Mistaken sa := by
  constructor
  · intro heq
    have hlength := congrArg List.length heq
    rw [List.length_map, List.length_map] at hlength
    by_cases houtside : ((ips list).filter fun sa => !sa.isLoopback) = []
    · refine Or.inl fun sa hsa hmistaken => ?_
      have hloopback := List.filter_eq_nil_iff.mp houtside sa hsa
      rw [hmistaken.2] at hloopback
      exact hloopback rfl
    have hwanted : wanted list = (ips list).filter fun sa => !sa.isLoopback := if_neg houtside
    rw [hwanted] at hlength
    by_cases hnil : passed true list = []
    · rw [if_pos hnil] at hlength
      refine Or.inr fun sa hsa => ⟨?_, ?_⟩
      · simpa using List.filter_eq_nil_iff.mp hnil sa hsa
      · simpa using List.length_filter_eq_length_iff.mp hlength.symm sa hsa
    · rw [if_neg hnil, passed_eq] at hlength
      refine Or.inl fun sa hsa hmistaken => ?_
      have hkept := List.length_filter_eq_length_iff.mp hlength sa
        (List.mem_filter.mpr ⟨hsa, by rw [hmistaken.2]; rfl⟩)
      rw [hmistaken.1] at hkept
      cases hkept
  · intro hor
    congr 1
    rcases hor with hnone | hall
    · have heq : passed true list = (ips list).filter fun sa => !sa.isLoopback := by
        rw [passed_eq]
        refine List.filter_eq_self.mpr fun sa hsa => ?_
        obtain ⟨hmem, hloopback⟩ := List.mem_filter.mp hsa
        by_contra hskipped
        exact hnone sa hmem ⟨by simpa using hskipped, by simpa using hloopback⟩
      rw [heq]
      rfl
    · have hnil : passed true list = [] :=
        List.filter_eq_nil_iff.mpr fun sa hsa => by rw [(hall sa hsa).1]; decide
      have houtside : ((ips list).filter fun sa => !sa.isLoopback) = ips list :=
        List.filter_eq_self.mpr fun sa hsa => by rw [(hall sa hsa).2]; rfl
      rw [if_pos hnil, wanted, houtside, ite_self]

/--
**Addresses that start with four zero bytes are lost.**  The host name stands for the right
addresses if and only if there is no IPv6 address besides `::1` that starts with four zero bytes,
or all IP addresses of the list are such addresses.
-/
theorem hostname_right_iff (request : Request) (hostname : String)
    (list : List (Option Sockaddr)) (hnode : Dns.backendGetNodename request = some hostname) :
    Right list (queryForward hostname (some list) request) ↔
      (∀ sa ∈ ips list, ¬ Mistaken sa) ∨ ∀ sa ∈ ips list, Mistaken sa := by
  have hcalls : added (queryForward hostname (some list) request) =
      (if passed true list = [] then ips list else passed true list).map Sockaddr.args := by
    rw [queryForward, hnode]
    dsimp only
    rw [if_neg (not_not.mpr rfl), added_addPaths]
    exact List.append_nil _
  rw [← added_eq_wanted_iff, ← hcalls]
  refine ⟨fun h => h.paths, fun h => ⟨h, fun sa hsa hloopback => ?_⟩⟩
  rw [h]
  exact List.mem_map_of_mem (wanted_complete hsa hloopback)

/-- The request for the addresses of a host. -/
def hostRequest : Request := { nodename := some "host" }

/-- The address `::1`. -/
def ipv6Loopback : Sockaddr := .inet6 #v[0, 0, 0, 0, 0, 0, 0, 0, 0, 0, 0, 0, 0, 0, 0, 1] 0

/-- The address `::192.0.2.1`. -/
def compatible : Sockaddr := .inet6 #v[0, 0, 0, 0, 0, 0, 0, 0, 0, 0, 0, 0, 192, 0, 2, 1] 0

/-- The address 192.0.2.1. -/
def ipv4Address : Sockaddr := .inet #v[192, 0, 2, 1]

theorem right_ipv4Address : Right [none, some ipv6Loopback, some ipv4Address]
    (queryForward "host" (some [none, some ipv6Loopback, some ipv4Address]) hostRequest) := by
  refine (hostname_right_iff hostRequest "host" _ rfl).mpr (Or.inl ?_)
  unfold Mistaken
  decide

/-- The IPv4 address is added, and the other one is not. -/
theorem compatible_left_out : ¬ Right [some ipv4Address, some compatible]
    (queryForward "host" (some [some ipv4Address, some compatible]) hostRequest) := by
  intro h
  exact absurd h.paths (by decide)

end Netresolve.Hostname
