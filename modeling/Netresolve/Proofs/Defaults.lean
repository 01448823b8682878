/-
When somebody else is asked.

The backends of the default string up to `hostname` know at once whether they have an answer, so
that they are a row whose meaning is its first answer.  Each module is looked at once, for when it
has an answer; together these are the requests that the host can answer by itself, and the backends
behind them, which are those that send requests to the network, are set up for all other requests
and for no other.  The names of the local host are answered before the hosts file is read.
-/
import Netresolve.Backends.Defaults
import Netresolve.Proofs.BackendString
import Netresolve.Proofs.Chain
import Netresolve.Proofs.Hostent
import Netresolve.Proofs.Hostname
import Netresolve.Proofs.Nss
import Netresolve.Proofs.Reverse

namespace Netresolve.Defaults

open BackendString CString
open Dns (backendGetNodename)

/-! ### When a module has an answer -/

/-- The calls of a backend that has an answer exactly if `P` holds. -/
inductive Says (P : Prop) : List Call → Prop
  | failed (h : ¬ P) : Says P [.failed]
  | answer (h : P) (writes : List Call) (hadds : ∀ call ∈ writes, call.adds = true) :
      Says P (writes ++ [.finished])

/-- The answer in the calls of a setup function. -/
def replyOf (calls : List Call) : Option (List Call) :=
  if calls = [.failed] then none else some calls.dropLast

theorem replyOf_concat (writes : List Call) : replyOf (writes ++ [.finished]) = some writes := by
  have hne : writes ++ [Call.finished] ≠ [.failed] := by
    intro heq
    have hlast := congrArg List.getLast? heq
    simp at hlast
  unfold replyOf
  rw [if_neg hne, List.dropLast_concat]

theorem Says.reply {P : Prop} {calls : List Call} (h : Says P calls) :
    replyCalls (replyOf calls) = calls ∧ (replyOf calls = none ↔ ¬ P) ∧
      ∀ writes, replyOf calls = some writes → ∀ call ∈ writes, call.adds = true := by
  cases h with
  | failed h =>
      refine ⟨rfl, ⟨fun _ => h, fun _ => rfl⟩, fun writes hw => ?_⟩
      simp [replyOf] at hw
  | answer h writes hadds =>
      rw [replyOf_concat]
      refine ⟨rfl, ⟨fun hn => (Option.some_ne_none _ hn).elim, fun hn => absurd h hn⟩,
        fun writes' hw => ?_⟩
      obtain rfl := Option.some.inj hw
      exact hadds

theorem Says.congr {P Q : Prop} {calls : List Call} (h : Says P calls) (hiff : P ↔ Q) :
    Says Q calls := by
  cases h with
  | failed h => exact .failed (mt hiff.mpr h)
  | answer h writes hadds => exact .answer (hiff.mp h) writes hadds

/-- A function that fails, or else has an answer. -/
theorem says_ite {P : Prop} [Decidable P] (writes : List Call)
    (hadds : ∀ call ∈ writes, call.adds = true) :
    Says (¬ P) (if P then [.failed] else writes ++ [.finished]) := by
  split
  · exact .failed (not_not.mpr ‹_›)
  · exact .answer ‹_› writes hadds

/-- The requests that a module has an answer to. -/
def Module.Knows (host : Host) (request : Request) (m : Module) : Prop :=
  match request.type, m with
  | .forward, .unix => request.family = AF_UNIX ∧
      ∃ node, backendGetNodename request = some node ∧ node.toList.head? = some '/'
  | .forward, .any => request.defaultLoopback = false ∧ (backendGetNodename request).getD "" = ""
  | .forward, .loopback => (backendGetNodename request).getD "" = "" ∨
      ∃ node ∈ ["localhost", "localhost4", "localhost6"], backendGetNodename request = some node
  | .forward, .numerichost => ∃ node a, backendGetNodename request = some node ∧
      parseAddress host.lits (some node.toList) = some a ∧ 0 ≤ a.ifindex
  | .forward, .hosts => ∃ node, backendGetNodename request = some node ∧
      ∃ item ∈ host.entries, item.name = some node.toList
  | .forward, .hostname =>
      backendGetNodename request = some host.hostname ∧ host.interfaces.isSome = true
  | .reverse, .any => request.defaultLoopback = false ∧
      Loopback.isAny request.family request.address = true
  | .reverse, .loopback => Loopback.isAny request.family request.address = true ∨
      Loopback.isLoopback request.family request.address = true
  | .reverse, .hosts => ∃ item ∈ host.entries, item.family = request.family ∧
      request.address.take (familyToLength request.family) =
        item.address.take (familyToLength request.family)
  | _, _ => False

section

variable {host : Host} {request : Request}

theorem unix_says : Says (request.family = AF_UNIX ∧
    ∃ node, backendGetNodename request = some node ∧ node.toList.head? = some '/')
    (unixForward request) := by
  unfold unixForward
  cases hnode : backendGetNodename request with
  | none => exact .failed (by rintro ⟨-, node, h, -⟩; cases h)
  | some node =>
      refine (says_ite (P := request.family ≠ AF_UNIX ∨ node.toList.head? ≠ some '/')
        [.addPath _, .setSecure] (by simp [Call.adds])).congr ?_
      simp [not_or]

theorem any_says : Says (request.defaultLoopback = false ∧
    (backendGetNodename request).getD "" = "") (Loopback.anyForward request) := by
  unfold Loopback.anyForward
  by_cases hd : request.defaultLoopback = true
  · rw [if_pos hd]
    exact .failed (by simp [hd])
  · rw [if_neg hd]
    refine (says_ite [.addPath _, .addPath _, .setSecure] (by simp [Call.adds])).congr ?_
    cases backendGetNodename request <;> simp [hd]

/-- The names that `query_forward` answers. -/
theorem names_iff (node : Option String) (name : String) : Loopback.names node name = true ↔
    node.getD "" = "" ∨ node = some "localhost" ∨ node = some name := by
  cases node <;> simp [Loopback.names, or_assoc]

theorem loopback_says : Says ((backendGetNodename request).getD "" = "" ∨
    ∃ node ∈ ["localhost", "localhost4", "localhost6"], backendGetNodename request = some node)
    (Loopback.loopbackForward request) := by
  unfold Loopback.loopbackForward
  dsimp only
  by_cases h : ¬ Loopback.names (backendGetNodename request) "localhost4" = true ∧
      ¬ Loopback.names (backendGetNodename request) "localhost6" = true
  · rw [if_pos h]
    refine .failed ?_
    simp only [names_iff, not_or] at h
    rintro (hempty | ⟨node, hmem, hnode⟩)
    · exact h.1.1 hempty
    · simp only [List.mem_cons, List.not_mem_nil, or_false] at hmem
      rcases hmem with rfl | rfl | rfl
      · exact h.1.2.1 hnode
      · exact h.1.2.2 hnode
      · exact h.2.2.2 hnode
  · rw [if_neg h, show ∀ calls : List Call, calls ++ [.setSecure, .finished] =
      (calls ++ [.setSecure]) ++ [.finished] from fun _ => by simp]
    refine .answer ?_ _ fun call hcall => ?_
    · rw [not_and_or, not_not, not_not, names_iff, names_iff] at h
      rcases h with (hempty | hname | hname) | (hempty | hname | hname)
      · exact Or.inl hempty
      · exact Or.inr ⟨_, by simp, hname⟩
      · exact Or.inr ⟨_, by simp, hname⟩
      · exact Or.inl hempty
      · exact Or.inr ⟨_, by simp, hname⟩
      · exact Or.inr ⟨_, by simp, hname⟩
    · simp only [List.mem_append, List.mem_singleton] at hcall
      rcases hcall with ((rfl | hcall) | hcall) | rfl
      · rfl
      · split at hcall
        · rw [List.mem_singleton.mp hcall]; rfl
        · cases hcall
      · split at hcall
        · rw [List.mem_singleton.mp hcall]; rfl
        · cases hcall
      · rfl

theorem numerichost_says : Says (∃ node a, backendGetNodename request = some node ∧
    parseAddress host.lits (some node.toList) = some a ∧ 0 ≤ a.ifindex)
    (Numerichost.queryForward host.lits (backendGetNodename request)) := by
  unfold Numerichost.queryForward
  cases hnode : backendGetNodename request with
  | none => exact .failed (by rintro ⟨node, a, h, -⟩; cases h)
  | some node =>
      rw [Option.map_some]
      cases ha : parseAddress host.lits (some node.toList) with
      | none =>
          refine .failed ?_
          rintro ⟨node', a, h, ha', -⟩
          obtain rfl := Option.some.inj h
          rw [ha] at ha'
          cases ha'
      | some a =>
          dsimp only
          by_cases hifindex : 0 ≤ a.ifindex
          · rw [if_pos hifindex]
            exact .answer ⟨node, a, rfl, ha, hifindex⟩
              [.addPath _, .setCanonicalName node, .setSecure] (by simp [Call.adds])
          · rw [if_neg hifindex]
            refine .failed ?_
            rintro ⟨node', a', h, ha', hifindex'⟩
            obtain rfl := Option.some.inj h
            rw [ha] at ha'
            obtain rfl := Option.some.inj ha'
            exact hifindex hifindex'

/-! ### The hosts file -/

theorem forwardCalls_eq (node : Text) (items : List Hosts.Item) : Hosts.forwardCalls node items =
    ((items.takeWhile (·.name.isSome)).filter (·.name = some node)).map fun item =>
      .addPath item.args := by
  induction items with
  | nil => rfl
  | cons item rest ih =>
      obtain ⟨name, family, address, ifindex⟩ := item
      cases name with
      | none => rfl
      | some name =>
          rw [List.takeWhile_cons_of_pos rfl]
          by_cases heq : node = name
          · subst heq
            rw [List.filter_cons_of_pos (by simp), List.map_cons, ← ih]
            simp [Hosts.forwardCalls]
          · rw [List.filter_cons_of_neg (by simpa using Ne.symm heq), ← ih]
            simp [Hosts.forwardCalls, heq]

/-- A list of calls that ends in success unless it is empty. -/
theorem says_unless_nil {calls : List Call} (hadds : ∀ call ∈ calls, call.adds = true) :
    Says (calls ≠ []) (calls ++ if calls = [] then [.failed] else [.setSecure, .finished]) := by
  by_cases h : calls = []
  · subst h
    exact .failed (by simp)
  · rw [if_neg h, show calls ++ [.setSecure, .finished] = (calls ++ [.setSecure]) ++ [.finished] by
      simp]
    refine .answer h _ fun call hcall => ?_
    rcases List.mem_append.mp hcall with hcall | hcall
    · exact hadds call hcall
    · rw [List.mem_singleton.mp hcall]
      rfl

theorem hostsForward_says : ∃ calls,
    Hosts.queryForward host.lits host.choice host.memory host.fuel host.file
      (backendGetNodename request) = .ok calls ∧
    Says (∃ node, backendGetNodename request = some node ∧
      ∃ item ∈ host.entries, item.name = some node.toList) calls := by
  cases hnode : backendGetNodename request with
  | none => exact ⟨_, rfl, .failed (by rintro ⟨node, h, -⟩; cases h)⟩
  | some node =>
      unfold Hosts.queryForward
      rw [host.read]
      refine ⟨_, rfl, (says_unless_nil fun call hcall => ?_).congr ?_⟩
      · rw [forwardCalls_eq] at hcall
        obtain ⟨item, -, rfl⟩ := List.mem_map.mp hcall
        rfl
      · rw [forwardCalls_eq, ne_eq, List.map_eq_nil_iff, List.filter_eq_nil_iff]
        simp [Host.entries]

theorem hostsReverse_says : ∃ calls,
    Hosts.queryReverse host.lits host.choice host.memory host.fuel host.file request = .ok calls ∧
    Says (∃ item ∈ host.entries, item.family = request.family ∧
      request.address.take (familyToLength request.family) =
        item.address.take (familyToLength request.family)) calls := by
  unfold Hosts.queryReverse
  rw [host.read]
  refine ⟨_, rfl, (says_unless_nil fun call hcall => ?_).congr ?_⟩
  · rw [Hosts.reverseCalls_eq] at hcall
    obtain ⟨name, -, rfl⟩ := List.mem_map.mp hcall
    rfl
  · rw [Hosts.reverseCalls_eq, ne_eq, List.map_eq_nil_iff, Hosts.namesOf,
      List.filterMap_eq_nil_iff]
    constructor
    · intro h
      push Not at h
      obtain ⟨item, hitem, hname⟩ := h
      split at hname
      · rename_i hboth
        exact ⟨item, hitem, hboth.1, hboth.2.symm⟩
      · exact absurd rfl hname
    · rintro ⟨item, hitem, hfamily, haddress⟩ h
      have hnone := h item hitem
      rw [if_pos ⟨hfamily, haddress.symm⟩] at hnone
      have hsome : item.name.isSome = true :=
        List.mem_takeWhile_imp (p := fun item : Hosts.Item => item.name.isSome) hitem
      rw [hnone] at hsome
      cases hsome

/-! ### The other modules -/

theorem hostname_says : Says (backendGetNodename request = some host.hostname ∧
    host.interfaces.isSome = true)
    (Hostname.queryForward host.hostname host.interfaces request) := by
  unfold Hostname.queryForward
  cases hnode : backendGetNodename request with
  | none => exact .failed (by simp)
  | some node =>
      dsimp only
      by_cases hname : node = host.hostname
      · rw [if_neg (not_not.mpr hname)]
        cases hlist : host.interfaces with
        | none => exact .failed (by simp)
        | some list =>
            dsimp only
            rw [show ∀ calls : List Call, calls ++ [.setCanonicalName node, .finished] =
              (calls ++ [.setCanonicalName node]) ++ [.finished] from fun _ => by simp]
            refine .answer ⟨congrArg some hname, rfl⟩ _ fun call hcall => ?_
            rcases List.mem_append.mp hcall with hcall | hcall
            · rw [Hostname.addPaths_eq] at hcall
              obtain ⟨sa, -, rfl⟩ := List.mem_map.mp hcall
              rfl
            · rw [List.mem_singleton.mp hcall]
              rfl
      · rw [if_pos hname]
        exact .failed fun h => hname (Option.some.inj h.1)

theorem anyReverse_says : Says (request.defaultLoopback = false ∧
    Loopback.isAny request.family request.address = true) (Loopback.anyReverse request) := by
  unfold Loopback.anyReverse
  by_cases hd : request.defaultLoopback = true
  · rw [if_pos hd]
    exact .failed (by simp [hd])
  · rw [if_neg hd]
    refine (says_ite [.addNameInfo _, .setSecure] (by simp [Call.adds])).congr ?_
    simp [hd]

theorem loopbackReverse_says : Says (Loopback.isAny request.family request.address = true ∨
    Loopback.isLoopback request.family request.address = true)
    (Loopback.loopbackReverse request) := by
  unfold Loopback.loopbackReverse
  refine (says_ite [.addNameInfo _, .setSecure] (by simp [Call.adds])).congr ?_
  rw [not_and_or, not_not, not_not]

/-- **Each module has an answer exactly to the requests it knows.** -/
theorem module_says (host : Host) (request : Request) {m : Module}
    (h : m.exports request.type = true) :
    ∃ calls, m.setup host request = .ok calls ∧ Says (m.Knows host request) calls := by
  unfold Module.setup Module.Knows
  cases htype : request.type with
  | forward =>
      cases m with
      | unix => exact ⟨_, rfl, unix_says⟩
      | any => exact ⟨_, rfl, any_says⟩
      | loopback => exact ⟨_, rfl, loopback_says⟩
      | numerichost => exact ⟨_, rfl, numerichost_says⟩
      | hosts => exact hostsForward_says
      | hostname => exact ⟨_, rfl, hostname_says⟩
  | reverse =>
      cases m with
      | any => exact ⟨_, rfl, anyReverse_says⟩
      | loopback => exact ⟨_, rfl, loopbackReverse_says⟩
      | hosts => exact hostsReverse_says
      | _ => rw [htype] at h; cases h
  | dns => rw [htype] at h; cases m <;> cases h

end

/-! ### What the host knows -/

/-- The host knows what one of the modules knows. -/
theorem knows_iff (host : Host) (request : Request) : host.Knows request ↔
    ∃ m ∈ modules, m.exports request.type = true ∧ m.Knows host request := by
  constructor
  · rintro (⟨node, htype, hnode, hfamily, hslash⟩ | ⟨htype, hnode⟩ | ⟨node, htype, hnode, hname⟩ |
      ⟨node, a, htype, hnode, hparse, hifindex⟩ | ⟨node, item, htype, hnode, hitem, hname⟩ |
      ⟨htype, hnode, hinterfaces⟩ | ⟨htype, haddress⟩ | ⟨item, htype, hitem, hfamily, haddress⟩)
    · refine ⟨.unix, by decide, by rw [htype]; rfl, ?_⟩
      simp only [Module.Knows, htype]
      exact ⟨hfamily, node, hnode, hslash⟩
    · refine ⟨.loopback, by decide, by rw [htype]; rfl, ?_⟩
      simp only [Module.Knows, htype]
      exact Or.inl hnode
    · refine ⟨.loopback, by decide, by rw [htype]; rfl, ?_⟩
      simp only [Module.Knows, htype]
      exact Or.inr ⟨node, hname, hnode⟩
    · refine ⟨.numerichost, by decide, by rw [htype]; rfl, ?_⟩
      simp only [Module.Knows, htype]
      exact ⟨node, a, hnode, hparse, hifindex⟩
    · refine ⟨.hosts, by decide, by rw [htype]; rfl, ?_⟩
      simp only [Module.Knows, htype]
      exact ⟨node, hnode, item, hitem, hname⟩
    · refine ⟨.hostname, by decide, by rw [htype]; rfl, ?_⟩
      simp only [Module.Knows, htype]
      exact ⟨hnode, hinterfaces⟩
    · refine ⟨.loopback, by decide, by rw [htype]; rfl, ?_⟩
      simp only [Module.Knows, htype]
      exact haddress
    · refine ⟨.hosts, by decide, by rw [htype]; rfl, ?_⟩
      simp only [Module.Knows, htype]
      exact ⟨item, hitem, hfamily, haddress⟩
  · rintro ⟨m, -, -, h⟩
    unfold Module.Knows at h
    cases htype : request.type with
    | forward =>
        rw [htype] at h
        cases m with
        | unix =>
            obtain ⟨hfamily, node, hnode, hslash⟩ := h
            exact .path node htype hnode hfamily hslash
        | any => exact .nobody htype h.2
        | loopback =>
            rcases h with hempty | ⟨node, hname, hnode⟩
            · exact .nobody htype hempty
            · exact .localhost node htype hnode hname
        | numerichost =>
            obtain ⟨node, a, hnode, hparse, hifindex⟩ := h
            exact .literal node a htype hnode hparse hifindex
        | hosts =>
            obtain ⟨node, hnode, item, hitem, hname⟩ := h
            exact .listed node item htype hnode hitem hname
        | hostname => exact .hostname htype h.1 h.2
    | reverse =>
        rw [htype] at h
        cases m with
        | any => exact .localAddress htype (Or.inl h.2)
        | loopback => exact .localAddress htype h
        | hosts =>
            obtain ⟨item, hitem, hfamily, haddress⟩ := h
            exact .listedAddress item htype hitem hfamily haddress
        | _ => exact h.elim
    | dns =>
        rw [htype] at h
        cases m <;> exact h.elim

/-! ### The default backends -/

/-- The answer of a module, if it has one. -/
def Module.reply (host : Host) (request : Request) (m : Module) : Option (List Call) :=
  if m.exports request.type then
    match m.setup host request with
    | .ok calls => replyOf calls
    | .error _ => none
  else none

/-- A query on the backends of the default string, which are those of the host. -/
structure Default (linker : Linker) (variant : Option Dns.Variant) (host : Host) (env : Env)
    (s₀ : St) : Prop where
  fresh : Fresh s₀
  result : s₀.query.request.resultTimeout ≠ 0
  linked : Linked linker
  backends : ∃ loaded, readBackends (setBackendString linker variant none) = some loaded ∧
    s₀.backends.map Backend.shape = loaded.map fun b => (b.mandatory, b.setup linker)
  behaved : env.WellBehaved
  setup : ∀ (i : Nat) (m : Module), modules[i]? = some m → m.exports s₀.query.request.type = true →
    m.setup host s₀.query.request.prepared = .ok (env.setup i)

section

variable {linker : Linker} {variant : Option Dns.Variant} {host : Host} {env : Env} {s₀ s : St}

/-- The groups of the default string: the modules, and what may follow them. -/
theorem groups_default (variant : Option Dns.Variant) : ∃ rest,
    groups (defaultString variant) = (modules.map fun m => [m.name.toList]) ++ rest ∧
      ∀ tokens ∈ rest, tokens.head?.bind List.head? ≠ some '+' := by
  cases variant with
  | none => exact ⟨[["avahi".toList]], by decide +kernel, by decide +kernel⟩
  | some v =>
      cases v with
      | ares =>
          exact ⟨[["avahi".toList], ["aresdns".toList]], by decide +kernel, by decide +kernel⟩
      | unbound =>
          exact ⟨[["avahi".toList], ["ubdns".toList]], by decide +kernel, by decide +kernel⟩

theorem wanted_module (h : Linked linker) {m : Module} (hm : m ∈ modules) :
    ∃ b, wanted linker [m.name.toList] = some b ∧ b.mandatory = false ∧
      b.setup linker = m.exports := by
  obtain ⟨handle, hopen, hsetup⟩ := h m hm
  have hname : m.name.toList ≠ [] ∧ backendName m.name.toList = m.name.toList ∧
      ['+'].isPrefixOf m.name.toList = false := by
    cases m <;> decide +kernel
  refine ⟨⟨false, [m.name.toList], handle⟩, ?_, rfl, funext (hsetup _)⟩
  unfold wanted
  dsimp only
  rw [if_neg hname.1, hname.2.1, hname.2.2, hopen]
  rfl

theorem wanted_mandatory {tokens : List Text} {b : Loaded} (h : wanted linker tokens = some b)
    (hb : b.mandatory = true) : tokens.head?.bind List.head? = some '+' := by
  cases tokens with
  | nil => cases h
  | cons first rest =>
      unfold wanted at h
      dsimp only at h
      split at h
      · cases h
      · obtain ⟨handle, -, rfl⟩ := Option.map_eq_some_iff.mp h
        cases first with
        | nil => cases hb
        | cons c first =>
            have hc : '+' = c := by simpa [List.isPrefixOf] using hb
            rw [← hc]
            rfl

/-- What is installed: the modules first, and nothing that is mandatory. -/
theorem installed_default (h : Linked linker) (variant : Option Dns.Variant) : ∃ loaded more,
    readBackends (setBackendString linker variant none) = some (loaded ++ more) ∧
    List.Forall₂ (fun (b : Loaded) (m : Module) => b.setup linker = m.exports) loaded modules ∧
    ∀ b ∈ loaded ++ more, b.mandatory = false := by
  obtain ⟨rest, hgroups, hplain⟩ := groups_default variant
  have hne : defaultString variant ≠ [] := by
    intro hnil
    rw [hnil] at hgroups
    exact absurd hgroups (by simp [groups, modules])
  have hread : readBackends (setBackendString linker variant none) =
      some ((groups (defaultString variant)).filterMap (wanted linker)) :=
    (installs linker variant hne).backends
  have hload : ∀ ms : List Module, (∀ m ∈ ms, m ∈ modules) → ∃ loaded : List Loaded,
      (ms.map fun m => [m.name.toList]).filterMap (wanted linker) = loaded ∧
      List.Forall₂ (fun (b : Loaded) (m : Module) => b.mandatory = false ∧
        b.setup linker = m.exports) loaded ms := by
    intro ms
    induction ms with
    | nil => intro _; exact ⟨[], rfl, .nil⟩
    | cons m ms ih =>
        intro hms
        obtain ⟨b, hb, hentry⟩ := wanted_module h (hms m List.mem_cons_self)
        obtain ⟨loaded, hloaded, hall⟩ := ih fun m' hm' => hms m' (List.mem_cons_of_mem _ hm')
        refine ⟨b :: loaded, ?_, .cons hentry hall⟩
        rw [List.map_cons, List.filterMap_cons_some hb, hloaded]
  obtain ⟨loaded, hloaded, hall⟩ := hload modules fun _ hm => hm
  refine ⟨loaded, rest.filterMap (wanted linker), ?_, hall.imp fun _ _ hb => hb.2, fun b hb => ?_⟩
  · rw [hread, hgroups, List.filterMap_append, hloaded]
  · rcases List.mem_append.mp hb with hb | hb
    · obtain ⟨i, hi, rfl⟩ := List.getElem_of_mem hb
      exact (hall.get hi (by rw [← hall.length_eq]; exact hi)).1
    · obtain ⟨tokens, htokens, hwanted⟩ := List.mem_filterMap.mp hb
      have hmark := mt (wanted_mandatory hwanted) (hplain tokens htokens)
      simpa using hmark

/-- The entries of the list: the modules first, and nothing that is mandatory. -/
theorem Default.entries (h : Default linker variant host env s₀) :
    (∀ b ∈ s₀.backends, b.mandatory = false) ∧ modules.length ≤ s₀.backends.length ∧
      ∀ (i : Nat) (m : Module) (b : Backend), modules[i]? = some m → s₀.backends[i]? = some b →
        b.setup = m.exports := by
  obtain ⟨loaded, more, hread, hall, hno⟩ := installed_default h.linked variant
  obtain ⟨loaded', hread', hshape⟩ := h.backends
  obtain rfl : loaded ++ more = loaded' := Option.some.inj (hread.symm.trans hread')
  have hlength : s₀.backends.length = (loaded ++ more).length := by
    simpa using congrArg List.length hshape
  have hloaded : loaded.length = modules.length := hall.length_eq
  refine ⟨fun b hb => ?_, ?_, fun i m b hm hb => ?_⟩
  · have hmem : b.shape ∈ s₀.backends.map Backend.shape := List.mem_map_of_mem hb
    rw [hshape] at hmem
    obtain ⟨b', hb', heq⟩ := List.mem_map.mp hmem
    exact (congrArg Prod.fst heq).symm.trans (hno b' hb')
  · rw [hlength, List.length_append, hloaded]
    exact Nat.le_add_right _ _
  · obtain ⟨hi, rfl⟩ := List.getElem?_eq_some_iff.mp hm
    have hi' : i < loaded.length := by rw [hloaded]; exact hi
    have hat : (s₀.backends.map Backend.shape)[i]? = some b.shape := by
      rw [List.getElem?_map, hb]
      rfl
    rw [hshape, List.getElem?_map, List.getElem?_append_left hi',
      List.getElem?_eq_getElem hi'] at hat
    have hsetup : loaded[i].setup linker = b.setup :=
      congrArg Prod.snd (Option.some.inj hat)
    exact hsetup.symm.trans (hall.get hi' hi)

theorem prepared_type (request : Request) : request.prepared.type = request.type := rfl

/-- **The modules are a row of backends that answer at once.** -/
theorem Default.immediate (h : Default linker variant host env s₀) :
    Immediate env s₀.query.request.type s₀.backends
      (modules.map (Module.reply host s₀.query.request.prepared)) := by
  obtain ⟨-, hlength, hentry⟩ := h.entries
  have hreply : ∀ {i : Nat} {reply},
      (modules.map (Module.reply host s₀.query.request.prepared))[i]? = some reply →
      ∃ m : Module, modules[i]? = some m ∧ m.reply host s₀.query.request.prepared = reply := by
    intro i reply hget
    rw [List.getElem?_map] at hget
    exact Option.map_eq_some_iff.mp hget
  refine ⟨by simpa using hlength, fun i b reply hb hsetup hget => ?_,
    fun i b reply hb hsetup hget => ?_, fun writes hmem => ?_⟩
  · obtain ⟨m, hm, rfl⟩ := hreply hget
    have hno : m.exports s₀.query.request.type = false := by rw [← hentry i m b hm hb]; exact hsetup
    unfold Module.reply
    rw [prepared_type, if_neg (by rw [hno]; decide)]
  · obtain ⟨m, hm, rfl⟩ := hreply hget
    have hyes : m.exports s₀.query.request.type = true := by rw [← hentry i m b hm hb]; exact hsetup
    obtain ⟨calls, hcalls, hsays⟩ := module_says host s₀.query.request.prepared hyes
    have henv := h.setup i m hm hyes
    rw [hcalls] at henv
    obtain rfl : calls = env.setup i := Except.ok.inj henv
    unfold Module.reply
    rw [prepared_type, if_pos hyes, hcalls]
    exact hsays.reply.1.symm
  · obtain ⟨m, -, hm⟩ := List.mem_map.mp hmem
    unfold Module.reply at hm
    split at hm
    · rename_i hyes
      obtain ⟨calls, hcalls, hsays⟩ := module_says host s₀.query.request.prepared hyes
      rw [hcalls] at hm
      exact hsays.reply.2.2 writes hm
    · cases hm

theorem reply_eq_none_iff (host : Host) (request : Request) (m : Module) :
    m.reply host request = none ↔ ¬ (m.exports request.type = true ∧ m.Knows host request) := by
  unfold Module.reply
  split
  · rename_i hyes
    obtain ⟨calls, hcalls, hsays⟩ := module_says host request hyes
    rw [hcalls]
    simpa [hyes] using hsays.reply.2.1
  · simp_all

/-- No module has an answer exactly if the host does not know one. -/
theorem no_reply_iff (host : Host) (request : Request) :
    firstReply 0 (modules.map (Module.reply host request)) = none ↔ ¬ host.Knows request := by
  rw [firstReply_eq_none_iff, knows_iff]
  simp only [List.mem_map, forall_exists_index, and_imp, forall_apply_eq_imp_iff₂, not_exists,
    not_and]
  exact forall₂_congr fun m _ => by rw [reply_eq_none_iff, not_and]

/-- Setting a backend up changes nothing that the host looks at. -/
theorem knows_prepared (host : Host) (request : Request) :
    host.Knows request.prepared ↔ host.Knows request := by
  rw [knows_iff, knows_iff]
  exact Iff.rfl

/-! ### Whole runs -/

/--
**Somebody else is asked exactly if the host does not know.**  In no run is a backend behind the
modules set up for a request that the host can answer, and in every run one is for any other.
-/
theorem asked_iff (h : Default linker variant host env s₀)
    (hmore : modules.length < s₀.backends.length) (hrun : Reachable (· = env) Orderly s₀ s) :
    (∃ j, modules.length ≤ j ∧ Entered .setup j s.trace) ↔ ¬ host.Knows s₀.query.request := by
  obtain ⟨hno, -, -⟩ := h.entries
  have hlength : (modules.map (Module.reply host s₀.query.request.prepared)).length =
      modules.length := List.length_map _
  rw [← knows_prepared, ← no_reply_iff]
  constructor
  · rintro ⟨j, hj, r, hr⟩
    cases hfirst : firstReply 0 (modules.map (Module.reply host s₀.query.request.prepared)) with
    | none => rfl
    | some answer =>
        obtain ⟨i, writes⟩ := answer
        have hi := firstReply_lt hfirst
        rw [hlength, Nat.zero_add] at hi
        have hanswered := hrun.rowAnswered h.fresh hno h.result h.behaved h.immediate hfirst
        have := hanswered.setups j r hr
        omega
  · intro hfirst
    cases hrun.rowUnanswered h.fresh hno h.result h.behaved h.immediate hfirst with
    | passed _ hs => exact ⟨_, Nat.le_of_eq hlength.symm, {}, hs⟩
    | failed heq _ =>
        rw [hlength] at heq
        omega

/-- The names of the local host. -/
def localNames : List String := ["localhost", "localhost4", "localhost6"]

/-- The addresses that a name of the local host has, if the family is the one asked for. -/
def localAddresses (request : Request) (node : String) : List (List UInt8) :=
  (if node ≠ "localhost6" ∧ (request.family = AF_UNSPEC ∨ request.family = AF_INET) then
    [Loopback.inaddrLoopback] else []) ++
  (if node ≠ "localhost4" ∧ (request.family = AF_UNSPEC ∨ request.family = AF_INET6) then
    [Loopback.in6addrLoopback] else [])

/-- The calls of `backends/loopback.c` for a name of the local host. -/
def localCalls (node : String) : List Call :=
  [.setCanonicalName "localhost"] ++
    (if node ≠ "localhost6" then
      [.addPath { family := AF_INET, address := Loopback.inaddrLoopback }] else []) ++
    (if node ≠ "localhost4" then
      [.addPath { family := AF_INET6, address := Loopback.in6addrLoopback }] else []) ++
    [.setSecure]

/-- The modules in front of `loopback` have no answer to a name of the local host. -/
theorem firstReply_localhost {request : Request} {node : String} (htype : request.type = .forward)
    (hnode : backendGetNodename request = some node) (hname : node ∈ localNames) :
    firstReply 0 (modules.map (Module.reply host request)) = some (2, localCalls node) := by
  have hplain : node ≠ "" ∧ node.toList.head? ≠ some '/' := by
    simp only [localNames, List.mem_cons, List.not_mem_nil, or_false] at hname
    rcases hname with rfl | rfl | rfl <;> decide +kernel
  have hunix : Module.reply host request .unix = none := by
    rw [reply_eq_none_iff]
    simp only [Module.Knows, htype, not_and]
    rintro - - ⟨node', hnode', hslash⟩
    obtain rfl := Option.some.inj (hnode.symm.trans hnode')
    exact hplain.2 hslash
  have hany : Module.reply host request .any = none := by
    rw [reply_eq_none_iff]
    simp only [Module.Knows, htype, hnode, Option.getD_some, not_and]
    exact fun _ _ => hplain.1
  have hloopback : Module.reply host request .loopback = some (localCalls node) := by
    have hcalls : Loopback.loopbackForward request = localCalls node ++ [.finished] := by
      unfold Loopback.loopbackForward
      rw [hnode]
      simp only [localNames, List.mem_cons, List.not_mem_nil, or_false] at hname
      rcases hname with rfl | rfl | rfl <;> decide +kernel
    unfold Module.reply
    simp only [Module.exports, Module.setup, htype, if_true, hcalls]
    exact replyOf_concat _
  have hbefore : ∀ m, m < 2 →
      (modules.map (Module.reply host request))[m]? = some (none : Option (List Call)) := by
    intro m hm
    obtain rfl | rfl : m = 0 ∨ m = 1 := by omega
    · exact congrArg some hunix
    · exact congrArg some hany
  exact firstReply_some _ 0 2 _ hbefore (congrArg some hloopback)

theorem localCalls_adds (node : String) : ∀ call ∈ localCalls node, call.adds = true := by
  intro call hcall
  simp only [localCalls, List.mem_append, List.mem_singleton] at hcall
  rcases hcall with ((rfl | hcall) | hcall) | rfl
  · rfl
  · split at hcall
    · rw [List.mem_singleton.mp hcall]; rfl
    · cases hcall
  · split at hcall
    · rw [List.mem_singleton.mp hcall]; rfl
    · cases hcall
  · rfl

/-- The addresses of the records of one address. -/
theorem pathsOf_addresses (services : List Service) {request : Request} {family : Int}
    {address : List UInt8} (hfamily : family = AF_INET ∨ family = AF_INET6)
    (hlength : address.length = familyToLength family) (hservname : request.servname = none) :
    (pathsOf services request { family, address }).map (·.address) =
      if request.family = AF_UNSPEC ∨ request.family = family then [address] else [] := by
  split
  · rename_i hrequest
    rw [Nss.pathsOf_ip hfamily hrequest.symm]
    unfold servicePaths
    dsimp only
    rw [if_neg (by rw [hservname]; exact fun h => Bool.false_ne_true h.1), List.map_singleton]
    have hne : familyToLength family ≠ 0 := by rcases hfamily with rfl | rfl <;> decide
    unfold pathAddress
    rw [if_pos hne, ← hlength, List.take_length]
  · rename_i hrequest
    unfold pathsOf
    rw [if_pos (not_or.mp hrequest)]
    rfl

/-- What a name of the local host is answered with. -/
theorem written_localhost (env : Env) (request : Request) {node : String}
    (hname : node ∈ localNames) :
    let r := written env request 2 (localCalls node) {}
    r.security = .secure ∧ r.nodename = some ⟨"localhost", 2⟩ ∧
      (∀ p ∈ r.paths, p.value.family = AF_INET ∧ p.value.address = Loopback.inaddrLoopback ∨
        p.value.family = AF_INET6 ∧ p.value.address = Loopback.in6addrLoopback) ∧
      (request.servname = none →
        (r.paths.map (·.value.address)).Perm (localAddresses request node)) := by
  intro r
  have hargs : (localCalls node).filterMap Call.path? =
      (if node ≠ "localhost6" then [{ family := AF_INET, address := Loopback.inaddrLoopback }]
        else []) ++
      (if node ≠ "localhost4" then [{ family := AF_INET6, address := Loopback.in6addrLoopback }]
        else []) := by
    simp only [localNames, List.mem_cons, List.not_mem_nil, or_false] at hname
    rcases hname with rfl | rfl | rfl <;> decide +kernel
  have hperm : r.paths.Perm ((((localCalls node).filterMap Call.path?).flatMap
      (pathsOf env.services request)).map fun path => ⟨checkReachability env path, 2⟩) := by
    have hpaths := written_paths env request 2 (localCalls node) {} (localCalls_adds node)
    rw [hpaths]
    exact storedPaths_perm env 2 request (localCalls node) []
  refine ⟨?_, ?_, fun p hp => ?_, fun hservname => ?_⟩
  · simp only [r, written, localCalls, List.foldl_append]
    rfl
  · simp only [localNames, List.mem_cons, List.not_mem_nil, or_false] at hname
    rcases hname with rfl | rfl | rfl <;> simp [r, written, localCalls, Call.onto]
  · obtain ⟨path, hpath, rfl⟩ := List.mem_map.mp (hperm.mem_iff.mp hp)
    obtain ⟨a, ha, hmem⟩ := List.mem_flatMap.mp hpath
    rw [hargs] at ha
    rw [checkReachability_family, checkReachability_address]
    rcases List.mem_append.mp ha with ha | ha
    · split at ha
      · obtain rfl := List.mem_singleton.mp ha
        have h := Nss.pathsOf_ip_path (Or.inl rfl) rfl path hmem
        exact Or.inl ⟨h.1, h.2.1⟩
      · cases ha
    · split at ha
      · obtain rfl := List.mem_singleton.mp ha
        have h := Nss.pathsOf_ip_path (Or.inr rfl) rfl path hmem
        exact Or.inr ⟨h.1, h.2.1⟩
      · cases ha
  · refine (hperm.map (·.value.address)).trans (List.Perm.of_eq ?_)
    have haddress : ((fun p : Sourced Path => p.value.address) ∘
        fun path => ⟨checkReachability env path, 2⟩) = fun path => path.address :=
      funext fun path => checkReachability_address path
    have hinet := pathsOf_addresses env.services (Or.inl rfl)
      (show Loopback.inaddrLoopback.length = _ from rfl) hservname
    have hinet6 := pathsOf_addresses env.services (Or.inr rfl)
      (show Loopback.in6addrLoopback.length = _ from rfl) hservname
    rw [List.map_map, haddress, hargs, List.flatMap_append, List.map_append]
    unfold localAddresses
    congr 1
    · by_cases h : node = "localhost6"
      · simp [h]
      · simp only [ne_eq, h, not_false_eq_true, if_true, true_and, List.flatMap_singleton, hinet]
    · by_cases h : node = "localhost4"
      · simp [h]
      · simp only [ne_eq, h, not_false_eq_true, if_true, true_and, List.flatMap_singleton, hinet6]

/--
**The names of the local host are the host's own.**  Whatever the hosts file, the interfaces and the
backends behind them have to say, a query for such a name ends with the loopback addresses of the
family asked for and nothing else, as a secure answer, and neither the hosts file nor anybody else
is asked.
-/
theorem localhost_is_local (h : Default linker variant host env s₀) {node : String}
    (htype : s₀.query.request.type = .forward)
    (hnode : backendGetNodename s₀.query.request = some node) (hname : node ∈ localNames)
    (hrun : Reachable (· = env) Orderly s₀ s) : ∃ r : Response,
    Answered 2 s₀.backends.length r s ∧ r.security = .secure ∧
    r.nodename = some ⟨"localhost", 2⟩ ∧
    (∀ p ∈ r.paths, p.value.family = AF_INET ∧ p.value.address = Loopback.inaddrLoopback ∨
      p.value.family = AF_INET6 ∧ p.value.address = Loopback.in6addrLoopback) ∧
    (s₀.query.request.servname = none →
      (r.paths.map (·.value.address)).Perm (localAddresses s₀.query.request node)) := by
  obtain ⟨hno, -, -⟩ := h.entries
  have hfirst : firstReply 0 (modules.map (Module.reply host s₀.query.request.prepared)) =
      some (2, localCalls node) := firstReply_localhost htype hnode hname
  exact ⟨_, hrun.rowAnswered h.fresh hno h.result h.behaved h.immediate hfirst,
    written_localhost env s₀.query.request.prepared hname⟩

end

/-! ### A host with nothing in its files -/

/-- A linker that finds the modules and the DNS backend. -/
def allModules : Linker where
  dlopen file := ((modules.map Module.name) ++ ["aresdns"]).findIdx? fun name =>
    filename name.toList = file
  dlsym handle function :=
    match modules[handle]? with
    | none => true
    | some m => m.exports (if function = "query_forward" then .forward
        else if function = "query_reverse" then .reverse else .dns)

def emptyHost : Host where
  lits := ⟨fun _ _ => none, fun _ => 0⟩
  choice _ := 0
  memory := []
  fuel := 0
  file := none
  items := [Hosts.terminator]
  read := rfl
  hostname := "host"
  interfaces := none

/-- A forward query on the default backends. -/
def nodeQuery (node : String) : St where
  query := { id := 0, request := { nodename := some node } }
  backends := (modules.map fun m => { setup := m.exports }) ++ [{}]

/-- The DNS backend waits for an answer. -/
def nodeEnv (node : String) : Env where
  setup i :=
    match modules[i]? with
    | none => [.newPriv true, .watchAdd 5]
    | some m =>
        match m.setup emptyHost { nodename := some node } with
        | .ok calls => calls
        | .error _ => []

theorem nodeQuery_fresh (node : String) : Fresh (nodeQuery node) := by
  refine ⟨⟨rfl, rfl, rfl, rfl, fun t => by cases t <;> rfl, rfl, rfl, fun b hb => ?_⟩, rfl, rfl⟩
  rcases List.mem_append.mp hb with hb | hb
  · obtain ⟨m, -, rfl⟩ := List.mem_map.mp hb
    rfl
  · rw [List.mem_singleton.mp hb]

theorem keepsWatches_adds {writes : List Call} (h : ∀ call ∈ writes, call.adds = true) :
    keepsWatches false (writes ++ [.finished]) = true := by
  induction writes with
  | nil => rfl
  | cons call rest ih =>
      have hrest := ih fun c hc => h c (List.mem_cons_of_mem _ hc)
      have hcall := h call List.mem_cons_self
      cases call <;> first | exact hrest | cases hcall

theorem nodeEnv_wellBehaved (node : String) : (nodeEnv node).WellBehaved := by
  refine ⟨fun i => ?_, fun _ => rfl⟩
  simp only [nodeEnv]
  cases hm : modules[i]? with
  | none => rfl
  | some m =>
      obtain ⟨calls, hcalls, hsays⟩ := module_says emptyHost { nodename := some node }
        (show m.exports .forward = true by cases m <;> rfl)
      dsimp only
      rw [hcalls]
      cases hsays with
      | failed => rfl
      | answer _ _ hadds => exact keepsWatches_adds hadds

/-- What the linker finds in a module. -/
theorem allModules_setup {handle : Nat} {m : Module} (h : modules[handle]? = some m)
    (settings : List Text) : Loaded.setup allModules ⟨false, settings, handle⟩ = m.exports := by
  have hsym : ∀ function, allModules.dlsym handle function =
      m.exports (if function = "query_forward" then .forward
        else if function = "query_reverse" then .reverse else .dns) := by
    intro function
    unfold allModules
    dsimp only
    rw [h]
  funext type
  cases type with
  | forward => exact (hsym _).trans (by rw [if_pos rfl])
  | reverse => exact (hsym _).trans (by rw [if_neg (by decide), if_pos rfl])
  | dns => exact (hsym _).trans (by rw [if_neg (by decide), if_neg (by decide)])

theorem allModules_linked : Linked allModules := by
  intro m hm
  have hhandle : ∃ handle, allModules.dlopen (filename m.name.toList) = some handle ∧
      modules[handle]? = some m := by
    cases m
    · exact ⟨0, by decide +kernel, rfl⟩
    · exact ⟨1, by decide +kernel, rfl⟩
    · exact ⟨2, by decide +kernel, rfl⟩
    · exact ⟨3, by decide +kernel, rfl⟩
    · exact ⟨4, by decide +kernel, rfl⟩
    · exact ⟨5, by decide +kernel, rfl⟩
  obtain ⟨handle, hopen, hmodule⟩ := hhandle
  exact ⟨handle, hopen, fun settings type => congrFun (allModules_setup hmodule settings) type⟩

/-- What is installed for the default string. -/
theorem allModules_installed :
    readBackends (setBackendString allModules (some .ares) none) =
      some (modules.mapIdx (fun i m => ⟨false, [m.name.toList], i⟩) ++
        [⟨false, ["aresdns".toList], 6⟩]) := by
  decide +kernel

theorem nodeQuery_default (node : String) :
    Default allModules (some .ares) emptyHost (nodeEnv node) (nodeQuery node) where
  fresh := nodeQuery_fresh node
  result := by simp [nodeQuery]
  linked := allModules_linked
  backends := by
    refine ⟨_, allModules_installed, ?_⟩
    have hlast : Loaded.setup allModules ⟨false, ["aresdns".toList], 6⟩ = fun _ => true := by
      funext type
      cases type <;> rfl
    have hmodules : (modules.map fun m => (false, m.exports)) =
        (modules.mapIdx fun i m => (⟨false, [m.name.toList], i⟩ : Loaded)).map
          fun b => (b.mandatory, b.setup allModules) := by
      refine List.ext_getElem? fun i => ?_
      rw [List.getElem?_map, List.getElem?_map, List.getElem?_mapIdx]
      cases hm : modules[i]? with
      | none => rfl
      | some m => simp only [Option.map_some, allModules_setup hm]
    rw [List.map_append, ← hmodules, List.map_singleton, hlast]
    simp [nodeQuery, Backend.shape, Function.comp_def]
  behaved := nodeEnv_wellBehaved node
  setup i m hm hexports := by
    obtain ⟨calls, hcalls, -⟩ := module_says emptyHost { nodename := some node } hexports
    simp only [nodeEnv, hm]
    have hcalls' : m.setup emptyHost { nodename := some node } = .ok calls := hcalls
    rw [hcalls']
    exact hcalls

/-- Nobody here knows the name, and the DNS backend is set up. -/
theorem asked_iff_unknown : ∃ s,
    Reachable (· = nodeEnv "example.org") Orderly (nodeQuery "example.org") s ∧
    Entered .setup 6 s.trace ∧ ¬ emptyHost.Knows (nodeQuery "example.org").query.request := by
  obtain ⟨s, hplay, hentered⟩ := peek_some (show peek
    (fun s => decide (Obs.enter .setup 6 {} ∈ s.trace)) (play (nodeEnv "example.org") [])
      (nodeQuery "example.org") = some true by decide +kernel)
  have hrun : Reachable (· = nodeEnv "example.org") Orderly (nodeQuery "example.org") s :=
    Reachable.play rfl (fun _ _ => nodeEnv_wellBehaved _) hplay
  have hsetup : Entered .setup 6 s.trace := ⟨{}, of_decide_eq_true hentered⟩
  exact ⟨s, hrun, hsetup, (asked_iff (nodeQuery_default "example.org") (by decide) hrun).mp
    ⟨6, by decide, hsetup⟩⟩

/-- The name of the local host, once its timer has expired. -/
theorem localhost_is_local_ended : ∃ s r,
    Reachable (· = nodeEnv "localhost") Orderly (nodeQuery "localhost") s ∧
    s.query.state = .done ∧ Answered 2 7 r s ∧
    (r.paths.map (·.value.address)).Perm [Loopback.inaddrLoopback, Loopback.in6addrLoopback] := by
  obtain ⟨s, hplay, hstate⟩ := peek_some (show peek (·.query.state)
    (play (nodeEnv "localhost") [1]) (nodeQuery "localhost") = some .done by decide +kernel)
  have hrun : Reachable (· = nodeEnv "localhost") Orderly (nodeQuery "localhost") s :=
    Reachable.play rfl (fun _ _ => nodeEnv_wellBehaved _) hplay
  obtain ⟨r, hanswered, -, -, -, haddresses⟩ := localhost_is_local (nodeQuery_default "localhost")
    rfl rfl (by decide +kernel) hrun
  exact ⟨s, r, hrun, hstate, hanswered, haddresses rfl⟩

end Netresolve.Defaults
