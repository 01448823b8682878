/-
The order of the answers does not matter to `aresdns`.

The lookups of a query form a tree, whose branches an SRV answer adds, and c-ares may answer
them in any order that keeps a branch behind its parent, grouped into dispatches as it likes.
Each answer raises or lowers flags and adds paths, and neither depends on what came before,
so all that a run comes to is a sum over the lookups answered.  By `Frontier` these are the
same in every complete run.

What is fixed for a run is the answer to each lookup, by its place in the tree, and that the
allocator has memory for the SRV targets.
-/
import Netresolve.Proofs.Verdict
import Netresolve.Proofs.Calls
import Netresolve.Library.Frontier
import Mathlib.Data.Multiset.Bind

namespace Netresolve.Dns

open Outcome

/-! ### The tree of lookups -/

/-- A lookup with its place: the numbers of the branches that lead to it. -/
structure Node where
  place : List Nat
  lookup : Lookup
  deriving DecidableEq, Repr

/-- The lookups as branches of a place. -/
def branches (place : List Nat) (lookups : List Lookup) : List Node :=
  lookups.zipIdx.map fun l => ⟨place ++ [l.2], l.1⟩

theorem branches_lookups (place : List Nat) (lookups : List Lookup) :
    (branches place lookups).map (·.lookup) = lookups := by
  unfold branches
  rw [List.map_map]
  exact List.zipIdx_map_fst 0 lookups

section

variable (libs : Libs) (p₀ : PrivDns) (answers : List Nat → Answer)

/-- What the answer fixed for the lookup does, when `p₀` is the private data after set-up. -/
def Node.effect (node : Node) : Effect :=
  callbackEffect libs .ares p₀ node.lookup.srv (answers node.place)

/-- The lookups that answer leads to. -/
def Node.children (node : Node) : List Node :=
  branches node.place (node.effect libs p₀ answers).spawned

/-- One completion, of a lookup that gets the answer fixed for it. -/
def deliver (nodes : List Node) (completion : Nat × Answer) : Option (List Node) :=
  match nodes[completion.1]? with
  | none => some nodes
  | some node =>
      if completion.2 = answers node.place then
        some (nodes.eraseIdx completion.1 ++ node.children libs p₀ answers)
      else none

/-- The lookups that are left after some rounds, if each got the answer fixed for it. -/
def delivered (rounds : List Round) : Option (List Node) :=
  (rounds.flatMap (·.completions)).foldlM (deliver libs p₀ answers) (branches [] p₀.lookups)

end

/-! ### Effects that depend on nothing -/

variable {libs : Libs} {settings : List String} {request : Request} {p p' p₀ : PrivDns}
variable {answers : List Nat → Answer}

theorem recordsEffect_same (hcalloc : ∀ n, libs.calloc n = true) (family protocol : Int)
    (srv : PrivSrv) (records : List Record) : ∀ m n,
    recordsEffect libs family protocol srv m records =
      recordsEffect libs family protocol srv n records := by
  have hrecord : ∀ m n record, recordEffect libs family protocol srv m record =
      recordEffect libs family protocol srv n record := by
    intro m n record
    cases record with
    | srv priority weight port name => simp only [recordEffect, hcalloc, if_true]
    | _ => rfl
  induction records with
  | nil => exact fun _ _ => rfl
  | cons record rest ih =>
      intro m n
      rw [recordsEffect, recordsEffect, hrecord m n, ih]

theorem callbackEffect_settled (hcalloc : ∀ n, libs.calloc n = true) (h : Settled p₀ p)
    (srv : PrivSrv) (a : Answer) :
    callbackEffect libs .ares p srv a = callbackEffect libs .ares p₀ srv a := by
  have hanswer : answerEffect libs .ares p srv a.data = answerEffect libs .ares p₀ srv a.data := by
    unfold answerEffect packetEffect
    rw [h.type, h.validate, h.family, h.protocol, h.srv]
    simp only [recordsEffect_same hcalloc p₀.family p₀.protocol srv _ p.targets p₀.targets]
  unfold callbackEffect
  rw [hanswer]

theorem settled_trans {p₁ p₂ p₃ : PrivDns} (h : Settled p₁ p₂) (h' : Settled p₂ p₃) :
    Settled p₁ p₃ :=
  ⟨h'.family.trans h.family, h'.protocol.trans h.protocol, h'.srv.trans h.srv,
    h'.type.trans h.type, h'.validate.trans h.validate⟩

/-- The calls an answer leads to while there is memory. -/
def plain : Call → Bool
  | .addPath _ | .addNameInfo _ | .setDnsAnswer _ => true
  | _ => false

theorem plain_cases {call : Call} (h : plain call = true) :
    call.reports = false ∧ call ≠ .setSecure ∧ ∀ allocated, call ≠ .newPriv allocated := by
  cases call <;> first | (simp [plain] at h; done) | exact ⟨rfl, by simp, by simp⟩

theorem callbackEffect_plain (hcalloc : ∀ n, libs.calloc n = true) (v : Variant) (p : PrivDns)
    (srv : PrivSrv) (a : Answer) : ∀ call ∈ (callbackEffect libs v p srv a).calls,
      plain call = true := by
  have hnothing : ∀ call ∈ ([] : List Call), plain call = true :=
    fun _ hcall => absurd hcall List.not_mem_nil
  refine callbackEffect_rule (X := fun e => ∀ call ∈ e.calls, plain call = true) p srv a
    (fun _ _ => hnothing) (fun _ _ he => he) hnothing ?_ fun records => ?_
  · intro _ call hcall
    rw [List.mem_singleton.mp hcall]
    rfl
  · refine recordsEffect_rule (X := fun e => ∀ call ∈ e.calls, plain call = true) hnothing
      (fun e f he hf call hcall => ?_) (fun n record call hcall => ?_) records _
    · exact (List.mem_append.mp hcall).elim (he call) (hf call)
    · cases record with
      | srv priority weight port name =>
          simp only [recordEffect, hcalloc, if_true] at hcall
          rw [List.mem_singleton.mp hcall]
          rfl
      | other type => exact absurd hcall List.not_mem_nil
      | _ => rw [List.mem_singleton.mp hcall]; rfl

/-! ### What has been answered so far -/

/-- The flags and the paths are the sum of the effects of the lookups answered. -/
structure Sums (libs : Libs) (p₀ : PrivDns) (answers : List Nat → Answer)
    (visited : Multiset Node) (new : List Call) (p : PrivDns) : Prop where
  failed : p.failed = true ↔
    p₀.failed = true ∨ ∃ x ∈ visited, (x.effect libs p₀ answers).failed = true
  answered : p.answered = true ↔
    p₀.answered = true ∨ ∃ x ∈ visited, (x.effect libs p₀ answers).answered = true
  secure : p.secure = true ↔
    p₀.secure = true ∧ ∀ x ∈ visited, (x.effect libs p₀ answers).secure = true
  paths : (new.filterMap Call.path? : Multiset PathArgs) =
    visited.bind fun x => ((x.effect libs p₀ answers).calls.filterMap Call.path? : List PathArgs)

/--
The dispatches have made the calls `new`, and the lookups `nodes` are left.  Whatever way
these are answered completes a walk over all lookups.
-/
structure Walked (libs : Libs) (p₀ : PrivDns) (answers : List Nat → Answer) (nodes : List Node)
    (new : List Call) (p : PrivDns) : Prop where
  lookups : p.lookups = nodes.map (·.lookup)
  balanced : Balanced p
  settled : Settled p₀ p
  calls : p.calls.map (·.2) = p₀.calls.map (·.2) ++ new
  said : ∀ call ∈ new, call.reports = true ∨ call = .setSecure → nodes = [] ∧ call ∈ p.verdict
  alloc : ∀ call ∈ new, ∀ allocated, call ≠ .newPriv allocated
  visited : ∃ visited : Multiset Node,
    (∀ later, Frontier.Walk (fun x => (x.children libs p₀ answers : Multiset Node)) nodes later →
      Frontier.Walk (fun x => (x.children libs p₀ answers : Multiset Node))
        (branches [] p₀.lookups) (visited + later)) ∧
    Sums libs p₀ answers visited new p

theorem verdict_cases {p : PrivDns} {call : Call} (h : call ∈ p.verdict) :
    call = .setSecure ∨ call = .failed ∨ call = .finished := by
  unfold PrivDns.verdict at h
  rcases List.mem_append.mp h with h | h
  · split at h
    · exact Or.inl (List.mem_singleton.mp h)
    · cases h
  · rw [List.mem_singleton.mp h]
    split
    · exact Or.inr (Or.inl rfl)
    · exact Or.inr (Or.inr rfl)

theorem verdict_paths (p : PrivDns) : p.verdict.filterMap Call.path? = [] := by
  rw [List.filterMap_eq_nil_iff]
  intro call hcall
  rcases verdict_cases hcall with rfl | rfl | rfl <;> rfl

theorem verdict_alloc (p : PrivDns) : ∀ call ∈ p.verdict, ∀ allocated, call ≠ .newPriv allocated := by
  intro call hcall allocated
  rcases verdict_cases hcall with rfl | rfl | rfl <;> exact nofun

/-- The set-up is done and no lookup has been answered. -/
theorem Walked.start (h : Balanced p₀) :
    Walked libs p₀ answers (branches [] p₀.lookups) [] p₀ where
  lookups := (branches_lookups [] p₀.lookups).symm
  balanced := h
  settled := ⟨rfl, rfl, rfl, rfl, rfl⟩
  calls := (List.append_nil _).symm
  said _ hcall := absurd hcall List.not_mem_nil
  alloc _ hcall := absurd hcall List.not_mem_nil
  visited := by
    refine ⟨0, fun later h => by rw [Multiset.zero_add]; exact h, ?_, ?_, ?_, ?_⟩
    · simp
    · simp
    · simp
    · simp

/-- Nothing but calls that are no reports and add no paths has been added. -/
theorem Walked.called {nodes : List Node} {new more : List Call}
    (h : Walked libs p₀ answers nodes new p) (hlookups : p'.lookups = p.lookups)
    (hbalanced : Balanced p') (hsettled : Settled p p')
    (hcalls : p'.calls.map (·.2) = p.calls.map (·.2) ++ more)
    (hflags : p'.failed = p.failed ∧ p'.answered = p.answered ∧ p'.secure = p.secure)
    (hmore : ∀ call ∈ more, call.path? = none ∧ (∀ allocated, call ≠ .newPriv allocated) ∧
      (call.reports = true ∨ call = .setSecure → nodes = [] ∧ call ∈ p.verdict)) :
    Walked libs p₀ answers nodes (new ++ more) p' where
  lookups := hlookups.trans h.lookups
  balanced := hbalanced
  settled := settled_trans h.settled hsettled
  calls := by rw [hcalls, h.calls, List.append_assoc]
  said call hcall hreport := by
    have hverdict : p'.verdict = p.verdict := by
      unfold PrivDns.verdict
      rw [hflags.1, hflags.2.1, hflags.2.2]
    rw [hverdict]
    rcases List.mem_append.mp hcall with hcall | hcall
    · exact h.said call hcall hreport
    · exact (hmore call hcall).2.2 hreport
  alloc call hcall := by
    rcases List.mem_append.mp hcall with hcall | hcall
    · exact h.alloc call hcall
    · exact (hmore call hcall).2.1
  visited := by
    obtain ⟨visited, hwalk, hsums⟩ := h.visited
    refine ⟨visited, hwalk, ?_, ?_, ?_, ?_⟩
    · rw [hflags.1]
      exact hsums.failed
    · rw [hflags.2.1]
      exact hsums.answered
    · rw [hflags.2.2]
      exact hsums.secure
    · have hnone : more.filterMap Call.path? = [] :=
        List.filterMap_eq_nil_iff.mpr fun call hcall => (hmore call hcall).1
      rw [List.filterMap_append, hnone, List.append_nil]
      exact hsums.paths

theorem watches_cases {call : Call} (h : watches call = true) : call.path? = none ∧
    (∀ allocated, call ≠ .newPriv allocated) ∧ call.reports = false ∧ call ≠ .setSecure := by
  cases call <;> first | (simp [watches] at h; done) | exact ⟨rfl, by simp, rfl, by simp⟩

theorem Watched.same {β : Type} (h : Watched p p') (f : PrivDns → β)
    (hf : ∀ q : PrivDns, f q.unwatched = f q) : f p' = f p := by
  rw [← hf p', h.rest, hf p]

theorem Watched.settled (h : Watched p p') : Settled p p' :=
  ⟨h.same (·.family) fun _ => rfl, h.same (·.protocol) fun _ => rfl, h.same (·.srv) fun _ => rfl,
    h.same (·.type) fun _ => rfl, h.same (·.validate) fun _ => rfl⟩

theorem Walked.watched {nodes : List Node} {new : List Call}
    (h : Walked libs p₀ answers nodes new p) (hw : Watched p p') :
    ∃ new', Walked libs p₀ answers nodes new' p' := by
  obtain ⟨more, hmore, hcalls⟩ := hw.calls
  refine ⟨new ++ more.map (·.2), h.called hw.lookups (h.balanced.watched hw) hw.settled
    (by rw [hcalls, List.map_append])
    ⟨hw.same (·.failed) fun _ => rfl, hw.same (·.answered) fun _ => rfl,
      hw.same (·.secure) fun _ => rfl⟩ fun call hcall => ?_⟩
  obtain ⟨c, hc, rfl⟩ := List.mem_map.mp hcall
  obtain ⟨hpath, halloc, hreport, hsecure⟩ := watches_cases (hmore c hc)
  refine ⟨hpath, halloc, fun hor => ?_⟩
  rcases hor with hr | hs
  · rw [hreport] at hr
    cases hr
  · exact absurd hs hsecure

/-- `check` reports once no lookup is left. -/
theorem Walked.checked {nodes : List Node} {new : List Call}
    (h : Walked libs p₀ answers nodes new p) : ∃ new', Walked libs p₀ answers nodes new' p.checked ∧
      (nodes = [] → p.checked.verdict <:+ new') := by
  have hnone : p.pending = 0 ↔ nodes = [] := by
    rw [h.balanced.zero, h.lookups, List.map_eq_nil_iff]
  have hbalanced := h.balanced.checked
  unfold PrivDns.checked at hbalanced ⊢
  by_cases hzero : p.pending = 0
  · rw [if_pos hzero] at hbalanced ⊢
    have hverdict : (p.after { calls := p.verdict }).verdict = p.verdict := by
      simp [PrivDns.verdict, PrivDns.after]
    refine ⟨new ++ p.verdict, h.called (List.append_nil _) hbalanced ⟨rfl, rfl, rfl, rfl, rfl⟩ ?_
      ⟨Bool.or_false _, Bool.or_false _, Bool.and_true _⟩ fun call hcall => ⟨?_, ?_, fun _ => ?_⟩,
      fun _ => ?_⟩
    · simp [PrivDns.after, Function.comp_def]
    · rcases verdict_cases hcall with rfl | rfl | rfl <;> rfl
    · exact verdict_alloc p call hcall
    · exact ⟨hnone.mp hzero, hcall⟩
    · rw [hverdict]
      exact List.suffix_append _ _
  · rw [if_neg hzero]
    exact ⟨new, h, fun hnil => absurd (hnone.mpr hnil) hzero⟩

/-! ### One answer -/

/-- The lookup at position `k` gets the answer that is fixed for it. -/
theorem Walked.completed {nodes : List Node} {new : List Call} {k : Nat} {node : Node}
    (hcalloc : ∀ n, libs.calloc n = true) (h : Walked libs p₀ answers nodes new p)
    (hk : nodes[k]? = some node) :
    ∃ new', Walked libs p₀ answers (nodes.eraseIdx k ++ node.children libs p₀ answers) new'
      (p.completed libs .ares k node.lookup (answers node.place)) := by
  obtain ⟨hlt, hget⟩ := List.getElem?_eq_some_iff.mp hk
  have hlookup : p.lookups[k]? = some node.lookup := by
    rw [h.lookups, List.getElem?_map, hk]
    rfl
  have heffect : callbackEffect libs .ares p node.lookup.srv (answers node.place) =
      node.effect libs p₀ answers := callbackEffect_settled hcalloc h.settled _ _
  have hopen : nodes ≠ [] := by
    intro hnil
    rw [hnil] at hlt
    exact Nat.not_lt_zero k hlt
  have hplain : ∀ call ∈ (node.effect libs p₀ answers).calls, plain call = true :=
    callbackEffect_plain hcalloc .ares p₀ node.lookup.srv (answers node.place)
  have hlookups : (p.completed libs .ares k node.lookup (answers node.place)).lookups =
      (nodes.eraseIdx k ++ node.children libs p₀ answers).map (·.lookup) := by
    rw [completed_lookups, heffect, h.lookups, List.eraseIdx_map, List.map_append]
    exact congrArg _ (branches_lookups _ _).symm
  have hbalanced : Balanced (p.completed libs .ares k node.lookup (answers node.place)) :=
    h.balanced.completed hlookup (answers node.place)
  -- what the callback calls at its end
  have hclosing : ∀ call ∈ p.closing libs .ares k node.lookup (answers node.place),
      nodes.eraseIdx k ++ node.children libs p₀ answers = [] ∧
        call ∈ (p.completed libs .ares k node.lookup (answers node.place)).verdict := by
    intro call hcall
    unfold PrivDns.closing at hcall
    dsimp only at hcall
    split at hcall
    · next hclose =>
        have hflags : (p.completed libs .ares k node.lookup (answers node.place)).verdict =
            ((p.taken k (answers node.place)).after
              (callbackEffect libs .ares p node.lookup.srv (answers node.place))).verdict := by
          unfold PrivDns.verdict
          rw [completed_failed, completed_answered, completed_secure]
          rfl
        rw [hflags]
        refine ⟨List.map_eq_nil_iff.mp (hlookups.symm.trans (hbalanced.zero.mp ?_)), hcall⟩
        rw [completed_eq]
        simpa [PrivDns.after, PrivDns.returned] using hclose.2
    · cases hcall
  refine ⟨new ++ ((node.effect libs p₀ answers).calls ++
    p.closing libs .ares k node.lookup (answers node.place)), ⟨hlookups, hbalanced,
    settled_trans h.settled (completed_settled libs .ares k node.lookup _ p), ?_, ?_, ?_, ?_⟩⟩
  · rw [completed_calls, heffect, List.map_append, h.calls, List.append_assoc, List.map_map]
    simp [Function.comp_def]
  · intro call hcall hreport
    rcases List.mem_append.mp hcall with hcall | hcall
    · exact absurd (h.said call hcall hreport).1 hopen
    · rcases List.mem_append.mp hcall with hcall | hcall
      · obtain ⟨hno, hno', -⟩ := plain_cases (hplain call hcall)
        rcases hreport with hr | hs
        · rw [hno] at hr
          cases hr
        · exact absurd hs hno'
      · exact hclosing call hcall
  · intro call hcall
    rcases List.mem_append.mp hcall with hcall | hcall
    · exact h.alloc call hcall
    · rcases List.mem_append.mp hcall with hcall | hcall
      · exact (plain_cases (hplain call hcall)).2.2
      · exact verdict_alloc _ call (hclosing call hcall).2
  · obtain ⟨visited, hwalk, hsums⟩ := h.visited
    have hnodes : (nodes : Multiset Node) = node ::ₘ (nodes.eraseIdx k : Multiset Node) := by
      rw [Multiset.cons_coe, Multiset.coe_eq_coe, ← hget]
      exact (List.getElem_cons_eraseIdx_perm hlt).symm
    refine ⟨node ::ₘ visited, fun later hlater => ?_, ?_, ?_, ?_, ?_⟩
    · have hnext := hwalk (node ::ₘ later) (by
        rw [hnodes]
        exact Frontier.Walk.visit (by rw [Multiset.coe_add]; exact hlater))
      rw [Multiset.add_cons] at hnext
      rw [Multiset.cons_add]
      exact hnext
    · rw [completed_failed, heffect, Bool.or_eq_true, hsums.failed]
      simp only [Multiset.mem_cons, exists_eq_or_imp]
      exact or_assoc.trans (or_congr_right or_comm)
    · rw [completed_answered, heffect, Bool.or_eq_true, hsums.answered]
      simp only [Multiset.mem_cons, exists_eq_or_imp]
      exact or_assoc.trans (or_congr_right or_comm)
    · rw [completed_secure, heffect, Bool.and_eq_true, hsums.secure]
      simp only [Multiset.mem_cons, forall_eq_or_imp]
      exact and_assoc.trans (and_congr_right' and_comm)
    · have hnone : (p.closing libs .ares k node.lookup (answers node.place)).filterMap
          Call.path? = [] := by
        refine List.filterMap_eq_nil_iff.mpr fun call hcall => ?_
        rcases verdict_cases (hclosing call hcall).2 with rfl | rfl | rfl <;> rfl
      rw [List.filterMap_append, List.filterMap_append, hnone, List.append_nil, ← Multiset.coe_add,
        hsums.paths, Multiset.cons_bind, Multiset.add_comm]

theorem complete_walked {nodes nodes' : List Node} {c : Nat × Answer}
    (hcalloc : ∀ n, libs.calloc n = true) (h : ∃ new, Walked libs p₀ answers nodes new p)
    (hdeliver : deliver libs p₀ answers nodes c = some nodes') :
    Sat (complete libs .ares c) p (fun _ p' => ∃ new, Walked libs p₀ answers nodes' new p')
      (fun _ _ => True) := by
  obtain ⟨new, h⟩ := h
  obtain ⟨k, a⟩ := c
  unfold deliver at hdeliver
  dsimp only at hdeliver
  refine (complete_effect k a p).mono (fun _ p' hp' => ?_) (fun _ _ _ => trivial)
  rw [h.lookups, List.getElem?_map] at hp'
  cases hk : nodes[k]? with
  | none =>
      rw [hk] at hp' hdeliver
      obtain rfl := Option.some.inj hdeliver
      exact ⟨new, by rw [show p' = p from hp']; exact h⟩
  | some node =>
      rw [hk] at hp' hdeliver
      dsimp only at hdeliver
      split at hdeliver
      · next ha =>
          obtain rfl := Option.some.inj hdeliver
          subst ha
          obtain ⟨new', h'⟩ := h.completed hcalloc hk
          exact ⟨new', by rw [show p' = _ from hp']; exact h'⟩
      · cases hdeliver

theorem completions_walked (hcalloc : ∀ n, libs.calloc n = true) (cs : List (Nat × Answer)) :
    ∀ {nodes nodes' : List Node} {p : PrivDns}, (∃ new, Walked libs p₀ answers nodes new p) →
      cs.foldlM (deliver libs p₀ answers) nodes = some nodes' →
      Sat (forM cs (complete libs .ares)) p (fun _ p' => ∃ new, Walked libs p₀ answers nodes' new p')
        (fun _ _ => True) := by
  induction cs with
  | nil =>
      intro nodes nodes' p h hdeliver
      obtain rfl := Option.some.inj hdeliver
      exact h
  | cons c rest ih =>
      intro nodes nodes' p h hdeliver
      rw [List.foldlM_cons] at hdeliver
      obtain ⟨mid, hfirst, hrest⟩ := Option.bind_eq_some_iff.mp hdeliver
      rw [List.forM_cons, sat_bind]
      exact (complete_walked hcalloc h hfirst).mono (fun _ p₁ h₁ => ih h₁ hrest) (fun _ _ he => he)

/-- A dispatch delivers answers and reports if it has delivered the last. -/
theorem dispatch_walked (hcalloc : ∀ n, libs.calloc n = true) (round : Round)
    {nodes nodes' : List Node} (h : ∃ new, Walked libs p₀ answers nodes new p)
    (hdeliver : round.completions.foldlM (deliver libs p₀ answers) nodes = some nodes') :
    Sat (dispatch libs .ares round) p (fun _ p' => ∃ new, Walked libs p₀ answers nodes' new p' ∧
      (nodes' = [] → p'.verdict <:+ new)) (fun _ _ => True) := by
  obtain ⟨new, h⟩ := h
  refine dispatch_rule fun p₁ hw₁ => ?_
  refine (completions_walked hcalloc round.completions (h.watched hw₁) hdeliver).mono
    (fun _ p₂ h₂ p₃ hw₃ => ?_) (fun _ _ he => he)
  obtain ⟨new₂, h₂⟩ := h₂
  obtain ⟨new₃, h₃⟩ := h₂.watched hw₃
  exact h₃.checked

/-! ### Whole runs -/

/-- The private data after the set-up. -/
def begun (libs : Libs) (settings : List String) (request : Request) : PrivDns :=
  final (query libs .ares settings) { request := request }

theorem dispatches_walked (hcalloc : ∀ n, libs.calloc n = true) (rounds : List Round) :
    ∀ {nodes nodes' : List Node} {p : PrivDns}, (∃ new, Walked libs p₀ answers nodes new p) →
      (rounds.flatMap (·.completions)).foldlM (deliver libs p₀ answers) nodes = some nodes' →
      Sat (forM rounds (dispatch libs .ares)) p (fun _ p' =>
        ∃ new, Walked libs p₀ answers nodes' new p' ∧
          (rounds ≠ [] → nodes' = [] → p'.verdict <:+ new)) (fun _ _ => True) := by
  induction rounds with
  | nil =>
      intro nodes nodes' p h hdeliver
      obtain rfl := Option.some.inj hdeliver
      obtain ⟨new, h⟩ := h
      exact ⟨new, h, fun hne => absurd rfl hne⟩
  | cons round rest ih =>
      intro nodes nodes' p h hdeliver
      rw [List.flatMap_cons, List.foldlM_append] at hdeliver
      obtain ⟨mid, hfirst, hrest⟩ := Option.bind_eq_some_iff.mp hdeliver
      rw [List.forM_cons, sat_bind]
      refine (dispatch_walked hcalloc round h hfirst).mono (fun _ p₁ h₁ => ?_) (fun _ _ he => he)
      obtain ⟨new₁, h₁, hend⟩ := h₁
      cases rest with
      | nil =>
          obtain rfl := Option.some.inj hrest
          exact ⟨new₁, h₁, fun _ => hend⟩
      | cons next more =>
          exact (ih ⟨new₁, h₁⟩ hrest).mono
            (fun _ p' ⟨new, h', hend'⟩ => ⟨new, h', fun _ => hend' (List.cons_ne_nil _ _)⟩)
            (fun _ _ he => he)

/-- What a run comes to that has delivered the answers. -/
theorem run_walked (hcalloc : ∀ n, libs.calloc n = true) {rounds : List Round} {nodes : List Node}
    (hrun : run libs .ares settings rounds { request := request } = .ok () p)
    (hdelivered : delivered libs (begun libs settings request) answers rounds = some nodes) :
    ∃ new, Walked libs (begun libs settings request) answers nodes new p ∧
      (rounds ≠ [] → nodes = [] → p.verdict <:+ new) := by
  obtain ⟨u, p₀, hquery, hrounds⟩ := bind_eq_ok hrun
  have hbegun : begun libs settings request = p₀ := final_of_ok hquery
  rw [hbegun] at hdelivered ⊢
  have hbalanced : Balanced p₀ := ((query_begun request).of_ok hquery).balanced
  exact (dispatches_walked hcalloc rounds ⟨[], Walked.start hbalanced⟩ hdelivered).of_ok hrounds

/--
A run with at least one dispatch that has delivered the answer fixed for each lookup, and
has no lookup left.
-/
structure Complete (libs : Libs) (settings : List String) (request : Request)
    (answers : List Nat → Answer) (rounds : List Round) (p : PrivDns) : Prop where
  run : run libs .ares settings rounds { request := request } = .ok () p
  dispatched : rounds ≠ []
  delivered : delivered libs (begun libs settings request) answers rounds = some []

theorem lastReport_verdict {p : PrivDns} {new : List Call} (h : p.verdict <:+ new)
    (before : Option Call) :
    lastReport before new = some (if p.failed then .failed else .finished) := by
  obtain ⟨earlier, rfl⟩ := h
  unfold PrivDns.verdict lastReport
  rw [List.foldl_append, List.foldl_append]
  cases p.failed <;> rfl

theorem Walked.secured {new : List Call} (h : Walked libs p₀ answers [] new p)
    (hend : p.verdict <:+ new) :
    .setSecure ∈ new ↔ p.answered = true ∧ p.secure = true := by
  have hverdict : .setSecure ∈ p.verdict ↔ p.answered = true ∧ p.secure = true := by
    unfold PrivDns.verdict
    cases p.answered <;> cases p.secure <;> cases p.failed <;> simp
  rw [← hverdict]
  exact ⟨fun hcall => (h.said _ hcall (Or.inr rfl)).2, fun hcall => hend.subset hcall⟩

/-- Two lists of calls say the same, up to the order of the paths. -/
structure SameOutcome (calls calls' : List Call) : Prop where
  report : ∀ before, lastReport before calls = lastReport before calls'
  secure : .setSecure ∈ calls ↔ .setSecure ∈ calls'
  paths : (calls.filterMap Call.path?).Perm (calls'.filterMap Call.path?)

/-- The dispatches of two complete runs say the same. -/
theorem Complete.same (hcalloc : ∀ n, libs.calloc n = true) {rounds₁ rounds₂ : List Round}
    {p₁ p₂ : PrivDns} (h₁ : Complete libs settings request answers rounds₁ p₁)
    (h₂ : Complete libs settings request answers rounds₂ p₂) :
    ∃ new₁ new₂, Walked libs (begun libs settings request) answers [] new₁ p₁ ∧
      Walked libs (begun libs settings request) answers [] new₂ p₂ ∧
      (∃ call, ∀ before, lastReport before new₁ = some call) ∧ SameOutcome new₁ new₂ := by
  obtain ⟨new₁, hw₁, hend₁⟩ := run_walked hcalloc h₁.run h₁.delivered
  obtain ⟨new₂, hw₂, hend₂⟩ := run_walked hcalloc h₂.run h₂.delivered
  have hv₁ := hend₁ h₁.dispatched rfl
  have hv₂ := hend₂ h₂.dispatched rfl
  obtain ⟨visited, hwalk₁, hsums₁⟩ := hw₁.visited
  obtain ⟨visited', hwalk₂, hsums₂⟩ := hw₂.visited
  -- the two walks have visited the same lookups
  obtain rfl : visited = visited' := by
    have hunique := (hwalk₁ 0 Frontier.Walk.done).unique (hwalk₂ 0 Frontier.Walk.done)
    rw [Multiset.add_zero, Multiset.add_zero] at hunique
    exact hunique
  have hfailed : p₁.failed = p₂.failed :=
    Bool.eq_iff_iff.mpr (hsums₁.failed.trans hsums₂.failed.symm)
  have hanswered : p₁.answered = true ↔ p₂.answered = true :=
    hsums₁.answered.trans hsums₂.answered.symm
  have hsecure : p₁.secure = true ↔ p₂.secure = true := hsums₁.secure.trans hsums₂.secure.symm
  refine ⟨new₁, new₂, hw₁, hw₂, ⟨_, lastReport_verdict hv₁⟩, fun before => ?_, ?_, ?_⟩
  · rw [lastReport_verdict hv₁, lastReport_verdict hv₂, hfailed]
  · rw [hw₁.secured hv₁, hw₂.secured hv₂]
    exact and_congr hanswered hsecure
  · exact Multiset.coe_eq_coe.mp (hsums₁.paths.trans hsums₂.paths.symm)

/-! ### The core -/

/-- The environment of a round: what the core is given, with the dispatch function of the backend. -/
def served (base : Env) (libs : Libs) (settings : List String) (request : Request)
    (rounds : List Round) (round : Round) : Env :=
  { base with dispatch := (env libs .ares settings request rounds round).dispatch }

/--
Rounds dispatched for watches of the backend, while the query stays with it.  No timer fires.
-/
inductive Served (base : Env) (libs : Libs) (settings : List String) (request : Request)
    (s₀ : St) : List Round → St → Prop
  | start : Served base libs settings request s₀ [] s₀
  | next {rounds : List Round} {round : Round} {s s' : St} {w i : Nat} {x : Watch}
      (h : Served base libs settings request s₀ rounds s)
      (hx : s.query.watches.find? (·.id = w) = some x) (hcb : x.callback = .backend i)
      (hok : queryDispatch (served base libs settings request rounds round) w s = .ok () s')
      (hstay : s'.query.cursor = s.query.cursor) :
      Served base libs settings request s₀ (rounds ++ [round]) s'

/-- The dispatch function of the last round returns to the core. -/
def Serves (base : Env) (libs : Libs) (settings : List String) (request : Request) (s₀ : St)
    (rounds : List Round) (s' : St) : Prop :=
  ∃ earlier last s i, rounds = earlier ++ [last] ∧ Served base libs settings request s₀ earlier s ∧
    watchCallback (served base libs settings request earlier last) (.backend i) s = .ok () s'

/-- Calls have been added. -/
def Called (p p' : PrivDns) : Prop := p.calls <+: p'.calls

instance : IsPreorder PrivDns Called where
  refl p := List.prefix_refl p.calls
  trans _ _ _ h h' := List.IsPrefix.trans h h'

theorem after_called (p : PrivDns) (e : Effect) : Called p (p.after e) := List.prefix_append _ _

theorem dispatch_called (round : Round) :
    Stays Called (fun _ => True) (dispatch libs .ares round) := by
  have hwatched : ∀ {x : D Unit}, Stays Watched (fun _ => True) x → Stays Called (fun _ => True) x :=
    fun hx => hx.weaken (fun _ _ hw => by
      obtain ⟨new, -, hcalls⟩ := hw.calls
      exact ⟨new, hcalls.symm⟩) (fun _ _ => trivial)
  refine Stays.bind (hwatched unwatchFileDescriptors_watched) fun _ => ?_
  refine Stays.bind (Stays.forM (fun c p => ?_) _) fun _ => ?_
  · obtain ⟨k, a⟩ := c
    refine complete_rule (List.prefix_refl p.calls) (fun lookup _ => ?_) (fun e effect _ => ?_)
    · exact ⟨_, (completed_calls libs .ares k lookup a p).symm⟩
    · exact ⟨after_called (p.taken k a) effect, trivial⟩
  · refine Stays.bind (hwatched (watchFileDescriptors_watched _)) fun _ p => ?_
    refine (check_effect p).mono (fun _ p' hp' => ?_) (fun _ p' hp' => ⟨?_, trivial⟩)
    · rw [hp']
      unfold PrivDns.checked
      split
      · exact after_called p _
      · exact List.prefix_refl p.calls
    · rw [hp'.1]
      exact List.prefix_refl p.calls

theorem run_snoc {rounds : List Round} {round : Round}
    (hrun : run libs .ares settings (rounds ++ [round]) { request := request } = .ok () p') :
    ∃ p, run libs .ares settings rounds { request := request } = .ok () p ∧
      dispatch libs .ares round p = .ok () p' := by
  have hsplit : run libs .ares settings (rounds ++ [round]) =
      run libs .ares settings rounds >>= fun _ => dispatch libs .ares round := by
    unfold run
    rw [List.forM_append, bind_assoc]
    simp
  rw [hsplit] at hrun
  obtain ⟨u, p, hfirst, hlast⟩ := bind_eq_ok hrun
  exact ⟨p, hfirst, hlast⟩

theorem delivered_snoc {rounds : List Round} {round : Round} {nodes : List Node}
    (h : delivered libs p₀ answers (rounds ++ [round]) = some nodes) :
    ∃ before, delivered libs p₀ answers rounds = some before := by
  unfold delivered at h ⊢
  rw [List.flatMap_append, List.foldlM_append] at h
  obtain ⟨before, hbefore, -⟩ := Option.bind_eq_some_iff.mp h
  exact ⟨before, hbefore⟩

/-- The last dispatch, up to its return, when the core has heard all the others. -/
theorem callback_heard {base : Env} (hcalloc : ∀ n, libs.calloc n = true) {rounds : List Round}
    {round : Round} {nodes : List Node} {s₀ s s' : St} {i : Nat} {new : List Call}
    (hrun : run libs .ares settings rounds { request := request } = .ok () p)
    (hround : dispatch libs .ares round p = .ok () p')
    (hnodes : delivered libs (begun libs settings request) answers (rounds ++ [round]) = some nodes)
    (hnew : p.calls.map (·.2) = (begun libs settings request).calls.map (·.2) ++ new)
    (hheard : Heard base new s₀ s) (hresult : s₀.query.request.resultTimeout ≠ 0)
    (hok : watchCallback (served base libs settings request rounds round) (.backend i) s =
      .ok () s') :
    ∃ more, (served base libs settings request rounds round).dispatch i = more ∧
      p'.calls.map (·.2) = (begun libs settings request).calls.map (·.2) ++ (new ++ more) ∧
      Heard base more s s' := by
  obtain ⟨added, hadded⟩ := (dispatch_called round p).of_ok hround
  have hdispatch : (served base libs settings request rounds round).dispatch i =
      added.map (·.2) := env_dispatch hrun hround hadded.symm i
  have hcalls : p'.calls.map (·.2) =
      (begun libs settings request).calls.map (·.2) ++ (new ++ added.map (·.2)) := by
    rw [← hadded, List.map_append, hnew, List.append_assoc]
  obtain ⟨new', hwalked, -⟩ := run_walked hcalloc (run_append hrun hround) hnodes
  have hsame : new' = new ++ added.map (·.2) :=
    List.append_cancel_left (hwalked.calls.symm.trans hcalls)
  refine ⟨added.map (·.2), hdispatch, hcalls, ?_⟩
  unfold watchCallback at hok
  dsimp only at hok
  rw [hdispatch] at hok
  obtain ⟨h₁, h₂, h₃, h₄, h₅, h₆⟩ := (runCalls_heard (added.map (·.2)) hheard.attending
    (by rw [hheard.request]; exact hresult) fun call hcall => hwalked.alloc call (by
      rw [hsame]
      exact List.mem_append_right _ hcall)).of_ok hok
  exact ⟨h₁, h₂, h₃, h₄, h₅, h₆⟩

/-- The core does nothing more after a dispatch that does not report. -/
theorem queryDispatch_quiet {env : Env} {s s' : St} {w : Nat} {x : Watch}
    (hx : s.query.watches.find? (·.id = w) = some x)
    (hok : queryDispatch env w s = .ok () s') :
    ∃ s₁, watchCallback env x.callback s = .ok () s₁ ∧
      (s₁.query.state.report = none → s' = s₁) := by
  have hbody : queryDispatch env w s = (do
      watchCallback env x.callback
      whenState .resolved (querySetState env .done)
      whenState .error (querySetState env .failed) : M Unit) s := by
    unfold queryDispatch
    rw [bind_of_ok (show (get : M St) s = .ok s s from rfl), hx]
  rw [hbody] at hok
  obtain ⟨u, s₁, hcallback, hrest⟩ := bind_eq_ok hok
  refine ⟨s₁, hcallback, fun hquiet => ?_⟩
  have hresolved : s₁.query.state ≠ .resolved := by
    intro hc
    rw [hc] at hquiet
    cases hquiet
  have herror : s₁.query.state ≠ .error := by
    intro hc
    rw [hc] at hquiet
    cases hquiet
  have hdone : Sat (do
      whenState .resolved (querySetState env .done)
      whenState .error (querySetState env .failed) : M Unit) s₁ (fun _ s' => s' = s₁)
      (fun _ _ => True) := by
    rw [sat_bind, sat_whenState]
    refine ⟨fun hc => absurd hc hresolved, fun _ => ?_⟩
    rw [sat_whenState]
    exact ⟨fun hc => absurd hc herror, fun _ => rfl⟩
  exact hdone.of_ok hrest

theorem lastReport_quiet {calls : List Call} (h : ∀ call ∈ calls, call.reports = false)
    (before : Option Call) : lastReport before calls = before := by
  unfold lastReport
  induction calls with
  | nil => rfl
  | cons call rest ih =>
      rw [List.foldl_cons, h call List.mem_cons_self]
      exact ih fun c hc => h c (List.mem_cons_of_mem call hc)

/-- While the query stays with the backend, the core has heard what the backend called. -/
theorem served_heard {base : Env} (hcalloc : ∀ n, libs.calloc n = true) {rounds : List Round}
    {s₀ s : St} (h : Served base libs settings request s₀ rounds s)
    (hwait : s₀.query.state = .waiting) (hresult : s₀.query.request.resultTimeout ≠ 0) :
    ∀ {p : PrivDns} {nodes : List Node},
      run libs .ares settings rounds { request := request } = .ok () p →
      delivered libs (begun libs settings request) answers rounds = some nodes →
      ∃ new, p.calls.map (·.2) = (begun libs settings request).calls.map (·.2) ++ new ∧
        Heard base new s₀ s ∧ s.query.state.report = none := by
  induction h with
  | start =>
      intro p nodes hrun hnodes
      obtain ⟨u, p₀, hquery, hrounds⟩ := bind_eq_ok hrun
      obtain rfl : p₀ = p := by
        cases hrounds
        rfl
      refine ⟨[], ?_, ⟨rfl, rfl, by rw [hwait]; rfl, rfl, rfl, rfl⟩, by rw [hwait]; rfl⟩
      rw [show begun libs settings request = p₀ from final_of_ok hquery, List.append_nil]
  | @next rounds round s s' w i x h hx hcb hok hstay ih =>
      intro p' nodes hrun hnodes
      obtain ⟨p, hfirst, hlast⟩ := run_snoc hrun
      obtain ⟨before, hbefore⟩ := delivered_snoc hnodes
      obtain ⟨new, hnew, hheard, hquiet⟩ := ih hfirst hbefore
      obtain ⟨s₁, hcallback, hsame⟩ := queryDispatch_quiet hx hok
      rw [hcb] at hcallback
      obtain ⟨more, hmore, hcalls, hheard'⟩ := callback_heard hcalloc hfirst hlast hnodes hnew hheard
        hresult hcallback
      -- a report would have made the query leave the backend
      have hno : ∀ call ∈ more, call.reports = false := by
        intro call hcall
        by_contra hreport
        have hleft := dispatch_leaves hx hcb ⟨call, by rw [hmore]; exact hcall,
          by simpa using hreport⟩ hok
        rw [hstay] at hleft
        exact Nat.lt_irrefl _ hleft
      have hreport : s₁.query.state.report = none := by
        rw [hheard'.report, lastReport_quiet hno]
        exact hquiet
      obtain rfl := hsame hreport
      exact ⟨new ++ more, hcalls, hheard.trans hheard', hreport⟩

/-- At the return of the last dispatch function the core has heard everything. -/
theorem serves_heard {base : Env} (hcalloc : ∀ n, libs.calloc n = true) {rounds : List Round}
    {s₀ s' : St} (hcomplete : Complete libs settings request answers rounds p)
    (h : Serves base libs settings request s₀ rounds s') (hwait : s₀.query.state = .waiting)
    (hresult : s₀.query.request.resultTimeout ≠ 0) {new : List Call}
    (hnew : p.calls.map (·.2) = (begun libs settings request).calls.map (·.2) ++ new) :
    Heard base new s₀ s' := by
  obtain ⟨earlier, last, s, i, rfl, hserved, hcallback⟩ := h
  obtain ⟨p₁, hfirst, hlast⟩ := run_snoc hcomplete.run
  obtain ⟨before, hbefore⟩ := delivered_snoc hcomplete.delivered
  obtain ⟨new₁, hnew₁, hheard, -⟩ := served_heard hcalloc hserved hwait hresult hfirst hbefore
  obtain ⟨more, -, hcalls, hheard'⟩ := callback_heard hcalloc hfirst hlast hcomplete.delivered hnew₁
    hheard hresult hcallback
  obtain rfl : new = new₁ ++ more := List.append_cancel_left (hnew.symm.trans hcalls)
  exact hheard.trans hheard'

theorem report_state {q q' : QueryState} {call : Call} (h : q.report = some call)
    (h' : q'.report = some call) : q = q' ∧ (q = .resolved ∨ q = .error) := by
  cases q <;> cases q' <;> simp_all [QueryState.report]
  · cases h.trans h'.symm
  · cases h.trans h'.symm

/--
**Answers in any order.**  Two complete runs in which each lookup gets the answer fixed for
it, in whichever order and however grouped into dispatches, end with the same report and the
same decision on security and add the same paths.  So the core is told the same: when the
last dispatch function returns, no timer having fired and the result timeout not being zero,
the query has the same state, the same security and the same paths up to their order.
-/
theorem answers_in_any_order (hcalloc : ∀ n, libs.calloc n = true) {rounds₁ rounds₂ : List Round}
    {p₁ p₂ : PrivDns} (h₁ : Complete libs settings request answers rounds₁ p₁)
    (h₂ : Complete libs settings request answers rounds₂ p₂) :
    SameOutcome (p₁.calls.map (·.2)) (p₂.calls.map (·.2)) ∧
    ∀ (base : Env) (s₀ s₁ s₂ : St), s₀.query.state = .waiting →
      s₀.query.request.resultTimeout ≠ 0 →
      Serves base libs settings request s₀ rounds₁ s₁ →
      Serves base libs settings request s₀ rounds₂ s₂ →
      s₁.query.state = s₂.query.state ∧
      (s₁.query.state = .resolved ∨ s₁.query.state = .error) ∧
      s₁.query.response.security = s₂.query.response.security ∧
      s₁.query.response.paths.Perm s₂.query.response.paths := by
  obtain ⟨new₁, new₂, hw₁, hw₂, ⟨call, hcall⟩, hsame⟩ := h₁.same hcalloc h₂
  refine ⟨⟨fun before => ?_, ?_, ?_⟩, fun base s₀ s₁ s₂ hwait hresult hs₁ hs₂ => ?_⟩
  · rw [hw₁.calls, hw₂.calls, lastReport, lastReport, List.foldl_append, List.foldl_append]
    exact hsame.report _
  · rw [hw₁.calls, hw₂.calls, List.mem_append, List.mem_append, hsame.secure]
  · rw [hw₁.calls, hw₂.calls, List.filterMap_append, List.filterMap_append]
    exact hsame.paths.append_left _
  · have hheard₁ := serves_heard hcalloc h₁ hs₁ hwait hresult hw₁.calls
    have hheard₂ := serves_heard hcalloc h₂ hs₂ hwait hresult hw₂.calls
    obtain ⟨hstate, hend⟩ := report_state (hheard₁.report.trans (hcall _))
      (hheard₂.report.trans ((hsame.report _).symm.trans (hcall _)))
    refine ⟨hstate, hend, ?_, ?_⟩
    · rw [hheard₁.security, hheard₂.security]
      simp only [hsame.secure]
    · rw [hheard₁.paths, hheard₂.paths]
      refine (storedPaths_perm _ _ _ _ _).trans (List.Perm.trans ?_ (storedPaths_perm _ _ _ _ _).symm)
      exact ((hsame.paths.flatMap_right _).map _).append_left _

/-- The answers for the A and the AAAA records of a host. -/
def dualAnswers : List Nat → Answer
  | [0] => { data := plainAnswer }
  | _ => { status := .notFound, data := missingAnswer }

/-- The AAAA records first, and the A records in a dispatch of their own. -/
def lateRounds : List Round :=
  [{ completions := [(1, { status := .notFound, data := missingAnswer })]
     fds := { nfds := 4, rfds := [3] } },
   { completions := [(0, { data := plainAnswer })] }]

/-- Both answers in one dispatch, or one after the other in two. -/
theorem answers_in_any_order_dual : ∃ p₁ p₂,
    run dualLibs .ares [] [dualRound] { request := { nodename := some "a" } } = .ok () p₁ ∧
    run dualLibs .ares [] lateRounds { request := { nodename := some "a" } } = .ok () p₂ ∧
    SameOutcome (p₁.calls.map (·.2)) (p₂.calls.map (·.2)) := by
  have hrun₁ := ok_of_returns (show returns (run dualLibs .ares [] [dualRound])
    { request := { nodename := some "a" } } = true by decide +kernel)
  have hrun₂ := ok_of_returns (show returns (run dualLibs .ares [] lateRounds)
    { request := { nodename := some "a" } } = true by decide +kernel)
  have h₁ : Complete dualLibs [] { nodename := some "a" } dualAnswers [dualRound] _ :=
    ⟨hrun₁, List.cons_ne_nil _ _, by decide +kernel⟩
  have h₂ : Complete dualLibs [] { nodename := some "a" } dualAnswers lateRounds _ :=
    ⟨hrun₂, List.cons_ne_nil _ _, by decide +kernel⟩
  exact ⟨_, _, hrun₁, hrun₂, (answers_in_any_order (fun _ => rfl) h₁ h₂).1⟩

end Netresolve.Dns
