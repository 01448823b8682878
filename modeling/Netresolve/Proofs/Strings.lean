/-
When each string is released at most once.

The weight of a string is the number of times it is owned or has been released.  The context owns
what its request points to, and a query owns what its response points to and what its request
points to, unless that came from the context.  As long as no step gives back what the query does
not own, a step moves weight from the owner to the list of releases and gives weight only to new
strings, so that no string has more than one.  A step that does is found out in the list.
-/
import Netresolve.Core.Strings
import Mathlib.Data.List.Induction
import Mathlib.Data.List.Nodup
import Mathlib.Algebra.Order.Ring.Int
import Mathlib.Algebra.BigOperators.Group.List.Basic

namespace Netresolve.Strings

/-! ### The property and the condition -/

/--
Each string is released at most once, and no string to which the request of the context refers is
released by the creation or the end of a query.
-/
structure Proper (s : State) : Prop where
  once : (s.released.map (·.id)).Nodup
  spared : ∀ r ∈ s.released, r.byQuery = true → r.inContext = false

/--
None of the strings in the query's request is one of the context, and the query has no DNS name
if it was started.
-/
structure Disposable (s : State) (q : Query) : Prop where
  own : ∀ f id, q.request f = some id → id ∉ s.lent
  unnamed : q.started = true → q.request .dnsName = none

/--
The steps that give back only what they own: a query is not created with an option for a string
that the context's request has, nor with an unknown option when the context's request has a
string at all, and it is freed only if it is disposable.
-/
def Fine (s : State) : Event → Prop
  | .create opts valid => (∀ o ∈ opts, s.context o.1 = none) ∧
      (valid = false → ∀ f, s.context f = none)
  | .queryFree i => ∀ q, s.query i = some q → Disposable s q
  | .contextFree => ∀ i q, s.query i = some q → Disposable s q
  | .setOptions _ | .setCanonicalName _ | .addNameInfo _ _ _ => True

/-! ### Weights -/

/-- Whether a pointer is the given string. -/
def held (p : Option Nat) (id : Nat) : Nat := if p = some id then 1 else 0

def State.inContext (s : State) (id : Nat) : Nat :=
  held (s.context .nodename) id + held (s.context .servname) id + held (s.context .dnsName) id

/-- How often the query owns the string. -/
def Query.owns (q : Query) (lent : List Nat) (id : Nat) : Nat :=
  (if id ∈ lent then 0
    else held (q.request .nodename) id + held (q.request .servname) id +
      held (q.request .dnsName) id) +
    held q.nodename id + held q.servname id

def ownsAt (lent : List Nat) (id : Nat) : Option Query → Nat
  | none => 0
  | some q => q.owns lent id

def State.inQueries (s : State) (id : Nat) : Nat := (s.queries.map (ownsAt s.lent id)).sum

def State.freed (s : State) (id : Nat) : Nat := (s.released.map (·.id)).count id

def State.weight (s : State) (id : Nat) : Nat := s.inContext id + s.inQueries id + s.freed id

/-- No string has a weight of more than one, and the context's strings are accounted for. -/
structure Good (s : State) : Prop where
  single : ∀ id, s.weight id ≤ 1
  fresh : ∀ id, s.next ≤ id → s.weight id = 0
  context : ∀ f id, s.context f = some id → id ∈ s.lent
  gone : ∀ id ∈ s.lent, s.refers id = true ∨ 0 < s.freed id
  old : ∀ id ∈ s.lent, id < s.next
  spared : ∀ r ∈ s.released, r.byQuery = true → r.inContext = false

theorem Good.proper {s : State} (h : Good s) : Proper s := by
  refine ⟨List.nodup_iff_count_le_one.mpr fun id => ?_, h.spared⟩
  have hle := h.single id
  unfold State.weight State.freed at hle
  omega

theorem held_some (id : Nat) : held (some id) id = 1 := by simp [held]

theorem held_eq_zero {p : Option Nat} {id : Nat} (h : p ≠ some id) : held p id = 0 := by
  unfold held
  rw [if_neg h]

theorem refers_iff (s : State) (id : Nat) : s.refers id = true ↔ 0 < s.inContext id := by
  simp only [State.refers, State.inContext, held, List.any_cons, List.any_nil, Bool.or_false,
    Bool.or_eq_true, decide_eq_true_eq]
  constructor
  · intro h
    rcases h with h | h | h
    · rw [if_pos h]
      omega
    · rw [if_pos h]
      omega
    · rw [if_pos h]
      omega
  · intro h
    by_contra hcon
    simp only [not_or] at hcon
    rw [if_neg hcon.1, if_neg hcon.2.1, if_neg hcon.2.2] at h
    omega

theorem refers_of_context {s : State} {f : Field} {id : Nat} (h : s.context f = some id) :
    s.refers id = true := by
  cases f <;> simp [State.refers, h]

/-! ### `free` -/

@[simp] theorem free_context (s : State) (b : Bool) (p : Option Nat) :
    (s.free b p).context = s.context := by
  cases p <;> rfl

@[simp] theorem free_queries (s : State) (b : Bool) (p : Option Nat) :
    (s.free b p).queries = s.queries := by
  cases p <;> rfl

@[simp] theorem free_next (s : State) (b : Bool) (p : Option Nat) :
    (s.free b p).next = s.next := by
  cases p <;> rfl

@[simp] theorem free_lent (s : State) (b : Bool) (p : Option Nat) :
    (s.free b p).lent = s.lent := by
  cases p <;> rfl

@[simp] theorem free_freed (s : State) (b : Bool) (p : Option Nat) (id : Nat) :
    (s.free b p).freed id = s.freed id + held p id := by
  cases p with
  | none => simp [State.free, held]
  | some a =>
      simp only [State.free, State.freed, held, List.map_cons, List.count_cons, beq_iff_eq,
        Option.some.injEq]

@[simp] theorem free_refers (s : State) (b : Bool) (p : Option Nat) (id : Nat) :
    (s.free b p).refers id = s.refers id := by
  simp [State.refers]

/-- The list after `free`. -/
theorem mem_free {s : State} {b : Bool} {p : Option Nat} {r : Release} :
    r ∈ (s.free b p).released ↔ (∃ id, p = some id ∧ r = ⟨id, b, s.refers id⟩) ∨
      r ∈ s.released := by
  cases p with
  | none => simp [State.free]
  | some a => simp [State.free]

theorem free_suffix (s : State) (b : Bool) (p : Option Nat) :
    s.released <:+ (s.free b p).released := by
  cases p with
  | none => exact List.suffix_refl _
  | some a => exact List.suffix_cons _ _

@[simp] theorem bump_released (s : State) (source : Bool) :
    (s.bump source).released = s.released := by
  cases source <;> rfl

@[simp] theorem bump_context (s : State) (source : Bool) :
    (s.bump source).context = s.context := by
  cases source <;> rfl

@[simp] theorem bump_queries (s : State) (source : Bool) :
    (s.bump source).queries = s.queries := by
  cases source <;> rfl

@[simp] theorem bump_lent (s : State) (source : Bool) : (s.bump source).lent = s.lent := by
  cases source <;> rfl

theorem bump_next (s : State) (source : Bool) :
    (s.bump source).next = if source then s.next + 1 else s.next := by
  cases source <;> rfl

/-! ### One query -/

theorem sum_set {α : Type} (f : α → Nat) {l : List α} {i : Nat} {a : α} (h : l[i]? = some a) (b : α) :
    ((l.set i b).map f).sum + f a = (l.map f).sum + f b := by
  induction l generalizing i with
  | nil => simp at h
  | cons c rest ih =>
      cases i with
      | zero =>
          simp only [List.getElem?_cons_zero, Option.some.injEq] at h
          subst h
          simp only [List.set_cons_zero, List.map_cons, List.sum_cons]
          omega
      | succ i =>
          simp only [List.getElem?_cons_succ] at h
          have hrest := ih h
          simp only [List.set_cons_succ, List.map_cons, List.sum_cons]
          omega

theorem getElem_of_query {s : State} {i : Nat} {q : Query} (h : s.query i = some q) :
    s.queries[i]? = some (some q) := by
  unfold State.query at h
  cases hi : s.queries[i]? with
  | none => simp [hi] at h
  | some o =>
      rw [hi] at h
      exact congrArg some h

/-- What a query owns is not in the context, nor has it been released. -/
theorem Good.owned {s : State} (h : Good s) {i : Nat} {q : Query} (hq : s.query i = some q)
    {id : Nat} (hid : 0 < q.owns s.lent id) : s.refers id = false ∧ s.freed id = 0 := by
  have hle : q.owns s.lent id ≤ s.inQueries id := by
    have hsum := sum_set (ownsAt s.lent id) (getElem_of_query hq) none
    simp only [ownsAt] at hsum
    unfold State.inQueries
    omega
  have hsingle := h.single id
  unfold State.weight at hsingle
  constructor
  · rw [Bool.eq_false_iff]
    intro hrefers
    have := (refers_iff s id).mp hrefers
    omega
  · omega

/-- Where weight is given only to new strings, no string gets too much. -/
theorem Good.weighed {s s' : State} (h : Good s) (hnext : s.next ≤ s'.next)
    (hmoved : ∀ id, s'.weight id ≤ s.weight id + if s.next ≤ id ∧ id < s'.next then 1 else 0) :
    (∀ id, s'.weight id ≤ 1) ∧ ∀ id, s'.next ≤ id → s'.weight id = 0 := by
  refine ⟨fun id => ?_, fun id hid => ?_⟩
  · have hid := hmoved id
    split at hid
    · next hnew =>
        have := h.fresh id hnew.1
        omega
    · have := h.single id
      omega
  · have hzero := h.fresh id (by omega)
    have hid' := hmoved id
    rw [if_neg (by omega)] at hid'
    omega

/-- A step on one query that gives weight only to new strings. -/
theorem Good.exchange {s s' : State} (h : Good s) {i : Nat} {q : Query} (hq : s.query i = some q)
    (o : Option Query) (hcontext : s'.context = s.context) (hlent : s'.lent = s.lent)
    (hqueries : s'.queries = s.queries.set i o) (hnext : s.next ≤ s'.next)
    (hfreed : ∀ id, s.freed id ≤ s'.freed id)
    (hweight : ∀ id, s'.freed id + ownsAt s.lent id o ≤
      s.freed id + q.owns s.lent id + if s.next ≤ id ∧ id < s'.next then 1 else 0)
    (hspared : ∀ r ∈ s'.released, r.byQuery = true → r.inContext = false) : Good s' := by
  have hmoved : ∀ id, s'.weight id ≤ s.weight id + if s.next ≤ id ∧ id < s'.next then 1 else 0 := by
    intro id
    have hsum := sum_set (ownsAt s.lent id) (getElem_of_query hq) o
    have hid := hweight id
    unfold State.weight State.inQueries State.inContext
    rw [hcontext, hlent, hqueries]
    simp only [ownsAt] at hsum hid ⊢
    omega
  have hrefers : ∀ id, s'.refers id = s.refers id := by
    intro id
    simp only [State.refers, hcontext]
  obtain ⟨hsingle, hfresh⟩ := h.weighed hnext hmoved
  refine ⟨hsingle, hfresh, ?_, ?_, ?_, hspared⟩
  · intro f id hf
    rw [hlent]
    exact h.context f id (hcontext ▸ hf)
  · intro id hid
    rw [hrefers]
    rcases h.gone id (hlent ▸ hid) with hr | hr
    · exact Or.inl hr
    · exact Or.inr (Nat.lt_of_lt_of_le hr (hfreed id))
  · intro id hid
    exact Nat.lt_of_lt_of_le (h.old id (hlent ▸ hid)) hnext

@[simp] theorem setQuery_freed (s : State) (i : Nat) (o : Option Query) (id : Nat) :
    (s.setQuery i o).freed id = s.freed id := rfl

@[simp] theorem bump_freed (s : State) (source : Bool) (id : Nat) :
    (s.bump source).freed id = s.freed id := by
  cases source <;> rfl

/-- The list of releases after `free`, when the string is not one of the context's. -/
theorem spared_free {s : State} {b : Bool} {p : Option Nat}
    (h : ∀ r ∈ s.released, r.byQuery = true → r.inContext = false)
    (hp : b = true → ∀ id, p = some id → s.refers id = false) :
    ∀ r ∈ (s.free b p).released, r.byQuery = true → r.inContext = false := by
  intro r hr hquery
  rcases mem_free.mp hr with ⟨id, hid, rfl⟩ | hr
  · exact hp hquery id hid
  · exact h r hr hquery

/-- A new string has no weight yet, and is in no pointer. -/
theorem held_strdup {s : State} (source : Bool) (id : Nat) :
    held (s.strdup source) id = if s.next ≤ id ∧ id < (s.bump source).next then 1 else 0 := by
  cases source with
  | false => simp [State.strdup, State.bump, held]
  | true =>
      simp only [State.strdup, State.bump, held, if_true, Option.some.injEq]
      split <;> split <;> omega

theorem owns_update (q : Query) (f : Field) (p : Option Nat) (lent : List Nat) (id : Nat) :
    ({ q with request := Function.update q.request f p } : Query).owns lent id +
        (if id ∈ lent then 0 else held (q.request f) id) =
      q.owns lent id + if id ∈ lent then 0 else held p id := by
  cases f <;> simp only [Query.owns, Function.update_self, ne_eq, reduceCtorEq, not_false_eq_true,
    Function.update_of_ne] <;> split <;> omega

theorem held_pos {p : Option Nat} {id : Nat} (h : p = some id) : 0 < held p id := by
  rw [h, held_some]
  omega

theorem owns_of_request {q : Query} {lent : List Nat} {f : Field} {id : Nat}
    (h : q.request f = some id) (hid : id ∉ lent) : 0 < q.owns lent id := by
  have hpos := held_pos h
  unfold Query.owns
  rw [if_neg hid]
  cases f <;> omega

/-! ### Options of a query -/

theorem copyString_eq {s : State} {i : Nat} {q : Query} (hq : s.query i = some q) (o : Opt) :
    s.copyString i o = ((s.free true (q.request o.1)).bump o.2).setQuery i
      (some { q with request := Function.update q.request o.1 (s.strdup o.2) }) := by
  simp only [State.copyString, hq]

theorem query_setQuery {s : State} {i : Nat} {q : Query} (hq : s.query i = some q)
    (o : Option Query) : (s.setQuery i o).query i = o := by
  obtain ⟨hlt, _⟩ := List.getElem?_eq_some_iff.mp (getElem_of_query hq)
  simp [State.query, State.setQuery, hlt]

theorem copyString_context {s : State} {i : Nat} {q : Query} (hq : s.query i = some q) (o : Opt) :
    (s.copyString i o).context = s.context := by
  rw [copyString_eq hq]
  simp [State.setQuery]

theorem query_copyString {s : State} {i : Nat} {q : Query} (hq : s.query i = some q) (o : Opt) :
    (s.copyString i o).query i =
      some { q with request := Function.update q.request o.1 (s.strdup o.2) } := by
  rw [copyString_eq hq]
  have hsame : ((s.free true (q.request o.1)).bump o.2).query i = some q := by
    simp only [State.query, bump_queries, free_queries]
    exact hq
  exact query_setQuery hsame _

/-- An option for a string that the query owns or does not have. -/
theorem Good.copyString {s : State} (h : Good s) {i : Nat} {q : Query} (hq : s.query i = some q)
    (o : Opt) (hown : ∀ id, q.request o.1 = some id → id ∉ s.lent) : Good (s.copyString i o) := by
  rw [copyString_eq hq]
  refine h.exchange hq
    (some { q with request := Function.update q.request o.1 (s.strdup o.2) })
    (by simp [State.setQuery]) (by simp [State.setQuery]) (by simp [State.setQuery]) ?_ ?_ ?_ ?_
  · simp only [State.setQuery, bump_next, free_next]
    split <;> omega
  · intro id
    simp
  · intro id
    have hupdate := owns_update q o.1 (s.strdup o.2) s.lent id
    have hnew := held_strdup (s := s) o.2 id
    have hnext : (((s.free true (q.request o.1)).bump o.2).setQuery i
        (some { q with request := Function.update q.request o.1 (s.strdup o.2) })).next =
        (s.bump o.2).next := by
      simp [State.setQuery, bump_next]
    have hnot : id ∈ s.lent → held (q.request o.1) id = 0 :=
      fun hid => held_eq_zero fun heq => hown id heq hid
    rw [hnext, ← hnew]
    simp only [setQuery_freed, bump_freed, free_freed, ownsAt]
    split at hupdate
    · next hid =>
        have := hnot hid
        omega
    · omega
  · simp only [State.setQuery, bump_released]
    refine spared_free h.spared fun _ id hid => ?_
    exact (h.owned hq (owns_of_request hid (hown id hid))).1

/-- All options of a query, none of them for a string that is the context's. -/
theorem Good.copyStrings {i : Nat} (opts : List Opt) : ∀ {s : State} {q : Query}, Good s →
    s.query i = some q → (∀ o ∈ opts, ∀ id, q.request o.1 = some id → id ∉ s.lent) →
      ∃ q', (opts.foldl (fun s o => s.copyString i o) s).query i = some q' ∧
        Good (opts.foldl (fun s o => s.copyString i o) s) ∧ q'.started = q.started ∧
        (opts.foldl (fun s o => s.copyString i o) s).context = s.context ∧
        (opts.foldl (fun s o => s.copyString i o) s).lent = s.lent ∧
        ∀ f id, q'.request f = some id → q.request f = some id ∨ id ∉ s.lent := by
  induction opts with
  | nil =>
      intro s q h hq _
      exact ⟨q, hq, h, rfl, rfl, rfl, fun f id hf => Or.inl hf⟩
  | cons o rest ih =>
      intro s q h hq hown
      have hgood := h.copyString hq o (hown o List.mem_cons_self)
      have hcontext := copyString_context hq o
      have hlent : (s.copyString i o).lent = s.lent := by
        rw [copyString_eq hq]
        simp [State.setQuery]
      have hq' := query_copyString hq o
      -- what the new request has is new, or was there before
      have hnew : ∀ f id, Function.update q.request o.1 (s.strdup o.2) f = some id →
          q.request f = some id ∨ id ∉ s.lent := by
        intro f id hf
        by_cases heq : f = o.1
        · subst heq
          rw [Function.update_self] at hf
          refine Or.inr fun hid => ?_
          have hold := h.old id hid
          unfold State.strdup at hf
          split at hf
          · have := Option.some.inj hf
            omega
          · cases hf
        · rw [Function.update_of_ne heq] at hf
          exact Or.inl hf
      obtain ⟨q₂, hq₂, hgood₂, hstarted, hcontext₂, hlent₂, hrequest⟩ := ih hgood hq' (by
        intro o' ho' id hid
        rw [hlent]
        rcases hnew o'.1 id hid with hold | hout
        · exact hown o' (List.mem_cons_of_mem o ho') id hold
        · exact hout)
      refine ⟨q₂, hq₂, hgood₂, hstarted, hcontext₂.trans hcontext, hlent₂.trans hlent, ?_⟩
      intro f id hf
      rcases hrequest f id hf with hold | hout
      · exact hnew f id hold
      · exact Or.inr (hlent ▸ hout)

/-! ### The end of a query -/

@[simp] theorem leave_context (s : State) (q : Query) : (s.leave q).context = s.context := by
  unfold State.leave
  split <;> simp

@[simp] theorem leave_queries (s : State) (q : Query) : (s.leave q).queries = s.queries := by
  unfold State.leave
  split <;> simp

@[simp] theorem leave_next (s : State) (q : Query) : (s.leave q).next = s.next := by
  unfold State.leave
  split <;> simp

@[simp] theorem leave_lent (s : State) (q : Query) : (s.leave q).lent = s.lent := by
  unfold State.leave
  split <;> simp

@[simp] theorem leave_refers (s : State) (q : Query) (id : Nat) :
    (s.leave q).refers id = s.refers id := by
  simp [State.refers]

theorem leave_freed (s : State) (q : Query) (id : Nat) :
    (s.leave q).freed id = s.freed id + if q.started then
      held (q.request .dnsName) id + held q.nodename id + held q.servname id else 0 := by
  unfold State.leave
  split
  · simp only [free_freed]
    omega
  · omega

theorem leave_suffix (s : State) (q : Query) : s.released <:+ (s.leave q).released := by
  unfold State.leave
  split
  · exact ((free_suffix _ _ _).trans (free_suffix _ _ _)).trans (free_suffix _ _ _)
  · exact List.suffix_refl _

/-- The strings of the request, after those of the response. -/
def State.dispose (s : State) (q : Query) : State :=
  (((s.leave q).free true (q.request .nodename)).free true (q.request .servname)).free true
    (q.request .dnsName)

theorem queryFree_eq {s : State} {i : Nat} {q : Query} (hq : s.query i = some q) :
    s.queryFree i = (s.dispose q).setQuery i none := by
  simp only [State.queryFree, hq, State.dispose]

theorem dispose_freed (s : State) (q : Query) (id : Nat) :
    (s.dispose q).freed id = s.freed id + (if q.started then
      held (q.request .dnsName) id + held q.nodename id + held q.servname id else 0) +
      held (q.request .nodename) id + held (q.request .servname) id +
      held (q.request .dnsName) id := by
  simp only [State.dispose, free_freed, leave_freed]

theorem dispose_suffix (s : State) (q : Query) : s.released <:+ (s.dispose q).released :=
  (((leave_suffix s q).trans (free_suffix _ _ _)).trans (free_suffix _ _ _)).trans
    (free_suffix _ _ _)

/-- What a query owns can be given back by it. -/
theorem Good.dispose_spared {s : State} (h : Good s) {i : Nat} {q : Query} (hq : s.query i = some q)
    (hdisposable : Disposable s q) :
    ∀ r ∈ (s.dispose q).released, r.byQuery = true → r.inContext = false := by
  have hrequest : ∀ f id, q.request f = some id → s.refers id = false := fun f id hf =>
    (h.owned hq (owns_of_request hf (hdisposable.own f id hf))).1
  have hresponse : ∀ id, q.nodename = some id ∨ q.servname = some id → s.refers id = false := by
    intro id hid
    refine (h.owned hq ?_).1
    unfold Query.owns
    rcases hid with hid | hid
    · have := held_pos hid
      omega
    · have := held_pos hid
      omega
  have hleave : ∀ r ∈ (s.leave q).released, r.byQuery = true → r.inContext = false := by
    unfold State.leave
    split
    · refine spared_free (spared_free (spared_free h.spared ?_) ?_) ?_
      · exact fun _ id hid => hrequest .dnsName id hid
      · exact fun _ id hid => by simpa using hresponse id (Or.inl hid)
      · exact fun _ id hid => by simpa using hresponse id (Or.inr hid)
    · exact h.spared
  refine spared_free (spared_free (spared_free hleave ?_) ?_) ?_
  · exact fun _ id hid => by simpa using hrequest .nodename id hid
  · exact fun _ id hid => by simpa using hrequest .servname id hid
  · exact fun _ id hid => by simpa using hrequest .dnsName id hid

theorem Good.queryFree {s : State} (h : Good s) {i : Nat}
    (hfine : ∀ q, s.query i = some q → Disposable s q) : Good (s.queryFree i) := by
  cases hq : s.query i with
  | none =>
      simp only [State.queryFree, hq]
      exact h
  | some q =>
      have hdisposable := hfine q hq
      rw [queryFree_eq hq]
      refine h.exchange hq none (by simp [State.setQuery, State.dispose])
        (by simp [State.setQuery, State.dispose]) (by simp [State.setQuery, State.dispose])
        (by simp [State.setQuery, State.dispose]) ?_ ?_ (h.dispose_spared hq hdisposable)
      · intro id
        rw [setQuery_freed, dispose_freed]
        omega
      · intro id
        have hnext : ((s.dispose q).setQuery i none).next = s.next := by
          simp [State.setQuery, State.dispose]
        have hnone : ∀ f, id ∈ s.lent → held (q.request f) id = 0 :=
          fun f hid => held_eq_zero fun heq => hdisposable.own f id heq hid
        have hunnamed : q.started = true → held (q.request .dnsName) id = 0 := by
          intro hstarted
          rw [hdisposable.unnamed hstarted]
          rfl
        rw [setQuery_freed, dispose_freed, hnext]
        simp only [ownsAt, Query.owns]
        by_cases hid : id ∈ s.lent
        · have h₁ := hnone .nodename hid
          have h₂ := hnone .servname hid
          have h₃ := hnone .dnsName hid
          rw [if_pos hid]
          split <;> omega
        · rw [if_neg hid]
          split
          · next hstarted =>
              have := hunnamed hstarted
              omega
          · omega

@[simp] theorem queryFree_lent (s : State) (i : Nat) : (s.queryFree i).lent = s.lent := by
  unfold State.queryFree
  split
  · rfl
  · simp [State.setQuery]

@[simp] theorem queryFree_length (s : State) (i : Nat) :
    (s.queryFree i).queries.length = s.queries.length := by
  unfold State.queryFree
  split
  · rfl
  · simp [State.setQuery]

/-- A query is gone after it was freed, and the others are as they were. -/
theorem query_queryFree (s : State) (i j : Nat) :
    (s.queryFree i).query j = if j = i then none else s.query j := by
  cases hq : s.query i with
  | none =>
      simp only [State.queryFree, hq]
      split
      · next heq => rw [heq, hq]
      · rfl
  | some q =>
      rw [queryFree_eq hq]
      obtain ⟨hlt, _⟩ := List.getElem?_eq_some_iff.mp (getElem_of_query hq)
      simp only [State.query, State.setQuery, State.dispose, free_queries, leave_queries,
        List.getElem?_set]
      by_cases hij : i = j
      · simp [hij, hij ▸ hlt]
      · simp [hij, Ne.symm hij]

theorem Disposable.of_lent {s s' : State} {q : Query} (h : Disposable s q) (hlent : s'.lent = s.lent) :
    Disposable s' q :=
  ⟨fun f id hf => hlent ▸ h.own f id hf, h.unnamed⟩

/-- Several queries are freed, one after the other. -/
theorem Good.queryFrees (is : List Nat) : ∀ {s : State}, Good s →
    (∀ i q, s.query i = some q → Disposable s q) →
      Good (is.foldl State.queryFree s) ∧ ∀ i, (is.foldl State.queryFree s).query i =
        if i ∈ is then none else s.query i := by
  induction is with
  | nil => intro s h _; exact ⟨h, fun i => by simp⟩
  | cons i rest ih =>
      intro s h hfine
      have hrest : ∀ j q, (s.queryFree i).query j = some q → Disposable (s.queryFree i) q := by
        intro j q hq
        rw [query_queryFree] at hq
        split at hq
        · cases hq
        · exact (hfine j q hq).of_lent (queryFree_lent s i)
      obtain ⟨hgood, hqueries⟩ := ih (h.queryFree (hfine i)) hrest
      refine ⟨hgood, fun j => ?_⟩
      rw [List.foldl_cons, hqueries j, query_queryFree]
      by_cases hj : j ∈ rest
      · simp [hj]
      · by_cases hji : j = i
        · simp [hji]
        · simp [hj, hji]

theorem queryFrees_length (is : List Nat) : ∀ s : State,
    (is.foldl State.queryFree s).queries.length = s.queries.length := by
  induction is with
  | nil => exact fun _ => rfl
  | cons i rest ih => exact fun s => (ih (s.queryFree i)).trans (queryFree_length s i)

theorem Good.contextFree {s : State} (h : Good s)
    (hfine : ∀ i q, s.query i = some q → Disposable s q) : Good s.contextFree := by
  obtain ⟨hgood, hqueries⟩ := Good.queryFrees (List.range s.queries.length) h hfine
  have hnone : ∀ o ∈ s.queriesFree.queries, o = none := by
    intro o ho
    obtain ⟨i, hi, hget⟩ := List.mem_iff_getElem.mp ho
    have hlt : i < s.queries.length := by
      rwa [State.queriesFree, queryFrees_length] at hi
    have hquery := hqueries i
    rw [if_pos (List.mem_range.mpr hlt)] at hquery
    unfold State.query at hquery
    rw [show (List.foldl State.queryFree s (List.range s.queries.length)).queries[i]? = some o from
      (List.getElem?_eq_getElem hi).trans (congrArg some hget)] at hquery
    exact hquery
  have hweight : ∀ id, s.contextFree.weight id ≤ s.queriesFree.weight id := by
    intro id
    have hzero : s.contextFree.inQueries id = 0 := by
      unfold State.inQueries
      refine List.sum_eq_zero fun n hn => ?_
      obtain ⟨o, ho, rfl⟩ := List.mem_map.mp hn
      rw [hnone o ho]
      rfl
    have hsame : s.contextFree.freed id = s.queriesFree.freed id := rfl
    have hcontext : s.contextFree.inContext id = 0 := rfl
    unfold State.weight
    omega
  refine ⟨fun id => (hweight id).trans (hgood.single id), fun id hid => ?_, ?_, ?_, ?_,
    hgood.spared⟩
  · exact Nat.le_zero.mp ((hweight id).trans (Nat.le_of_eq (hgood.fresh id hid)))
  · intro f id hf
    cases hf
  · intro id hid
    cases hid
  · intro id hid
    cases hid

/-! ### A new query -/

theorem Good.queryNew {s : State} (h : Good s) : Good s.queryNew := by
  have hzero : ∀ id, ownsAt s.lent id (some { request := s.context }) = 0 := by
    intro id
    simp only [ownsAt, Query.owns]
    have hnone : id ∉ s.lent → ∀ f, held (s.context f) id = 0 :=
      fun hid f => held_eq_zero fun heq => hid (h.context f id heq)
    split
    · simp [held]
    · next hid =>
        rw [hnone hid, hnone hid, hnone hid]
        simp [held]
  have hweight : ∀ id, s.queryNew.weight id = s.weight id := by
    intro id
    have hqueries : s.queryNew.inQueries id = s.inQueries id := by
      simp only [State.inQueries, State.queryNew, List.map_append, List.map_singleton,
        List.sum_append, List.sum_singleton, hzero id, Nat.add_zero]
    unfold State.weight
    rw [hqueries]
    rfl
  exact ⟨fun id => (hweight id).trans_le (h.single id), fun id hid => (hweight id).trans
    (h.fresh id hid), h.context, h.gone, h.old, h.spared⟩

theorem query_queryNew (s : State) :
    s.queryNew.query s.queries.length = some { request := s.context } := by
  simp [State.query, State.queryNew]

theorem Good.start {s : State} (h : Good s) (i : Nat) : Good (s.start i) := by
  cases hq : s.query i with
  | none =>
      simp only [State.start, hq]
      exact h
  | some q =>
      simp only [State.start, hq]
      refine h.exchange hq (some { q with started := true }) rfl rfl rfl (Nat.le_refl _)
        (fun _ => Nat.le_refl _) (fun id => ?_) h.spared
      simp only [setQuery_freed, ownsAt, Query.owns]
      omega

theorem Good.create {s : State} (h : Good s) {opts : List Opt} {valid : Bool}
    (hopts : ∀ o ∈ opts, s.context o.1 = none)
    (hvalid : valid = false → ∀ f, s.context f = none) : Good (s.create opts valid) := by
  obtain ⟨q, hq, hgood, hstarted, hcontext, hlent, hrequest⟩ :=
    Good.copyStrings opts h.queryNew (query_queryNew s) (by
      intro o ho id hid
      have hnone := (show s.context o.1 = some id from hid).symm.trans (hopts o ho)
      cases hnone)
  unfold State.create
  cases valid with
  | true => exact hgood.start _
  | false =>
      refine hgood.queryFree fun q' hq' => ?_
      obtain rfl : q = q' := Option.some.inj (hq.symm.trans hq')
      refine ⟨fun f id hf => ?_, fun hyes => ?_⟩
      · rw [hlent]
        rcases hrequest f id hf with hold | hout
        · have hnone := (show s.context f = some id from hold).symm.trans (hvalid rfl f)
          cases hnone
        · exact hout
      · rw [hstarted] at hyes
        cases hyes

/-! ### Responses -/

theorem Good.setCanonicalName {s : State} (h : Good s) (i : Nat) : Good (s.setCanonicalName i) := by
  cases hq : s.query i with
  | none =>
      simp only [State.setCanonicalName, hq]
      exact h
  | some q =>
      simp only [State.setCanonicalName, hq]
      refine h.exchange hq (some { q with nodename := s.strdup true }) (by simp [State.setQuery])
        (by simp [State.setQuery]) (by simp [State.setQuery]) ?_ ?_ ?_ ?_
      · simp [State.setQuery, bump_next]
      · intro id
        simp
      · intro id
        have hnew := held_strdup (s := s) true id
        have hnext : (((s.free false q.nodename).bump true).setQuery i
            (some { q with nodename := s.strdup true })).next = (s.bump true).next := by
          simp [State.setQuery, bump_next]
        rw [hnext, ← hnew]
        simp only [setQuery_freed, bump_freed, free_freed, ownsAt, Query.owns]
        omega
      · simp only [State.setQuery, bump_released]
        exact spared_free h.spared fun hb => absurd hb (by decide)

theorem le_bump (s : State) (source : Bool) : s.next ≤ (s.bump source).next := by
  rw [bump_next]
  split <;> omega

theorem Good.addNameInfo {s : State} (h : Good s) (i : Nat) (nodename servname : Bool) :
    Good (s.addNameInfo i nodename servname) := by
  cases hq : s.query i with
  | none =>
      simp only [State.addNameInfo, hq]
      exact h
  | some q =>
      simp only [State.addNameInfo, hq]
      by_cases hnode : q.nodename.isSome = true
      · rw [if_pos hnode]
        exact h
      · rw [if_neg hnode]
        have hle := le_bump s nodename
        by_cases hserv : q.servname.isSome = true
        · rw [if_pos hserv]
          refine h.exchange hq (some { q with nodename := s.strdup nodename })
            (by simp [State.setQuery]) (by simp [State.setQuery]) (by simp [State.setQuery]) hle
            (fun id => by simp) (fun id => ?_) (by simpa [State.setQuery] using h.spared)
          have hnew := held_strdup (s := s) nodename id
          simp only [setQuery_freed, bump_freed, ownsAt, Query.owns]
          show _ ≤ _ + if s.next ≤ id ∧ id < (s.bump nodename).next then 1 else 0
          omega
        · rw [if_neg hserv]
          have hle₂ := le_bump (s.bump nodename) servname
          refine h.exchange hq
            (some { q with
              nodename := s.strdup nodename
              servname := (s.bump nodename).strdup servname })
            (by simp [State.setQuery]) (by simp [State.setQuery]) (by simp [State.setQuery])
            (hle.trans hle₂) (fun id => by simp) (fun id => ?_)
            (by simpa [State.setQuery] using h.spared)
          have hnew := held_strdup (s := s) nodename id
          have hnew₂ := held_strdup (s := s.bump nodename) servname id
          have hboth : held (s.strdup nodename) id + held ((s.bump nodename).strdup servname) id ≤
              if s.next ≤ id ∧ id < ((s.bump nodename).bump servname).next then 1 else 0 := by
            rw [hnew, hnew₂]
            split <;> split <;> split <;> omega
          simp only [setQuery_freed, bump_freed, ownsAt, Query.owns]
          show _ ≤ _ + if s.next ≤ id ∧ id < ((s.bump nodename).bump servname).next then 1 else 0
          omega

/-! ### Options of the context -/

theorem inContext_update (s : State) (f : Field) (p : Option Nat) (id : Nat) :
    State.inContext { s with context := Function.update s.context f p } id + held (s.context f) id =
      s.inContext id + held p id := by
  cases f <;> simp only [State.inContext, Function.update_self, ne_eq, reduceCtorEq,
    not_false_eq_true, Function.update_of_ne] <;> omega

theorem owns_cons (q : Query) (lent : List Nat) (a id : Nat) :
    q.owns (a :: lent) id ≤ q.owns lent id := by
  unfold Query.owns
  by_cases hid : id ∈ lent
  · rw [if_pos hid, if_pos (List.mem_cons_of_mem a hid)]
  · rw [if_neg hid]
    split <;> omega

/-- A longer list of lent strings takes nothing from a query but a string it cannot have. -/
theorem inQueries_le (queries : List (Option Query)) (lent : List Nat) (a id : Nat) :
    (queries.map (ownsAt (a :: lent) id)).sum ≤ (queries.map (ownsAt lent id)).sum := by
  induction queries with
  | nil => exact Nat.le_refl _
  | cons o rest ih =>
      have hone : ownsAt (a :: lent) id o ≤ ownsAt lent id o := by
        cases o with
        | none => exact Nat.le_refl _
        | some q => exact owns_cons q lent a id
      simp only [List.map_cons, List.sum_cons]
      omega

theorem Good.setOption {s : State} (h : Good s) (o : Opt) : Good (s.setOption o) := by
  have hle := le_bump s o.2
  have hnext : (s.setOption o).next = (s.bump o.2).next := by
    simp [State.setOption, bump_next]
  have hqueries : ∀ id, (s.setOption o).inQueries id ≤ s.inQueries id := by
    intro id
    simp only [State.inQueries, State.setOption, bump_queries, free_queries]
    split
    · exact inQueries_le _ _ _ _
    · exact Nat.le_refl _
  have hfreed : ∀ id, (s.setOption o).freed id = s.freed id + held (s.context o.1) id := by
    intro id
    show ((s.free false (s.context o.1)).bump o.2).freed id = _
    rw [bump_freed, free_freed]
  have hweight : ∀ id, (s.setOption o).weight id ≤
      s.weight id + if s.next ≤ id ∧ id < (s.setOption o).next then 1 else 0 := by
    intro id
    have hcontext := inContext_update s o.1 (s.strdup o.2) id
    have hnew := held_strdup (s := s) o.2 id
    have hsame : (s.setOption o).inContext id =
        State.inContext { s with context := Function.update s.context o.1 (s.strdup o.2) } id := rfl
    have h₁ := hqueries id
    have h₂ := hfreed id
    rw [hnext, ← hnew]
    unfold State.weight
    omega
  obtain ⟨hsingle, hfresh⟩ := h.weighed (hnext ▸ hle) hweight
  refine ⟨hsingle, hfresh, ?_, ?_, ?_, ?_⟩
  · intro f id hf
    change Function.update s.context o.1 (s.strdup o.2) f = some id at hf
    show id ∈ if o.2 then s.next :: s.lent else s.lent
    by_cases hfo : f = o.1
    · subst hfo
      rw [Function.update_self] at hf
      unfold State.strdup at hf
      by_cases hsource : o.2 = true
      · rw [if_pos hsource] at hf ⊢
        rw [Option.some.inj hf]
        exact List.mem_cons_self
      · rw [if_neg hsource] at hf
        cases hf
    · rw [Function.update_of_ne hfo] at hf
      split
      · exact List.mem_cons_of_mem _ (h.context f id hf)
      · exact h.context f id hf
  · -- the string that is replaced has been released, and the others are where they were
    have hkept : ∀ id ∈ s.lent, (s.setOption o).refers id = true ∨ 0 < (s.setOption o).freed id := by
      intro id hid
      rw [hfreed, refers_iff]
      have hcontext := inContext_update s o.1 (s.strdup o.2) id
      have hsame : (s.setOption o).inContext id =
          State.inContext { s with context := Function.update s.context o.1 (s.strdup o.2) } id := rfl
      rcases h.gone id hid with hrefers | hgone
      · rw [refers_iff] at hrefers
        omega
      · omega
    intro id hid
    change id ∈ (if o.2 then s.next :: s.lent else s.lent) at hid
    split at hid
    · next hsource =>
        rcases List.mem_cons.mp hid with rfl | hid
        · refine Or.inl (refers_of_context (f := o.1) ?_)
          show Function.update s.context o.1 (s.strdup o.2) o.1 = some s.next
          rw [Function.update_self, State.strdup, if_pos hsource]
        · exact hkept id hid
    · exact hkept id hid
  · intro id hid
    rw [hnext]
    change id ∈ (if o.2 then s.next :: s.lent else s.lent) at hid
    split at hid
    · next hsource =>
        rw [bump_next, if_pos hsource]
        rcases List.mem_cons.mp hid with rfl | hid
        · omega
        · have := h.old id hid
          omega
    · have := h.old id hid
      omega
  · show ∀ r ∈ ((s.free false (s.context o.1)).bump o.2).released, _
    rw [bump_released]
    exact spared_free h.spared fun hb => absurd hb (by decide)

theorem Good.setOptions (opts : List Opt) : ∀ {s : State}, Good s →
    Good (opts.foldl State.setOption s) := by
  induction opts with
  | nil => exact fun h => h
  | cons o rest ih => exact fun h => ih (h.setOption o)

/-- A step that gives back only what it owns. -/
theorem Good.step {s : State} (h : Good s) {e : Event} (hfine : Fine s e) : Good (s.step e) := by
  cases e with
  | setOptions opts => exact Good.setOptions opts h
  | create opts valid => exact h.create hfine.1 hfine.2
  | setCanonicalName i => exact h.setCanonicalName i
  | addNameInfo i nodename servname => exact h.addNameInfo i nodename servname
  | queryFree i => exact h.queryFree hfine
  | contextFree => exact h.contextFree hfine

/-! ### What is in the list stays there -/

theorem Proper.of_suffix {s s' : State} (h : Proper s') (hs : s.released <:+ s'.released) :
    Proper s :=
  ⟨h.once.sublist (hs.sublist.map _), fun r hr => h.spared r (hs.subset hr)⟩

theorem foldl_suffix {β : Type} {f : State → β → State}
    (hf : ∀ s b, s.released <:+ (f s b).released) (l : List β) : ∀ s : State,
    s.released <:+ (l.foldl f s).released := by
  induction l with
  | nil => exact fun s => List.suffix_refl _
  | cons b rest ih => exact fun s => (hf s b).trans (ih (f s b))

theorem setOption_suffix (s : State) (o : Opt) : s.released <:+ (s.setOption o).released := by
  show _ <:+ ((s.free false (s.context o.1)).bump o.2).released
  rw [bump_released]
  exact free_suffix _ _ _

theorem copyString_suffix (s : State) (i : Nat) (o : Opt) :
    s.released <:+ (s.copyString i o).released := by
  unfold State.copyString
  split
  · exact List.suffix_refl _
  · simp only [State.setQuery, bump_released]
    exact free_suffix _ _ _

theorem queryFree_suffix (s : State) (i : Nat) : s.released <:+ (s.queryFree i).released := by
  cases hq : s.query i with
  | none =>
      simp only [State.queryFree, hq]
      exact List.suffix_refl _
  | some q =>
      rw [queryFree_eq hq]
      exact dispose_suffix s q

theorem start_released (s : State) (i : Nat) : (s.start i).released = s.released := by
  unfold State.start
  split <;> rfl

theorem create_suffix (s : State) (opts : List Opt) (valid : Bool) :
    s.released <:+ (s.create opts valid).released := by
  have hopts : s.released <:+
      (opts.foldl (fun t o => t.copyString s.queries.length o) s.queryNew).released :=
    foldl_suffix (fun t o => copyString_suffix t s.queries.length o) opts s.queryNew
  unfold State.create
  cases valid with
  | true =>
      simp only [if_true, start_released]
      exact hopts
  | false => exact List.IsSuffix.trans hopts (queryFree_suffix _ _)

theorem step_suffix (s : State) (e : Event) : s.released <:+ (s.step e).released := by
  cases e with
  | setOptions opts => exact foldl_suffix setOption_suffix opts s
  | create opts valid => exact create_suffix s opts valid
  | setCanonicalName i =>
      simp only [State.step, State.setCanonicalName]
      split
      · exact List.suffix_refl _
      · simp only [State.setQuery, bump_released]
        exact free_suffix _ _ _
  | addNameInfo i nodename servname =>
      simp only [State.step, State.addNameInfo]
      split
      · exact List.suffix_refl _
      · split
        · exact List.suffix_refl _
        · split
          · simp only [State.setQuery, bump_released]
            exact List.suffix_refl _
          · simp only [State.setQuery, bump_released]
            exact List.suffix_refl _
  | queryFree i => exact queryFree_suffix s i
  | contextFree => exact foldl_suffix queryFree_suffix _ s

/-! ### Steps that give back what they do not own -/

theorem not_proper_of_release {s : State} (id : Nat) (h : ⟨id, true, true⟩ ∈ s.released) :
    ¬ Proper s := by
  intro hproper
  have := hproper.spared _ h rfl
  cases this

theorem not_proper_of_freed {s : State} (id : Nat) (h : 2 ≤ s.freed id) : ¬ Proper s := by
  intro hproper
  have hle := List.nodup_iff_count_le_one.mp hproper.once id
  unfold State.freed at h
  omega

/-- The pointers a new query still has from the context. -/
def Shared (s : State) (q : Query) : Prop := ∀ f id, s.context f = some id → q.request f = some id

/-- An option for a string of the context releases it. -/
theorem copyStrings_bad {i : Nat} (opts : List Opt) : ∀ {s : State} {q : Query},
    s.query i = some q → Shared s q →
      (∃ q', (opts.foldl (fun s o => s.copyString i o) s).query i = some q' ∧
        Shared (opts.foldl (fun s o => s.copyString i o) s) q' ∧
        (opts.foldl (fun s o => s.copyString i o) s).context = s.context ∧
        ∀ o ∈ opts, s.context o.1 = none) ∨
      ¬ Proper (opts.foldl (fun s o => s.copyString i o) s) := by
  induction opts with
  | nil =>
      intro s q hq hshared
      exact Or.inl ⟨q, hq, hshared, rfl, by simp⟩
  | cons o rest ih =>
      intro s q hq hshared
      have hcontext := copyString_context hq o
      cases hfield : s.context o.1 with
      | some id =>
          refine Or.inr fun hproper => ?_
          have hrelease : ⟨id, true, true⟩ ∈ (s.copyString i o).released := by
            rw [copyString_eq hq]
            simp only [State.setQuery, bump_released]
            refine mem_free.mpr (Or.inl ⟨id, hshared o.1 id hfield, ?_⟩)
            rw [refers_of_context hfield]
          have hsuffix := foldl_suffix (f := fun s o => s.copyString i o)
            (fun s o => copyString_suffix s i o) rest (s.copyString i o)
          exact not_proper_of_release _ hrelease (hproper.of_suffix hsuffix)
      | none =>
          have hq' := query_copyString hq o
          have hshared' : Shared (s.copyString i o)
              { q with request := Function.update q.request o.1 (s.strdup o.2) } := by
            intro f id hf
            rw [hcontext] at hf
            have hne : f ≠ o.1 := by
              intro heq
              rw [heq, hfield] at hf
              cases hf
            show Function.update q.request o.1 (s.strdup o.2) f = some id
            rw [Function.update_of_ne hne]
            exact hshared f id hf
          rcases ih hq' hshared' with ⟨q₂, hq₂, hshared₂, hcontext₂, hnone⟩ | hbad
          · refine Or.inl ⟨q₂, hq₂, hshared₂, hcontext₂.trans hcontext, fun o' ho' => ?_⟩
            rcases List.mem_cons.mp ho' with rfl | ho'
            · exact hfield
            · exact hcontext ▸ hnone o' ho'
          · exact Or.inr hbad

/-- A string of the request is among the releases when the query is freed. -/
theorem mem_dispose {s : State} {q : Query} {f : Field} {id : Nat} (h : q.request f = some id) :
    ⟨id, true, s.refers id⟩ ∈ (s.dispose q).released := by
  unfold State.dispose
  cases f with
  | nodename =>
      refine mem_free.mpr (Or.inr (mem_free.mpr (Or.inr (mem_free.mpr (Or.inl ⟨id, h, ?_⟩)))))
      simp
  | servname =>
      refine mem_free.mpr (Or.inr (mem_free.mpr (Or.inl ⟨id, h, ?_⟩)))
      simp
  | dnsName =>
      refine mem_free.mpr (Or.inl ⟨id, h, ?_⟩)
      simp

theorem create_bad {s : State} {opts : List Opt} {valid : Bool}
    (h : ¬ Fine s (.create opts valid)) : ¬ Proper (s.create opts valid) := by
  have hshared : Shared s.queryNew { request := s.context } := fun f id hf => hf
  unfold State.create
  rcases copyStrings_bad opts (query_queryNew s) hshared with ⟨q, hq, hkept, hcontext, hnone⟩ | hbad
  · cases valid with
    | true => exact absurd ⟨hnone, fun hfalse => absurd hfalse (by decide)⟩ h
    | false =>
        -- an unknown option: the query is freed with what it has from the context
        obtain ⟨f, hf⟩ : ∃ f, s.context f ≠ none := by
          by_contra hcon
          refine h ⟨hnone, fun _ f => ?_⟩
          by_contra hf
          exact hcon ⟨f, hf⟩
        obtain ⟨id, hid⟩ := Option.ne_none_iff_exists'.mp hf
        have hheld : (opts.foldl (fun s' o => s'.copyString s.queries.length o) s.queryNew).context f
            = some id := by
          rw [hcontext]
          exact hid
        simp only [Bool.false_eq_true, if_false]
        rw [queryFree_eq hq]
        refine not_proper_of_release id ?_
        have hmem := mem_dispose (s := opts.foldl (fun s' o => s'.copyString s.queries.length o)
          s.queryNew) (hkept f id hheld)
        rwa [refers_of_context hheld] at hmem
  · cases valid with
    | true =>
        simp only [if_true]
        intro hproper
        exact hbad (hproper.of_suffix (start_released _ _ ▸ List.suffix_refl _))
    | false => exact fun hproper => hbad (hproper.of_suffix (queryFree_suffix _ _))

/-- A query that is not disposable releases a string of the context, or one for the second time. -/
theorem Good.queryFree_bad {s : State} (h : Good s) {i : Nat} {q : Query} (hq : s.query i = some q)
    (hbad : ¬ Disposable s q) : ¬ Proper (s.queryFree i) := by
  rw [queryFree_eq hq]
  by_cases hown : ∀ f id, q.request f = some id → id ∉ s.lent
  · -- the DNS name is freed in the state NONE and once more with the query
    have hnamed : ∃ id, q.started = true ∧ q.request .dnsName = some id := by
      by_contra hcon
      refine hbad ⟨hown, fun hstarted => ?_⟩
      cases hname : q.request .dnsName with
      | none => rfl
      | some id => exact absurd ⟨id, hstarted, hname⟩ hcon
    obtain ⟨id, hstarted, hname⟩ := hnamed
    refine not_proper_of_freed id ?_
    have hheld := held_pos hname
    rw [setQuery_freed, dispose_freed, if_pos hstarted]
    omega
  · -- a string that came from the context: it is there still, or the context has released it
    simp only [not_forall, not_not] at hown
    obtain ⟨f, id, hf, hid⟩ := hown
    rcases h.gone id hid with hrefers | hgone
    · have hmem := mem_dispose (s := s) hf
      rw [hrefers] at hmem
      exact not_proper_of_release _ hmem
    · refine not_proper_of_freed id ?_
      have hheld := held_pos hf
      rw [setQuery_freed, dispose_freed]
      cases f <;> omega

/-- Of several queries that are freed, the first one that is not disposable does it. -/
theorem Good.queryFrees_bad (is : List Nat) : ∀ {s : State}, Good s →
    (∃ i ∈ is, ∃ q, s.query i = some q ∧ ¬ Disposable s q) →
      ¬ Proper (is.foldl State.queryFree s) := by
  induction is with
  | nil =>
      intro s _ hbad
      obtain ⟨i, hi, _⟩ := hbad
      cases hi
  | cons i rest ih =>
      intro s h hbad
      by_cases hfirst : ∀ q, s.query i = some q → Disposable s q
      · obtain ⟨j, hj, q, hq, hnot⟩ := hbad
        have hji : j ≠ i := by
          rintro rfl
          exact hnot (hfirst q hq)
        have hrest := (List.mem_cons.mp hj).resolve_left hji
        refine ih (h.queryFree hfirst) ⟨j, hrest, q, ?_, fun hdisposable => hnot ?_⟩
        · rw [query_queryFree, if_neg hji]
          exact hq
        · exact hdisposable.of_lent (queryFree_lent s i).symm
      · simp only [not_forall] at hfirst
        obtain ⟨q, hq, hnot⟩ := hfirst
        intro hproper
        exact h.queryFree_bad hq hnot (hproper.of_suffix (foldl_suffix queryFree_suffix rest _))

/-- A step that does not keep to what it owns is found out. -/
theorem Good.step_bad {s : State} (h : Good s) {e : Event} (hbad : ¬ Fine s e) :
    ¬ Proper (s.step e) := by
  cases e with
  | setOptions opts => exact absurd trivial hbad
  | create opts valid => exact create_bad hbad
  | setCanonicalName i => exact absurd trivial hbad
  | addNameInfo i nodename servname => exact absurd trivial hbad
  | queryFree i =>
      simp only [Fine, not_forall] at hbad
      obtain ⟨q, hq, hnot⟩ := hbad
      exact h.queryFree_bad hq hnot
  | contextFree =>
      simp only [Fine, not_forall] at hbad
      obtain ⟨i, q, hq, hnot⟩ := hbad
      obtain ⟨hlt, _⟩ := List.getElem?_eq_some_iff.mp (getElem_of_query hq)
      have hfrees := h.queryFrees_bad _ ⟨i, List.mem_range.mpr hlt, q, hq, hnot⟩
      exact fun hproper => hfrees ⟨hproper.once, hproper.spared⟩

/-! ### Whole programs -/

theorem run_snoc (events : List Event) (e : Event) :
    run (events ++ [e]) = (run events).step e := by
  simp [run]

/-- Every step of the program gives back only what it owns. -/
def AllFine (events : List Event) : Prop :=
  ∀ before e after, events = before ++ e :: after → Fine (run before) e

theorem AllFine.of_snoc {events : List Event} {e : Event} (h : AllFine (events ++ [e])) :
    AllFine events ∧ Fine (run events) e := by
  refine ⟨fun before a after heq => h before a (after ++ [e]) ?_, h events e [] rfl⟩
  rw [heq, List.append_assoc, List.cons_append]

theorem AllFine.snoc {events : List Event} {e : Event} (h : AllFine events)
    (he : Fine (run events) e) : AllFine (events ++ [e]) := by
  intro before a after heq
  rcases List.eq_nil_or_concat after with rfl | ⟨middle, z, rfl⟩
  · obtain ⟨rfl, hae⟩ := List.append_inj' heq rfl
    obtain rfl := (List.cons.inj hae).1
    exact he
  · rw [List.concat_eq_append, ← List.cons_append, ← List.append_assoc] at heq
    exact h before a middle (List.append_inj' heq rfl).1

theorem good_empty : Good {} where
  single _ := Nat.zero_le _
  fresh _ _ := rfl
  context _ _ h := by cases h
  gone _ h := by cases h
  old _ h := by cases h
  spared _ h := by cases h

theorem good_of_allFine (events : List Event) : AllFine events → Good (run events) := by
  induction events using List.reverseRecOn with
  | nil => exact fun _ => good_empty
  | append_singleton events e ih =>
      intro h
      obtain ⟨hbefore, he⟩ := h.of_snoc
      rw [run_snoc]
      exact (ih hbefore).step he

/--
**A program releases each string at most once, and spares those of the context, exactly if each of
its steps gives back only what it owns.**
-/
theorem proper_iff_fine (events : List Event) :
    Proper (run events) ↔
      ∀ before e after, events = before ++ e :: after → Fine (run before) e := by
  refine ⟨?_, fun h => (good_of_allFine events h).proper⟩
  induction events using List.reverseRecOn with
  | nil =>
      intro _ before e after heq
      simp at heq
  | append_singleton events e ih =>
      intro hproper
      rw [run_snoc] at hproper
      have hbefore : AllFine events := ih (hproper.of_suffix (step_suffix _ e))
      refine AllFine.snoc hbefore ?_
      by_contra hbad
      exact (good_of_allFine events hbefore).step_bad hbad hproper

/-- The DNS name of a query is freed twice, and a query with a name frees that of the context. -/
theorem dns_name_released_twice :
    ¬ Proper (run [.create (dnsOptions true) true, .queryFree 0]) ∧
      ¬ Proper (run [.setOptions [(.nodename, true)], .create (forwardOptions true true) true]) := by
  constructor
  · exact not_proper_of_freed 0 (by decide)
  · exact not_proper_of_release 0 (by decide)

end Netresolve.Strings
