/-
The list of requests is the queue it is meant to be.

`Represents` relates the memory to the queue: the nodes form a ring that leads through the
requests in the order of issue, each node has the query of its request, and the flag tells
whether the callback of that query ran.  Every call keeps the relation.  A callback can come
before its request is in the list; it then writes to a node that is not linked yet.
-/
import Netresolve.Core.Asyncns
import Mathlib.Data.List.Induction

namespace Netresolve.Asyncns

open Ring

def Queue.addresses (Q : Queue) : List Nat := Q.tickets.map (·.address)

/-- The memory holds the queue. -/
structure Represents (s : State) (Q : Queue) : Prop where
  ring : Seg s.nodes list Q.addresses list
  distinct : (list :: Q.addresses).Nodup
  data : ∀ t ∈ Q.tickets, valueOf s.nodes t.address = some ⟨t.query, decide (t.serial ∈ Q.ran)⟩
  only : ∀ a, (s.nodes a).isSome → a = list ∨ a ∈ Q.addresses
  head : (s.nodes list).isSome
  live : ∀ i a, s.live i = some a ↔ ∃ t ∈ Q.tickets, t.query = i ∧ t.handle = a
  queries : (Q.tickets.map (·.query)).Nodup
  order : Q.tickets.Pairwise fun t u => t.serial < u.serial
  old : ∀ t ∈ Q.tickets, t.serial < Q.next
  past : ∀ n ∈ Q.ran, n < Q.next

/-! ### The two operations on the list -/

theorem enqueue_eq {h : Heap Data} {p q : Nat} (hhead : (h list).isSome) (hq : (h q).isSome)
    (hp : (h p).isSome) (hlast : previousOf h list = some p) (hqp : q ≠ p) :
    ∃ h', enqueue h q = some h' ∧ Appended h h' p q list ∧ valueOf h' = valueOf h := by
  obtain ⟨l, hl, _, hlp⟩ := exists_of_isSome hhead
  obtain rfl : l.previous = p := Option.some.inj (hlp.symm.trans hlast)
  obtain ⟨h₁, hw₁, hn₁, hp₁, hv₁⟩ := setPrevious_eq hq l.previous
  have hq₁ : (h₁ q).isSome := by rwa [isSome_iff_value, hv₁, ← isSome_iff_value]
  obtain ⟨h₂, hw₂, hn₂, hp₂, hv₂⟩ := setNext_eq hq₁ list
  have hq₂ : (h₂ q).isSome := by rwa [isSome_iff_value, hv₂, ← isSome_iff_value]
  obtain ⟨n₂, hn, _, hnp⟩ := exists_of_isSome hq₂
  have hprevious : n₂.previous = l.previous := by
    rw [hp₂, hp₁, Function.update_self] at hnp
    exact (Option.some.inj hnp).symm
  have hlast₂ : (h₂ l.previous).isSome := by
    rwa [isSome_iff_value, hv₂, hv₁, ← isSome_iff_value]
  obtain ⟨h₃, hw₃, hn₃, hp₃, hv₃⟩ := setNext_eq hlast₂ q
  have hq₃ : (h₃ q).isSome := by rwa [isSome_iff_value, hv₃, ← isSome_iff_value]
  obtain ⟨n₃, hm, hmn, _⟩ := exists_of_isSome hq₃
  have hnext : n₃.next = list := by
    rw [hn₃, Function.update_of_ne hqp, hn₂, Function.update_self] at hmn
    exact (Option.some.inj hmn).symm
  have hhead₃ : (h₃ list).isSome := by
    rwa [isSome_iff_value, hv₃, hv₂, hv₁, ← isSome_iff_value]
  obtain ⟨h₄, hw₄, hn₄, hp₄, hv₄⟩ := setPrevious_eq hhead₃ q
  refine ⟨h₄, ?_, ⟨?_, ?_⟩, ?_⟩
  · simp only [enqueue, Option.bind_eq_bind, hl, Option.bind_some, hw₁, hw₂, hn, hprevious, hw₃, hm,
      hnext, hw₄]
  · rw [hn₄, hn₃, hn₂, hn₁]
  · rw [hp₄, hp₃, hp₂, hp₁]
  · rw [hv₄, hv₃, hv₂, hv₁]

theorem dequeue_eq {h : Heap Data} {p q n : Nat} (hq : (h q).isSome) (hp : (h p).isSome)
    (hn : (h n).isSome) (hprevious : previousOf h q = some p) (hnext : nextOf h q = some n)
    (hqp : q ≠ p) :
    ∃ h', dequeue h q = some h' ∧ Removed h h' p n ∧ valueOf h' = valueOf h := by
  obtain ⟨m, hm, hmn, hmp⟩ := exists_of_isSome hq
  obtain rfl : m.previous = p := Option.some.inj (hmp.symm.trans hprevious)
  obtain rfl : m.next = n := Option.some.inj (hmn.symm.trans hnext)
  obtain ⟨h₁, hw₁, hn₁, hp₁, hv₁⟩ := setNext_eq hp m.next
  have hq₁ : (h₁ q).isSome := by rwa [isSome_iff_value, hv₁, ← isSome_iff_value]
  obtain ⟨m₁, hm₁, hmn₁, hmp₁⟩ := exists_of_isSome hq₁
  have hsame : m₁.next = m.next ∧ m₁.previous = m.previous := by
    rw [hn₁, Function.update_of_ne hqp, hmn] at hmn₁
    rw [hp₁, hmp] at hmp₁
    exact ⟨(Option.some.inj hmn₁).symm, (Option.some.inj hmp₁).symm⟩
  have hn₂ : (h₁ m.next).isSome := by rwa [isSome_iff_value, hv₁, ← isSome_iff_value]
  obtain ⟨h₂, hw₂, hn₃, hp₃, hv₃⟩ := setPrevious_eq hn₂ m.previous
  refine ⟨h₂, ?_, ⟨?_, ?_⟩, ?_⟩
  · simp only [dequeue, Option.bind_eq_bind, hm, Option.bind_some, hw₁, hm₁, hsame.1, hsame.2, hw₂]
  · rw [hn₃, hn₁]
  · rw [hp₃, hp₁]
  · rw [hv₃, hv₁]

/-! ### Tickets -/

namespace Represents

variable {s : State} {Q : Queue}

theorem eq_of_address (h : Represents s Q) {t u : Ticket} (ht : t ∈ Q.tickets) (hu : u ∈ Q.tickets)
    (heq : t.address = u.address) : t = u :=
  List.inj_on_of_nodup_map (List.nodup_cons.mp h.distinct).2 ht hu heq

theorem eq_of_query (h : Represents s Q) {t u : Ticket} (ht : t ∈ Q.tickets) (hu : u ∈ Q.tickets)
    (heq : t.query = u.query) : t = u :=
  List.inj_on_of_nodup_map h.queries ht hu heq

theorem eq_of_serial (h : Represents s Q) {t u : Ticket} (ht : t ∈ Q.tickets) (hu : u ∈ Q.tickets)
    (heq : t.serial = u.serial) : t = u := by
  have hserials : (Q.tickets.map (·.serial)).Nodup :=
    List.pairwise_map.mpr (h.order.imp fun hlt => Nat.ne_of_lt hlt)
  exact List.inj_on_of_nodup_map hserials ht hu heq

theorem find_query (h : Represents s Q) {t : Ticket} (ht : t ∈ Q.tickets) :
    Q.tickets.find? (·.query = t.query) = some t := by
  cases hfind : Q.tickets.find? (·.query = t.query) with
  | none =>
      have := List.find?_eq_none.mp hfind t ht
      simp at this
  | some u =>
      have hquery : u.query = t.query := by simpa using List.find?_some hfind
      rw [h.eq_of_query (List.mem_of_find?_eq_some hfind) ht hquery]

theorem address_ne (h : Represents s Q) {t : Ticket} (ht : t ∈ Q.tickets) : t.address ≠ list :=
  fun heq => (List.nodup_cons.mp h.distinct).1 (heq ▸ List.mem_map_of_mem ht)

theorem isSome (h : Represents s Q) : ∀ a ∈ list :: Q.addresses, (s.nodes a).isSome := by
  intro a ha
  rcases List.mem_cons.mp ha with rfl | ha
  · exact h.head
  · exact h.ring.isSome a ha

/-! ### Callbacks -/

theorem callback (h : Represents s Q) (i : Nat) :
    ∃ s', s.callback i = some s' ∧ Represents s' (Q.finish i) := by
  cases hlive : s.live i with
  | none =>
      have hfind : Q.tickets.find? (·.query = i) = none := by
        refine List.find?_eq_none.mpr fun t ht => ?_
        simp only [decide_eq_true_eq]
        intro hquery
        have := (h.live i t.handle).mpr ⟨t, ht, hquery, rfl⟩
        rw [hlive] at this
        cases this
      refine ⟨s, by simp [State.callback, hlive], ?_⟩
      simp only [Queue.finish, hfind]
      exact h
  | some handle =>
      obtain ⟨t, ht, hquery, hhandle⟩ := (h.live i handle).mp hlive
      subst hquery hhandle
      obtain ⟨nodes, hset, hnext, hprevious, hvalue⟩ := setValue_eq (h.data t ht)
        fun d => { d with done := true }
      refine ⟨{ s with nodes }, by simp [State.callback, hlive, Ticket.handle, hset], ?_⟩
      simp only [Queue.finish, h.find_query ht]
      have hnodes : ∀ a, (nodes a).isSome ↔ (s.nodes a).isSome := by
        intro a
        rw [isSome_iff_value, isSome_iff_value, hvalue]
        by_cases ha : a = t.address
        · subst ha
          rw [Function.update_self, h.data t ht]
          simp
        · rw [Function.update_of_ne ha]
      refine ⟨h.ring.frame (fun _ _ => by rw [hnext]) (fun _ _ => by rw [hprevious]), h.distinct, ?_,
        fun a ha => h.only a ((hnodes a).mp ha), (hnodes list).mpr h.head, h.live, h.queries, h.order,
        h.old, ?_⟩
      · intro u hu
        show valueOf nodes u.address = some ⟨u.query, decide (u.serial ∈ t.serial :: Q.ran)⟩
        rw [hvalue]
        by_cases hut : u = t
        · subst hut
          simp
        · have haddress : u.address ≠ t.address := fun heq => hut (h.eq_of_address hu ht heq)
          have hserial : u.serial ≠ t.serial := fun heq => hut (h.eq_of_serial hu ht heq)
          rw [Function.update_of_ne haddress, h.data u hu]
          simp [hserial]
      · intro n hn
        rcases List.mem_cons.mp hn with rfl | hn
        · exact h.old t ht
        · exact h.past n hn

theorem callbacks (ended : List Nat) : ∀ {s : State} {Q : Queue}, Represents s Q →
    ∃ s', ended.foldlM State.callback s = some s' ∧
      Represents s' (ended.foldl Queue.finish Q) := by
  induction ended with
  | nil => exact fun h => ⟨_, rfl, h⟩
  | cons i rest ih =>
      intro s Q h
      obtain ⟨s₁, hs₁, h₁⟩ := h.callback i
      obtain ⟨s', hs', h'⟩ := ih h₁
      refine ⟨s', ?_, h'⟩
      rw [List.foldlM_cons, hs₁]
      exact hs'

/-! ### Taking a request out -/

theorem mem_drop {q : Nat} {t : Ticket} :
    t ∈ (Q.drop q).tickets ↔ t ∈ Q.tickets ∧ t.address ≠ q := by
  simp [Queue.drop, List.mem_filter]

theorem drop_tickets (h : Represents s Q) {T₁ T₂ : List Ticket} {t : Ticket}
    (hsplit : Q.tickets = T₁ ++ t :: T₂) : (Q.drop t.address).tickets = T₁ ++ T₂ := by
  have hnodup := (List.nodup_cons.mp h.distinct).2
  unfold Queue.addresses at hnodup
  rw [hsplit, List.map_append, List.map_cons] at hnodup
  obtain ⟨_, hnodup₂, hdisjoint⟩ := List.nodup_append.mp hnodup
  have hkeep₁ : T₁.filter (·.address ≠ t.address) = T₁ := by
    refine List.filter_eq_self.mpr fun u hu => ?_
    have := hdisjoint u.address (List.mem_map_of_mem hu) t.address List.mem_cons_self
    simpa using this
  have hkeep₂ : T₂.filter (·.address ≠ t.address) = T₂ := by
    refine List.filter_eq_self.mpr fun u hu => ?_
    have hne : u.address ≠ t.address := fun heq =>
      (List.nodup_cons.mp hnodup₂).1 (heq ▸ List.mem_map_of_mem hu)
    simpa using hne
  simp only [Queue.drop, hsplit, List.filter_append, List.filter_cons, ne_eq, not_true_eq_false,
    decide_false, Bool.false_eq_true, if_false]
  exact congrArg₂ _ hkeep₁ hkeep₂

theorem update_none {β : Type} (nodes : Heap Data) {q x : Nat} (f : Node Data → β) (hx : x ≠ q) :
    (Function.update nodes q none x).map f = (nodes x).map f := by
  rw [Function.update_of_ne hx]

/-- The query of a request that is taken out is gone. -/
theorem live_drop (h : Represents s Q) {t : Ticket} (ht : t ∈ Q.tickets) (i : Nat) (a : Handle) :
    Function.update s.live t.query none i = some a ↔
      ∃ u ∈ (Q.drop t.address).tickets, u.query = i ∧ u.handle = a := by
  by_cases hi : i = t.query
  · subst hi
    rw [Function.update_self]
    refine ⟨fun hnone => absurd hnone (by simp), ?_⟩
    rintro ⟨u, hu, hquery, _⟩
    obtain ⟨hmem, hne⟩ := mem_drop.mp hu
    exact absurd (congrArg Ticket.address (h.eq_of_query hmem ht hquery)) hne
  · rw [Function.update_of_ne hi, h.live i a]
    constructor
    · rintro ⟨u, hu, hquery, hhandle⟩
      refine ⟨u, mem_drop.mpr ⟨hu, fun heq => hi ?_⟩, hquery, hhandle⟩
      rw [← hquery, h.eq_of_address hu ht heq]
    · rintro ⟨u, hu, hquery, hhandle⟩
      exact ⟨u, (mem_drop.mp hu).1, hquery, hhandle⟩

/-- The query of a new request is one more. -/
theorem live_append (h : Represents s Q) {t : Ticket} (hnew : ∀ u ∈ Q.tickets, u.query ≠ t.query)
    (i : Nat) (a : Handle) : Function.update s.live t.query (some t.handle) i = some a ↔
      ∃ u ∈ Q.tickets ++ [t], u.query = i ∧ u.handle = a := by
  by_cases hi : i = t.query
  · subst hi
    rw [Function.update_self]
    constructor
    · intro heq
      exact ⟨t, List.mem_append_right _ List.mem_cons_self, rfl, Option.some.inj heq⟩
    · rintro ⟨u, hu, hquery, hhandle⟩
      rcases List.mem_append.mp hu with hu | hu
      · exact absurd hquery (hnew u hu)
      · rw [← hhandle, List.mem_singleton.mp hu]
  · rw [Function.update_of_ne hi, h.live i a]
    constructor
    · rintro ⟨u, hu, hquery, hhandle⟩
      exact ⟨u, List.mem_append_left _ hu, hquery, hhandle⟩
    · rintro ⟨u, hu, hquery, hhandle⟩
      rcases List.mem_append.mp hu with hu | hu
      · exact ⟨u, hu, hquery, hhandle⟩
      · rw [List.mem_singleton.mp hu] at hquery
        exact absurd hquery.symm hi

/-- A request is taken out of the list, and its block and its query are freed. -/
theorem taken (h : Represents s Q) {t : Ticket} (ht : t ∈ Q.tickets) :
    ∃ nodes, dequeue s.nodes t.address = some nodes ∧
      Represents ⟨Function.update nodes t.address none, Function.update s.live t.query none⟩
        (Q.drop t.address) := by
  obtain ⟨T₁, T₂, hsplit⟩ := List.append_of_mem ht
  have hdrop := h.drop_tickets hsplit
  have haddresses : Q.addresses = T₁.map (·.address) ++ t.address :: T₂.map (·.address) := by
    simp [Queue.addresses, hsplit]
  have hleft : (Q.drop t.address).addresses = T₁.map (·.address) ++ T₂.map (·.address) := by
    simp [Queue.addresses, hdrop]
  have hdistinct := h.distinct
  have hring := h.ring
  have hall := h.isSome
  rw [haddresses] at hdistinct hring hall
  generalize T₁.map (·.address) = L₁ at *
  generalize T₂.map (·.address) = L₂ at *
  -- the neighbours of the node
  obtain ⟨hs₁, hs₂⟩ := Seg.split.mp hring
  obtain ⟨p, hp, hprevious⟩ := hs₁.last
  obtain ⟨n, hn, hnext⟩ := hs₂.first
  have hp' : p ∈ list :: (L₁ ++ t.address :: L₂) := by
    rcases List.mem_cons.mp hp with rfl | hp
    · exact List.mem_cons_self
    · exact List.mem_cons_of_mem _ (List.mem_append_left _ hp)
  have hn' : n ∈ list :: (L₁ ++ t.address :: L₂) := by
    rcases List.mem_append.mp hn with hn | hn
    · exact List.mem_cons_of_mem _ (List.mem_append_right _ (List.mem_cons_of_mem _ hn))
    · rw [List.mem_singleton.mp hn]
      exact List.mem_cons_self
  have htnew : t.address ∉ list :: (L₁ ++ L₂) := by
    have hperm : (list :: (L₁ ++ t.address :: L₂)).Perm (t.address :: list :: (L₁ ++ L₂)) :=
      (List.perm_middle.cons list).trans (List.Perm.swap _ _ _)
    exact (List.nodup_cons.mp (hperm.nodup_iff.mp hdistinct)).1
  have htp : t.address ≠ p := by
    intro heq
    refine htnew (heq ▸ ?_)
    rcases List.mem_cons.mp hp with rfl | hp
    · exact List.mem_cons_self
    · exact List.mem_cons_of_mem _ (List.mem_append_left _ hp)
  obtain ⟨nodes, hdequeue, hremoved, hvalue⟩ := dequeue_eq
    (hall _ (List.mem_cons_of_mem _ (List.mem_append_right _ List.mem_cons_self))) (hall p hp')
    (hall n hn') hprevious hnext htp
  have htargets : (L₁ ++ t.address :: (L₂ ++ [list])).Nodup := by
    have hperm := (List.perm_append_singleton list (L₁ ++ t.address :: L₂)).nodup_iff.mpr hdistinct
    simpa using hperm
  have hseg := hs₁.remove hs₂ hprevious hnext hremoved hdistinct htargets
  have hfields : ∀ x ∈ list :: (L₁ ++ L₂), x ≠ t.address := fun x hx heq => htnew (heq ▸ hx)
  refine ⟨nodes, hdequeue, ?_⟩
  refine ⟨?_, ?_, ?_, ?_, ?_, ?_, ?_, ?_, ?_, h.past⟩
  · rw [hleft]
    refine hseg.frame (fun x hx => update_none _ _ (hfields x hx)) fun x hx => ?_
    refine update_none _ _ (hfields x ?_)
    rcases List.mem_append.mp hx with hx | hx
    · exact List.mem_cons_of_mem _ hx
    · rw [List.mem_singleton.mp hx]
      exact List.mem_cons_self
  · rw [hleft]
    exact hdistinct.sublist
      ((List.append_sublist_append_left L₁).mpr (List.sublist_cons_self _ _) |>.cons_cons _)
  · intro u hu
    obtain ⟨hmem, hne⟩ := mem_drop.mp hu
    have hkept : valueOf nodes u.address = valueOf s.nodes u.address := by rw [hvalue]
    exact (update_none _ _ hne).trans (hkept.trans (h.data u hmem))
  · intro a ha
    by_cases hat : a = t.address
    · subst hat
      simp at ha
    · simp only [Function.update_of_ne hat] at ha
      rw [isSome_iff_value, hvalue, ← isSome_iff_value] at ha
      rcases h.only a ha with hlist | hmem
      · exact Or.inl hlist
      · obtain ⟨u, hu, rfl⟩ := List.mem_map.mp hmem
        exact Or.inr (List.mem_map_of_mem (mem_drop.mpr ⟨hu, hat⟩))
  · simp only [Function.update_of_ne (hfields list List.mem_cons_self)]
    rw [isSome_iff_value, hvalue, ← isSome_iff_value]
    exact h.head
  · exact h.live_drop ht
  · exact h.queries.sublist (List.filter_sublist.map _)
  · exact h.order.sublist List.filter_sublist
  · exact fun u hu => h.old u (mem_drop.mp hu).1

theorem exists_ticket (h : Represents s Q) {q : Nat} (hq : ¬ (q = list ∨ (s.nodes q).isNone)) :
    ∃ t ∈ Q.tickets, t.address = q := by
  simp only [not_or, Option.isNone_iff_eq_none] at hq
  have hsome : (s.nodes q).isSome := Option.isSome_iff_ne_none.mpr hq.2
  exact List.mem_map.mp ((h.only q hsome).resolve_left hq.1)

theorem query_eq (h : Represents s Q) {t : Ticket} (ht : t ∈ Q.tickets) :
    ∃ n, s.nodes t.address = some n ∧ n.value.query = t.query := by
  obtain ⟨n, hn, hvalue⟩ := Option.map_eq_some_iff.mp (h.data t ht)
  exact ⟨n, hn, by rw [hvalue]⟩

theorem live_eq (h : Represents s Q) {t : Ticket} (ht : t ∈ Q.tickets) :
    s.live t.query = some t.handle := (h.live _ _).mpr ⟨t, ht, rfl, rfl⟩

theorem collect (h : Represents s Q) {t : Ticket} (ht : t ∈ Q.tickets)
    (services : Option ServiceList) (usable : Bool) :
    (∃ s', s.collect t.address services usable = some s' ∧ Represents s' (Q.drop t.address) ∧
        (releases t.named services = true ∧ usable = true)) ∨
      s.collect t.address services usable = none ∧
        ¬ (releases t.named services = true ∧ usable = true) := by
  obtain ⟨nodes, hdequeue, hleft⟩ := h.taken ht
  obtain ⟨n, hn, hquery⟩ := h.query_eq ht
  have hlive := h.live_eq ht
  by_cases hgood : releases t.named services = true ∧ usable = true
  · refine Or.inl ⟨_, ?_, hleft, hgood⟩
    simp only [State.collect, State.removeQuery, Option.bind_eq_bind, hn, Option.bind_some,
      hdequeue, hquery, State.free, State.queryFree, hlive, Ticket.handle, hgood, if_true]
  · refine Or.inr ⟨?_, hgood⟩
    simp only [State.collect, State.removeQuery, Option.bind_eq_bind, hn, Option.bind_some,
      hdequeue, hquery, State.free, State.queryFree, hlive, Ticket.handle]
    by_cases hreleases : releases t.named services = true
    · have husable : ¬ usable = true := fun hu => hgood ⟨hreleases, hu⟩
      simp only [hreleases, if_true, Option.bind_some, if_neg husable]
    · simp only [if_neg hreleases, Option.bind_none]

theorem cancel (h : Represents s Q) {t : Ticket} (ht : t ∈ Q.tickets)
    (services : Option ServiceList) :
    (∃ s', s.cancel t.address services = some s' ∧ Represents s' (Q.drop t.address) ∧
        releases t.named services = true) ∨
      s.cancel t.address services = none ∧ ¬ releases t.named services = true := by
  obtain ⟨nodes, hdequeue, hleft⟩ := h.taken ht
  obtain ⟨n, hn, hquery⟩ := h.query_eq ht
  have hlive := h.live_eq ht
  by_cases hgood : releases t.named services = true
  · refine Or.inl ⟨_, ?_, hleft, hgood⟩
    simp only [State.cancel, State.queryFree, Option.bind_eq_bind, hn, Option.bind_some, hdequeue,
      hquery, State.free, hlive, Ticket.handle, hgood, if_true]
  · refine Or.inr ⟨?_, hgood⟩
    simp only [State.cancel, State.queryFree, Option.bind_eq_bind, hn, Option.bind_some, hquery,
      hlive, Ticket.handle, if_neg hgood, Option.bind_none]

/-- Nothing is taken out when there is no such request. -/
theorem drop_absent (h : Represents s Q) {q : Nat} (hq : q = list ∨ (s.nodes q).isNone) :
    Q.drop q = Q := by
  have hkeep : Q.tickets.filter (·.address ≠ q) = Q.tickets := by
    refine List.filter_eq_self.mpr fun t ht => ?_
    have hne : t.address ≠ q := by
      rintro rfl
      rcases hq with hlist | hnone
      · exact h.address_ne ht hlist
      · obtain ⟨n, hn, _⟩ := h.query_eq ht
        rw [hn] at hnone
        cases hnone
    simpa using hne
  unfold Queue.drop
  rw [hkeep]

/-! ### Issuing a request -/

/-- The new block before it is linked, with the flag set if the query ended at once. -/
theorem prepared (s : State) (q query : Nat) (named early : Bool) :
    ∃ s', (s.alloc q).created q query named early = some s' ∧
      s'.live = Function.update s.live query (some ⟨q, named⟩) ∧
      (∀ x, x ≠ q → nextOf s'.nodes x = nextOf s.nodes x ∧
        previousOf s'.nodes x = previousOf s.nodes x) ∧
      valueOf s'.nodes = Function.update (valueOf s.nodes) q (some ⟨0, early⟩) := by
  have hvalue : valueOf (s.alloc q).nodes = Function.update (valueOf s.nodes) q (some {}) :=
    map_update ..
  have hfields : ∀ x, x ≠ q → nextOf (s.alloc q).nodes x = nextOf s.nodes x ∧
      previousOf (s.alloc q).nodes x = previousOf s.nodes x := by
    intro x hx
    simp [State.alloc, nextOf, previousOf, hx]
  cases early with
  | false => exact ⟨_, rfl, rfl, hfields, hvalue⟩
  | true =>
      have hq : valueOf (s.alloc q).nodes q = some {} := by rw [hvalue, Function.update_self]
      obtain ⟨nodes, hset, hnext, hprevious, hnew⟩ := setValue_eq hq
        fun d => { d with done := true }
      refine ⟨⟨nodes, Function.update s.live query (some ⟨q, named⟩)⟩, ?_, rfl, ?_, ?_⟩
      · have hsame : (s.alloc q).live = s.live := rfl
        simp [State.created, State.callback, hset, hsame]
      · intro x hx
        rw [hnext, hprevious]
        exact hfields x hx
      · rw [hnew, hvalue, Function.update_idem]

theorem issue (h : Represents s Q) (kind : Kind) {q query : Nat} (early : Bool)
    (hfree : s.nodes q = none) (hnew : s.live query = none) :
    ∃ s', s.issue kind (some q) (some query) early = some s' ∧
      Represents s'
        { tickets := Q.tickets ++ [⟨Q.next, q, query, kind.named⟩]
          ran := if early then Q.next :: Q.ran else Q.ran
          next := Q.next + 1 } := by
  have hunused : q ∉ list :: Q.addresses := by
    intro hmem
    have := h.isSome q hmem
    rw [hfree] at this
    cases this
  have hql : q ≠ list := fun heq => hunused (heq ▸ List.mem_cons_self)
  have hserial : Q.next ∉ Q.ran := fun hmem => Nat.lt_irrefl _ (h.past _ hmem)
  obtain ⟨s₁, hprepared, hlive, hfields, hvalue⟩ := prepared s q query kind.named early
  have hdata : valueOf s₁.nodes q = some ⟨0, early⟩ := by rw [hvalue, Function.update_self]
  obtain ⟨nodes₂, hset, hnext₂, hprevious₂, hvalue₂⟩ := setValue_eq hdata
    fun d => { d with query }
  have hnodes₂ : ∀ x, (nodes₂ x).isSome ↔ x = q ∨ (s.nodes x).isSome := by
    intro x
    rw [isSome_iff_value, hvalue₂, hvalue, Function.update_idem]
    by_cases hx : x = q
    · simp [hx]
    · simp [hx, isSome_iff_value]
  have hring : Seg nodes₂ list Q.addresses list := by
    refine h.ring.frame (fun x hx => ?_) fun x hx => ?_
    · rw [hnext₂]
      exact (hfields x fun heq => hunused (heq ▸ hx)).1
    · rw [hprevious₂]
      refine (hfields x fun heq => hunused (heq ▸ ?_)).2
      rcases List.mem_append.mp hx with hx | hx
      · exact List.mem_cons_of_mem _ hx
      · rw [List.mem_singleton.mp hx]
        exact List.mem_cons_self
  obtain ⟨p, hp, hlast⟩ := hring.last
  obtain ⟨nodes₃, henqueue, happended, hvalue₃⟩ := enqueue_eq
    ((hnodes₂ list).mpr (Or.inr h.head)) ((hnodes₂ q).mpr (Or.inl rfl))
    ((hnodes₂ p).mpr (Or.inr (h.isSome p hp))) hlast fun heq => hunused (heq ▸ hp)
  have hvalues : valueOf nodes₃ = Function.update (valueOf s.nodes) q (some ⟨query, early⟩) := by
    rw [hvalue₃, hvalue₂, hvalue, Function.update_idem]
  have htargets : (Q.addresses ++ [list]).Nodup :=
    (List.perm_append_singleton list Q.addresses).nodup_iff.mpr h.distinct
  have haddress : ∀ t ∈ Q.tickets, t.address ≠ q := fun t ht heq =>
    hunused (heq ▸ List.mem_cons_of_mem _ (List.mem_map_of_mem ht))
  have hquery : ∀ t ∈ Q.tickets, t.query ≠ query := by
    intro t ht heq
    have := (h.live query t.handle).mpr ⟨t, ht, heq, rfl⟩
    rw [hnew] at this
    cases this
  refine ⟨⟨nodes₃, s₁.live⟩, ?_, ?_⟩
  · simp only [State.issue, hfree, hnew, Option.isSome_none, Bool.false_eq_true, or_self, if_false]
    simp only [hprepared, State.addQuery, Option.bind_eq_bind, Option.bind_some, hset, henqueue]
  · have haddresses : Queue.addresses
        ⟨Q.tickets ++ [⟨Q.next, q, query, kind.named⟩], if early then Q.next :: Q.ran else Q.ran, Q.next + 1⟩ =
        Q.addresses ++ [q] := by
      simp [Queue.addresses]
    refine ⟨?_, ?_, ?_, ?_, ?_, ?_, ?_, ?_, ?_, ?_⟩
    · rw [haddresses]
      exact hring.append hlast happended h.distinct htargets ⟨hunused, hql⟩
    · rw [haddresses]
      have hperm := List.perm_append_singleton q (list :: Q.addresses)
      exact hperm.nodup_iff.mpr (List.nodup_cons.mpr ⟨hunused, h.distinct⟩)
    · intro t ht
      show valueOf nodes₃ t.address = _
      rw [hvalues]
      rcases List.mem_append.mp ht with ht | ht
      · rw [Function.update_of_ne (haddress t ht), h.data t ht]
        have hne : t.serial ≠ Q.next := Nat.ne_of_lt (h.old t ht)
        cases early <;> simp [hne]
      · rw [List.mem_singleton.mp ht, Function.update_self]
        cases early <;> simp [hserial]
    · intro a ha
      rw [haddresses]
      change (nodes₃ a).isSome at ha
      rw [isSome_iff_value, hvalue₃, ← isSome_iff_value, hnodes₂] at ha
      rcases ha with rfl | ha
      · exact Or.inr (List.mem_append_right _ (List.mem_singleton.mpr rfl))
      · rcases h.only a ha with hlist | hmem
        · exact Or.inl hlist
        · exact Or.inr (List.mem_append_left _ hmem)
    · show (nodes₃ list).isSome
      rw [isSome_iff_value, hvalue₃, ← isSome_iff_value, hnodes₂]
      exact Or.inr h.head
    · intro i a
      show s₁.live i = some a ↔ _
      rw [hlive]
      exact h.live_append (t := ⟨Q.next, q, query, kind.named⟩) hquery i a
    · rw [List.map_append]
      refine (List.perm_append_singleton query _).nodup_iff.mpr (List.nodup_cons.mpr ⟨?_, h.queries⟩)
      intro hmem
      obtain ⟨t, ht, heq⟩ := List.mem_map.mp hmem
      exact hquery t ht heq
    · refine List.pairwise_append.mpr ⟨h.order, List.pairwise_singleton _ _, ?_⟩
      intro t ht u hu
      rw [List.mem_singleton.mp hu]
      exact h.old t ht
    · intro t ht
      rcases List.mem_append.mp ht with ht | ht
      · exact Nat.lt_succ_of_lt (h.old t ht)
      · rw [List.mem_singleton.mp ht]
        exact Nat.lt_succ_self _
    · intro n hn
      cases early with
      | false => exact Nat.lt_succ_of_lt (h.past n hn)
      | true =>
          rcases List.mem_cons.mp hn with rfl | hn
          · exact Nat.lt_succ_self _
          · exact Nat.lt_succ_of_lt (h.past n hn)

theorem accepts_iff (h : Represents s Q) (q query : Nat) :
    Q.accepts q query = true ↔ ¬ ((s.nodes q).isSome ∨ (s.live query).isSome) := by
  simp only [Queue.accepts, Bool.and_eq_true, decide_eq_true_eq, List.all_eq_true, not_or]
  constructor
  · intro haccepts
    obtain ⟨hlist, hall⟩ := haccepts
    constructor
    · intro hsome
      obtain ⟨t, ht, hta⟩ := List.mem_map.mp ((h.only q hsome).resolve_left hlist)
      exact (hall t ht).1 hta
    · intro hsome
      obtain ⟨a, ha⟩ := Option.isSome_iff_exists.mp hsome
      obtain ⟨t, ht, hti, _⟩ := (h.live query a).mp ha
      exact (hall t ht).2 hti
  · intro hunused
    obtain ⟨hnode, hlive⟩ := hunused
    refine ⟨fun heq => hnode (heq ▸ h.head), fun t ht => ⟨fun heq => hnode ?_, fun heq => hlive ?_⟩⟩
    · exact heq ▸ h.isSome _ (List.mem_cons_of_mem _ (List.mem_map_of_mem ht))
    · rw [(h.live query t.handle).mpr ⟨t, ht, heq, rfl⟩]
      rfl

end Represents

/-! ### Whole runs -/

/-- The query of a request can be freed when it is not named and its services list ends. -/
theorem releases_iff {q : Netresolve.Query} (hstarted : q.state ≠ .none)
    (services : Option ServiceList) :
    releases q.request.dnsName.isSome services = true ↔ releaseQuery q services = .ok () := by
  rw [releaseQuery_ok_iff]
  constructor
  · intro h
    simp only [releases, Bool.and_eq_true, Bool.not_eq_true', bne_iff_ne] at h
    exact ⟨fun _ => h.2, fun _ => by simpa using h.1⟩
  · intro h
    simp [releases, h.dnsName hstarted, h.services hstarted]

/-- The address is free for a new request. -/
def Queue.Unused (Q : Queue) (q : Nat) : Prop := q ≠ list ∧ ∀ t ∈ Q.tickets, t.address ≠ q

/--
What a call stops at: a request for addresses that the library has no query for, without
`AI_CANONNAME`; and a request that is handed back when its query has a name or a list of services
without an end, or not the data that are used.
-/
def Queue.Fatal (Q : Queue) : Event → Prop
  | .issue kind address query _ =>
      kind = .getaddrinfo false ∧ query = none ∧ ∃ q, address = some q ∧ Q.Unused q
  | .wait _ => False
  | .collect q services usable => ∃ t ∈ Q.tickets, t.address = q ∧
      ¬ (releases t.named services = true ∧ usable = true)
  | .cancel q services => ∃ t ∈ Q.tickets, t.address = q ∧ ¬ releases t.named services = true

theorem Represents.unused_iff {s : State} {Q : Queue} (h : Represents s Q) (q : Nat) :
    Q.Unused q ↔ s.nodes q = none := by
  constructor
  · intro hunused
    by_contra hsome
    rcases h.only q (Option.isSome_iff_ne_none.mpr hsome) with hlist | hmem
    · exact hunused.1 hlist
    · obtain ⟨t, ht, heq⟩ := List.mem_map.mp hmem
      exact hunused.2 t ht heq
  · intro hnone
    refine ⟨fun heq => ?_, fun t ht heq => ?_⟩
    · have hhead := h.head
      rw [← heq, hnone] at hhead
      cases hhead
    · obtain ⟨n, hn, -⟩ := h.query_eq ht
      rw [heq, hnone] at hn
      cases hn

/-- Nothing fatal is handed back where there is no request. -/
theorem Represents.not_fatal {s : State} {Q : Queue} (h : Represents s Q) {q : Nat}
    (hq : q = list ∨ (s.nodes q).isNone) (P : Ticket → Prop) :
    ¬ ∃ t ∈ Q.tickets, t.address = q ∧ P t := by
  rintro ⟨t, ht, rfl, -⟩
  rcases hq with hlist | hnone
  · exact h.address_ne ht hlist
  · obtain ⟨n, hn, -⟩ := h.query_eq ht
    rw [hn] at hnone
    cases hnone

/-- A call keeps the relation or is fatal, and stops in that case only. -/
theorem Represents.step {s : State} {Q : Queue} (h : Represents s Q) (e : Event) :
    (∃ s', s.step e = some s' ∧ Represents s' (Q.step e) ∧ ¬ Q.Fatal e) ∨
      s.step e = none ∧ Q.Fatal e := by
  cases e with
  | issue kind address query early =>
      cases address with
      | none => exact Or.inl ⟨s, rfl, h, fun hfatal => by obtain ⟨-, -, q, hq, -⟩ := hfatal; cases hq⟩
      | some q =>
          cases query with
          | none =>
              simp only [State.step, State.issue]
              by_cases hnode : (s.nodes q).isSome = true
              · rw [if_pos hnode]
                refine Or.inl ⟨s, rfl, h, fun hfatal => ?_⟩
                obtain ⟨-, -, q', hq', hunused⟩ := hfatal
                obtain rfl := Option.some.inj hq'
                rw [(h.unused_iff q).mp hunused] at hnode
                cases hnode
              · have hnone : s.nodes q = none := Option.not_isSome_iff_eq_none.mp hnode
                rw [if_neg hnode]
                by_cases hkind : kind = .getaddrinfo false
                · rw [if_pos hkind]
                  exact Or.inr ⟨rfl, hkind, rfl, q, rfl, (h.unused_iff q).mpr hnone⟩
                · rw [if_neg hkind]
                  have hsame : (s.alloc q).free q = s := by
                    simp only [State.alloc, State.free, Function.update_idem]
                    rw [← hnone, Function.update_eq_self]
                  rw [hsame]
                  exact Or.inl ⟨s, rfl, h, fun hfatal => hkind hfatal.1⟩
          | some query =>
              have haccepts := h.accepts_iff q query
              have hmild : ¬ Q.Fatal (.issue kind (some q) (some query) early) :=
                fun hfatal => by cases hfatal.2.1
              simp only [State.step, Queue.step]
              by_cases hunused : Q.accepts q query = true
              · rw [if_pos hunused]
                have hnone := haccepts.mp hunused
                simp only [not_or, Option.not_isSome_iff_eq_none] at hnone
                obtain ⟨s', hs', h'⟩ := h.issue kind early hnone.1 hnone.2
                exact Or.inl ⟨s', hs', h', hmild⟩
              · rw [if_neg hunused]
                refine Or.inl ⟨s, ?_, h, hmild⟩
                have hused := not_not.mp (mt haccepts.mpr hunused)
                simp only [State.issue, hused, if_true]
  | wait ended =>
      obtain ⟨s', hs', h'⟩ := Represents.callbacks ended h
      exact Or.inl ⟨s', hs', h', id⟩
  | collect q services usable =>
      simp only [State.step, Queue.step]
      by_cases hq : q = list ∨ (s.nodes q).isNone
      · rw [if_pos hq, h.drop_absent hq]
        exact Or.inl ⟨s, rfl, h, h.not_fatal hq _⟩
      · rw [if_neg hq]
        obtain ⟨t, ht, rfl⟩ := h.exists_ticket hq
        rcases h.collect ht services usable with ⟨s', hs', h', hgood⟩ | ⟨hnone, hbad⟩
        · refine Or.inl ⟨s', hs', h', fun hfatal => ?_⟩
          obtain ⟨u, hu, heq, hbad⟩ := hfatal
          exact hbad (h.eq_of_address hu ht heq ▸ hgood)
        · exact Or.inr ⟨hnone, t, ht, rfl, hbad⟩
  | cancel q services =>
      simp only [State.step, Queue.step]
      by_cases hq : q = list ∨ (s.nodes q).isNone
      · rw [if_pos hq, h.drop_absent hq]
        exact Or.inl ⟨s, rfl, h, h.not_fatal hq _⟩
      · rw [if_neg hq]
        obtain ⟨t, ht, rfl⟩ := h.exists_ticket hq
        rcases h.cancel ht services with ⟨s', hs', h', hgood⟩ | ⟨hnone, hbad⟩
        · refine Or.inl ⟨s', hs', h', fun hfatal => ?_⟩
          obtain ⟨u, hu, heq, hbad⟩ := hfatal
          exact hbad (h.eq_of_address hu ht heq ▸ hgood)
        · exact Or.inr ⟨hnone, t, ht, rfl, hbad⟩

theorem represents_new : Represents State.new {} := by
  refine ⟨⟨?_, ?_⟩, ?_, ?_, ?_, ?_, ?_, ?_, ?_, ?_, ?_⟩
  · simp [State.new, nextOf]
  · simp [State.new, previousOf]
  · simp [Queue.addresses]
  · simp
  · intro a ha
    by_cases hlist : a = list
    · exact Or.inl hlist
    · simp [State.new, hlist] at ha
  · simp [State.new]
  · simp [State.new]
  · simp
  · simp
  · simp
  · simp

theorem run_append (events : List Event) (e : Event) :
    run (events ++ [e]) = (run events).bind (·.step e) := by
  unfold run
  rw [List.foldlM_append]
  simp only [Option.bind_eq_bind, List.foldlM_cons, List.foldlM_nil]
  cases List.foldlM State.step State.new events with
  | none => rfl
  | some s => cases hs : s.step e <;> simp [hs]

theorem queueOf_append (events : List Event) (e : Event) :
    queueOf (events ++ [e]) = (queueOf events).step e := by
  simp [queueOf]

/-- No call of the sequence is fatal. -/
def Mild (events : List Event) : Prop :=
  ∀ before e after, events = before ++ e :: after → ¬ (queueOf before).Fatal e

theorem mild_append (events : List Event) (e : Event) :
    Mild (events ++ [e]) ↔ Mild events ∧ ¬ (queueOf events).Fatal e := by
  constructor
  · intro h
    refine ⟨fun before x after heq => ?_, h events e [] rfl⟩
    exact h before x (after ++ [e]) (by rw [heq, List.append_assoc, List.cons_append])
  · intro h before x after heq
    rcases List.eq_nil_or_concat' after with rfl | ⟨after', y, rfl⟩
    · obtain ⟨rfl, hlast⟩ := List.append_inj' heq rfl
      obtain rfl : e = x := by simpa using hlast
      exact h.2
    · rw [← List.cons_append, ← List.append_assoc] at heq
      obtain ⟨rfl, -⟩ := List.append_inj' heq rfl
      exact h.1 before x after' rfl

/-- A run keeps the relation, and ends early only with a fatal call. -/
theorem run_represents (events : List Event) :
    (∃ s, run events = some s ∧ Represents s (queueOf events) ∧ Mild events) ∨
      run events = none ∧ ¬ Mild events := by
  induction events using List.reverseRecOn with
  | nil => exact Or.inl ⟨State.new, rfl, represents_new, fun _ _ _ heq => by simp at heq⟩
  | append_singleton events e ih =>
      rw [run_append, queueOf_append, mild_append]
      rcases ih with ⟨s, hs, h, hmild⟩ | ⟨hnone, hmild⟩
      · rw [hs]
        rcases h.step e with ⟨s', hs', h', hnot⟩ | ⟨hnone, hfatal⟩
        · exact Or.inl ⟨s', hs', h', hmild, hnot⟩
        · exact Or.inr ⟨hnone, fun hboth => hboth.2 hfatal⟩
      · rw [hnone]
        exact Or.inr ⟨rfl, fun hboth => hmild hboth.1⟩

theorem represents_of_run {events : List Event} {s : State} (h : run events = some s) :
    Represents s (queueOf events) := by
  rcases run_represents events with ⟨s', hs', h', -⟩ | ⟨hnone, -⟩
  · obtain rfl : s' = s := Option.some.inj (hs'.symm.trans h)
    exact h'
  · rw [h] at hnone
    cases hnone

/-! ### What the queue is, in terms of the calls -/

/--
The request was issued, with a result other than NULL, and has not been collected or cancelled
in the calls after that.  `early` tells whether its callback ran before the call returned.
-/
structure Held (events : List Event) (t : Ticket) (early : Bool) (after : List Event) : Prop where
  issued : ∃ before kind,
    events = before ++ .issue kind (some t.address) (some t.query) early :: after ∧
      (queueOf before).accepts t.address t.query = true ∧ t.serial = (queueOf before).next ∧
      t.named = kind.named
  kept : ∀ e ∈ after, ¬ e.Takes t.address

/-- The callback of the request has run, in its own call or in a later one. -/
def CallbackRan (t : Ticket) (early : Bool) (after : List Event) : Prop :=
  early = true ∨ ∃ ended, Event.wait ended ∈ after ∧ t.query ∈ ended

theorem Held.append {events : List Event} {t : Ticket} {early : Bool} {after : List Event}
    (h : Held events t early after) {e : Event}
    (he : ¬ e.Takes t.address) :
    Held (events ++ [e]) t early (after ++ [e]) := by
  obtain ⟨before, kind, hevents, haccepts, hserial⟩ := h.issued
  refine ⟨⟨before, kind, by simp [hevents], haccepts, hserial⟩, fun x hx => ?_⟩
  rcases List.mem_append.mp hx with hx | hx
  · exact h.kept x hx
  · rw [List.mem_singleton.mp hx]
    exact he

/-- A request that is held was held before the last call, or is the result of it. -/
theorem Held.cases {events : List Event} {e : Event} {t : Ticket} {early : Bool}
    {after : List Event} (h : Held (events ++ [e]) t early after) :
    (∃ after', after = after' ++ [e] ∧ Held events t early after' ∧ ¬ e.Takes t.address) ∨
      (after = [] ∧ ∃ kind, e = .issue kind (some t.address) (some t.query) early ∧
        (queueOf events).accepts t.address t.query = true ∧ t.serial = (queueOf events).next ∧
        t.named = kind.named) := by
  obtain ⟨before, kind, hevents, haccepts, hserial⟩ := h.issued
  have hkept := h.kept
  rcases List.eq_nil_or_concat' after with rfl | ⟨after', x, rfl⟩
  · obtain ⟨rfl, heq⟩ := List.append_inj' hevents rfl
    refine Or.inr ⟨rfl, kind, ?_, haccepts, hserial⟩
    simpa using heq
  · rw [← List.cons_append, ← List.append_assoc] at hevents
    obtain ⟨rfl, heq⟩ := List.append_inj' hevents rfl
    obtain rfl : e = x := by simpa using heq
    have hlast := hkept e (by simp)
    exact Or.inl ⟨after', rfl,
      ⟨⟨before, kind, rfl, haccepts, hserial⟩, fun y hy => hkept y (List.mem_append_left _ hy)⟩,
      hlast⟩

theorem finish_tickets (Q : Queue) (i : Nat) : (Q.finish i).tickets = Q.tickets := by
  unfold Queue.finish
  split <;> rfl

theorem finishes_tickets (ended : List Nat) : ∀ Q : Queue,
    (ended.foldl Queue.finish Q).tickets = Q.tickets := by
  induction ended with
  | nil => exact fun _ => rfl
  | cons i rest ih => exact fun Q => (ih (Q.finish i)).trans (finish_tickets Q i)

/-- What one call does to the requests in the queue. -/
theorem mem_step (Q : Queue) (e : Event) (t : Ticket) :
    t ∈ (Q.step e).tickets ↔
      (t ∈ Q.tickets ∧ ¬ e.Takes t.address) ∨
      ∃ kind early, e = .issue kind (some t.address) (some t.query) early ∧
        Q.accepts t.address t.query = true ∧ t.serial = Q.next ∧ t.named = kind.named := by
  cases e with
  | issue kind address query early =>
      cases address with
      | none => simp [Queue.step, Event.Takes]
      | some q =>
          cases query with
          | none => simp [Queue.step, Event.Takes]
          | some query =>
              simp only [Queue.step]
              by_cases haccepts : Q.accepts q query = true
              · rw [if_pos haccepts]
                simp only [List.mem_append, List.mem_singleton]
                constructor
                · intro h
                  rcases h with h | rfl
                  · exact Or.inl ⟨h, by simp [Event.Takes]⟩
                  · exact Or.inr ⟨kind, early, rfl, haccepts, rfl, rfl⟩
                · intro h
                  rcases h with h | ⟨kind', early', heq, _, hserial, hnamed⟩
                  · exact Or.inl h.1
                  · simp only [Event.issue.injEq, Option.some.injEq] at heq
                    obtain ⟨rfl, rfl, rfl, _⟩ := heq
                    exact Or.inr (by rw [← hserial, ← hnamed])
              · rw [if_neg haccepts]
                constructor
                · intro h
                  exact Or.inl ⟨h, by simp [Event.Takes]⟩
                · intro h
                  rcases h with h | ⟨kind', early', heq, hyes, _⟩
                  · exact h.1
                  · simp only [Event.issue.injEq, Option.some.injEq] at heq
                    obtain ⟨_, rfl, rfl, _⟩ := heq
                    exact absurd hyes haccepts
  | wait ended => simp [Queue.step, finishes_tickets, Event.Takes]
  | collect q services usable =>
      have hsame : q = t.address ↔ t.address = q := eq_comm
      simp [Queue.step, Represents.mem_drop, Event.Takes, hsame]
  | cancel q services =>
      have hsame : q = t.address ↔ t.address = q := eq_comm
      simp [Queue.step, Represents.mem_drop, Event.Takes, hsame]

/-- The queue holds the requests that were issued and not handed back. -/
theorem mem_queueOf (events : List Event) (t : Ticket) :
    t ∈ (queueOf events).tickets ↔ ∃ early after, Held events t early after := by
  induction events using List.reverseRecOn with
  | nil =>
      refine ⟨fun h => absurd h List.not_mem_nil, fun h => ?_⟩
      obtain ⟨early, after, hheld⟩ := h
      obtain ⟨before, kind, hevents, _⟩ := hheld.issued
      simp at hevents
  | append_singleton events e ih =>
      rw [queueOf_append, mem_step, ih]
      constructor
      · intro h
        rcases h with ⟨⟨early, after, hheld⟩, he⟩ | ⟨kind, early, rfl, haccepts, hserial⟩
        · exact ⟨early, _, hheld.append he⟩
        · exact ⟨early, [], ⟨events, kind, rfl, haccepts, hserial⟩, by simp⟩
      · intro h
        obtain ⟨early, after, hheld⟩ := h
        rcases hheld.cases with ⟨after', _, hheld', he⟩ | ⟨_, kind, heq, haccepts, hserial⟩
        · exact Or.inl ⟨⟨early, after', hheld'⟩, he⟩
        · exact Or.inr ⟨kind, early, heq, haccepts, hserial⟩

/-- The callbacks of one `asyncns_wait`. -/
theorem Represents.ran_finishes (ended : List Nat) : ∀ {s : State} {Q : Queue}, Represents s Q →
    ∀ {t : Ticket}, t ∈ Q.tickets →
      (t.serial ∈ (ended.foldl Queue.finish Q).ran ↔ t.serial ∈ Q.ran ∨ t.query ∈ ended) := by
  induction ended with
  | nil => intro s Q _ t _; simp
  | cons i rest ih =>
      intro s Q h t ht
      obtain ⟨s', _, h'⟩ := h.callback i
      have hrest := ih h' (t := t) (by rwa [finish_tickets])
      have hone : t.serial ∈ (Q.finish i).ran ↔ t.serial ∈ Q.ran ∨ t.query = i := by
        by_cases hi : t.query = i
        · subst hi
          simp [Queue.finish, h.find_query ht]
        · have hother : ∀ u ∈ Q.tickets, u.query = i → t.serial ≠ u.serial := by
            intro u hu hui heq
            exact hi (h.eq_of_serial ht hu heq ▸ hui)
          unfold Queue.finish
          cases hfind : Q.tickets.find? (·.query = i) with
          | none => simp [hi]
          | some u =>
              have hui : u.query = i := by simpa using List.find?_some hfind
              have hne := hother u (List.mem_of_find?_eq_some hfind) hui
              simp [hi, hne]
      rw [List.foldl_cons, hrest, hone, List.mem_cons, or_assoc]

/-- The flag of a request that is held tells whether its own callback ran. -/
theorem ran_iff (events : List Event) : ∀ {s : State}, run events = some s →
    ∀ {t : Ticket} {early : Bool} {after : List Event}, Held events t early after →
      (t.serial ∈ (queueOf events).ran ↔ CallbackRan t early after) := by
  induction events using List.reverseRecOn with
  | nil =>
      intro s _ t early after h
      obtain ⟨before, kind, hevents, _⟩ := h.issued
      simp at hevents
  | append_singleton events e ih =>
      intro s' hrun t early after hheld
      rw [run_append] at hrun
      obtain ⟨s, hs, hstep⟩ := Option.bind_eq_some_iff.mp hrun
      have hrep := represents_of_run hs
      rw [queueOf_append]
      rcases hheld.cases with ⟨after', rfl, hheld', he⟩ | ⟨rfl, kind, rfl, haccepts, hserial, -⟩
      · -- an older request: only `asyncns_wait` can make a difference
        have hold := ih hs hheld'
        have hmem : t ∈ (queueOf events).tickets := (mem_queueOf events t).mpr ⟨early, _, hheld'⟩
        have hquiet : (∀ ended, e ≠ .wait ended) →
            (CallbackRan t early (after' ++ [e]) ↔ CallbackRan t early after') := by
          intro hwait
          simp only [CallbackRan, List.mem_append, List.mem_singleton]
          refine or_congr_right (exists_congr fun ended => and_congr_left' ?_)
          simp [Ne.symm (hwait ended)]
        cases e with
        | wait ended =>
            have hran := hrep.ran_finishes ended hmem
            simp only [Queue.step]
            rw [hran, hold]
            simp only [CallbackRan, List.mem_append, List.mem_singleton, Event.wait.injEq]
            constructor
            · intro h
              rcases h with (h | ⟨x, hx, hq⟩) | hq
              · exact Or.inl h
              · exact Or.inr ⟨x, Or.inl hx, hq⟩
              · exact Or.inr ⟨ended, Or.inr rfl, hq⟩
            · intro h
              rcases h with h | ⟨x, hx | rfl, hq⟩
              · exact Or.inl (Or.inl h)
              · exact Or.inl (Or.inr ⟨x, hx, hq⟩)
              · exact Or.inr hq
        | collect q services usable => exact hold.trans (hquiet (by simp)).symm
        | cancel q services => exact hold.trans (hquiet (by simp)).symm
        | issue kind address query early' =>
            rw [hquiet (by simp), ← hold]
            have hne : t.serial ≠ (queueOf events).next := Nat.ne_of_lt (hrep.old t hmem)
            cases address with
            | none => exact Iff.rfl
            | some q =>
                cases query with
                | none => exact Iff.rfl
                | some query =>
                    simp only [Queue.step]
                    split
                    · cases early' <;> simp [hne]
                    · exact Iff.rfl
      · -- the new request
        have hnew : (queueOf events).next ∉ (queueOf events).ran := fun hmem =>
          Nat.lt_irrefl _ (hrep.past _ hmem)
        simp only [Queue.step, if_pos haccepts, CallbackRan, List.not_mem_nil, false_and,
          exists_false, or_false, hserial]
        cases early <;> simp [hnew]

/-! ### Going through the list -/

theorem walkFrom_eq {h : Heap Data} {l : List Nat} (hlist : list ∉ l) : ∀ {a n : Nat},
    Seg h a l list → nextOf h a = some n → ∀ fuel, l.length < fuel →
      walkFrom h fuel n = some l := by
  induction l with
  | nil =>
      intro a n hs hn fuel hfuel
      obtain rfl : list = n := Option.some.inj (hs.1.symm.trans hn)
      obtain ⟨fuel, rfl⟩ := Nat.exists_eq_succ_of_ne_zero (Nat.ne_of_gt hfuel)
      simp [walkFrom]
  | cons c l ih =>
      intro a n hs hn fuel hfuel
      obtain rfl : c = n := Option.some.inj (hs.1.1.symm.trans hn)
      obtain ⟨fuel, rfl⟩ := Nat.exists_eq_succ_of_ne_zero (Nat.ne_of_gt (Nat.zero_lt_of_lt hfuel))
      obtain ⟨hc, hl⟩ := not_or.mp (mt List.mem_cons.mpr hlist)
      have hsome : (h c).isSome := hs.isSome c List.mem_cons_self
      obtain ⟨node, hnode, hnext, _⟩ := exists_of_isSome hsome
      have hrest := ih hl hs.2 hnext fuel (by simp only [List.length_cons] at hfuel; omega)
      simp [walkFrom, Ne.symm hc, hnode, hrest]

theorem getnextFrom_eq {h : Heap Data} {ran : List Nat} {T : List Ticket}
    (hlist : ∀ t ∈ T, t.address ≠ list)
    (hdata : ∀ t ∈ T, valueOf h t.address = some ⟨t.query, decide (t.serial ∈ ran)⟩) :
    ∀ {a n : Nat}, Seg h a (T.map (·.address)) list → nextOf h a = some n →
      ∀ fuel, T.length < fuel →
        getnextFrom h fuel n = some ((T.find? (·.serial ∈ ran)).map (·.address)) := by
  induction T with
  | nil =>
      intro a n hs hn fuel hfuel
      obtain rfl : list = n := Option.some.inj (hs.1.symm.trans hn)
      obtain ⟨fuel, rfl⟩ := Nat.exists_eq_succ_of_ne_zero (Nat.ne_of_gt hfuel)
      simp [getnextFrom]
  | cons t T ih =>
      intro a n hs hn fuel hfuel
      obtain rfl : t.address = n := Option.some.inj (hs.1.1.symm.trans hn)
      obtain ⟨fuel, rfl⟩ := Nat.exists_eq_succ_of_ne_zero (Nat.ne_of_gt (Nat.zero_lt_of_lt hfuel))
      obtain ⟨node, hnode, hvalue⟩ := Option.map_eq_some_iff.mp (hdata t List.mem_cons_self)
      have hnext : nextOf h t.address = some node.next := by simp [nextOf, hnode]
      have hrest := ih (fun u hu => hlist u (List.mem_cons_of_mem t hu))
        (fun u hu => hdata u (List.mem_cons_of_mem t hu)) hs.2 hnext fuel
        (by simp only [List.length_cons] at hfuel; omega)
      by_cases hran : t.serial ∈ ran
      · simp [getnextFrom, hlist t List.mem_cons_self, hnode, hvalue, hran]
      · simp [getnextFrom, hlist t List.mem_cons_self, hnode, hvalue, hran, hrest]

namespace Represents

variable {s : State} {Q : Queue}

theorem walk (h : Represents s Q) {fuel : Nat} (hfuel : Q.tickets.length < fuel) :
    s.walk fuel = some Q.addresses := by
  obtain ⟨node, hnode, hnext, _⟩ := exists_of_isSome h.head
  have hwalk := walkFrom_eq (List.nodup_cons.mp h.distinct).1 h.ring hnext fuel
    (by simpa [Queue.addresses] using hfuel)
  simp [State.walk, hnode, hwalk]

theorem getnqueries (h : Represents s Q) {fuel : Nat} (hfuel : Q.tickets.length < fuel) :
    s.getnqueries fuel = some Q.tickets.length := by
  unfold State.getnqueries
  rw [h.walk hfuel]
  simp [Queue.addresses]

theorem getnext (h : Represents s Q) {fuel : Nat} (hfuel : Q.tickets.length < fuel) :
    s.getnext fuel = some ((Q.tickets.find? (·.serial ∈ Q.ran)).map (·.address)) := by
  obtain ⟨node, hnode, hnext, _⟩ := exists_of_isSome h.head
  have hfound := getnextFrom_eq (fun t ht => h.address_ne ht) h.data h.ring hnext fuel hfuel
  simp [State.getnext, hnode, hfound]

theorem isdone (h : Represents s Q) {t : Ticket} (ht : t ∈ Q.tickets) :
    s.isdone t.address = some (decide (t.serial ∈ Q.ran)) := by
  obtain ⟨node, hnode, hvalue⟩ := Option.map_eq_some_iff.mp (h.data t ht)
  simp [State.isdone, hnode, hvalue]

end Represents

/-- What holds of the list after a sequence of calls. -/
structure Faithful (events : List Event) (s : State) : Prop where
  /-- The list has the requests that were issued and not handed back. -/
  held : ∀ t, t ∈ (queueOf events).tickets ↔ ∃ early after, Held events t early after
  /-- They are in the order in which they were issued. -/
  order : (queueOf events).tickets.Pairwise fun t u => t.serial < u.serial
  walk : ∀ fuel, (queueOf events).tickets.length < fuel →
    s.walk fuel = some ((queueOf events).tickets.map (·.address))
  getnqueries : ∀ fuel, (queueOf events).tickets.length < fuel →
    s.getnqueries fuel = some (queueOf events).tickets.length
  /-- The first of them that is done. -/
  getnext : ∀ fuel, (queueOf events).tickets.length < fuel →
    s.getnext fuel = some (((queueOf events).tickets.find? fun t =>
      s.isdone t.address = some true).map (·.address))
  /-- A request is done if and only if its own callback has run. -/
  isdone : ∀ t early after, Held events t early after →
    ∃ done, s.isdone t.address = some done ∧ (done = true ↔ CallbackRan t early after)
  /-- To hand back a request leaves the others where they are and as they are. -/
  others : ∀ t ∈ (queueOf events).tickets, ∀ e : Event, e.Takes t.address →
    ¬ (queueOf events).Fatal e → ∃ s', s.step e = some s' ∧
      (∀ fuel, (queueOf events).tickets.length < fuel →
        s'.walk fuel = some (((queueOf events).tickets.erase t).map (·.address))) ∧
      ∀ u ∈ (queueOf events).tickets, u ≠ t → s'.isdone u.address = s.isdone u.address

theorem Represents.others {s : State} {Q : Queue} (h : Represents s Q) {t : Ticket}
    (ht : t ∈ Q.tickets) {e : Event} (he : e.Takes t.address) (hmild : ¬ Q.Fatal e) :
    ∃ s', s.step e = some s' ∧
      (∀ fuel, Q.tickets.length < fuel →
        s'.walk fuel = some ((Q.tickets.erase t).map (·.address))) ∧
      ∀ u ∈ Q.tickets, u ≠ t → s'.isdone u.address = s.isdone u.address := by
  have hstep : Q.step e = Q.drop t.address := by
    rcases he with ⟨services, usable, rfl⟩ | ⟨services, rfl⟩ <;> rfl
  have herase : (Q.drop t.address).tickets = Q.tickets.erase t := by
    obtain ⟨T₁, T₂, hsplit⟩ := List.append_of_mem ht
    have hnodup : Q.tickets.Nodup := (List.nodup_cons.mp h.distinct).2.of_map _
    rw [h.drop_tickets hsplit, hsplit]
    rw [hsplit] at hnodup
    have hnew : t ∉ T₁ := fun hmem =>
      (List.nodup_append.mp hnodup).2.2 t hmem t List.mem_cons_self rfl
    rw [List.erase_append_right _ hnew, List.erase_cons_head]
  rcases h.step e with ⟨s', hs', h', -⟩ | ⟨-, hfatal⟩
  · rw [hstep] at h'
    refine ⟨s', hs', fun fuel hfuel => ?_, fun u hu hne => ?_⟩
    · have hshort : (Q.drop t.address).tickets.length < fuel :=
        Nat.lt_of_le_of_lt (List.length_filter_le _ _) hfuel
      rw [h'.walk hshort, ← herase]
      rfl
    · have hadr : u.address ≠ t.address := fun heq => hne (h.eq_of_address hu ht heq)
      rw [h'.isdone (mem_drop.mpr ⟨hu, hadr⟩), h.isdone hu]
      rfl
  · exact absurd hfatal hmild

theorem faithful_of_run {events : List Event} {s : State} (hs : run events = some s) :
    Faithful events s := by
  have h := represents_of_run hs
  have hdone : ∀ t ∈ (queueOf events).tickets,
      decide (t.serial ∈ (queueOf events).ran) = decide (s.isdone t.address = some true) := by
    intro t ht
    rw [h.isdone ht]
    simp
  refine ⟨mem_queueOf events, h.order, fun fuel => h.walk, fun fuel => h.getnqueries, ?_, ?_,
    fun t ht e he hmild => h.others ht he hmild⟩
  · intro fuel hfuel
    rw [h.getnext hfuel, ← List.head?_filter, List.filter_congr hdone, List.head?_filter]
  · intro t early after hheld
    have ht := (mem_queueOf events t).mpr ⟨early, after, hheld⟩
    refine ⟨_, h.isdone ht, ?_⟩
    rw [decide_eq_true_eq]
    exact ran_iff events hs hheld

/--
**The list of requests is faithful to the calls as long as no call is fatal.**  A sequence of
calls, with callbacks in any order, leads to a state if and only if none is: no request for a DNS
name is handed back, and none whose query has a list of services without an end or not the data
that are used, and `asyncns_getaddrinfo` without `AI_CANONNAME` gets a query.  Then the list
consists of the requests that were issued and neither collected nor cancelled, oldest first;
`asyncns_getnqueries` is their number and `asyncns_getnext` the first that is done; a request is
done if and only if the callback of its own query has run; and to collect or cancel one of them
changes nothing for the others.
-/
theorem asyncns_list_faithful (events : List Event) :
    (∃ s, run events = some s ∧ Faithful events s) ↔ Mild events := by
  rcases run_represents events with ⟨s, hs, -, hmild⟩ | ⟨hnone, hmild⟩
  · exact iff_of_true ⟨s, hs, faithful_of_run hs⟩ hmild
  · refine iff_of_false (fun hrun => ?_) hmild
    obtain ⟨s, hs, -⟩ := hrun
    rw [hnone] at hs
    cases hs

/-- A request for a DNS name is issued, its query ends, and the answer is collected. -/
def collectsAnswer : List Event :=
  [.issue (.resQuery true) (some 1) (some 0) false, .wait [0], .collect 1 none true]

/-- The same request is cancelled instead. -/
def cancelsAnswer : List Event :=
  [.issue (.resQuery true) (some 1) (some 0) false, .cancel 1 none]

/-- The name of the query is freed twice. -/
theorem answer_handed_back_stops :
    ¬ (∃ s, run collectsAnswer = some s ∧ Faithful collectsAnswer s) ∧
      ¬ ∃ s, run cancelsAnswer = some s ∧ Faithful cancelsAnswer s := by
  have hcollects : run collectsAnswer = none := rfl
  have hcancels : run cancelsAnswer = none := rfl
  refine ⟨fun hrun => ?_, fun hrun => ?_⟩
  · obtain ⟨s, hs, -⟩ := hrun
    rw [hcollects] at hs
    cases hs
  · obtain ⟨s, hs, -⟩ := hrun
    rw [hcancels] at hs
    cases hs

end Netresolve.Asyncns
