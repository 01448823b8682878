/-
Rings of doubly linked nodes.

A node has a pointer to the next and to the previous node and a value.  A ring starts and ends
at a node of its own, which stands for the list and carries no element.  `Seg h a l b` says that
the nodes `l` lead from `a` to `b`, in both directions, so that `Seg h a l a` is a ring with the
elements `l`.

Pointers are numbers, and the memory maps them to nodes that are allocated.  A write changes one
field of one node, and the lemmas about writes say which of the three field functions change.
Appending an element and taking one out are stated by the field functions of the memory before
and after, whatever sequence of writes has led from one to the other.
-/
import Mathlib.Data.List.Nodup
import Mathlib.Logic.Function.Basic

namespace Ring

variable {α : Type}

structure Node (α : Type) where
  previous : Nat
  next : Nat
  value : α

abbrev Heap (α : Type) := Nat → Option (Node α)

variable {h h' : Heap α}

def nextOf (h : Heap α) (a : Nat) : Option Nat := (h a).map (·.next)

def previousOf (h : Heap α) (a : Nat) : Option Nat := (h a).map (·.previous)

def valueOf (h : Heap α) (a : Nat) : Option α := (h a).map (·.value)

/-! ### Writes -/

/-- Changes an allocated node. -/
def write (h : Heap α) (a : Nat) (f : Node α → Node α) : Option (Heap α) :=
  (h a).map fun n => Function.update h a (some (f n))

def setNext (h : Heap α) (a b : Nat) : Option (Heap α) := write h a fun n => { n with next := b }

def setPrevious (h : Heap α) (a b : Nat) : Option (Heap α) :=
  write h a fun n => { n with previous := b }

def setValue (h : Heap α) (a : Nat) (f : α → α) : Option (Heap α) :=
  write h a fun n => { n with value := f n.value }

theorem map_update {β : Type} (h : Heap α) (a : Nat) (n : Node α) (f : Node α → β) :
    (fun x => (Function.update h a (some n) x).map f) =
      Function.update (fun x => (h x).map f) a (some (f n)) := by
  funext x
  by_cases hx : x = a
  · rw [hx]
    simp
  · simp [hx]

/-- A field that the write leaves alone. -/
theorem map_update_same {β : Type} {h : Heap α} {a : Nat} {n n' : Node α} {f : Node α → β}
    (hn : h a = some n) (hf : f n' = f n) :
    (fun x => (Function.update h a (some n') x).map f) = fun x => (h x).map f := by
  rw [map_update, hf]
  have hsame : (fun x => (h x).map f) a = some (f n) := by simp [hn]
  rw [← hsame, Function.update_eq_self]

theorem setNext_eq {a : Nat} (ha : (h a).isSome) (b : Nat) :
    ∃ h', setNext h a b = some h' ∧ nextOf h' = Function.update (nextOf h) a (some b) ∧
      previousOf h' = previousOf h ∧ valueOf h' = valueOf h := by
  obtain ⟨n, hn⟩ := Option.isSome_iff_exists.mp ha
  refine ⟨Function.update h a (some { n with next := b }), ?_, map_update .., ?_, ?_⟩
  · simp [setNext, write, hn]
  · exact map_update_same hn rfl
  · exact map_update_same hn rfl

theorem setPrevious_eq {a : Nat} (ha : (h a).isSome) (b : Nat) :
    ∃ h', setPrevious h a b = some h' ∧ nextOf h' = nextOf h ∧
      previousOf h' = Function.update (previousOf h) a (some b) ∧ valueOf h' = valueOf h := by
  obtain ⟨n, hn⟩ := Option.isSome_iff_exists.mp ha
  refine ⟨Function.update h a (some { n with previous := b }), ?_, ?_, map_update .., ?_⟩
  · simp [setPrevious, write, hn]
  · exact map_update_same hn rfl
  · exact map_update_same hn rfl

theorem setValue_eq {a : Nat} {v : α} (ha : valueOf h a = some v) (f : α → α) :
    ∃ h', setValue h a f = some h' ∧ nextOf h' = nextOf h ∧ previousOf h' = previousOf h ∧
      valueOf h' = Function.update (valueOf h) a (some (f v)) := by
  obtain ⟨n, hn, hv⟩ := Option.map_eq_some_iff.mp ha
  refine ⟨Function.update h a (some { n with value := f n.value }), ?_, ?_, ?_, ?_⟩
  · simp [setValue, write, hn]
  · exact map_update_same hn rfl
  · exact map_update_same hn rfl
  · rw [← hv]
    exact map_update ..

theorem isSome_iff_value {a : Nat} : (h a).isSome ↔ (valueOf h a).isSome := by
  simp [valueOf]

theorem exists_of_isSome {a : Nat} (ha : (h a).isSome) :
    ∃ n, h a = some n ∧ nextOf h a = some n.next ∧ previousOf h a = some n.previous := by
  obtain ⟨n, hn⟩ := Option.isSome_iff_exists.mp ha
  exact ⟨n, hn, by simp [nextOf, hn], by simp [previousOf, hn]⟩

/-! ### Segments -/

/-- The node `b` follows the node `a`. -/
def Links (h : Heap α) (a b : Nat) : Prop := nextOf h a = some b ∧ previousOf h b = some a

/-- The nodes `l` lead from `a` to `b`. -/
def Seg (h : Heap α) (a : Nat) : List Nat → Nat → Prop
  | [], b => Links h a b
  | c :: l, b => Links h a c ∧ Seg h c l b

theorem Seg.split {a c b : Nat} {l l' : List Nat} :
    Seg h a (l ++ c :: l') b ↔ Seg h a l c ∧ Seg h c l' b := by
  induction l generalizing a with
  | nil => rfl
  | cons d l ih =>
      show Links h a d ∧ Seg h d (l ++ c :: l') b ↔ (Links h a d ∧ Seg h d l c) ∧ Seg h c l' b
      rw [ih, and_assoc]

/-- The fields of nodes outside of a segment do not matter to it. -/
theorem Seg.frame {a b : Nat} {l : List Nat} (hs : Seg h a l b)
    (hnext : ∀ x ∈ a :: l, nextOf h' x = nextOf h x)
    (hprevious : ∀ x ∈ l ++ [b], previousOf h' x = previousOf h x) : Seg h' a l b := by
  induction l generalizing a with
  | nil =>
      exact ⟨(hnext a List.mem_cons_self).trans hs.1,
        (hprevious b (List.mem_singleton.mpr rfl)).trans hs.2⟩
  | cons c l ih =>
      refine ⟨⟨(hnext a List.mem_cons_self).trans hs.1.1,
        (hprevious c List.mem_cons_self).trans hs.1.2⟩, ih hs.2 ?_ ?_⟩
      · exact fun x hx => hnext x (List.mem_cons_of_mem a hx)
      · exact fun x hx => hprevious x (List.mem_cons_of_mem c hx)

/-- What comes before the end of a segment is in it. -/
theorem Seg.last {a b : Nat} {l : List Nat} (hs : Seg h a l b) :
    ∃ p ∈ a :: l, previousOf h b = some p := by
  induction l generalizing a with
  | nil => exact ⟨a, List.mem_cons_self, hs.2⟩
  | cons c l ih =>
      obtain ⟨p, hp, heq⟩ := ih hs.2
      exact ⟨p, List.mem_cons_of_mem a hp, heq⟩

/-- What comes after the start of a segment is in it. -/
theorem Seg.first {a b : Nat} {l : List Nat} (hs : Seg h a l b) :
    ∃ n ∈ l ++ [b], nextOf h a = some n := by
  cases l with
  | nil => exact ⟨b, List.mem_singleton.mpr rfl, hs.1⟩
  | cons c l => exact ⟨c, List.mem_cons_self, hs.1.1⟩

theorem Seg.isSome {a b : Nat} {l : List Nat} (hs : Seg h a l b) :
    ∀ x ∈ l, (h x).isSome := by
  induction l generalizing a with
  | nil => exact fun x hx => absurd hx List.not_mem_nil
  | cons c l ih =>
      intro x hx
      rcases List.mem_cons.mp hx with rfl | hx
      · have hc := hs.1.2
        cases hh : h x with
        | none => simp [previousOf, hh] at hc
        | some n => rfl
      · exact ih hs.2 x hx

/-! ### A new element at the end -/

/-- The memory after `q` was linked between `p` and `b`. -/
structure Appended (h h' : Heap α) (p q b : Nat) : Prop where
  next : nextOf h' = Function.update (Function.update (nextOf h) q (some b)) p (some q)
  previous : previousOf h' = Function.update (Function.update (previousOf h) q (some p)) b (some q)

theorem Seg.append {a b p q : Nat} {l : List Nat} (hs : Seg h a l b)
    (hp : previousOf h b = some p) (hq : Appended h h' p q b)
    (hsources : (a :: l).Nodup) (htargets : (l ++ [b]).Nodup) (hnew : q ∉ a :: l ∧ q ≠ b) :
    Seg h' a (l ++ [q]) b := by
  induction l generalizing a with
  | nil =>
      obtain rfl : p = a := Option.some.inj (hp.symm.trans hs.2)
      have hpq : q ≠ p := fun heq => hnew.1 (heq ▸ List.mem_cons_self)
      refine ⟨⟨?_, ?_⟩, ?_, ?_⟩
      · rw [hq.next, Function.update_self]
      · rw [hq.previous, Function.update_of_ne hnew.2, Function.update_self]
      · rw [hq.next, Function.update_of_ne hpq, Function.update_self]
      · rw [hq.previous, Function.update_self]
  | cons c l ih =>
      obtain ⟨p', hp', heq⟩ := hs.2.last
      obtain rfl : p = p' := Option.some.inj (hp.symm.trans heq)
      have hap : a ≠ p := fun h => (List.nodup_cons.mp hsources).1 (h ▸ hp')
      have haq : a ≠ q := fun h => hnew.1 (h ▸ List.mem_cons_self)
      have hcb : c ≠ b := fun h =>
        (List.nodup_cons.mp htargets).1 (h ▸ List.mem_append_right l (List.mem_singleton.mpr rfl))
      have hcq : c ≠ q := fun h => hnew.1 (h ▸ List.mem_cons_of_mem a List.mem_cons_self)
      refine ⟨⟨?_, ?_⟩, ih hs.2 (List.nodup_cons.mp hsources).2 (List.nodup_cons.mp htargets).2
        ⟨fun h => hnew.1 (List.mem_cons_of_mem a h), hnew.2⟩⟩
      · rw [hq.next, Function.update_of_ne hap, Function.update_of_ne haq]
        exact hs.1.1
      · rw [hq.previous, Function.update_of_ne hcb, Function.update_of_ne hcq]
        exact hs.1.2

/-! ### An element less -/

/-- The memory after the neighbours `p` and `n` of a node were linked to each other. -/
structure Removed (h h' : Heap α) (p n : Nat) : Prop where
  next : nextOf h' = Function.update (nextOf h) p (some n)
  previous : previousOf h' = Function.update (previousOf h) n (some p)

theorem Seg.remove {a b p q n : Nat} {l l' : List Nat} (hs : Seg h a l q) (hs' : Seg h q l' b)
    (hp : previousOf h q = some p) (hn : nextOf h q = some n) (hq : Removed h h' p n)
    (hsources : (a :: (l ++ q :: l')).Nodup) (htargets : (l ++ q :: (l' ++ [b])).Nodup) :
    Seg h' a (l ++ l') b := by
  induction l generalizing a with
  | nil =>
      obtain rfl : p = a := Option.some.inj (hp.symm.trans hs.2)
      cases l' with
      | nil =>
          obtain rfl : n = b := Option.some.inj (hn.symm.trans hs'.1)
          exact ⟨by rw [hq.next, Function.update_self], by rw [hq.previous, Function.update_self]⟩
      | cons c l' =>
          obtain rfl : n = c := Option.some.inj (hn.symm.trans hs'.1.1)
          refine ⟨⟨by rw [hq.next, Function.update_self],
            by rw [hq.previous, Function.update_self]⟩, hs'.2.frame ?_ ?_⟩
          · intro x hx
            have hxp : x ≠ p := fun h =>
              (List.nodup_cons.mp hsources).1 (h ▸ List.mem_cons_of_mem q hx)
            rw [hq.next, Function.update_of_ne hxp]
          · intro x hx
            have hxn : x ≠ n := fun h =>
              (List.nodup_cons.mp (List.nodup_cons.mp htargets).2).1 (h ▸ hx)
            rw [hq.previous, Function.update_of_ne hxn]
  | cons c l ih =>
      obtain ⟨p', hp', heq⟩ := hs.2.last
      obtain rfl : p = p' := Option.some.inj (hp.symm.trans heq)
      obtain ⟨n', hn', heq'⟩ := hs'.first
      obtain rfl : n = n' := Option.some.inj (hn.symm.trans heq')
      have hap : a ≠ p := by
        intro h
        refine (List.nodup_cons.mp hsources).1 (h ▸ ?_)
        exact List.mem_append_left _ hp'
      have hcn : c ≠ n := by
        intro h
        refine (List.nodup_cons.mp htargets).1 (h ▸ ?_)
        exact List.mem_append_right l (List.mem_cons_of_mem q hn')
      refine ⟨⟨?_, ?_⟩, ih hs.2 (List.nodup_cons.mp hsources).2 (List.nodup_cons.mp htargets).2⟩
      · rw [hq.next, Function.update_of_ne hap]
        exact hs.1.1
      · rw [hq.previous, Function.update_of_ne hcn]
        exact hs.1.2

end Ring
