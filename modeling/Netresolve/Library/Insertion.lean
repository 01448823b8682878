/-
Insertion before the first element that is greater.

`List.orderedInsert` is used here with a strict order that need not be total: elements may
be incomparable, and an insertion goes past whatever the new element is not less than.
Transitivity is still enough for the list to stay in order, and elements that compare alike
stay in the order in which they came.
-/
import Mathlib.Data.List.Sort
import Mathlib.Order.Defs.Unbundled

namespace Insertion

variable {α : Type} (r : α → α → Prop)

/-- No element is less than one that comes before it. -/
def Ordered (l : List α) : Prop := l.Pairwise fun a b => ¬ r b a

/-- The members of the class are less than the same elements. -/
def Alike (k : α → Bool) : Prop := ∀ a b c, k a = true → k b = true → r a c → r b c

variable {r} [DecidableRel r]

theorem ordered_insert [IsStrictOrder α r] (x : α) {l : List α} (h : Ordered r l) :
    Ordered r (l.orderedInsert r x) := by
  induction l with
  | nil => exact List.pairwise_singleton _ _
  | cons b rest ih =>
      obtain ⟨hb, hrest⟩ := List.pairwise_cons.mp h
      rw [List.orderedInsert_cons]
      by_cases hxb : r x b
      · rw [if_pos hxb]
        refine List.pairwise_cons.mpr ⟨fun c hc hcx => ?_, h⟩
        -- what is less than `x` is less than `b`, and nothing behind `b` is
        have hcb : r c b := trans_of r hcx hxb
        rcases List.mem_cons.mp hc with rfl | hc
        · exact irrefl_of r c hcb
        · exact hb c hc hcb
      · rw [if_neg hxb]
        refine List.pairwise_cons.mpr ⟨fun c hc => ?_, ih hrest⟩
        rcases (List.mem_orderedInsert r).mp hc with rfl | hc
        · exact hxb
        · exact hb c hc

/-- An element comes after all that compare like it. -/
theorem filter_insert [IsStrictOrder α r] {k : α → Bool} (hk : Alike r k) {x : α}
    (hx : k x = true) {l : List α} (h : Ordered r l) :
    (l.orderedInsert r x).filter k = l.filter k ++ [x] := by
  induction l with
  | nil => simp [hx]
  | cons b rest ih =>
      obtain ⟨hb, hrest⟩ := List.pairwise_cons.mp h
      rw [List.orderedInsert_cons]
      by_cases hxb : r x b
      · have hnone : (b :: rest).filter k = [] := by
          refine List.filter_eq_nil_iff.mpr fun c hc hkc => ?_
          have hcb : r c b := hk x c b hx hkc hxb
          rcases List.mem_cons.mp hc with rfl | hc
          · exact irrefl_of r c hcb
          · exact hb c hc hcb
        rw [if_pos hxb, List.filter_cons_of_pos hx, hnone]
        rfl
      · rw [if_neg hxb, List.filter_cons, ih hrest, List.filter_cons]
        split
        · rfl
        · rfl

theorem filter_insert_other {k : α → Bool} {x : α} (hx : k x = false) (l : List α) :
    (l.orderedInsert r x).filter k = l.filter k := by
  induction l with
  | nil => simp [hx]
  | cons b rest ih =>
      rw [List.orderedInsert_cons]
      split
      · rw [List.filter_cons_of_neg (by simp [hx])]
      · rw [List.filter_cons, ih, List.filter_cons]

/-- What is less than nothing goes to the end. -/
theorem insert_last {x : α} {l : List α} (h : ∀ b ∈ l, ¬ r x b) :
    l.orderedInsert r x = l ++ [x] := by
  induction l with
  | nil => rfl
  | cons b rest ih =>
      rw [List.orderedInsert_of_not_le r rest (h b List.mem_cons_self),
        ih fun c hc => h c (List.mem_cons_of_mem b hc)]
      rfl

/-- The elements of a list, inserted one after the other. -/
def insertAll (r : α → α → Prop) [DecidableRel r] (l new : List α) : List α :=
  new.foldl (fun l x => l.orderedInsert r x) l

theorem insertAll_perm (new : List α) : ∀ l : List α, (insertAll r l new).Perm (l ++ new) := by
  induction new with
  | nil => intro l; simp [insertAll]
  | cons x rest ih =>
      intro l
      refine (ih (l.orderedInsert r x)).trans ?_
      refine (((List.perm_orderedInsert r x l).append_right rest).trans ?_)
      exact List.perm_middle.symm

theorem insertAll_ordered [IsStrictOrder α r] (new : List α) :
    ∀ {l : List α}, Ordered r l → Ordered r (insertAll r l new) := by
  induction new with
  | nil => exact fun h => h
  | cons x rest ih => exact fun h => ih (ordered_insert x h)

theorem insertAll_filter [IsStrictOrder α r] {k : α → Bool} (hk : Alike r k) (new : List α) :
    ∀ {l : List α}, Ordered r l → (insertAll r l new).filter k = l.filter k ++ new.filter k := by
  induction new with
  | nil => intro l _; simp [insertAll]
  | cons x rest ih =>
      intro l h
      refine (ih (ordered_insert x h)).trans ?_
      by_cases hx : k x = true
      · rw [filter_insert hk hx h, List.filter_cons_of_pos hx, List.append_assoc]
        rfl
      · rw [filter_insert_other (by simpa using hx), List.filter_cons_of_neg hx]

theorem insertAll_last (h : ∀ a b, ¬ r a b) (new : List α) :
    ∀ l : List α, insertAll r l new = l ++ new := by
  induction new with
  | nil => exact fun l => (List.append_nil l).symm
  | cons x rest ih =>
      intro l
      refine (ih (l.orderedInsert r x)).trans ?_
      rw [insert_last fun b _ => h x b, List.append_assoc]
      rfl

/-- A list in order is what its elements, inserted one after the other, come to. -/
theorem insertAll_of_ordered (new : List α) :
    ∀ {l : List α}, Ordered r (l ++ new) → insertAll r l new = l ++ new := by
  induction new with
  | nil => exact fun _ => (List.append_nil _).symm
  | cons x rest ih =>
      intro l h
      have hlast : ∀ b ∈ l, ¬ r x b := fun b hb =>
        (List.pairwise_append.mp h).2.2 b hb x List.mem_cons_self
      have hshift : l ++ x :: rest = (l ++ [x]) ++ rest := by simp
      show insertAll r (l.orderedInsert r x) rest = _
      rw [insert_last hlast, hshift]
      exact ih (hshift ▸ h)

end Insertion
