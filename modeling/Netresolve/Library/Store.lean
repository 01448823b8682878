/-
Bytes in memory.

Memory gives a byte for every address.  `Has m a bytes` says that the bytes stand there from the
address `a` on; it is told by what was written there last, and kept by every write that is apart.
`Outside base size` relates two memories that differ within one block only.

Pointers take eight bytes, the lowest first, and are not NULL.  An array of pointers ends with
NULL and a string with a zero byte, so both are read back by walking to their end, which takes
fuel.
-/
import Netresolve.Library.Bytes

namespace Store

open Bytes

/-- Memory. -/
abbrev Mem := Nat → UInt8

/-- `n` bytes from an address on. -/
def read (m : Mem) (a n : Nat) : List UInt8 := (List.range n).map fun i => m (a + i)

/-- The bytes are written one after the other. -/
def write (m : Mem) (a : Nat) (bytes : List UInt8) : Mem := fun x =>
  if a ≤ x then bytes[x - a]?.getD (m x) else m x

/-- The bytes stand at the address. -/
def Has (m : Mem) (a : Nat) (bytes : List UInt8) : Prop :=
  ∀ i (h : i < bytes.length), m (a + i) = bytes[i]

/-- The two memories differ within a block only. -/
def Outside (base size : Nat) (m m' : Mem) : Prop :=
  ∀ x, x < base ∨ base + size ≤ x → m' x = m x

/-! ### Reading and writing -/

@[simp] theorem read_length (m : Mem) (a n : Nat) : (read m a n).length = n := by
  rw [read, List.length_map, List.length_range]

theorem Has.read {m : Mem} {a : Nat} {bytes : List UInt8} (h : Has m a bytes) :
    read m a bytes.length = bytes := by
  refine List.ext_getElem (read_length ..) fun i hi hi' => ?_
  simp only [Store.read, List.getElem_map, List.getElem_range]
  exact h i hi'

theorem Has.read_of_length {m : Mem} {a n : Nat} {bytes : List UInt8} (h : Has m a bytes)
    (hn : bytes.length = n) : Store.read m a n = bytes := by
  rw [← hn]
  exact h.read

theorem write_outside {m : Mem} {a x : Nat} {bytes : List UInt8}
    (h : x < a ∨ a + bytes.length ≤ x) : write m a bytes x = m x := by
  unfold write
  split
  · rw [List.getElem?_eq_none (by omega)]
    rfl
  · rfl

theorem has_write (m : Mem) (a : Nat) (bytes : List UInt8) : Has (write m a bytes) a bytes := by
  intro i h
  unfold write
  rw [if_pos (Nat.le_add_right a i), Nat.add_sub_cancel_left, List.getElem?_eq_getElem h]
  rfl

theorem Has.congr {m m' : Mem} {a : Nat} {bytes : List UInt8} (h : Has m a bytes)
    (heq : ∀ x, a ≤ x → x < a + bytes.length → m' x = m x) : Has m' a bytes := by
  intro i hi
  rw [heq (a + i) (by omega) (by omega)]
  exact h i hi

/-- A write that is apart leaves the bytes alone. -/
theorem Has.write_apart {m : Mem} {a b : Nat} {bytes new : List UInt8} (h : Has m a bytes)
    (hapart : a + bytes.length ≤ b ∨ b + new.length ≤ a) : Has (write m b new) a bytes :=
  h.congr fun _ hlow hhigh => write_outside (by omega)

theorem Has.append {m : Mem} {a : Nat} {xs ys : List UInt8} (hx : Has m a xs)
    (hy : Has m (a + xs.length) ys) : Has m a (xs ++ ys) := by
  intro i hi
  rw [List.length_append] at hi
  by_cases hlt : i < xs.length
  · rw [List.getElem_append_left hlt]
    exact hx i hlt
  · rw [List.getElem_append_right (by omega), ← hy (i - xs.length) (by omega)]
    congr 1
    omega

theorem Has.left {m : Mem} {a : Nat} {xs ys : List UInt8} (h : Has m a (xs ++ ys)) :
    Has m a xs := by
  intro i hi
  rw [h i (by rw [List.length_append]; omega), List.getElem_append_left hi]

theorem Has.right {m : Mem} {a : Nat} {xs ys : List UInt8} (h : Has m a (xs ++ ys)) :
    Has m (a + xs.length) ys := by
  intro i hi
  have hall := h (xs.length + i) (by rw [List.length_append]; omega)
  rw [List.getElem_append_right (by omega)] at hall
  rw [Nat.add_assoc, hall]
  congr 1
  omega

/-! ### What stays as it was -/

theorem Outside.refl (base size : Nat) (m : Mem) : Outside base size m m := fun _ _ => rfl

theorem Outside.trans {base size : Nat} {m m' m'' : Mem} (h : Outside base size m m')
    (h' : Outside base size m' m'') : Outside base size m m'' :=
  fun x hx => (h' x hx).trans (h x hx)

theorem Outside.write {base size : Nat} {m m' : Mem} (h : Outside base size m m') {a : Nat}
    {bytes : List UInt8} (hlow : base ≤ a) (hhigh : a + bytes.length ≤ base + size) :
    Outside base size m (Store.write m' a bytes) :=
  fun x hx => (write_outside (by omega)).trans (h x hx)

/-- What happens within a block leaves what is outside of it alone. -/
theorem Has.outside {m m' : Mem} {a base size : Nat} {bytes : List UInt8} (h : Has m a bytes)
    (hout : Outside base size m m') (hapart : a + bytes.length ≤ base ∨ base + size ≤ a) :
    Has m' a bytes :=
  h.congr fun x hlow hhigh => hout x (by omega)

theorem Outside.grow {base size base' size' : Nat} {m m' : Mem} (h : Outside base size m m')
    (hlow : base' ≤ base) (hhigh : base + size ≤ base' + size') : Outside base' size' m m' :=
  fun x hx => h x (by omega)

/-! ### Blocks of memory -/

/-- A block of memory. -/
structure Region where
  start : Nat
  size : Nat
  deriving DecidableEq, Repr

/-- No byte belongs to both. -/
def Region.Apart (r s : Region) : Prop := r.start + r.size ≤ s.start ∨ s.start + s.size ≤ r.start

/-- Every byte of the region belongs to the block. -/
def Region.Inside (r block : Region) : Prop :=
  block.start ≤ r.start ∧ r.start + r.size ≤ block.start + block.size

theorem Region.inside_iff {a b n k : Nat} :
    Region.Inside { start := a, size := n } { start := b, size := k } ↔ b ≤ a ∧ a + n ≤ b + k :=
  Iff.rfl

/-- The regions lie between two addresses and follow each other. -/
def InOrder : Nat → List Region → Nat → Prop
  | a, [], b => a ≤ b
  | a, r :: rest, b => a ≤ r.start ∧ InOrder (r.start + r.size) rest b

theorem InOrder.append {rs ss : List Region} {b c : Nat} (hss : InOrder b ss c) :
    ∀ {a : Nat}, InOrder a rs b → InOrder a (rs ++ ss) c := by
  induction rs with
  | nil =>
      intro a hrs
      have hab : a ≤ b := hrs
      cases ss with
      | nil => exact Nat.le_trans hab hss
      | cons s rest => exact ⟨Nat.le_trans hab hss.1, hss.2⟩
  | cons r rest ih => exact fun hrs => ⟨hrs.1, ih hrs.2⟩

theorem InOrder.bounds {rs : List Region} {b : Nat} : ∀ {a : Nat}, InOrder a rs b →
    a ≤ b ∧ ∀ r ∈ rs, a ≤ r.start ∧ r.start + r.size ≤ b := by
  induction rs with
  | nil => exact fun h => ⟨h, fun r hr => absurd hr List.not_mem_nil⟩
  | cons r rest ih =>
      intro a h
      obtain ⟨hend, hrest⟩ := ih h.2
      have hstart := h.1
      refine ⟨by omega, fun s hs => ?_⟩
      rcases List.mem_cons.mp hs with rfl | hs
      · exact ⟨hstart, hend⟩
      · have hs := hrest s hs
        omega

/-- Regions that follow each other are apart. -/
theorem InOrder.apart {rs : List Region} {b : Nat} : ∀ {a : Nat}, InOrder a rs b →
    rs.Pairwise Region.Apart := by
  induction rs with
  | nil => exact fun _ => List.Pairwise.nil
  | cons r rest ih =>
      intro a h
      exact List.Pairwise.cons (fun s hs => Or.inl (h.2.bounds.2 s hs).1) (ih h.2)

/-! ### Pointers -/

/-- An address that a pointer can hold, other than NULL. -/
def Pointer (p : Nat) : Prop := 0 < p ∧ p < 256 ^ 8

def readPointer (m : Mem) (a : Nat) : Nat := ofBytes (read m a 8)

theorem readPointer_of_has {m : Mem} {a p : Nat} (h : Has m a (toBytes 8 p)) (hp : p < 256 ^ 8) :
    readPointer m a = p := by
  have hread := h.read
  rw [toBytes_length] at hread
  rw [readPointer, hread, ofBytes_toBytes, Nat.mod_eq_of_lt hp]

/-! ### Arrays of pointers -/

/-- The pointers of an array, up to the NULL at its end. -/
def readArray (m : Mem) : Nat → Nat → Option (List Nat)
  | 0, _ => none
  | fuel + 1, a =>
      if readPointer m a = 0 then some []
      else (readArray m fuel (a + 8)).map (readPointer m a :: ·)

/-- The array stands at the address, with the NULL at its end. -/
structure HasArray (m : Mem) (a : Nat) (ps : List Nat) : Prop where
  entries : ∀ i (h : i < ps.length), Has m (a + 8 * i) (toBytes 8 ps[i])
  last : Has m (a + 8 * ps.length) (toBytes 8 0)

theorem HasArray.tail {m : Mem} {a p : Nat} {ps : List Nat} (h : HasArray m a (p :: ps)) :
    HasArray m (a + 8) ps := by
  refine ⟨fun i hi => ?_, ?_⟩
  · have hentry := h.entries (i + 1) (by rw [List.length_cons]; omega)
    rw [show a + 8 + 8 * i = a + 8 * (i + 1) by omega]
    exact hentry
  · rw [show a + 8 + 8 * ps.length = a + 8 * (p :: ps).length by rw [List.length_cons]; omega]
    exact h.last

/-- Walking to the NULL gives the pointers before it. -/
theorem HasArray.readArray {m : Mem} {ps : List Nat} (hps : ∀ p ∈ ps, Pointer p) :
    ∀ {a : Nat}, HasArray m a ps → ∀ {fuel : Nat}, ps.length < fuel →
      readArray m fuel a = some ps := by
  induction ps with
  | nil =>
      intro a h fuel hfuel
      obtain ⟨fuel, rfl⟩ := Nat.exists_eq_succ_of_ne_zero (Nat.ne_of_gt hfuel)
      have hnull : readPointer m a = 0 := readPointer_of_has h.last (by decide)
      rw [Store.readArray, if_pos hnull]
  | cons p rest ih =>
      intro a h fuel hfuel
      obtain ⟨fuel, rfl⟩ := Nat.exists_eq_succ_of_ne_zero (Nat.ne_zero_of_lt hfuel)
      obtain ⟨hpos, hlt⟩ := hps p List.mem_cons_self
      have hhead : readPointer m a = p :=
        readPointer_of_has (h.entries 0 (Nat.succ_pos _)) hlt
      rw [Store.readArray, hhead, if_neg (Nat.ne_of_gt hpos),
        ih (fun q hq => hps q (List.mem_cons_of_mem _ hq)) h.tail
          (by rw [List.length_cons] at hfuel; omega)]
      rfl

theorem HasArray.write_apart {m : Mem} {a b : Nat} {ps : List Nat} {new : List UInt8}
    (h : HasArray m a ps) (hapart : a + 8 * (ps.length + 1) ≤ b ∨ b + new.length ≤ a) :
    HasArray (write m b new) a ps := by
  refine ⟨fun i hi => (h.entries i hi).write_apart ?_, h.last.write_apart ?_⟩
  · rw [toBytes_length]
    omega
  · rw [toBytes_length]
    omega

/-- An array ends where its first NULL is. -/
theorem HasArray.of_nulls {m : Mem} {a n : Nat} {ps : List Nat}
    (h : HasArray m a (ps ++ List.replicate n 0)) : HasArray m a ps := by
  cases n with
  | zero =>
      rw [List.replicate_zero, List.append_nil] at h
      exact h
  | succ n =>
      refine ⟨fun i hi => ?_, ?_⟩
      · have hentry := h.entries i (by rw [List.length_append]; omega)
        rwa [List.getElem_append_left hi] at hentry
      · have hentry := h.entries ps.length
          (by rw [List.length_append, List.length_replicate]; omega)
        rwa [List.getElem_append_right (Nat.le_refl _), List.getElem_replicate] at hentry

/-- Another pointer in the place of the one at the index. -/
theorem HasArray.set {m : Mem} {a : Nat} {ps : List Nat} (h : HasArray m a ps) {i : Nat}
    (hi : i < ps.length) (p : Nat) :
    HasArray (write m (a + 8 * i) (toBytes 8 p)) a (ps.set i p) := by
  refine ⟨fun j hj => ?_, ?_⟩
  · rw [List.length_set] at hj
    by_cases hij : i = j
    · subst hij
      rw [List.getElem_set_self]
      exact has_write m _ _
    · rw [List.getElem_set_ne hij]
      refine (h.entries j hj).write_apart ?_
      rw [toBytes_length, toBytes_length]
      omega
  · rw [List.length_set]
    refine h.last.write_apart ?_
    rw [toBytes_length, toBytes_length]
    omega

/-- The bytes of an array. -/
theorem HasArray.of_has {m : Mem} {ps : List Nat} : ∀ {a : Nat},
    Has m a (ps.flatMap (toBytes 8) ++ toBytes 8 0) → HasArray m a ps := by
  induction ps with
  | nil => exact fun h => ⟨fun i hi => absurd hi (Nat.not_lt_zero _), h⟩
  | cons p rest ih =>
      intro a h
      rw [List.flatMap_cons, List.append_assoc] at h
      have htail := ih (by have hright := h.right; rwa [toBytes_length] at hright)
      refine ⟨fun i hi => ?_, ?_⟩
      · cases i with
        | zero => exact h.left
        | succ i =>
            have hentry := htail.entries i (by rw [List.length_cons] at hi; omega)
            rw [show a + 8 * (i + 1) = a + 8 + 8 * i by omega]
            exact hentry
      · rw [show a + 8 * (p :: rest).length = a + 8 + 8 * rest.length by
          rw [List.length_cons]; omega]
        exact htail.last

/-! ### Strings -/

/-- The bytes of a string, up to the zero byte at its end. -/
def readString (m : Mem) : Nat → Nat → Option (List UInt8)
  | 0, _ => none
  | fuel + 1, a =>
      if m a = 0 then some [] else (readString m fuel (a + 1)).map (m a :: ·)

theorem readString_of_has {m : Mem} {s : List UInt8} (hs : 0 ∉ s) :
    ∀ {a : Nat}, Has m a (s ++ [0]) → ∀ {fuel : Nat}, s.length < fuel →
      readString m fuel a = some s := by
  induction s with
  | nil =>
      intro a h fuel hfuel
      obtain ⟨fuel, rfl⟩ := Nat.exists_eq_succ_of_ne_zero (Nat.ne_of_gt hfuel)
      have hzero : m a = 0 := h 0 (Nat.succ_pos _)
      rw [readString, if_pos hzero]
  | cons b rest ih =>
      intro a h fuel hfuel
      obtain ⟨fuel, rfl⟩ := Nat.exists_eq_succ_of_ne_zero (Nat.ne_zero_of_lt hfuel)
      have hb : m a = b := h 0 (Nat.succ_pos _)
      have hne : m a ≠ 0 := by
        rw [hb]
        exact fun hzero => hs (by rw [hzero]; exact List.mem_cons_self)
      have hsplit : Has m a ([b] ++ (rest ++ [0])) := h
      have hrest : readString m fuel (a + 1) = some rest :=
        ih (fun hmem => hs (List.mem_cons_of_mem _ hmem)) hsplit.right
          (by rw [List.length_cons] at hfuel; omega)
      rw [readString, if_neg hne, hrest, hb]
      rfl

end Store
