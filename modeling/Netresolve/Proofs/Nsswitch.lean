/-
What the module for the name service switch leaves in the buffer.

A list of tuples is built from its start: the pointer that is next is the caller's at first and
then the one in the tuple that was added last, and every tuple is complete when the next one is
begun.  A host entry is built in the same way as in `gethostbyname2_r`, but for an array that is
as long as the whole list.  Neither function stores all that its caller reads: the scope of a tuple
stays zero, and the aliases of a host entry stay what they were.
-/
import Mathlib.Algebra.Order.BigOperators.Group.List
import Mathlib.Algebra.Order.Group.Nat
import Netresolve.Core.Nsswitch
import Netresolve.Proofs.Addrinfo
import Netresolve.Proofs.Packing

namespace Netresolve.Nsswitch

open Store Bytes Nss
open Compat (ERANGE)
open Nameinfo (bytes zeroEnded zero_not_mem_bytes zeroEnded_length)
open Packing

/-! ### Lists of addresses -/

/-- The item has one of the two families and a socket address of it. -/
structure Proper (item : Addrinfo) : Prop where
  family : item.family = AF_INET ∨ item.family = AF_INET6
  length : (itemAddress item).length = familyToLength item.family

theorem getSockaddr_form {path : Path} {sa : List UInt8}
    (hsa : Addrinfo.getSockaddr path = some sa) :
    sa.take 2 = ofInt 2 path.family ∧
      ((path.family = AF_INET ∧ sa.length = 16) ∨ (path.family = AF_INET6 ∧ sa.length = 28)) := by
  have haddress : ∀ n, (Addrinfo.addressBytes n path).length = n := fun n => padded_length n _
  have hport : (Addrinfo.htons path.port).length = 2 := Addrinfo.htons_length _
  have htake : ∀ rest, (ofInt 2 path.family ++ rest).take 2 = ofInt 2 path.family := fun rest =>
    List.take_left' (ofInt_length 2 _)
  unfold Addrinfo.getSockaddr at hsa
  split at hsa
  · next hfamily =>
      obtain rfl := Option.some.inj hsa
      refine ⟨by simp only [List.append_assoc, htake], Or.inl ⟨hfamily, ?_⟩⟩
      simp only [List.length_append, ofInt_length, hport, haddress, List.length_replicate]
  · split at hsa
    · next hfamily =>
        obtain rfl := Option.some.inj hsa
        refine ⟨by simp only [List.append_assoc, htake], Or.inr ⟨hfamily, ?_⟩⟩
        simp only [List.length_append, ofInt_length, hport, haddress, List.length_replicate]
    · cases hsa

theorem proper_of_getSockaddr {path : Path} {sa : List UInt8}
    (hsa : Addrinfo.getSockaddr path = some sa) (canonname : Option String) :
    Proper (Addrinfo.itemOf path sa canonname) := by
  obtain ⟨htake, hform⟩ := getSockaddr_form hsa
  have hfamily : (Addrinfo.itemOf path sa canonname).family = path.family := by
    have hbytes : ((ofBytes (sa.take 2) : Nat) : Int) = path.family := by
      rw [htake, ofBytes_ofInt]
      rcases hform with ⟨h, -⟩ | ⟨h, -⟩ <;> rw [h] <;> rfl
    exact hbytes
  have haddr : (Addrinfo.itemOf path sa canonname).addr = sa := rfl
  refine ⟨?_, ?_⟩
  · rw [hfamily]
    exact hform.imp And.left And.left
  · rw [itemAddress, hfamily, haddr]
    rcases hform with ⟨h, hlength⟩ | ⟨h, hlength⟩
    · rw [if_pos h, List.length_take, List.length_drop, hlength, h]
      rfl
    · rw [if_neg (by rw [h]; decide), if_pos h, List.length_take, List.length_drop, hlength, h]
      rfl

/-- `netresolve_query_getaddrinfo_done` makes no other items. -/
theorem buildList_proper {calloc : Nat → Bool} {clampTtl : Int} {canonname : Option String}
    {paths : List Path} : ∀ {i : Nat} {start ttl : Int} {items : List Addrinfo},
      Addrinfo.buildList calloc clampTtl canonname i start paths = .ok (items, ttl) →
      ∀ item ∈ items, Proper item := by
  induction paths with
  | nil =>
      intro i start ttl items h
      obtain ⟨rfl, -⟩ := Prod.mk.inj (Except.ok.inj h)
      exact fun item hitem => absurd hitem List.not_mem_nil
  | cons path rest ih =>
      intro i start ttl items h
      rw [Addrinfo.buildList] at h
      split at h
      · cases hsa : Addrinfo.getSockaddr path with
        | none =>
            rw [hsa] at h
            cases h
        | some sa =>
            simp only [hsa, bind, Except.bind] at h
            split at h
            · cases h
            · next hrest =>
                obtain ⟨rfl, -⟩ := Prod.mk.inj (Except.ok.inj h)
                intro item hitem
                rcases List.mem_cons.mp hitem with rfl | hitem
                · exact proper_of_getSockaddr hsa _
                · exact ih hrest item hitem
      · cases h

/-! ### Pieces of the buffer -/

theorem bufferAppend_zeros (size : Nat) (buffer : Buffer) (m : Mem) :
    bufferAppend none size buffer m =
      if buffer.length < size then none
      else some (buffer.data, { data := buffer.data + size, length := buffer.length - size },
        write m buffer.data (List.replicate size 0)) := rfl

theorem bufferAppend_name (name : String) (buffer : Buffer) (m : Mem) :
    bufferAppend (some (zeroEnded name)) 0 buffer m =
      if buffer.length < (zeroEnded name).length then none
      else some (buffer.data,
        { data := buffer.data + (zeroEnded name).length
          length := buffer.length - (zeroEnded name).length },
        write m buffer.data (zeroEnded name)) := by
  have hstrlen : ((zeroEnded name).takeWhile (· ≠ 0)).length + 1 = (zeroEnded name).length := by
    have hstring := Nameinfo.stringIn_zeroEnded name []
    rw [List.append_nil] at hstring
    rw [zeroEnded_length, ← hstring]
    rfl
  unfold bufferAppend
  simp only [if_true, hstrlen, List.take_length]

/-! ### Tuples in memory -/

/-- The pointer at 8, and the name behind the tuple. -/
def NameAt (m : Mem) (p : Nat) : Option (List UInt8) → Prop
  | none => Has m (p + 8) (toBytes 8 0)
  | some name => Has m (p + 8) (toBytes 8 (p + 40)) ∧ Pointer (p + 40) ∧
      Has m (p + 40) (name ++ [0]) ∧ 0 ∉ name

/-- The tuple stands at the address. -/
structure TupleAt (m : Mem) (p : Nat) (tuple : Tuple) : Prop where
  pointer : Pointer p
  name : NameAt m p tuple.name
  inet : tuple.family = AF_INET ∨ tuple.family = AF_INET6
  family : Has m (p + 16) (ofInt 4 tuple.family)
  length : tuple.addr.length = familyToLength tuple.family
  addr : Has m (p + 20) tuple.addr
  scopeid : Has m (p + 36) (toBytes 4 tuple.scopeid)

/-- The pointer at the address leads to these tuples, and to NULL after them. -/
def Chain (m : Mem) : Nat → List Tuple → Prop
  | a, [] => Has m a (toBytes 8 0)
  | a, tuple :: rest => ∃ p, Has m a (toBytes 8 p) ∧ TupleAt m p tuple ∧ Chain m p rest

/-- The bytes a name takes. -/
def nameSize : Option (List UInt8) → Nat
  | none => 0
  | some name => name.length + 1

theorem familyToLength_le {family : Int} (h : family = AF_INET ∨ family = AF_INET6) :
    familyToLength family ≤ 16 := by
  rcases h with rfl | rfl <;> decide

/-- All but the pointer to the next tuple is in the bytes behind that pointer. -/
theorem TupleAt.congr {m m' : Mem} {p : Nat} {tuple : Tuple} (h : TupleAt m p tuple)
    (heq : ∀ x, p + 8 ≤ x → x < p + 40 + nameSize tuple.name → m' x = m x) :
    TupleAt m' p tuple := by
  have hlength := h.length
  have hle := familyToLength_le h.inet
  refine ⟨h.pointer, ?_, h.inet, h.family.congr fun x hlow hhigh => heq x (by omega) ?_, hlength,
    h.addr.congr fun x hlow hhigh => heq x (by omega) (by omega),
    h.scopeid.congr fun x hlow hhigh => heq x (by omega) ?_⟩
  · have hname := h.name
    cases hcase : tuple.name with
    | none =>
        rw [hcase] at hname
        refine Has.congr hname fun x hlow hhigh => heq x hlow ?_
        rw [toBytes_length] at hhigh
        omega
    | some name =>
        rw [hcase] at hname heq
        obtain ⟨hpointer, hvalid, hstring, hzero⟩ := hname
        refine ⟨hpointer.congr fun x hlow hhigh => heq x hlow ?_, hvalid,
          hstring.congr fun x hlow hhigh => heq x (by omega) ?_, hzero⟩
        · rw [toBytes_length] at hhigh
          omega
        · rw [List.length_append, List.length_singleton] at hhigh
          rw [nameSize]
          omega
  · rw [ofInt_length] at hhigh
    omega
  · rw [toBytes_length] at hhigh
    omega

theorem toInt_family {family : Int} (h : family = AF_INET ∨ family = AF_INET6) :
    toInt (ofInt 4 family) = family := by
  rcases h with rfl | rfl <;> decide

theorem NameAt.readName {m : Mem} {p strlen : Nat} {name : Option (List UInt8)}
    (h : NameAt m p name) (hstrlen : nameSize name ≤ strlen) :
    readName m strlen (readPointer m (p + 8)) = some name := by
  cases name with
  | none =>
      rw [readPointer_of_has h (by decide)]
      rfl
  | some name =>
      obtain ⟨hpointer, ⟨hpos, hlt⟩, hstring, hzero⟩ := h
      rw [readPointer_of_has hpointer hlt, Nsswitch.readName, if_neg (Nat.ne_of_gt hpos),
        readString_of_has hzero hstring hstrlen]
      rfl

/-- Walking along the pointers gives the tuples. -/
theorem Chain.readTuples {m : Mem} {strlen : Nat} {tuples : List Tuple} :
    ∀ {a fuel : Nat}, Chain m a tuples → tuples.length < fuel →
      (∀ tuple ∈ tuples, nameSize tuple.name ≤ strlen ∧ tuple.scopeid < 256 ^ 4) →
      readTuples m strlen fuel a = some tuples := by
  induction tuples with
  | nil =>
      intro a fuel h hfuel _
      obtain ⟨fuel, rfl⟩ := Nat.exists_eq_succ_of_ne_zero (Nat.ne_zero_of_lt hfuel)
      have hnull : readPointer m a = 0 := readPointer_of_has h (by decide)
      simp only [Nsswitch.readTuples, hnull, if_true]
  | cons tuple rest ih =>
      intro a fuel h hfuel hbounds
      obtain ⟨fuel, rfl⟩ := Nat.exists_eq_succ_of_ne_zero (Nat.ne_zero_of_lt hfuel)
      obtain ⟨p, hnext, htuple, hrest⟩ := h
      obtain ⟨hpos, hlt⟩ := htuple.pointer
      have hp : readPointer m a = p := readPointer_of_has hnext hlt
      obtain ⟨hname, hscope⟩ := hbounds tuple List.mem_cons_self
      have hfamily : Bytes.toInt (read m (p + 16) 4) = tuple.family := by
        rw [htuple.family.read_of_length (ofInt_length 4 _), toInt_family htuple.inet]
      have hscopeid : ofBytes (read m (p + 36) 4) = tuple.scopeid := by
        rw [htuple.scopeid.read_of_length (toBytes_length 4 _), ofBytes_toBytes,
          Nat.mod_eq_of_lt hscope]
      have haddr : read m (p + 20) (familyToLength tuple.family) = tuple.addr :=
        htuple.addr.read_of_length htuple.length
      have htail : Nsswitch.readTuples m strlen fuel p = some rest :=
        ih hrest (by rw [List.length_cons] at hfuel; omega)
          fun t ht => hbounds t (List.mem_cons_of_mem _ ht)
      simp only [Nsswitch.readTuples, hp, Nat.ne_of_gt hpos, if_false, htuple.name.readName hname,
        hfamily, haddr, hscopeid, htail, Option.bind_eq_bind, Option.bind_some, Option.pure_def]

/-! ### One turn of the loop -/

/-- What the code stores for an item: nothing is stored as the scope. -/
def storedTuple (first : Bool) (item : Addrinfo) : Tuple where
  name := (if first then item.canonname else none).map bytes
  family := item.family
  addr := itemAddress item
  scopeid := 0

/-- Memory with the tuple of an item at `d`, without its name, and the pointer to it at `r`. -/
def filled (m : Mem) (r d : Nat) (item : Addrinfo) : Mem :=
  write (write (write (write m d (List.replicate 40 0)) r (toBytes 8 d)) (d + 16)
    (ofInt 4 item.family)) (d + 20) (itemAddress item)

/-- The same with the name. -/
def named (m : Mem) (r d : Nat) (item : Addrinfo) (name : String) : Mem :=
  write (write (filled m r d item) (d + 40) (zeroEnded name)) (d + 8) (toBytes 8 (d + 40))

/-- Outside of the pointer at `r` and of a piece of the buffer nothing changes. -/
def Frame (r d size : Nat) (m m' : Mem) : Prop :=
  ∀ x, (x < r ∨ r + 8 ≤ x) → (x < d ∨ d + size ≤ x) → m' x = m x

theorem replicate_eq_toBytes (n : Nat) : List.replicate n 0 = toBytes n 0 := by
  induction n with
  | zero => rfl
  | succ n ih => rw [List.replicate_succ, ih, toBytes]; rfl

/-- Zeros within zeros. -/
theorem has_zeros {m : Mem} {a n k size : Nat} (h : Has m a (List.replicate size 0))
    (hfit : k + n ≤ size) : Has m (a + k) (toBytes n 0) := by
  intro i hi
  rw [toBytes_length] at hi
  have hbyte := h (k + i) (by rw [List.length_replicate]; omega)
  rw [List.getElem_replicate] at hbyte
  rw [Nat.add_assoc, hbyte]
  simp only [← replicate_eq_toBytes, List.getElem_replicate]

/-- A tuple is there, the pointer at `r` leads to it, and it has no next one. -/
structure Added (r d : Nat) (tuple : Tuple) (m m' : Mem) : Prop where
  link : Has m' r (toBytes 8 d)
  next : Has m' d (toBytes 8 0)
  stored : TupleAt m' d tuple
  frame : Frame r d (40 + nameSize tuple.name) m m'

theorem filled_added {m : Mem} {r d : Nat} {item : Addrinfo} (hitem : Proper item)
    (hpointer : Pointer d) (hapart : r + 8 ≤ d ∨ d + 40 ≤ r) :
    Added r d (storedTuple false item) m (filled m r d item) := by
  have hlength := hitem.length
  have hle := familyToLength_le hitem.family
  have hzeros : ∀ k n, k + n ≤ 40 → (k + n ≤ 16 ∨ 36 ≤ k) →
      Has (filled m r d item) (d + k) (toBytes n 0) := by
    intro k n hfit hside
    refine (((has_zeros (has_write m d _) hfit).write_apart ?_).write_apart ?_).write_apart ?_
    all_goals simp only [toBytes_length, ofInt_length]; omega
  refine ⟨?_, hzeros 0 8 (by omega) (by omega), ⟨hpointer, hzeros 8 8 (by omega) (by omega),
    hitem.family, ?_, hlength, has_write _ _ _, hzeros 36 4 (by omega) (by omega)⟩, ?_⟩
  · refine ((has_write _ r _).write_apart ?_).write_apart ?_
    all_goals simp only [toBytes_length, ofInt_length]; omega
  · refine (has_write _ _ _).write_apart (Or.inl ?_)
    rw [ofInt_length]
  · intro x hr hd
    have hd : x < d ∨ d + 40 ≤ x := hd
    unfold filled
    rw [write_outside (by omega), write_outside (by rw [ofInt_length]; omega),
      write_outside (by rw [toBytes_length]; omega),
      write_outside (by rw [List.length_replicate]; omega)]

theorem named_added {m : Mem} {r d : Nat} {item : Addrinfo} {name : String} (hitem : Proper item)
    (hname : item.canonname = some name) (hpointer : Pointer d) (hnext : Pointer (d + 40))
    (hapart : r + 8 ≤ d ∨ d + 40 + (zeroEnded name).length ≤ r) :
    Added r d (storedTuple true item) m (named m r d item name) := by
  have hadded := filled_added (m := m) hitem hpointer (r := r) (by omega)
  have hstored : storedTuple true item = { storedTuple false item with name := some (bytes name) } := by
    rw [storedTuple, if_pos rfl, hname]
    rfl
  have hsize : (zeroEnded name).length = (bytes name).length + 1 := zeroEnded_length name
  have hkeep : ∀ {a : Nat} {content : List UInt8}, Has (filled m r d item) a content →
      (a + content.length ≤ d + 8 ∨ d + 16 ≤ a) →
      (a + content.length ≤ d + 40 ∨ d + 40 + (zeroEnded name).length ≤ a) →
      Has (named m r d item name) a content := by
    intro a content h hpointer hstring
    refine (h.write_apart hstring).write_apart ?_
    rw [toBytes_length]
    omega
  have hle := familyToLength_le hitem.family
  have htuple := hadded.stored
  have hlength : (storedTuple false item).addr.length ≤ 16 := by
    rw [htuple.length]
    exact hle
  refine ⟨hkeep hadded.link ?_ ?_, hkeep hadded.next ?_ ?_, ?_, ?_⟩
  · rw [toBytes_length]
    omega
  · rw [toBytes_length]
    omega
  · rw [toBytes_length]
    omega
  · rw [toBytes_length]
    omega
  · rw [hstored]
    refine ⟨hpointer, ⟨has_write _ _ _, hnext, (has_write _ _ _).write_apart (Or.inr ?_),
      zero_not_mem_bytes name⟩, hitem.family, hkeep htuple.family ?_ ?_, htuple.length,
      hkeep htuple.addr ?_ ?_, hkeep htuple.scopeid ?_ ?_⟩
    all_goals simp only [toBytes_length, ofInt_length]; omega
  · intro x hr hd
    rw [hstored] at hd
    have hd : x < d ∨ d + (40 + ((bytes name).length + 1)) ≤ x := hd
    unfold named
    rw [write_outside (by rw [toBytes_length]; omega), write_outside (by omega)]
    exact hadded.frame x hr (show x < d ∨ d + 40 ≤ x by omega)

/-! ### The loop -/

/-- What the code stores for a list. -/
def storedTuples : Bool → List Addrinfo → List Tuple
  | _, [] => []
  | first, item :: rest => storedTuple first item :: storedTuples false rest

/-- The bytes that tuples take with their names. -/
def tuplesSize (tuples : List Tuple) : Nat := (tuples.map fun t => 40 + nameSize t.name).sum

/-- Everything has been stored, or the buffer has been too short. -/
structure Ran (r d size : Nat) (tuples : List Tuple) (m : Mem) (out : Returned) : Prop where
  frame : Frame r d size m out.memory
  short : size < tuplesSize tuples → out.status = NSS_STATUS_TRYAGAIN ∧ out.errno = some ERANGE
  fits : tuplesSize tuples ≤ size → out.status = NSS_STATUS_SUCCESS ∧ Chain out.memory r tuples

/-- A tuple in front of the others. -/
theorem Ran.cons {r d size : Nat} {tuple : Tuple} {tuples : List Tuple} {m m' : Mem}
    {out : Returned} (hadded : Added r d tuple m m') (hapart : r + 8 ≤ d ∨ d + size ≤ r)
    (hroom : 40 + nameSize tuple.name ≤ size)
    (h : Ran d (d + (40 + nameSize tuple.name)) (size - (40 + nameSize tuple.name)) tuples m' out) :
    Ran r d size (tuple :: tuples) m out := by
  have hsize : tuplesSize (tuple :: tuples) = 40 + nameSize tuple.name + tuplesSize tuples := by
    rw [tuplesSize, List.map_cons, List.sum_cons, tuplesSize]
  refine ⟨fun x hr hd => ?_, fun hshort => h.short (by omega), fun hfits => ?_⟩
  · rw [h.frame x (by omega) (by omega)]
    exact hadded.frame x hr (by omega)
  · obtain ⟨hstatus, hchain⟩ := h.fits (by omega)
    refine ⟨hstatus, d, hadded.link.congr fun x hlow hhigh => h.frame x ?_ ?_,
      hadded.stored.congr fun x hlow hhigh => h.frame x (by omega) (by omega), hchain⟩
    · rw [toBytes_length] at hhigh
      omega
    · rw [toBytes_length] at hhigh
      omega

theorem Ran.of_short {r d size : Nat} {tuple : Tuple} {tuples : List Tuple} {m m' : Mem}
    (hshort : size < 40 + nameSize tuple.name) (hframe : Frame r d size m m') :
    Ran r d size (tuple :: tuples) m
      { status := NSS_STATUS_TRYAGAIN, errno := some ERANGE, memory := m' } := by
  have hsize : tuplesSize (tuple :: tuples) = 40 + nameSize tuple.name + tuplesSize tuples := by
    rw [tuplesSize, List.map_cons, List.sum_cons, tuplesSize]
  exact ⟨hframe, fun _ => ⟨rfl, rfl⟩, fun hfits => absurd hfits (by omega)⟩

/-- Memory while a tuple is filled, with the pointers as the code reads them. -/
theorem filled_eq {m : Mem} {r d : Nat} (item : Addrinfo) (hpointer : Pointer d) :
    extractAddress item (readPointer (write (write m d (List.replicate 40 0)) r (toBytes 8 d)) r + 20)
      (write (write (write m d (List.replicate 40 0)) r (toBytes 8 d))
        (readPointer (write (write m d (List.replicate 40 0)) r (toBytes 8 d)) r + 16)
        (ofInt 4 item.family)) = filled m r d item := by
  rw [readPointer_of_has (has_write _ _ _) hpointer.2, extractAddress, if_neg (by omega)]
  rfl

/-- The loop stores every item in a tuple of its own as long as there is room. -/
theorem addTuples_ran {list : List Addrinfo} : ∀ {first : Bool} {r d size : Nat} {m : Mem},
    (∀ item ∈ list, Proper item) → (r + 8 ≤ d ∨ d + size ≤ r) → (0 < size → 0 < d) →
    d + size ≤ 256 ^ 8 → (list = [] → Has m r (toBytes 8 0)) →
    Ran r d size (storedTuples first list) m
      (addTuples first list r { data := d, length := size } m) := by
  induction list with
  | nil =>
      intro first r d size m _ _ _ _ hnull
      exact ⟨fun x _ _ => rfl, fun hshort => absurd hshort (Nat.not_lt_zero _),
        fun _ => ⟨rfl, hnull rfl⟩⟩
  | cons item rest ih =>
      intro first r d size m hlist hapart hd hspace _
      have hitem := hlist item List.mem_cons_self
      have hrest := fun i hi => hlist i (List.mem_cons_of_mem _ hi)
      rw [storedTuples, addTuples, bufferAppend_zeros]
      by_cases hshort : size < 40
      · rw [if_pos hshort]
        refine Ran.of_short (by omega) fun x hr _ => write_outside ?_
        rw [toBytes_length]
        omega
      have hpointer : Pointer d := ⟨hd (by omega), by omega⟩
      rw [if_neg hshort]
      dsimp only
      rw [filled_eq item hpointer, readPointer_of_has (has_write _ _ _) hpointer.2]
      have hfilled : Added r d (storedTuple false item) m (filled m r d item) :=
        filled_added hitem hpointer (by omega)
      cases hname : (if first then item.canonname else none) with
      | none =>
          have hstored : storedTuple first item = storedTuple false item := by
            rw [storedTuple, hname]
            rfl
          have hsize : nameSize (storedTuple false item).name = 0 := rfl
          rw [hstored]
          refine Ran.cons hfilled hapart (Nat.not_lt.mp hshort) ?_
          rw [hsize]
          exact ih hrest (Or.inl (by omega)) (fun _ => by omega) (by omega) fun _ => hfilled.next
      | some name =>
          have hfirst : first = true ∧ item.canonname = some name := by
            cases first with
            | false => cases hname
            | true => exact ⟨rfl, hname⟩
          obtain ⟨rfl, hcanonname⟩ := hfirst
          have hsize : nameSize (storedTuple true item).name = (zeroEnded name).length := by
            rw [storedTuple, hname, zeroEnded_length]
            rfl
          dsimp only
          rw [bufferAppend_name]
          by_cases hlong : size - 40 < (zeroEnded name).length
          · rw [if_pos hlong]
            refine Ran.of_short (by omega) fun x hr hx => ?_
            rw [write_outside (by rw [toBytes_length]; omega)]
            exact hfilled.frame x hr (show x < d ∨ d + 40 ≤ x by omega)
          · rw [if_neg hlong]
            have hpos : 0 < (zeroEnded name).length := by
              rw [zeroEnded_length]
              exact Nat.succ_pos _
            have hnamed : Added r d (storedTuple true item) m (named m r d item name) :=
              named_added hitem hcanonname hpointer ⟨by omega, by omega⟩ (by omega)
            refine Ran.cons hnamed hapart (by omega) ?_
            rw [hsize, ← Nat.add_assoc, ← Nat.sub_sub]
            exact ih hrest (Or.inl (by omega)) (fun _ => by omega) (by omega) fun _ => hnamed.next

/-! ### What a list of tuples should be -/

/-- `sin6_scope_id`. -/
def scopeOf (item : Addrinfo) : Nat :=
  if item.family = AF_INET6 then ofBytes ((item.addr.drop 24).take 4) else 0

/-- An item with a name. -/
def tupleOf (name : Option String) (item : Addrinfo) : Tuple where
  name := name.map bytes
  family := item.family
  addr := itemAddress item
  scopeid := scopeOf item

/-- A tuple for each item, with the canonical name in the first. -/
def expectedTuples : List Addrinfo → List Tuple
  | [] => []
  | item :: rest => tupleOf item.canonname item :: rest.map (tupleOf none)

/-- The tuple without its scope. -/
def unscoped (tuple : Tuple) : Tuple := { tuple with scopeid := 0 }

theorem storedTuples_false (list : List Addrinfo) :
    storedTuples false list = (list.map (tupleOf none)).map unscoped := by
  induction list with
  | nil => rfl
  | cons item rest ih =>
      rw [storedTuples, ih]
      rfl

/-- The code stores what it should but for the scopes. -/
theorem storedTuples_true (list : List Addrinfo) :
    storedTuples true list = (expectedTuples list).map unscoped := by
  cases list with
  | nil => rfl
  | cons item rest =>
      rw [storedTuples, storedTuples_false]
      rfl

theorem tuplesSize_unscoped (tuples : List Tuple) :
    tuplesSize (tuples.map unscoped) = tuplesSize tuples := by
  rw [tuplesSize, List.map_map]
  rfl

theorem map_unscoped_eq_iff (list : List Addrinfo) :
    (expectedTuples list).map unscoped = expectedTuples list ↔
      ∀ item ∈ list, scopeOf item = 0 := by
  have htuple : ∀ name item, unscoped (tupleOf name item) = tupleOf name item ↔
      scopeOf item = 0 := by
    intro name item
    refine ⟨fun h => (congrArg Tuple.scopeid h).symm, fun h => ?_⟩
    rw [unscoped, tupleOf, h]
  have hrest : ∀ list : List Addrinfo, (list.map (tupleOf none)).map unscoped =
      list.map (tupleOf none) ↔ ∀ item ∈ list, scopeOf item = 0 := by
    intro list
    rw [List.map_map, List.map_inj_left]
    exact forall₂_congr fun item _ => htuple none item
  cases list with
  | nil => exact iff_of_true rfl fun item hitem => absurd hitem List.not_mem_nil
  | cons item rest =>
      rw [expectedTuples, List.map_cons, List.cons_eq_cons, htuple, hrest, List.forall_mem_cons]

theorem nameSize_le_tuplesSize {tuples : List Tuple} {tuple : Tuple} (h : tuple ∈ tuples) :
    nameSize tuple.name ≤ tuplesSize tuples := by
  have hle : 40 + nameSize tuple.name ≤ tuplesSize tuples :=
    List.le_sum_of_mem (List.mem_map_of_mem h)
  omega

theorem length_le_tuplesSize (tuples : List Tuple) : tuples.length ≤ tuplesSize tuples := by
  induction tuples with
  | nil => exact Nat.zero_le _
  | cons tuple rest ih =>
      rw [tuplesSize] at ih ⊢
      rw [List.map_cons, List.sum_cons, List.length_cons]
      omega

/-- The buffer of a caller: it is not at NULL, and within the address space. -/
structure Usable (bufptr buflen : Nat) : Prop where
  nonnull : 0 < buflen → 0 < bufptr
  space : bufptr + buflen ≤ 256 ^ 8

/-- The list of tuples is as it should be, and only it and the pointer to it are written. -/
structure RightTuples (list : List Addrinfo) (m : Mem) (result bufptr buflen : Nat)
    (out : Returned) : Prop where
  frame : Frame result bufptr buflen m out.memory
  short : (out.status = NSS_STATUS_TRYAGAIN ∧ out.errno = some ERANGE) ↔
    buflen < tuplesSize (expectedTuples list)
  fits : tuplesSize (expectedTuples list) ≤ buflen → out.status = NSS_STATUS_SUCCESS ∧
    readTuples out.memory (buflen + 1) (buflen + 1) result = some (expectedTuples list)

theorem rightTuples_iff {list : List Addrinfo} {m : Mem} {result bufptr buflen : Nat}
    (hlist : ∀ item ∈ list, Proper item) (hne : list ≠ []) (hbuffer : Usable bufptr buflen)
    (hresult : result + 8 ≤ bufptr ∨ bufptr + buflen ≤ result) :
    RightTuples list m result bufptr buflen (gethostbyname4R 0 list m result bufptr buflen) ↔
      buflen < tuplesSize (expectedTuples list) ∨ ∀ item ∈ list, scopeOf item = 0 := by
  have hran : Ran result bufptr buflen ((expectedTuples list).map unscoped) m
      (gethostbyname4R 0 list m result bufptr buflen) := by
    rw [gethostbyname4R, if_neg (fun h => h rfl), ← storedTuples_true]
    exact addTuples_ran hlist hresult hbuffer.nonnull hbuffer.space fun h => absurd h hne
  have hsize := tuplesSize_unscoped (expectedTuples list)
  by_cases hshort : buflen < tuplesSize (expectedTuples list)
  · refine iff_of_true ⟨hran.frame, iff_of_true (hran.short (by omega)) hshort, fun hfits => ?_⟩
      (Or.inl hshort)
    exact absurd hshort (Nat.not_lt.mpr hfits)
  · obtain ⟨hstatus, hchain⟩ := hran.fits (by omega)
    have hcount := length_le_tuplesSize ((expectedTuples list).map unscoped)
    have hread : Nsswitch.readTuples _ (buflen + 1) (buflen + 1) result = _ :=
      hchain.readTuples (by omega) fun tuple htuple => by
        have hname := nameSize_le_tuplesSize htuple
        obtain ⟨t, -, rfl⟩ := List.mem_map.mp htuple
        exact ⟨by omega, show 0 < 256 ^ 4 by decide⟩
    rw [← map_unscoped_eq_iff, or_iff_right hshort]
    refine ⟨fun h => ?_, fun h => ⟨hran.frame, iff_of_false ?_ hshort, fun _ => ⟨hstatus, ?_⟩⟩⟩
    · obtain ⟨-, hexpected⟩ := h.fits (Nat.not_lt.mp hshort)
      rw [hread] at hexpected
      exact Option.some.inj hexpected
    · rw [hstatus]
      exact fun h => absurd h.1 (by decide)
    · rw [hread, h]

/-! ### The addresses of a host entry -/

/-- The addresses of the items of one family, in the order of the list. -/
def itemAddresses (list : List Addrinfo) (family : Int) : List (List UInt8) :=
  (list.filter (·.family = family)).map itemAddress

theorem itemAddresses_length {list : List Addrinfo} {family : Int}
    (hlist : ∀ item ∈ list, Proper item) :
    ∀ address ∈ itemAddresses list family, address.length = hostLength family := by
  intro address haddress
  obtain ⟨item, hitem, rfl⟩ := List.mem_map.mp haddress
  obtain ⟨hmem, hfamily⟩ := List.mem_filter.mp hitem
  have hproper := hlist item hmem
  have heq : item.family = family := by simpa using hfamily
  rw [hproper.length, heq]
  rcases hproper.family with h | h <;> rw [heq] at h <;> rw [h] <;> rfl

theorem padded_of_length {n : Nat} {address : List UInt8} (h : address.length = n) :
    padded n address = address := by
  rw [padded, ← h, List.take_left]

/-- What the loop comes to with addresses of one length, from those that are there on. -/
structure AddressRun (addrList data length size : Nat) (done addrs : List (List UInt8))
    (spare l : Nat) (m : Mem) (out : Except Mem (Buffer × Mem)) : Prop where
  short : l < addrs.length * length → ∃ m', out = .error m' ∧ Outside addrList size m m'
  fits : addrs.length * length ≤ l → ∃ m',
    out = .ok ({ data := data + (done.length + addrs.length) * length
                 length := l - addrs.length * length }, m') ∧
    Outside addrList size m m' ∧
    Copied addrList data length (done ++ addrs) (List.replicate (spare - addrs.length) 0) m'

/-- An address in front of the others. -/
theorem AddressRun.cons {addrList data length size : Nat} {done addrs : List (List UInt8)}
    {address : List UInt8} {spare l : Nat} {m m' : Mem} {out : Except Mem (Buffer × Mem)}
    (h : AddressRun addrList data length size (done ++ [address]) addrs spare (l - length) m' out)
    (hroom : length ≤ l) (hout : Outside addrList size m m') :
    AddressRun addrList data length size done (address :: addrs) (spare + 1) l m out := by
  have hmul : (address :: addrs).length * length = addrs.length * length + length := by
    rw [List.length_cons, Nat.succ_mul]
  have hcount : (done ++ [address]).length + addrs.length =
      done.length + (address :: addrs).length := by
    rw [List.length_append, List.length_singleton, List.length_cons]
    omega
  refine ⟨fun hshort => ?_, fun hfits => ?_⟩
  · obtain ⟨m'', hrun, hrest⟩ := h.short (by omega)
    exact ⟨m'', hrun, hout.trans hrest⟩
  · obtain ⟨m'', hrun, hrest, hcopied⟩ := h.fits (by omega)
    rw [hcount, show l - length - addrs.length * length = l - (address :: addrs).length * length by
      omega] at hrun
    rw [List.append_assoc] at hcopied
    refine ⟨m'', hrun, hout.trans hrest, ?_⟩
    rw [List.length_cons, Nat.add_sub_add_right]
    exact hcopied

theorem hostLength_pos (family : Int) : 0 < hostLength family := by
  rw [hostLength]
  split <;> decide

theorem itemAddresses_cons {item : Addrinfo} {family : Int} (hfamily : item.family = family)
    (rest : List Addrinfo) :
    itemAddresses (item :: rest) family = itemAddress item :: itemAddresses rest family := by
  rw [itemAddresses, List.filter_cons_of_pos (by simpa using hfamily), List.map_cons, itemAddresses]

/-- One turn of the loop, when there is room for the address. -/
theorem addAddresses_turn {family : Int} {addrList data size l spare : Nat} {item : Addrinfo}
    (rest : List Addrinfo) {done : List (List UInt8)} {m : Mem} (hfamily : item.family = family)
    (hlength : (itemAddress item).length = hostLength family) (hfits : hostLength family ≤ l)
    (h : Copied addrList data (hostLength family) done (List.replicate (spare + 1) 0) m)
    (hdata : addrList + 8 * (done.length + (spare + 1) + 1) ≤ data)
    (hroom : data + done.length * hostLength family + l ≤ addrList + size)
    (hspace : addrList + size ≤ 256 ^ 8) :
    ∃ m', addAddresses family (hostLength family) addrList done.length (item :: rest)
          { data := data + done.length * hostLength family, length := l } m =
        addAddresses family (hostLength family) addrList (done ++ [itemAddress item]).length rest
          { data := data + (done ++ [itemAddress item]).length * hostLength family
            length := l - hostLength family } m' ∧
      Outside addrList size m m' ∧
      Copied addrList data (hostLength family) (done ++ [itemAddress item])
        (List.replicate spare 0) m' := by
  have hpos := hostLength_pos family
  have hcount : (done ++ [itemAddress item]).length = done.length + 1 := by
    rw [List.length_append, List.length_singleton]
  have hzeros := h.write_behind (by rw [List.length_replicate]; exact hdata) (Nat.le_refl _)
    (List.replicate (hostLength family) 0)
  have hstep := hzeros.step (itemAddress item) (by rw [List.length_replicate]; omega)
  rw [padded_of_length hlength] at hstep
  have hspot : readPointer
      (write (write m (data + done.length * hostLength family)
        (List.replicate (hostLength family) 0)) (addrList + 8 * done.length)
        (toBytes 8 (data + done.length * hostLength family))) (addrList + 8 * done.length) =
      data + done.length * hostLength family :=
    readPointer_of_has (has_write _ _ _) (by omega)
  refine ⟨_, ?_, ?_, hstep⟩
  · rw [addAddresses, if_neg (fun hne => hne hfamily), bufferAppend_zeros,
      if_neg (Nat.not_lt.mpr hfits)]
    dsimp only
    rw [hspot, extractAddress, if_neg (by omega), hcount,
      Nat.succ_mul done.length (hostLength family), ← Nat.add_assoc]
  · refine (((Outside.refl _ _ m).write (by omega) ?_).write (by omega) ?_).write (by omega) ?_
    · rw [List.length_replicate]
      omega
    · rw [toBytes_length]
      omega
    · rw [hlength]
      omega

/-- The loop stores the addresses of the family one after the other as long as there is room. -/
theorem addAddresses_stored {family : Int} {addrList data size : Nat} {list : List Addrinfo} :
    ∀ {done : List (List UInt8)} {spare l : Nat} {m : Mem}, (∀ item ∈ list, Proper item) →
      list.length ≤ spare →
      Copied addrList data (hostLength family) done (List.replicate spare 0) m →
      addrList + 8 * (done.length + spare + 1) ≤ data →
      data + done.length * hostLength family + l ≤ addrList + size →
      addrList + size ≤ 256 ^ 8 →
      AddressRun addrList data (hostLength family) size done (itemAddresses list family) spare l m
        (addAddresses family (hostLength family) addrList done.length list
          { data := data + done.length * hostLength family, length := l } m) := by
  induction list with
  | nil =>
      intro done spare l m _ _ h _ _ _
      have hnil : itemAddresses [] family = [] := rfl
      rw [hnil]
      refine ⟨fun hshort => ?_, fun _ => ⟨m, ?_, Outside.refl _ _ _, ?_⟩⟩
      · rw [List.length_nil, Nat.zero_mul] at hshort
        exact absurd hshort (Nat.not_lt_zero l)
      · rw [List.length_nil, Nat.zero_mul, Nat.add_zero, Nat.sub_zero]
        rfl
      · rw [List.append_nil]
        exact h
  | cons item rest ih =>
      intro done spare l m hlist hspare h hdata hroom hspace
      have hrest := fun i hi => hlist i (List.mem_cons_of_mem _ hi)
      rw [List.length_cons] at hspare
      by_cases hfamily : item.family = family
      · have hlength : (itemAddress item).length = hostLength family :=
          itemAddresses_length hlist _
            (by rw [itemAddresses_cons hfamily]; exact List.mem_cons_self)
        obtain ⟨spare, rfl⟩ := Nat.exists_eq_succ_of_ne_zero (show spare ≠ 0 by omega)
        rw [itemAddresses_cons hfamily]
        by_cases hshort : l < hostLength family
        · rw [addAddresses, if_neg (fun hne => hne hfamily), bufferAppend_zeros, if_pos hshort]
          refine ⟨fun _ => ⟨_, rfl, (Outside.refl _ _ m).write (Nat.le_add_right _ _) ?_⟩,
            fun hfits => ?_⟩
          · rw [toBytes_length]
            omega
          · rw [List.length_cons, Nat.succ_mul] at hfits
            omega
        · have hfits := Nat.not_lt.mp hshort
          obtain ⟨m', hrun, hout, hcopied⟩ :=
            addAddresses_turn rest hfamily hlength hfits h hdata hroom hspace
          have hcount : (done ++ [itemAddress item]).length = done.length + 1 := by
            rw [List.length_append, List.length_singleton]
          have hmul : (done ++ [itemAddress item]).length * hostLength family =
              done.length * hostLength family + hostLength family := by
            rw [hcount, Nat.succ_mul]
          rw [hrun]
          exact AddressRun.cons (ih hrest (Nat.le_of_succ_le_succ hspare) hcopied
            (by rw [hcount]; omega) (by omega) hspace) hfits hout
      · have hskip : itemAddresses (item :: rest) family = itemAddresses rest family := by
          rw [itemAddresses, List.filter_cons_of_neg (by simpa using hfamily), itemAddresses]
        rw [hskip, addAddresses, if_pos hfamily]
        exact ih hrest (by omega) h hdata hroom hspace

/-! ### The whole host entry -/

/-- The bytes of the canonical name, which is that of the first item. -/
def nameLength (list : List Addrinfo) : Nat :=
  (nameBytes (list.head?.bind (·.canonname))).length

/-- What the code cuts from the buffer: its array has an entry for every item of the list. -/
def carvedSize (list : List Addrinfo) (family : Int) : Nat :=
  8 * (list.length + 1) + (itemAddresses list family).length * hostLength family + nameLength list

/-- The family, the length and the addresses are in the host entry. -/
structure HasAddresses (block : Region) (list : List Addrinfo) (family : Int) (m : Mem)
    (he : HostentC) : Prop where
  addrtype : he.addrtype = family
  length : he.length = hostLength family
  addrs : ∃ ps, readArray m (ps.length + 1) he.addrList = some ps ∧
    Region.Inside { start := he.addrList, size := 8 * (ps.length + 1) } block ∧
    (∀ p ∈ ps, Region.Inside { start := p, size := he.length } block) ∧
    ps.map (read m · he.length) = itemAddresses list family

theorem hasAddresses_of_copied {list : List Addrinfo} {family : Int} {m : Mem} {he : HostentC}
    {bufptr buflen data spare : Nat} (hlist : ∀ item ∈ list, Proper item)
    (hspace : bufptr + buflen ≤ 256 ^ 8) (haddrtype : he.addrtype = family)
    (hlength : he.length = hostLength family) (haddrList : he.addrList = bufptr)
    (hdata : bufptr + 8 * ((itemAddresses list family).length + 1) ≤ data)
    (hroom : data + (itemAddresses list family).length * hostLength family ≤ bufptr + buflen)
    (h : Copied bufptr data (hostLength family) (itemAddresses list family)
      (List.replicate spare 0) m) :
    HasAddresses { start := bufptr, size := buflen } list family m he := by
  have hpos := hostLength_pos family
  refine ⟨haddrtype, hlength,
    placed data (hostLength family) (itemAddresses list family).length, ?_, ?_, fun p hp => ?_, ?_⟩
  · rw [haddrList]
    refine h.array.of_nulls.readArray (fun p hp => ?_) (Nat.lt_succ_self _)
    obtain ⟨hlow, hhigh⟩ := mem_placed hp
    exact ⟨by omega, by omega⟩
  · rw [haddrList, placed_length]
    exact Region.inside_iff.mpr ⟨Nat.le_refl _, by omega⟩
  · obtain ⟨hlow, hhigh⟩ := mem_placed hp
    rw [hlength]
    exact Region.inside_iff.mpr ⟨by omega, by omega⟩
  · rw [hlength, map_read h.addrs]
    refine (List.map_congr_left fun address haddress => ?_).trans (List.map_id' _)
    exact padded_of_length (itemAddresses_length hlist address haddress)

/-- The pointers before anything is stored. -/
theorem copied_nil {bufptr data length : Nat} (m : Mem) (count : Nat) :
    Copied bufptr data length [] (List.replicate count 0)
      (write m bufptr (List.replicate ((count + 1) * 8) 0)) := by
  have hzeros := has_write m bufptr (List.replicate ((count + 1) * 8) 0)
  have hnil : placed data length ([] : List (List UInt8)).length = [] := rfl
  refine ⟨?_, List.Forall₂.nil⟩
  rw [hnil, List.nil_append]
  refine ⟨fun i hi => ?_, ?_⟩
  · rw [List.getElem_replicate]
    rw [List.length_replicate] at hi
    exact has_zeros hzeros (by omega)
  · rw [List.length_replicate]
    exact has_zeros hzeros (by omega)

/-- What the function comes to, whatever is in the host entry before. -/
structure HostRun (list : List Addrinfo) (family : Int) (he : HostentC) (m : Mem)
    (bufptr buflen : Nat) (out : HostReturned) : Prop where
  aliases : out.he.aliases = he.aliases
  outside : Outside bufptr buflen m out.memory
  short : buflen < carvedSize list family →
    out.status = NSS_STATUS_TRYAGAIN ∧ out.errno = some ERANGE
  fits : carvedSize list family ≤ buflen → out.status = NSS_STATUS_SUCCESS ∧
    HasAddresses { start := bufptr, size := buflen } list family out.memory out.he ∧
    ∀ name, list.head?.bind (·.canonname) = some name →
      readString out.memory (zeroEnded name).length out.he.name = some (bytes name)

theorem gethostbyname3R_run {list : List Addrinfo} {bufptr buflen : Nat}
    (hlist : ∀ item ∈ list, Proper item) (hne : list ≠ []) (hcount : list.length < INT_MAX)
    (hbuffer : Usable bufptr buflen) (family : Int) (he : HostentC) (m : Mem) :
    ∃ out, gethostbyname3R 0 list family he m bufptr buflen = .ok out ∧
      HostRun list family he m bufptr buflen out := by
  have hsize : carvedSize list family = 8 * (list.length + 1) +
      (itemAddresses list family).length * hostLength family + nameLength list := rfl
  unfold gethostbyname3R
  rw [if_neg (fun h => h rfl), if_neg (Nat.not_le.mpr hcount), bufferAppend_zeros]
  by_cases harray : buflen < (list.length + 1) * 8
  · rw [if_pos harray]
    refine ⟨_, rfl, rfl, Outside.refl _ _ _, fun _ => ⟨rfl, rfl⟩, fun hfits => ?_⟩
    omega
  rw [if_neg harray]
  dsimp only
  have hstart : Copied bufptr (bufptr + (list.length + 1) * 8) (hostLength family) []
      (List.replicate list.length 0) (write m bufptr (List.replicate ((list.length + 1) * 8) 0)) :=
    copied_nil m list.length
  have hspace := hbuffer.space
  have hrun := addAddresses_stored hlist (Nat.le_refl _) hstart
    (by rw [List.length_nil]; omega)
    (show bufptr + (list.length + 1) * 8 + 0 * hostLength family +
      (buflen - (list.length + 1) * 8) ≤ bufptr + buflen by omega) hspace
  have hout : Outside bufptr buflen m
      (write m bufptr (List.replicate ((list.length + 1) * 8) 0)) :=
    (Outside.refl _ _ m).write (Nat.le_refl _) (by rw [List.length_replicate]; omega)
  simp only [List.length_nil, Nat.zero_mul, Nat.add_zero] at hrun
  by_cases haddrs : buflen - (list.length + 1) * 8 <
      (itemAddresses list family).length * hostLength family
  · obtain ⟨m', hm', hout'⟩ := hrun.short haddrs
    rw [hm']
    refine ⟨_, rfl, rfl, hout.trans hout', fun _ => ⟨rfl, rfl⟩, fun hfits => ?_⟩
    omega
  obtain ⟨m', hm', hout', hcopied⟩ := hrun.fits (Nat.not_lt.mp haddrs)
  simp only [List.length_nil, Nat.zero_add] at hm'
  rw [hm']
  rw [List.nil_append] at hcopied
  have hfiltered : (itemAddresses list family).length ≤ list.length := by
    rw [itemAddresses, List.length_map]
    exact List.length_filter_le _ _
  obtain ⟨item, rest, rfl⟩ := List.exists_cons_of_ne_nil hne
  have hname : nameLength (item :: rest) = (nameBytes item.canonname).length := rfl
  have hcanonname : (item :: rest).head?.bind (·.canonname) = item.canonname := rfl
  dsimp only
  cases hcase : item.canonname with
  | none =>
      rw [hcase] at hname hcanonname
      have hzero : nameLength (item :: rest) = 0 := hname
      refine ⟨_, rfl, rfl, hout.trans hout', fun hshort => ?_, fun _ => ⟨rfl, ?_, ?_⟩⟩
      · omega
      · exact hasAddresses_of_copied hlist hspace rfl rfl rfl (by omega) (by omega) hcopied
      · rw [hcanonname]
        exact fun name h => absurd h.symm (Option.some_ne_none name)
  | some name =>
      rw [hcase] at hname hcanonname
      have hzero : nameLength (item :: rest) = (zeroEnded name).length := hname
      dsimp only
      rw [bufferAppend_name]
      dsimp only
      by_cases hlong : buflen - ((item :: rest).length + 1) * 8 -
          (itemAddresses (item :: rest) family).length * hostLength family <
          (zeroEnded name).length
      · rw [if_pos hlong]
        exact ⟨_, rfl, rfl, hout.trans hout', fun _ => ⟨rfl, rfl⟩, fun hfits => by omega⟩
      · rw [if_neg hlong]
        have hkept := hcopied.write_behind (by rw [List.length_replicate]; omega) (Nat.le_refl _)
          (zeroEnded name)
        refine ⟨_, rfl, rfl, (hout.trans hout').write ?_ ?_, fun hshort => ?_,
          fun _ => ⟨rfl, ?_, ?_⟩⟩
        · omega
        · omega
        · omega
        · exact hasAddresses_of_copied hlist hspace rfl rfl rfl (by omega) (by omega) hkept
        · rw [hcanonname]
          intro name' hname'
          obtain rfl := Option.some.inj hname'
          refine readString_of_has (zero_not_mem_bytes name) (has_write _ _ _) ?_
          rw [zeroEnded_length]
          exact Nat.lt_succ_self _

/-- The bytes of a host entry: the addresses and the pointers to them, no aliases, and the name. -/
def hostSize (list : List Addrinfo) (family : Int) : Nat :=
  8 * ((itemAddresses list family).length + 1) + 8 +
    (itemAddresses list family).length * hostLength family + nameLength list

/-- There is an array of aliases in the block. -/
def HasAliases (block : Region) (m : Mem) (he : HostentC) : Prop :=
  ∃ ps, readArray m (ps.length + 1) he.aliases = some ps ∧
    Region.Inside { start := he.aliases, size := 8 * (ps.length + 1) } block

/-- The host entry is as it should be, and nothing but the buffer is written. -/
structure RightHost (list : List Addrinfo) (family : Int) (m : Mem) (bufptr buflen : Nat)
    (out : HostReturned) : Prop where
  outside : Outside bufptr buflen m out.memory
  short : (out.status = NSS_STATUS_TRYAGAIN ∧ out.errno = some ERANGE) ↔
    buflen < hostSize list family
  fits : hostSize list family ≤ buflen → out.status = NSS_STATUS_SUCCESS ∧
    HasAddresses { start := bufptr, size := buflen } list family out.memory out.he ∧
    HasAliases { start := bufptr, size := buflen } out.memory out.he

/-- An entry whose aliases are not in the buffer. -/
def elsewhere (bufptr buflen : Nat) : HostentC :=
  { name := 0, aliases := bufptr + buflen, addrtype := 0, length := 0, addrList := 0 }

/-- The aliases are never stored, so whenever there is room something is missing. -/
theorem rightHost_iff {list : List Addrinfo} {bufptr buflen : Nat}
    (hlist : ∀ item ∈ list, Proper item) (hne : list ≠ []) (hbuffer : Usable bufptr buflen)
    (family : Int) (m : Mem) :
    (∀ he, ∃ out, gethostbyname3R 0 list family he m bufptr buflen = .ok out ∧
      RightHost list family m bufptr buflen out) ↔
    list.length < INT_MAX ∧ buflen < hostSize list family ∧ buflen < carvedSize list family := by
  by_cases hcount : list.length < INT_MAX
  · rw [and_iff_right hcount]
    refine ⟨fun h => ?_, fun h he => ?_⟩
    · obtain ⟨out, hout, hright⟩ := h (elsewhere bufptr buflen)
      obtain ⟨out', hout', hrun⟩ :=
        gethostbyname3R_run hlist hne hcount hbuffer family (elsewhere bufptr buflen) m
      obtain rfl : out' = out := Except.ok.inj (hout'.symm.trans hout)
      have hsize : buflen < hostSize list family := by
        by_contra hfits
        obtain ⟨-, -, ps, -, -, hend⟩ := hright.fits (Nat.not_lt.mp hfits)
        have hend : out'.he.aliases + 8 * (ps.length + 1) ≤ bufptr + buflen := hend
        have haliases : out'.he.aliases = bufptr + buflen := hrun.aliases
        omega
      refine ⟨hsize, ?_⟩
      by_contra hfits
      have hstatus := (hrun.fits (Nat.not_lt.mp hfits)).1
      have hagain := (hright.short.mpr hsize).1
      rw [hstatus] at hagain
      exact absurd hagain (by decide)
    · obtain ⟨out, hout, hrun⟩ := gethostbyname3R_run hlist hne hcount hbuffer family he m
      refine ⟨out, hout, hrun.outside, iff_of_true (hrun.short h.2) h.1, fun hfits => ?_⟩
      exact absurd h.1 (Nat.not_lt.mpr hfits)
  · refine iff_of_false (fun h => ?_) (fun h => hcount h.1)
    obtain ⟨out, hout, -⟩ := h (elsewhere bufptr buflen)
    rw [gethostbyname3R, if_neg (fun hne => hne rfl), if_pos (Nat.not_lt.mp hcount)] at hout
    cases hout

/-! ### Both functions -/

/-- The list of a successful call. -/
theorem getaddrinfoDone_proper {calloc : Nat → Bool} {clampTtl ttl : Int}
    {canonname : Option String} {response : PathArray} {list : List Addrinfo}
    (h : Addrinfo.getaddrinfoDone calloc clampTtl canonname response = .ok ⟨0, list, ttl⟩) :
    list ≠ [] ∧ ∀ item ∈ list, Proper item := by
  unfold Addrinfo.getaddrinfoDone at h
  cases hbuild : Addrinfo.buildList calloc clampTtl canonname 0 Addrinfo.INT32_MAX
      response.paths with
  | error e =>
      rw [hbuild] at h
      cases h
  | ok built =>
      rw [hbuild] at h
      obtain ⟨hstatus, rfl, -⟩ := Addrinfo.Result.mk.inj (Except.ok.inj h)
      refine ⟨fun hnil => ?_, buildList_proper hbuild⟩
      rw [if_pos hnil] at hstatus
      exact absurd hstatus (by decide)

/--
**When the two functions do their work.**  For every list that `netresolve_query_getaddrinfo_done`
makes, the list of tuples is as it should be if it does not fit or no item has a scope.  The host
entry is if it does not fit, and neither does what the code cuts for it: as soon as there is room,
there are no aliases.
-/
theorem nsswitch_right_iff {calloc : Nat → Bool} {clampTtl ttl : Int} {canonname : Option String}
    {response : PathArray} {list : List Addrinfo} (family : Int) (m : Mem)
    {result bufptr buflen : Nat}
    (hlist : Addrinfo.getaddrinfoDone calloc clampTtl canonname response = .ok ⟨0, list, ttl⟩)
    (hbuffer : Usable bufptr buflen) (hresult : result + 8 ≤ bufptr ∨ bufptr + buflen ≤ result) :
    (RightTuples list m result bufptr buflen (gethostbyname4R 0 list m result bufptr buflen) ↔
      buflen < tuplesSize (expectedTuples list) ∨ ∀ item ∈ list, scopeOf item = 0) ∧
    ((∀ he, ∃ out, gethostbyname3R 0 list family he m bufptr buflen = .ok out ∧
      RightHost list family m bufptr buflen out) ↔
      list.length < INT_MAX ∧ buflen < hostSize list family ∧
        buflen < carvedSize list family) := by
  obtain ⟨hne, hproper⟩ := getaddrinfoDone_proper hlist
  exact ⟨rightTuples_iff hproper hne hbuffer hresult, rightHost_iff hproper hne hbuffer family m⟩

/-- A link-local address on the interface 2. -/
def linkLocalPath : Path :=
  { ipPath AF_INET6 (0xfe :: 0x80 :: List.replicate 13 0 ++ [1]) with ifindex := 2 }

/-- The item of a link-local address. -/
def linkLocalItem : Addrinfo where
  family := AF_INET6
  socktype := 3
  protocol := 0
  addr := [10, 0, 0, 0, 0, 0, 0, 0] ++ (0xfe :: 0x80 :: List.replicate 13 0 ++ [1]) ++ [2, 0, 0, 0]
  canonname := some "router"

theorem linkLocal_done :
    Addrinfo.getaddrinfoDone (fun _ => true) (-1) (some "router") ⟨[linkLocalPath], 1⟩ =
      .ok ⟨0, [linkLocalItem], 0⟩ := by
  decide

/-- A global address on no interface, and its item. -/
def globalPath : Path := ipPath AF_INET6 (0x20 :: 0x01 :: List.replicate 13 0 ++ [1])

def globalItem : Addrinfo :=
  { linkLocalItem with
    addr := [10, 0, 0, 0, 0, 0, 0, 0] ++ (0x20 :: 0x01 :: List.replicate 13 0 ++ [1]) ++
      [0, 0, 0, 0] }

theorem global_done :
    Addrinfo.getaddrinfoDone (fun _ => true) (-1) (some "router") ⟨[globalPath], 1⟩ =
      .ok ⟨0, [globalItem], 0⟩ := by
  decide

/-- With room for everything the tuples of a global address are there, the host entry is not. -/
theorem global_tuples_are_there :
    (gethostbyname4R 0 [globalItem] (fun _ => 255) 1024 4096 1024).status = NSS_STATUS_SUCCESS ∧
      RightTuples [globalItem] (fun _ => 255) 1024 4096 1024
        (gethostbyname4R 0 [globalItem] (fun _ => 255) 1024 4096 1024) ∧
      ¬ ∀ he, ∃ out, gethostbyname3R 0 [globalItem] AF_INET6 he (fun _ => 255) 4096 1024 =
          .ok out ∧ RightHost [globalItem] AF_INET6 (fun _ => 255) 4096 1024 out := by
  have h := nsswitch_right_iff AF_INET6 (fun _ => 255) global_done
    (⟨fun _ => by decide, by decide⟩ : Usable 4096 1024) (Or.inl (by decide : 1024 + 8 ≤ 4096))
  have htuples := h.1.mpr (Or.inr (by decide))
  exact ⟨(htuples.fits (by decide)).1, htuples, h.2.not.mpr (by decide)⟩

/-- In a buffer with room for everything both results lack something. -/
theorem link_local_loses_scope :
    Addrinfo.getaddrinfoDone (fun _ => true) (-1) (some "router") ⟨[linkLocalPath], 1⟩ =
        .ok ⟨0, [linkLocalItem], 0⟩ ∧
      ¬ RightTuples [linkLocalItem] (fun _ => 255) 1024 4096 1024
        (gethostbyname4R 0 [linkLocalItem] (fun _ => 255) 1024 4096 1024) ∧
      ¬ (∀ he, ∃ out, gethostbyname3R 0 [linkLocalItem] AF_INET6 he (fun _ => 255) 4096 1024 =
          .ok out ∧ RightHost [linkLocalItem] AF_INET6 (fun _ => 255) 4096 1024 out) := by
  obtain ⟨hne, hproper⟩ := getaddrinfoDone_proper linkLocal_done
  have hbuffer : Usable 4096 1024 := ⟨fun _ => by decide, by decide⟩
  refine ⟨linkLocal_done, ?_, ?_⟩
  · rw [rightTuples_iff hproper hne hbuffer (Or.inl (by decide))]
    decide
  · rw [rightHost_iff hproper hne hbuffer]
    decide

end Netresolve.Nsswitch
