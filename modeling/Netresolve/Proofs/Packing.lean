/-
What `gethostbyname2_r` leaves in the buffer.

The four regions follow each other in the buffer.  The loop replaces one pointer and writes one
address at a time: the array has the new pointers up to the index and those of the heap behind it,
and each address written so far stays where it is.  The offset of an address is computed as an
`int`, so the loop comes to its end if and only if the last offset is one.
-/
import Netresolve.Core.Packing
import Netresolve.Proofs.Hostent
import Netresolve.Proofs.Nameinfo

namespace Netresolve.Packing

open Store Bytes Compat Nameinfo

/-! ### The loop over the addresses -/

/-- The pointers to addresses of one length that follow each other. -/
def placed (data length n : Nat) : List Nat := (List.range n).map fun i => data + i * length

@[simp] theorem placed_length (data length n : Nat) : (placed data length n).length = n := by
  rw [placed, List.length_map, List.length_range]

theorem placed_succ (data length n : Nat) :
    placed data length (n + 1) = placed data length n ++ [data + n * length] := by
  rw [placed, List.range_succ, List.map_append]
  rfl

/-- The places of the first addresses lie before that of the next. -/
theorem mem_placed {data length n p : Nat} (h : p ∈ placed data length n) :
    data ≤ p ∧ p + length ≤ data + n * length := by
  obtain ⟨i, hi, rfl⟩ := List.mem_map.mp h
  have hmul : (i + 1) * length ≤ n * length :=
    Nat.mul_le_mul_right length (List.mem_range.mp hi)
  rw [Nat.succ_mul] at hmul
  omega

@[simp] theorem padded_length (n : Nat) (address : List UInt8) : (padded n address).length = n := by
  rw [padded, List.length_take, List.length_append, List.length_replicate]
  omega

/-- The array has the new pointers and those that are left, and the addresses are in their places. -/
structure Copied (addrList data length : Nat) (done : List (List UInt8)) (left : List Nat)
    (m : Mem) : Prop where
  array : HasArray m addrList (placed data length done.length ++ left)
  addrs : List.Forall₂ (Has m) (placed data length done.length) (done.map (padded length))

/-- A write that is apart leaves the addresses alone. -/
theorem forall₂_has_write {data length b : Nat} {addrs : List (List UInt8)} {m : Mem}
    {new : List UInt8}
    (h : List.Forall₂ (Has m) (placed data length addrs.length) (addrs.map (padded length)))
    (hapart : b + new.length ≤ data ∨ data + addrs.length * length ≤ b) :
    List.Forall₂ (Has (write m b new)) (placed data length addrs.length)
      (addrs.map (padded length)) := by
  refine List.forall₂_iff_get.mpr ⟨h.length_eq, fun i hi hi' => ?_⟩
  have hold := (List.forall₂_iff_get.mp h).2 i hi hi'
  obtain ⟨hlow, hhigh⟩ := mem_placed (List.get_mem (placed data length addrs.length) ⟨i, hi⟩)
  have hsize : ((addrs.map (padded length)).get ⟨i, hi'⟩).length = length := by
    rw [List.get_eq_getElem, List.getElem_map, padded_length]
  refine hold.write_apart ?_
  rw [hsize]
  omega

/-- What is written behind the addresses that are there leaves them alone. -/
theorem Copied.write_behind {addrList data length b : Nat} {done : List (List UInt8)}
    {left : List Nat} {m : Mem} (h : Copied addrList data length done left m)
    (hdata : addrList + 8 * (done.length + left.length + 1) ≤ data)
    (hb : data + done.length * length ≤ b) (new : List UInt8) :
    Copied addrList data length done left (write m b new) := by
  refine ⟨h.array.write_apart (Or.inl ?_), forall₂_has_write h.addrs (Or.inr hb)⟩
  rw [List.length_append, placed_length]
  omega

/-- One turn of the loop. -/
theorem Copied.step {addrList data length : Nat} {done : List (List UInt8)} {q : Nat}
    {left : List Nat} {m : Mem} (h : Copied addrList data length done (q :: left) m)
    (address : List UInt8) (hdata : addrList + 8 * (done.length + left.length + 2) ≤ data) :
    Copied addrList data length (done ++ [address]) left
      (write (write m (addrList + 8 * done.length) (toBytes 8 (data + done.length * length)))
        (data + done.length * length) (padded length address)) := by
  have hset := h.array.set (i := done.length)
    (by rw [List.length_append, placed_length, List.length_cons]; omega)
    (data + done.length * length)
  have hlist : (placed data length done.length ++ q :: left).set done.length
      (data + done.length * length) = placed data length (done ++ [address]).length ++ left := by
    rw [List.length_append, List.length_singleton, placed_succ, List.append_assoc,
      List.set_append_right _ _ (by rw [placed_length]), placed_length, Nat.sub_self]
    rfl
  rw [hlist] at hset
  refine ⟨hset.write_apart (Or.inl ?_), ?_⟩
  · rw [List.length_append, placed_length, List.length_append, List.length_singleton]
    omega
  · rw [List.length_append, List.length_singleton, placed_succ, List.map_append]
    refine List.rel_append ?_ (List.Forall₂.cons (has_write _ _ _) List.Forall₂.nil)
    refine forall₂_has_write (forall₂_has_write h.addrs (Or.inl ?_)) (Or.inr (Nat.le_refl _))
    rw [toBytes_length]
    omega

/-- The loop comes to its end if no offset is too large for an `int`. -/
theorem copyAddresses_ok {addrList data length : Nat} (size : Nat) (hlength : 0 < length) :
    ∀ {rest done : List (List UInt8)} {left : List Nat} {m : Mem},
      left.length = rest.length → Copied addrList data length done left m →
      (∀ i < done.length + rest.length, i * length ≤ INT_MAX) →
      addrList + 8 * (done.length + rest.length + 1) ≤ data →
      data + (done.length + rest.length) * length ≤ addrList + size →
      addrList + size ≤ 256 ^ 8 →
      ∃ m', copyAddresses addrList data length done.length rest m = .ok m' ∧
        Copied addrList data length (done ++ rest) [] m' ∧ Outside addrList size m m' := by
  intro rest
  induction rest with
  | nil =>
      intro done left m hleft h _ _ _ _
      obtain rfl := List.eq_nil_of_length_eq_zero hleft
      rw [List.append_nil]
      exact ⟨m, rfl, h, Outside.refl _ _ _⟩
  | cons address rest ih =>
      intro done left m hleft h hint hdata hsize hspace
      obtain ⟨q, left, rfl⟩ := List.exists_cons_of_length_pos (by rw [hleft]; exact Nat.succ_pos _)
      have hleft : left.length = rest.length := Nat.succ.inj hleft
      have hcount : done.length + (address :: rest).length =
          (done ++ [address]).length + rest.length := by
        rw [List.length_append, List.length_cons, List.length_singleton]
        omega
      have hplace : data + done.length * length + length ≤ addrList + size := by
        have hmul : (done.length + 1) * length ≤ (done.length + (address :: rest).length) * length :=
          Nat.mul_le_mul_right length (by rw [List.length_cons]; omega)
        rw [Nat.succ_mul] at hmul
        omega
      have hpointer : readPointer
          (write m (addrList + 8 * done.length) (toBytes 8 (data + done.length * length)))
          (addrList + 8 * done.length) = data + done.length * length :=
        readPointer_of_has (has_write _ _ _) (by omega)
      have hstep := h.step address (by rw [List.length_cons] at hdata; omega)
      rw [hcount] at hint hdata hsize
      obtain ⟨m', hrun, hcopied, hout⟩ := ih hleft hstep hint hdata hsize hspace
      rw [List.length_append, List.length_singleton] at hrun
      rw [List.append_assoc] at hcopied
      refine ⟨m', ?_, hcopied, Outside.trans ?_ hout⟩
      · rw [copyAddresses, if_neg (Nat.not_lt.mpr (hint _ (by
          rw [List.length_append, List.length_singleton]; omega)))]
        dsimp only
        rw [hpointer]
        exact hrun
      · refine ((Outside.refl _ _ m).write (Nat.le_add_right _ _) ?_).write (by omega) ?_
        · rw [toBytes_length]
          omega
        · rw [padded_length]
          exact hplace

/-- It does not if the last one is. -/
theorem copyAddresses_overflow {addrList data length : Nat} {rest : List (List UInt8)} :
    ∀ {i : Nat} {m : Mem}, rest ≠ [] → INT_MAX < (i + rest.length - 1) * length →
      copyAddresses addrList data length i rest m = .error .overflow := by
  induction rest with
  | nil => exact fun hne _ => absurd rfl hne
  | cons address rest ih =>
      intro i m _ hlast
      rw [copyAddresses]
      split
      · rfl
      · rename_i hint
        refine ih ?_ ?_
        · rintro rfl
          exact hint hlast
        · rw [List.length_cons] at hlast
          rw [show i + 1 + rest.length - 1 = i + (rest.length + 1) - 1 by omega]
          exact hlast

/-! ### What the caller finds -/

/-- The addresses of the paths of one family, in the order of the paths. -/
def familyAddresses (paths : List Path) (family : Int) : List (List UInt8) :=
  (paths.filter (·.family = family)).map fun path => padded (familyToLength family) path.address

theorem padded_take (n : Nat) (address : List UInt8) :
    padded n (address.take n) = padded n address := by
  rw [padded, padded, List.take_append, List.take_append, List.take_take, Nat.min_self,
    List.length_take]
  congr 2
  omega

theorem map_padded_addressesOf (paths : List Path) (family : Int) :
    (addressesOf paths family).map (padded (familyToLength family)) =
      familyAddresses paths family := by
  rw [addressesOf, familyAddresses, List.map_map]
  exact List.map_congr_left fun path _ => padded_take _ _

/-- The bytes of addresses that stand at these places. -/
theorem map_read {m : Mem} {length : Nat} {ps : List Nat} {addrs : List (List UInt8)}
    (h : List.Forall₂ (Has m) ps (addrs.map (padded length))) :
    ps.map (read m · length) = addrs.map (padded length) := by
  refine List.ext_getElem (by rw [List.length_map, h.length_eq]) fun i hi hi' => ?_
  rw [List.length_map] at hi
  have hread := ((List.forall₂_iff_get.mp h).2 i hi hi').read
  rw [List.get_eq_getElem, List.get_eq_getElem] at hread
  rw [List.getElem_map]
  refine Eq.trans ?_ hread
  rw [List.getElem_map, padded_length]

/-- The blocks that the pointers of a host entry point to. -/
def regions (he : HostentC) (nameSize : Nat) (addrs : List Nat) : List Region :=
  { start := he.name, size := nameSize } ::
  { start := he.aliases, size := 8 } ::
  { start := he.addrList, size := 8 * (addrs.length + 1) } ::
  addrs.map fun p => { start := p, size := he.length }

/-- The bytes an entry takes with its pointers. -/
def Entry.packedSize (entry : Entry) : Nat :=
  entry.name.length + 1 + 8 * (entry.aliases.length + 1) + 8 * (entry.addrs.length + 1) +
    entry.addrs.length * entry.length

/-- The entry of a name without aliases. -/
def packedEntry (name : String) (family : Int) (length : Nat) (addrs : List (List UInt8)) :
    Entry where
  name := bytes name
  aliases := []
  addrtype := family
  length := length
  addrs := addrs.map (padded length)

theorem packedEntry_packedSize (name : String) (family : Int) (length : Nat)
    (addrs : List (List UInt8)) : (packedEntry name family length addrs).packedSize =
      (zeroEnded name).length + 8 + 8 * (addrs.length + 1) + addrs.length * length := by
  rw [zeroEnded_length, Entry.packedSize, packedEntry, List.length_map, List.length_nil]

/-- The entry is in the block, and its regions do not overlap. -/
structure Stored (block : Region) (m : Mem) (entry : Entry) (he : HostentC) (addrs : List Nat) :
    Prop where
  array : readArray m (addrs.length + 1) he.addrList = some addrs
  apart : (regions he (entry.name.length + 1) addrs).Pairwise Region.Apart
  inside : ∀ r ∈ regions he (entry.name.length + 1) addrs, r.Inside block
  entry : ∃ fuel, readHostent m fuel he = some entry

theorem inOrder_placed (data length : Nat) : ∀ n, InOrder data
    ((placed data length n).map fun p => { start := p, size := length }) (data + n * length) := by
  intro n
  induction n with
  | zero => exact Nat.le_add_right _ _
  | succ n ih =>
      rw [placed_succ, List.map_append]
      refine InOrder.append ?_ ih
      refine ⟨Nat.le_refl _, ?_⟩
      rw [Nat.succ_mul, ← Nat.add_assoc]
      exact Nat.le_refl _

/-- A name, an empty array, an array and the addresses that follow each other make an entry. -/
theorem stored_of_has {m : Mem} {buffer buflen length : Nat} {family : Int} {name : String}
    {addrs : List (List UInt8)} {addrList data : Nat}
    (haddrList : addrList = buffer + (zeroEnded name).length + 8)
    (hdata : data = addrList + 8 * (addrs.length + 1))
    (hroom : data + addrs.length * length ≤ buffer + buflen) (hspace : buffer + buflen ≤ 256 ^ 8)
    (hlength : 0 < length)
    (hname : Has m buffer (zeroEnded name))
    (haliases : Has m (buffer + (zeroEnded name).length) (List.replicate 8 0))
    (hcopied : Copied addrList data length addrs [] m) :
    Stored { start := buffer, size := buflen } m (packedEntry name family length addrs)
      { name := buffer, aliases := buffer + (zeroEnded name).length, addrtype := family, length
        addrList }
      (placed data length addrs.length) := by
  have hzero : (zeroEnded name).length = (bytes name).length + 1 := zeroEnded_length name
  have harray := hcopied.array
  rw [List.append_nil] at harray
  have hpointers : ∀ p ∈ placed data length addrs.length, Pointer p := by
    intro p hp
    obtain ⟨hlow, hhigh⟩ := mem_placed hp
    exact ⟨by omega, by omega⟩
  have horder : InOrder buffer (regions
      { name := buffer, aliases := buffer + (zeroEnded name).length, addrtype := family, length
        addrList } ((bytes name).length + 1) (placed data length addrs.length))
      (data + addrs.length * length) := by
    refine ⟨Nat.le_refl _, ?_, ?_, ?_⟩
    · rw [hzero]
    · rw [haddrList]
    · rw [placed_length]
      dsimp only
      rw [← hdata]
      exact inOrder_placed data length addrs.length
  refine ⟨?_, horder.apart, fun r hr => ?_, (bytes name).length + addrs.length + 1, ?_⟩
  · exact harray.readArray hpointers (Nat.lt_succ_self _)
  · obtain ⟨hlow, hhigh⟩ := horder.bounds.2 r hr
    exact ⟨hlow, Nat.le_trans hhigh hroom⟩
  · have hstring : readString m ((bytes name).length + addrs.length + 1) buffer =
        some (bytes name) :=
      readString_of_has (zero_not_mem_bytes name) hname (by omega)
    have hempty : HasArray m (buffer + (zeroEnded name).length) [] :=
      ⟨fun i hi => absurd hi (Nat.not_lt_zero _), haliases⟩
    have hnull := hempty.readArray (fun p hp => absurd hp List.not_mem_nil)
      (Nat.succ_pos ((bytes name).length + addrs.length))
    have haddrs : readArray m ((bytes name).length + addrs.length + 1) addrList =
        some (placed data length addrs.length) :=
      harray.readArray hpointers (by rw [placed_length]; omega)
    simp only [readHostent, hstring, hnull, haddrs, map_read hcopied.addrs, List.mapM_nil,
      Option.bind_eq_bind, Option.bind_some, Option.pure_def]
    rfl

/-! ### Memory before the loop -/

/-- What is in memory when the loop starts. -/
def prepared (heap : Nat → Nat) (m : Mem) (buffer buflen : Nat) (name : String) (count : Nat) :
    Mem :=
  let aliases := buffer + (zeroEnded name).length
  write (write (write (write m buffer (List.replicate buflen 0)) buffer (zeroEnded name))
    aliases (List.replicate 8 0)) (aliases + 8)
    (((List.range count).map heap).flatMap (toBytes 8) ++ toBytes 8 0)

theorem flatMap_toBytes_length (n : Nat) (ps : List Nat) :
    (ps.flatMap (toBytes n)).length = n * ps.length := by
  induction ps with
  | nil => rfl
  | cons p rest ih =>
      rw [List.flatMap_cons, List.length_append, toBytes_length, ih, List.length_cons,
        Nat.mul_succ, Nat.add_comm]

theorem prepared_has (heap : Nat → Nat) (m : Mem) (buffer buflen : Nat) (name : String)
    (count : Nat) :
    Has (prepared heap m buffer buflen name count) buffer (zeroEnded name) ∧
    Has (prepared heap m buffer buflen name count) (buffer + (zeroEnded name).length)
      (List.replicate 8 0) ∧
    HasArray (prepared heap m buffer buflen name count) (buffer + (zeroEnded name).length + 8)
      ((List.range count).map heap) := by
  refine ⟨?_, ?_, HasArray.of_has (has_write _ _ _)⟩
  · exact ((has_write _ _ _).write_apart (Or.inl (Nat.le_refl _))).write_apart
      (Or.inl (Nat.le_add_right _ _))
  · exact (has_write _ _ _).write_apart (Or.inl (by rw [List.length_replicate]))

theorem prepared_outside {heap : Nat → Nat} {m : Mem} {buffer buflen : Nat} {name : String}
    {count : Nat} (hroom : (zeroEnded name).length + 8 + 8 * (count + 1) ≤ buflen) :
    Outside buffer buflen m (prepared heap m buffer buflen name count) := by
  refine ((((Outside.refl _ _ m).write (Nat.le_refl _) ?_).write (Nat.le_refl _) ?_).write
    (Nat.le_add_right _ _) ?_).write (by omega) ?_
  · rw [List.length_replicate]
  · omega
  · rw [List.length_replicate]
    omega
  · rw [List.length_append, flatMap_toBytes_length, toBytes_length, List.length_map,
      List.length_range]
    omega

/-! ### The whole function -/

/-- The name a finished forward query has to tell. -/
def canonicalName (q : Query) : String :=
  match q.response.nodename with
  | some name => name.value
  | none => q.request.nodename.getD "localhost"

theorem getNodeName_of_done {q : Query} (hdone : q.state = .done)
    (htype : q.request.type = .forward) : getNodeName q = some (canonicalName q) := by
  unfold getNodeName canonicalName
  cases q.response.nodename with
  | some name => rfl
  | none =>
      dsimp only
      rw [if_neg (fun hne => hne hdone), if_neg (fun hne => hne htype)]

/-- What a query has to tell if this is its first path of one of the two families. -/
def entryOf (q : Query) (first : Path) : Entry where
  name := bytes (canonicalName q)
  aliases := []
  addrtype := first.family
  length := familyToLength first.family
  addrs := familyAddresses (q.response.paths.map (·.value)) first.family

theorem entryOf_eq (q : Query) (first : Path) : entryOf q first =
    packedEntry (canonicalName q) first.family (familyToLength first.family)
      (addressesOf (q.response.paths.map (·.value)) first.family) := by
  rw [packedEntry, map_padded_addressesOf]
  rfl

/-- The entry is stored if there is room for it, and nothing is done otherwise. -/
structure Packs (block : Region) (m : Mem) (entry : Entry) (out : Packed) : Prop where
  short : (out.status = ERANGE ∧ out.result = none ∧ out.memory = m) ↔
    block.size < entry.packedSize
  fits : entry.packedSize ≤ block.size →
    out.status = 0 ∧ Outside block.start block.size m out.memory ∧
    ∃ he addrs, out.result = some he ∧ Stored block out.memory entry he addrs

/-- The host entry that is copied. -/
theorem hostentOf_eq {q : Query} {first : Path} (hdone : q.state = .done)
    (htype : q.request.type = .forward)
    (hfirst : (q.response.paths.map (·.value)).find? isIp = some first) :
    hostentOf q =
      if INT_MAX < q.response.paths.length then .error .overflow
      else .ok
        { name := some (canonicalName q)
          addrtype := first.family
          length := familyToLength first.family
          addrs := addressesOf (q.response.paths.map (·.value)) first.family } := by
  have hne : q.response.paths ≠ [] := by
    intro hnil
    rw [hnil] at hfirst
    cases hfirst
  rw [hostentOf, gethostbynameDone, if_neg hne, getHostent_eq, hfirst,
    getNodeName_of_done hdone htype]

theorem gethostbyname2R_eq (heap : Nat → Nat) (m : Mem) (buffer buflen : Nat) {q : Query}
    {tmp : Hostent} {name : String} (htmp : hostentOf q = .ok tmp) (hname : tmp.name = some name) :
    gethostbyname2R heap m buffer buflen q =
      if (zeroEnded name).length + 8 + 8 * (tmp.addrs.length + 1) +
          tmp.addrs.length * tmp.length ≤ buflen then
        (copyAddresses (buffer + (zeroEnded name).length + 8)
          (buffer + (zeroEnded name).length + 8 + 8 * (tmp.addrs.length + 1)) tmp.length 0 tmp.addrs
          (prepared heap m buffer buflen name tmp.addrs.length)).map fun m' =>
            { status := 0
              result := some
                { name := buffer
                  aliases := buffer + (zeroEnded name).length
                  addrtype := tmp.addrtype
                  length := tmp.length
                  addrList := buffer + (zeroEnded name).length + 8 }
              memory := m' }
      else .ok { status := ERANGE, result := none, memory := m } := by
  have hbytes : nameBytes tmp.name = zeroEnded name := by
    rw [hname]
    rfl
  unfold gethostbyname2R
  rw [htmp]
  simp only [hbytes, bind, Except.bind, pure, Except.pure]
  rw [Nat.mul_comm (tmp.addrs.length + 1) 8]
  split
  · rw [if_neg (by omega)]
  · rw [if_pos (by omega)]
    rfl

/-- The loop leaves the whole entry in a buffer that has room for it. -/
theorem prepared_run {heap : Nat → Nat} {m : Mem} {buffer buflen length : Nat} {family : Int}
    {name : String} {addrs : List (List UInt8)} (hlength : 0 < length)
    (hroom : (zeroEnded name).length + 8 + 8 * (addrs.length + 1) + addrs.length * length ≤ buflen)
    (hspace : buffer + buflen ≤ 256 ^ 8) (hint : (addrs.length - 1) * length ≤ INT_MAX) :
    ∃ m', copyAddresses (buffer + (zeroEnded name).length + 8)
        (buffer + (zeroEnded name).length + 8 + 8 * (addrs.length + 1)) length 0 addrs
        (prepared heap m buffer buflen name addrs.length) = .ok m' ∧
      Outside buffer buflen m m' ∧
      Stored { start := buffer, size := buflen } m' (packedEntry name family length addrs)
        { name := buffer, aliases := buffer + (zeroEnded name).length, addrtype := family, length
          addrList := buffer + (zeroEnded name).length + 8 }
        (placed (buffer + (zeroEnded name).length + 8 + 8 * (addrs.length + 1)) length
          addrs.length) := by
  obtain ⟨hname, haliases, harray⟩ := prepared_has heap m buffer buflen name addrs.length
  have hoffsets : ∀ i < 0 + addrs.length, i * length ≤ INT_MAX := fun i hi =>
    Nat.le_trans (Nat.mul_le_mul_right length (by omega)) hint
  have hstart : Copied (buffer + (zeroEnded name).length + 8)
      (buffer + (zeroEnded name).length + 8 + 8 * (addrs.length + 1)) length []
      ((List.range addrs.length).map heap) (prepared heap m buffer buflen name addrs.length) :=
    ⟨harray, List.Forall₂.nil⟩
  obtain ⟨m', hrun, hcopied, hout⟩ := copyAddresses_ok
    (buflen - ((zeroEnded name).length + 8)) hlength
    (by rw [List.length_map, List.length_range]) hstart hoffsets
    (by rw [List.length_nil]; omega) (by rw [List.length_nil, Nat.zero_add]; omega) (by omega)
  refine ⟨m', hrun, (prepared_outside (by omega)).trans (hout.grow (by omega) (by omega)), ?_⟩
  exact stored_of_has rfl rfl (by omega) hspace hlength
    (hname.outside hout (Or.inl (by omega)))
    (haliases.outside hout (Or.inl (by rw [List.length_replicate]))) hcopied

/-- The whole function, for a host entry with these addresses. -/
theorem packs_iff_of_hostentOf (heap : Nat → Nat) (m : Mem) {buffer buflen : Nat} {q : Query}
    {name : String} {family : Int} {length : Nat} {addrs : List (List UInt8)}
    (hent : hostentOf q = .ok { name := some name, addrtype := family, length, addrs })
    (hlength : 0 < length) (hspace : buffer + buflen ≤ 256 ^ 8) :
    (∃ out, gethostbyname2R heap m buffer buflen q = .ok out ∧
      Packs { start := buffer, size := buflen } m (packedEntry name family length addrs) out) ↔
    buflen < (packedEntry name family length addrs).packedSize ∨
      (addrs.length - 1) * length ≤ INT_MAX := by
  have hrun := gethostbyname2R_eq heap m buffer buflen hent rfl
  dsimp only at hrun
  have hsize := packedEntry_packedSize name family length addrs
  by_cases hfits : buflen < (packedEntry name family length addrs).packedSize
  · rw [if_neg (by omega)] at hrun
    refine iff_of_true ⟨_, hrun, iff_of_true ⟨rfl, rfl, rfl⟩ hfits, fun hroom => ?_⟩ (Or.inl hfits)
    exact absurd hfits (Nat.not_lt.mpr hroom)
  have hroom : (zeroEnded name).length + 8 + 8 * (addrs.length + 1) + addrs.length * length ≤
      buflen := by
    omega
  rw [if_pos hroom] at hrun
  by_cases hint : (addrs.length - 1) * length ≤ INT_MAX
  · obtain ⟨m', hloop, hout, hstored⟩ := prepared_run hlength hroom hspace hint
    rw [hloop] at hrun
    refine iff_of_true ⟨_, hrun, iff_of_false ?_ hfits, fun _ => ⟨rfl, hout, _, _, rfl, hstored⟩⟩
      (Or.inr hint)
    rintro ⟨hstatus, -, -⟩
    exact absurd hstatus (show ¬ (0 : Int) = ERANGE by decide)
  · have hne : addrs ≠ [] := by
      rintro rfl
      exact hint (by rw [List.length_nil, Nat.zero_sub, Nat.zero_mul]; exact Nat.zero_le _)
    rw [copyAddresses_overflow hne (by rw [Nat.zero_add]; exact Nat.not_le.mp hint)] at hrun
    refine iff_of_false ?_ (not_or.mpr ⟨hfits, hint⟩)
    rintro ⟨out, hout, -⟩
    rw [hrun] at hout
    cases hout

/--
On names without zero bytes the packer returns what the model of it by sizes says, if the query can
be freed.
-/
theorem gethostbyname2R_refines {heap : Nat → Nat} {m : Mem} {buffer buflen : Nat} {f : Finished}
    {errno : Int} {out : Packed} (hfree : Compat.queryFree f = .ok ())
    (h : gethostbyname2R heap m buffer buflen f.query = .ok out)
    (hzero : ∀ s, getNodeName f.query = some s → NoZero s) :
    (Compat.gethostbyname2R (some f) errno buflen).map (·.status) = .ok out.status := by
  have hsize : (nameBytes (getHostent f.query).name).length = size (getHostent f.query).name := by
    rw [getHostent_name]
    cases hname : getNodeName f.query with
    | none => rfl
    | some name => exact zeroEnded_length_eq_size (hzero name hname)
  unfold gethostbyname2R hostentOf at h
  unfold Compat.gethostbyname2R
  dsimp only
  cases hdone : gethostbynameDone f.query with
  | error e =>
      rw [hdone] at h
      cases h
  | ok tmp =>
      have htmp : tmp = getHostent f.query := by
        unfold gethostbynameDone at hdone
        split at hdone
        · cases hdone
        · exact (Except.ok.inj hdone).symm
      subst htmp
      rw [hdone] at h
      dsimp only at h
      split at h
      · cases h
      · simp only [bind, Except.bind, pure, Except.pure, hsize] at h
        have htotal : (getHostent f.query).lenTotal = 8 + size (getHostent f.query).name +
            ((getHostent f.query).addrs.length + 1) * 8 +
            (getHostent f.query).addrs.length * (getHostent f.query).length := rfl
        rw [hfree]
        dsimp only [bind, Except.bind]
        by_cases hshort : buflen < (getHostent f.query).lenTotal
        · rw [if_pos (by omega)] at h
          rw [if_pos hshort]
          obtain rfl := Except.ok.inj h
          rfl
        · rw [if_neg (by omega)] at h
          rw [if_neg hshort]
          split at h
          · cases h
          · obtain rfl := Except.ok.inj h
            rfl

/-- A forward query for a name that has ended with these paths. -/
def forwardQuery (name : String) (paths : List Path) : Query where
  id := 0
  state := .done
  request := { type := .forward, nodename := some name }
  response := { paths := paths.map fun value => { value, origin := 0 } }

theorem forwardQuery_paths (name : String) (paths : List Path) :
    (forwardQuery name paths).response.paths.map (·.value) = paths := by
  rw [forwardQuery, List.map_map]
  exact List.map_id paths

def ipPath (family : Int) (address : List UInt8) : Path where
  family := family
  address := address
  ifindex := 0
  socktype := 3
  protocol := 0
  port := 0
  priority := 0
  weight := 0
  ttl := 0

/-- Two IPv4 addresses and an IPv6 address between them. -/
def dualQuery : Query :=
  forwardQuery "localhost" [ipPath AF_INET [127, 0, 0, 1],
    ipPath AF_INET6 (List.replicate 15 0 ++ [1]), ipPath AF_INET [127, 0, 0, 2]]

/-- Too many IPv6 addresses for the offset of the last one. -/
theorem replicate_overflow (heap : Nat → Nat) (m : Mem) {buffer buflen count : Nat} {name : String}
    {address : List UInt8} (hpaths : count ≤ INT_MAX) (hint : INT_MAX < (count - 1) * 16)
    (hroom : (zeroEnded name).length + 8 + 8 * (count + 1) + count * 16 ≤ buflen)
    (hspace : buffer + buflen ≤ 256 ^ 8) :
    ¬ ∃ out, gethostbyname2R heap m buffer buflen
        (forwardQuery name (List.replicate count (ipPath AF_INET6 address))) = .ok out ∧
      Packs { start := buffer, size := buflen } m
        (entryOf (forwardQuery name (List.replicate count (ipPath AF_INET6 address)))
          (ipPath AF_INET6 address)) out := by
  have hfirst : (List.replicate count (ipPath AF_INET6 address)).find? isIp =
      some (ipPath AF_INET6 address) := by
    rw [List.find?_replicate, if_neg (by rintro rfl; omega), if_pos (by rfl)]
  have haddrs : addressesOf (List.replicate count (ipPath AF_INET6 address)) AF_INET6 =
      List.replicate count (address.take 16) := by
    rw [addressesOf, List.filter_replicate_of_pos (by rfl), List.map_replicate]
    rfl
  have hvalues := forwardQuery_paths name (List.replicate count (ipPath AF_INET6 address))
  have hent : hostentOf (forwardQuery name (List.replicate count (ipPath AF_INET6 address))) =
      _ := hostentOf_eq rfl rfl (by rw [hvalues]; exact hfirst)
  have hcount : ¬ INT_MAX <
      (forwardQuery name (List.replicate count (ipPath AF_INET6 address))).response.paths.length := by
    rw [forwardQuery, List.length_map, List.length_replicate]
    exact Nat.not_lt.mpr hpaths
  rw [if_neg hcount] at hent
  have hlength : 0 < familyToLength (ipPath AF_INET6 address).family :=
    show 0 < familyToLength AF_INET6 by decide
  rw [entryOf_eq, packs_iff_of_hostentOf heap m hent hlength hspace, packedEntry_packedSize, hvalues,
    show (ipPath AF_INET6 address).family = AF_INET6 from rfl, haddrs, List.length_replicate]
  exact not_or.mpr ⟨Nat.not_lt.mpr hroom, Nat.not_le.mpr hint⟩

/-- The last offset is 2^31. -/
def manyPaths : List Path := List.replicate 134217729 (ipPath AF_INET6 (List.replicate 16 0))

end Netresolve.Packing
