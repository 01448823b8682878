/-
Descriptors that nobody closes.

The core opens a descriptor for each timer, and the watch of the timer keeps it until the watch
is removed.  The event descriptor of a backend that succeeds in its setup function is kept by
nobody.  So the descriptors that are open are those of the timers and those that are lost, and a
step loses one for each backend that it sets up and that succeeds at once.  Nothing has to be
asked of the backends: the watches that they remember are not those of timers, because a
remembered watch has a number that was new when a backend added it.
-/
import Netresolve.Proofs.Shared
import Netresolve.Proofs.Ledger

namespace Netresolve

open Outcome

/-! ### Success in the setup function -/

/-- The first of the calls that is a report is one of success. -/
def succeedsAtOnce : List Call → Bool
  | [] => false
  | .finished :: _ => true
  | .failed :: _ | .newPriv false :: _ => false
  | _ :: rest => succeedsAtOnce rest

/-- The backend at the position has a setup function for the query, which succeeds at once. -/
def hasty (env : Env) (s : St) (j : Nat) : Bool :=
  (s.backends[j]?).any (·.setup s.query.request.type) && succeedsAtOnce (env.setup j)

/-- No backend that is set up in the step succeeds at once. -/
def Moment.Patient (m : Moment) : Prop :=
  ∀ j, SetsUp m.env m.action (m.pool.view m.party) j → hasty m.env (m.pool.view m.party) j = false

/-! ### What is open -/

def Fd.isCore : Fd → Bool
  | .core _ => true
  | .backend _ => false

/-- The descriptors of the core that the query watches. -/
def Query.cores (q : Query) : List Fd := (q.watches.map (·.fd)).filter Fd.isCore

section

variable (s₀ : St) (others : List Watch) (base : List Fd)

/-- The descriptor was opened since the step began. -/
def Young (s : St) (fd : Fd) : Prop :=
  ∃ n, fd = .core n ∧ s₀.context.next ≤ n ∧ n < s.context.next

/--
The descriptors that are open are those the query watches, those that were lost since the step
began, and `base`.  No watch that is remembered anywhere, be it one of this query or one of the
`others`, has a descriptor of the core.
-/
structure Tidy (lost : List Fd) (s : St) : Prop where
  opened : s.context.opened.Perm (s.query.cores ++ (lost ++ base))
  core : ∀ fd ∈ lost ++ base, fd.isCore = true
  fresh : ∀ x ∈ s.query.watches ++ others, x.id < s.context.next
  apart : ∀ d, some d ∈ s.backends.map (·.data) → ∀ w ∈ d.watches, w < s.context.next ∧
    ∀ x ∈ s.query.watches ++ others, x.id = w → x.fd.isCore = false
  young : ∀ fd ∈ s.query.cores, fd ∈ s₀.query.cores ∨ Young s₀ s fd
  lost : ∀ fd ∈ lost, Young s₀ s fd
  next : s₀.context.next ≤ s.context.next

end

section

variable {s₀ s s' : St} {others : List Watch} {base lost : List Fd}

theorem Young.later {fd : Fd} (h : Young s₀ s fd) (hnext : s.context.next ≤ s'.context.next) :
    Young s₀ s' fd := by
  obtain ⟨n, rfl, hle, hlt⟩ := h
  exact ⟨n, rfl, hle, Nat.lt_of_lt_of_le hlt hnext⟩

theorem Tidy.congr (h : Tidy s₀ others base lost s) (hwatches : s'.query.watches = s.query.watches)
    (hdata : ∀ d, some d ∈ s'.backends.map (·.data) → some d ∈ s.backends.map (·.data))
    (hopened : s'.context.opened = s.context.opened)
    (hnext : s.context.next ≤ s'.context.next) : Tidy s₀ others base lost s' := by
  have hcores : s'.query.cores = s.query.cores := by
    unfold Query.cores
    rw [hwatches]
  refine ⟨?_, h.core, fun x hx => ?_, fun d hd w hw => ?_, fun fd hfd => ?_,
    fun fd hfd => (h.lost fd hfd).later hnext, h.next.trans hnext⟩
  · rw [hopened, hcores]
    exact h.opened
  · rw [hwatches] at hx
    exact Nat.lt_of_lt_of_le (h.fresh x hx) hnext
  · obtain ⟨hlt, hfd⟩ := h.apart d (hdata d hd) w hw
    rw [hwatches]
    exact ⟨Nat.lt_of_lt_of_le hlt hnext, hfd⟩
  · rw [hcores] at hfd
    exact (h.young fd hfd).imp id fun hy => hy.later hnext

/-- All descriptors that are open are those of the core. -/
theorem Tidy.isCore (h : Tidy s₀ others base lost s) {fd : Fd} (hfd : fd ∈ s.context.opened) :
    fd.isCore = true := by
  rcases List.mem_append.mp (h.opened.mem_iff.mp hfd) with hmem | hmem
  · exact (List.mem_filter.mp hmem).2
  · exact h.core fd hmem

/-- What is open was open when the step began, or was opened since. -/
theorem Tidy.whence (h : Tidy s₀ others base lost s) (h₀ : Tidy s₀ others base [] s₀) {fd : Fd}
    (hfd : fd ∈ s.context.opened) : fd ∈ s₀.context.opened ∨ Young s₀ s fd := by
  have hold := h₀.opened.mem_iff (a := fd)
  rcases List.mem_append.mp (h.opened.mem_iff.mp hfd) with hmem | hmem
  · rcases h.young fd hmem with hmem | hyoung
    · exact Or.inl (hold.mpr (List.mem_append_left _ hmem))
    · exact Or.inr hyoung
  · rcases List.mem_append.mp hmem with hmem | hmem
    · exact Or.inr (h.lost fd hmem)
    · exact Or.inl (hold.mpr (List.mem_append_right _ hmem))

/-- A new watch, of a backend or with a descriptor that was opened for it. -/
theorem Tidy.link (h : Tidy s₀ others base lost s) (fd : Fd) (callback : WatchCallback)
    (hfd : fd.isCore = true → fd = .core s.context.next)
    (hwatches : s'.query.watches = s.query.watches ++ [⟨s.context.next, fd, callback⟩])
    (hbackends : s'.backends = s.backends) (hnext : s'.context.next = s.context.next + 1)
    (hopened : s'.context.opened = (if fd.isCore then [fd] else []) ++ s.context.opened) :
    Tidy s₀ others base lost s' := by
  have hcores : s'.query.cores = s.query.cores ++ if fd.isCore then [fd] else [] := by
    unfold Query.cores
    rw [hwatches]
    simp only [List.map_append, List.map_cons, List.map_nil, List.filter_append, List.filter_cons,
      List.filter_nil]
  have hle : s.context.next ≤ s'.context.next := by omega
  have hold : ∀ x ∈ s'.query.watches ++ others,
      x ∈ s.query.watches ++ others ∨ x = ⟨s.context.next, fd, callback⟩ := by
    intro x hx
    rw [hwatches] at hx
    simp only [List.mem_append, List.mem_singleton] at hx ⊢
    rcases hx with (hx | hx) | hx
    · exact Or.inl (Or.inl hx)
    · exact Or.inr hx
    · exact Or.inl (Or.inr hx)
  refine ⟨?_, h.core, fun x hx => ?_, fun d hd w hw => ?_, fun fd' hfd' => ?_,
    fun fd' hfd' => (h.lost fd' hfd').later hle, h.next.trans hle⟩
  · rw [hopened, hcores]
    refine (h.opened.append_left _).trans ?_
    rw [← List.append_assoc]
    exact List.perm_append_comm.append_right _
  · rcases hold x hx with hx | rfl
    · exact Nat.lt_of_lt_of_le (h.fresh x hx) hle
    · show s.context.next < s'.context.next
      omega
  · rw [hbackends] at hd
    obtain ⟨hlt, hfree⟩ := h.apart d hd w hw
    refine ⟨Nat.lt_of_lt_of_le hlt hle, fun x hx hid => ?_⟩
    rcases hold x hx with hx | rfl
    · exact hfree x hx hid
    · exact absurd hid (Nat.ne_of_gt hlt)
  · rw [hcores] at hfd'
    rcases List.mem_append.mp hfd' with hmem | hmem
    · exact (h.young fd' hmem).imp id fun hy => hy.later hle
    · split at hmem
      · next hcore =>
          obtain rfl := List.mem_singleton.mp hmem
          exact Or.inr ⟨s.context.next, hfd hcore, h.next, by omega⟩
      · cases hmem

/-- A watch is removed, and its descriptor is closed unless it is a backend's. -/
theorem Tidy.unlink (h : Tidy s₀ others base lost s) {w : Nat} {x : Watch} (doClose : Bool)
    (hx : s.query.watches.find? (·.id = w) = some x)
    (hclose : doClose = false → x.fd.isCore = false)
    (hwatches : s'.query.watches = s.query.watches.eraseP (·.id = w))
    (hbackends : s'.backends = s.backends) (hnext : s'.context.next = s.context.next)
    (hopened : s'.context.opened =
      if doClose then s.context.opened.erase x.fd else s.context.opened) :
    Tidy s₀ others base lost s' := by
  obtain ⟨hid, before, after, hsplit, hnot⟩ := List.find?_eq_some_iff_append.mp hx
  have hrest : s'.query.watches = before ++ after := by
    rw [hwatches, hsplit, List.eraseP_append_right _ (fun y hy => by simpa using hnot y hy)]
    exact congrArg (before ++ ·) (List.eraseP_cons_of_pos hid)
  have hcores : s.query.cores.Perm ((if x.fd.isCore then [x.fd] else []) ++ s'.query.cores) := by
    have hmiddle : s.query.watches.Perm (x :: s'.query.watches) := by
      rw [hsplit, hrest]
      exact List.perm_middle
    refine ((hmiddle.map _).filter _).trans ?_
    rw [List.map_cons, List.filter_cons]
    split
    · exact List.Perm.refl _
    · exact List.Perm.refl _
  have hsub : ∀ y ∈ s'.query.watches ++ others, y ∈ s.query.watches ++ others := by
    intro y hy
    rw [hwatches] at hy
    rcases List.mem_append.mp hy with hy | hy
    · exact List.mem_append_left _ (List.mem_of_mem_eraseP hy)
    · exact List.mem_append_right _ hy
  have hle : s.context.next ≤ s'.context.next := Nat.le_of_eq hnext.symm
  refine ⟨?_, h.core, fun y hy => ?_, fun d hd v hv => ?_, fun fd hfd => ?_,
    fun fd hfd => (h.lost fd hfd).later hle, h.next.trans hle⟩
  · by_cases hcore : x.fd.isCore = true
    · -- a descriptor of the core: it is closed
      have hyes : doClose = true := by
        cases doClose with
        | true => rfl
        | false =>
            rw [hclose rfl] at hcore
            cases hcore
      rw [if_pos hcore] at hcores
      rw [hopened, if_pos hyes]
      have hall := (h.opened.trans (hcores.append_right _)).erase x.fd
      rwa [List.append_assoc, List.singleton_append, List.erase_cons_head] at hall
    · rw [if_neg hcore, List.nil_append] at hcores
      have hsame : s'.context.opened = s.context.opened := by
        rw [hopened]
        split
        · exact List.erase_of_not_mem fun hmem => hcore (h.isCore hmem)
        · rfl
      rw [hsame]
      exact h.opened.trans (hcores.append_right _)
  · rw [hnext]
    exact h.fresh y (hsub y hy)
  · rw [hbackends] at hd
    rw [hnext]
    exact ⟨(h.apart d hd v hv).1, fun y hy => (h.apart d hd v hv).2 y (hsub y hy)⟩
  · have hmem : fd ∈ s.query.cores := hcores.mem_iff.mpr (List.mem_append_right _ hfd)
    exact (h.young fd hmem).imp id fun hy => hy.later hle

/-- The event descriptor is lost. -/
theorem Tidy.lose (h : Tidy s₀ others base lost s) (hwatches : s'.query.watches = s.query.watches)
    (hbackends : s'.backends = s.backends) (hnext : s'.context.next = s.context.next + 1)
    (hopened : s'.context.opened = .core s.context.next :: s.context.opened) :
    Tidy s₀ others base (.core s.context.next :: lost) s' := by
  have hcores : s'.query.cores = s.query.cores := by
    unfold Query.cores
    rw [hwatches]
  have hle : s.context.next ≤ s'.context.next := by omega
  refine ⟨?_, fun fd hfd => ?_, fun x hx => ?_, fun d hd w hw => ?_, fun fd hfd => ?_,
    fun fd hfd => ?_, h.next.trans hle⟩
  · rw [hopened, hcores]
    exact (h.opened.cons _).trans List.perm_middle.symm
  · rcases List.mem_cons.mp hfd with rfl | hfd
    · rfl
    · exact h.core fd hfd
  · rw [hwatches] at hx
    exact Nat.lt_of_lt_of_le (h.fresh x hx) hle
  · rw [hbackends] at hd
    rw [hwatches]
    exact ⟨Nat.lt_of_lt_of_le (h.apart d hd w hw).1 hle, (h.apart d hd w hw).2⟩
  · rw [hcores] at hfd
    exact (h.young fd hfd).imp id fun hy => hy.later hle
  · rcases List.mem_cons.mp hfd with rfl | hfd
    · exact ⟨s.context.next, rfl, h.next, by omega⟩
    · exact (h.lost fd hfd).later hle

end

/-! ### The functions of `lib/event.c` -/

/-- What is asked of a function that is to keep things tidy. -/
def Tidies (s₀ : St) (others : List Watch) (base lost : List Fd) {α : Type} (x : M α) (s : St) :
    Prop :=
  Sat x s (fun _ => Tidy s₀ others base lost) (fun _ _ => True)

section

variable {env : Env} {s₀ s : St} {others : List Watch} {base lost : List Fd}

theorem tidies_watchRemove (h : Tidy s₀ others base lost s) {w : Nat} {doClose : Bool}
    (hclose : doClose = false → ∀ x ∈ s.query.watches, x.id = w → x.fd.isCore = false) :
    Tidies s₀ others base lost (watchRemove env w doClose) s := by
  simp only [Tidies, watchRemove, sat_bind, sat_get, sat_ite, sat_throw, implies_true, true_and]
  intro _
  cases hx : s.query.watches.find? (·.id = w) with
  | none => trivial
  | some x =>
      have hmem := List.mem_of_find?_eq_some hx
      have hid : x.id = w := by simpa using List.find?_some hx
      simp only [epollRemoveWatch, modifyContext, modifyQuery, sat_bind, sat_modify, sat_ite,
        sat_throw, sat_pure, implies_true, and_true]
      refine fun _ => ⟨fun hyes => ?_, fun hno => ?_⟩
      · exact h.unlink true hx (fun hfalse => by cases hfalse) rfl rfl rfl rfl
      · exact h.unlink false hx
          (fun _ => hclose (by simpa using hno) x hmem hid) rfl rfl rfl rfl

theorem watchRemove_subset (env : Env) (w : Nat) (doClose : Bool) (s : St) :
    Sat (watchRemove env w doClose) s
      (fun _ s' => ∀ x ∈ s'.query.watches, x ∈ s.query.watches) (fun _ _ => True) := by
  simp only [watchRemove, sat_bind, sat_get, sat_ite, sat_throw, implies_true, true_and]
  intro _
  cases s.query.watches.find? (·.id = w) with
  | none => trivial
  | some x =>
      simp only [epollRemoveWatch, modifyContext, modifyQuery, sat_bind, sat_modify, sat_ite,
        sat_throw, sat_pure, implies_true, and_true]
      exact fun _ => ⟨fun _ y hy => List.mem_of_mem_eraseP hy, fun _ y hy => List.mem_of_mem_eraseP hy⟩

theorem tidies_clearTimeout (h : Tidy s₀ others base lost s) (t : Timer) :
    Tidies s₀ others base lost (clearTimeout env t) s := by
  simp only [Tidies, clearTimeout, sat_bind, sat_get]
  cases s.query.timeout t with
  | none => exact h
  | some w =>
      simp only [timeoutRemove, sat_bind, modifyQuery, sat_modify]
      refine Sat.mono (tidies_watchRemove h fun hfalse => by cases hfalse) (fun _ s' h' => ?_)
        (fun _ _ he => he)
      exact h'.congr (setTimeout_watches _ t none).1 (fun _ hd => hd) rfl (Nat.le_refl _)

theorem tidies_setTimeout (h : Tidy s₀ others base lost s) (t : Timer) :
    Tidies s₀ others base lost (setTimeout env t) s := by
  simp only [Tidies, setTimeout, timeoutAdd, sat_bind, sat_get, sat_ite, modifyContext, modifyQuery,
    sat_modify, sat_pure]
  refine ⟨fun _ => ?_, fun _ => ?_⟩
  · refine (sat_watchAdd env _ _ _ _ ?_).mono (fun _ _ h' => h') (fun _ _ _ => trivial)
    exact h.link (.core s.context.next) (.timeout t) (fun _ => rfl)
      (setTimeout_watches _ t _).1 rfl rfl rfl
  · exact h.congr (setTimeout_watches _ t none).1 (fun _ hd => hd) rfl (Nat.le_refl _)

/-! ### Backends -/

theorem mem_data_modify {bs : List Backend} {i : Nat} {f : Backend → Backend} {d : Block}
    (h : some d ∈ (bs.modify i f).map (·.data)) :
    (∃ b, bs[i]? = some b ∧ (f b).data = some d) ∨ some d ∈ bs.map (·.data) := by
  obtain ⟨b, hb, hd⟩ := List.mem_map.mp h
  obtain ⟨j, hj⟩ := List.mem_iff_getElem?.mp hb
  rw [List.getElem?_modify] at hj
  cases hbj : bs[j]? with
  | none =>
      rw [hbj] at hj
      cases hj
  | some c =>
      rw [hbj] at hj
      by_cases hij : i = j
      · simp only [if_pos hij, Option.map_eq_map, Option.map_some, Option.some.injEq] at hj
        refine Or.inl ⟨c, hij ▸ hbj, ?_⟩
        rw [hj]
        exact hd
      · simp only [if_neg hij, Option.map_eq_map, Option.map_some, Option.some.injEq] at hj
        refine Or.inr (List.mem_map.mpr ⟨c, List.mem_of_getElem? hbj, ?_⟩)
        rw [hj]
        exact hd

/-- An entry of the list may be changed if it does not come to remember other watches. -/
theorem Tidy.modifyBackend (h : Tidy s₀ others base lost s) {f : Backend → Backend}
    (hf : ∀ b d, s.backends[s.query.cursor]? = some b → (f b).data = some d → ∀ w ∈ d.watches,
      w < s.context.next ∧ ∀ x ∈ s.query.watches ++ others, x.id = w → x.fd.isCore = false) :
    Tidy s₀ others base lost { s with backends := s.backends.modify s.query.cursor f } := by
  refine ⟨h.opened, h.core, h.fresh, fun d hd => ?_, h.young, h.lost, h.next⟩
  rcases mem_data_modify hd with ⟨b, hb, hdata⟩ | hold
  · exact hf b d hb hdata
  · exact h.apart d hold

theorem Tidy.modifyBackend_data (h : Tidy s₀ others base lost s) {f : Backend → Backend}
    (hf : ∀ b, (f b).data = b.data ∨ (f b).data = none) :
    Tidy s₀ others base lost { s with backends := s.backends.modify s.query.cursor f } := by
  refine h.modifyBackend fun b d hb hd => ?_
  rcases hf b with hsame | hnone
  · rw [hsame] at hd
    exact h.apart d (List.mem_map.mpr ⟨b, List.mem_of_getElem? hb, hd⟩)
  · rw [hnone] at hd
    cases hd

theorem mem_of_ownBlock {block : Block} (h : ownBlock s = some block) :
    some block ∈ s.backends.map (·.data) := by
  obtain ⟨hpriv, -⟩ := Option.filter_eq_some_iff.mp h
  obtain ⟨b, hb, hd⟩ := Option.bind_eq_some_iff.mp hpriv
  exact List.mem_map.mpr ⟨b, List.mem_of_getElem? hb, hd⟩

theorem tidies_callWatchAdd (h : Tidy s₀ others base lost s) (fd : Nat) :
    Tidies s₀ others base lost (callWatchAdd env fd) s := by
  simp only [Tidies, callWatchAdd, sat_bind, sat_get]
  refine (sat_watchAdd env _ _ _ _ ?_).mono (fun _ _ h' => h') (fun _ _ _ => trivial)
  have hlink : Tidy s₀ others base lost (s.link (.backend fd) (.backend s.query.cursor)) :=
    h.link (.backend fd) _ (fun hfalse => by cases hfalse) rfl rfl rfl rfl
  cases hown : ownBlock (s.link (.backend fd) (.backend s.query.cursor)) with
  | none => exact hlink
  | some block =>
      refine hlink.modifyBackend fun b d hb hd w hw => ?_
      obtain rfl := Option.some.inj hd
      rcases List.mem_append.mp hw with hold | hnew
      · exact hlink.apart block (mem_of_ownBlock hown) w hold
      · -- the watch that was just added is the only one with its number
        obtain rfl := List.mem_singleton.mp hnew
        refine ⟨Nat.lt_succ_self _, fun x hx hid => ?_⟩
        simp only [St.link, List.mem_append, List.mem_singleton] at hx
        rcases hx with (hx | rfl) | hx
        · exact absurd hid (Nat.ne_of_lt (h.fresh x (List.mem_append_left _ hx)))
        · rfl
        · exact absurd hid (Nat.ne_of_lt (h.fresh x (List.mem_append_right _ hx)))

theorem tidies_callWatchRemove (h : Tidy s₀ others base lost s) (k : Nat) (doClose : Bool) :
    Tidies s₀ others base lost (callWatchRemove env k doClose) s := by
  simp only [Tidies, callWatchRemove, sat_bind, sat_get]
  cases hown : ownBlock s with
  | none => exact h
  | some block =>
      cases hk : block.watches[k]? with
      | none =>
          simp only [hk]
          exact h
      | some w =>
          have hmem := mem_of_ownBlock hown
          have hapart := h.apart block hmem w (List.mem_of_getElem? hk)
          simp only [hk, sat_bind, modifyBackend, sat_modify]
          have hremoved : Tidies s₀ others base lost (watchRemove env w doClose) s :=
            tidies_watchRemove h fun _ x hx hid => hapart.2 x (List.mem_append_left _ hx) hid
          refine Sat.mono (Sat.and hremoved (aside_watchRemove env w doClose s)) (fun _ s' h' => ?_)
            (fun _ _ _ => trivial)
          refine h'.1.modifyBackend fun b d hb hd v hv => ?_
          obtain rfl := Option.some.inj hd
          exact h'.1.apart block (by rw [h'.2.backends]; exact hmem) v (List.mem_of_mem_eraseIdx hv)

theorem tidies_allocPriv (h : Tidy s₀ others base lost s) (allocated : Bool) :
    Tidies s₀ others base lost (allocPriv allocated) s := by
  simp only [Tidies, allocPriv, currentBackend, sat_bind, sat_get, sat_ite, sat_pure, sat_throw,
    implies_true, and_true]
  intro _
  cases s.backends[s.query.cursor]? with
  | none => trivial
  | some b =>
      simp only [sat_ite, sat_throw, sat_bind, sat_get, modifyContext, modifyBackend, modifyQuery,
        sat_modify, implies_true, true_and]
      refine fun _ => ⟨fun _ => ?_, fun _ => ?_⟩
      · have hnext : Tidy s₀ others base lost
            { s with context := { s.context with next := s.context.next + 1 } } :=
          h.congr rfl (fun _ hd => hd) rfl (Nat.le_succ _)
        refine Tidy.congr (hnext.modifyBackend
          (f := fun b => { b with
            cleanup := true, data := some ⟨s.context.next, s.query.id, []⟩,
            history := .alloc s.query.id s.context.next :: b.history }) ?_)
          rfl (fun _ hd => hd) rfl (Nat.le_refl _)
        intro b d _ hd w hw
        obtain rfl := Option.some.inj hd
        cases hw
      · exact h.modifyBackend_data fun b => Or.inl rfl

theorem tidies_backendCleanup (h : Tidy s₀ others base lost s) {b : Backend}
    (hb : s.backends[s.query.cursor]? = some b) :
    Tidies s₀ others base lost (backendCleanup env b.data) s := by
  simp only [Tidies, backendCleanup, sat_bind, sat_get, modifyBackend, sat_modify]
  have hnoted := h.modifyBackend_data
    (f := fun b' => { b' with history := .cleanup s.query.id (b.data.map (·.id)) :: b'.history })
    fun _ => Or.inl rfl
  cases hdata : b.data with
  | none =>
      rw [hdata] at hnoted
      exact hnoted
  | some block =>
      rw [hdata] at hnoted
      simp only [sat_ite, sat_throw, implies_true, and_true]
      intro _
      have hdata' : ∀ w ∈ block.watches, ∀ x ∈ s.query.watches, x.id = w → x.fd.isCore = false :=
        fun w hw x hx => (h.apart block (List.mem_map.mpr ⟨b, List.mem_of_getElem? hb, hdata⟩) w
          hw).2 x (List.mem_append_left _ hx)
      -- the watches that are left are among those there were
      refine (sat_forM (E := fun _ _ => True) (fun rest s' => Tidy s₀ others base lost s' ∧
        (∀ w ∈ rest, w ∈ block.watches) ∧ ∀ x ∈ s'.query.watches, x ∈ s.query.watches) ?_
        block.watches _ ⟨hnoted, fun _ hw => hw, fun _ hx => hx⟩).mono (fun _ _ h' => h'.1)
        (fun _ _ he => he)
      rintro w rest s' ⟨htidy, hrest, hsub⟩
      have hw := hrest w List.mem_cons_self
      have hremoved : Tidies s₀ others base lost (watchRemove env w false) s' :=
        tidies_watchRemove htidy fun _ x hx hid => hdata' w hw x (hsub x hx) hid
      refine (Sat.and hremoved (watchRemove_subset env w false s')).mono (fun _ s'' h'' => ?_)
        (fun _ _ _ => trivial)
      exact ⟨h''.1, fun v hv => hrest v (List.mem_cons_of_mem _ hv), fun x hx => hsub x (h''.2 x hx)⟩

theorem tidies_cleanupQuery (h : Tidy s₀ others base lost s) :
    Tidies s₀ others base lost (cleanupQuery env) s := by
  simp only [Tidies, cleanupQuery, currentBackend, sat_bind, sat_get, sat_ite, sat_pure, sat_throw,
    implies_true, and_true]
  intro _
  refine (Sat.and (tidies_clearTimeout h .delayed) (aside_clearTimeout env .delayed s)).mono
    (fun _ s₁ h₁ => ?_) (fun _ _ _ => trivial)
  refine (Sat.and (tidies_clearTimeout h₁.1 .requestTimeout)
    (aside_clearTimeout env .requestTimeout s₁)).mono (fun _ s₂ h₂ => ?_) (fun _ _ _ => trivial)
  refine (Sat.and (tidies_clearTimeout h₂.1 .resultTimeout)
    (aside_clearTimeout env .resultTimeout s₂)).mono (fun _ s₃ h₃ => ?_) (fun _ _ _ => trivial)
  have hbeside : Beside s s₃ := trans_of Beside h₁.2 (trans_of Beside h₂.2 h₃.2)
  cases hcur : s.backends[s.query.cursor]? with
  | none => exact h₃.1
  | some b =>
      have hb : s₃.backends[s₃.query.cursor]? = some b := by
        rw [hbeside.backends, hbeside.cursor]
        exact hcur
      have hclean : Tidies s₀ others base lost
          (if b.cleanup then backendCleanup env b.data else pure ()) s₃ := by
        split
        · exact tidies_backendCleanup h₃.1 hb
        · exact h₃.1
      simp only [sat_bind, modifyBackend, modifyQuery, sat_modify]
      refine Sat.mono hclean (fun _ s₄ h₄ => ?_) (fun _ _ he => he)
      exact Tidy.congr (h₄.modifyBackend_data (f := fun b => { b with data := none })
        fun _ => Or.inr rfl) rfl (fun _ hd => hd) rfl (Nat.le_refl _)

end

/-! ### The stages of a step -/

/-- The entry tells of the set-up of a backend that succeeds at once. -/
def Obs.hasty (env : Env) (s : St) : Obs → Bool
  | .enter .setup j _ => Netresolve.hasty env s j
  | _ => false

section

variable (env : Env) (s₀ : St) (others : List Watch) (base : List Fd)

/--
What was lost since the step began: one descriptor for each set-up of a backend that succeeds at
once, up to a number of them that are still to be opened.
-/
structure Reckoned (owed : Nat) (s : St) : Prop where
  id : s.query.id = s₀.query.id
  type : s.query.request.type = s₀.query.request.type
  shape : s.backends.map Backend.shape = s₀.backends.map Backend.shape
  lost : ∃ new lost, s.trace = new ++ s₀.trace ∧
    lost.length + owed = new.countP (Obs.hasty env s₀) ∧ Tidy s₀ others base lost s

/-- The descriptor of a backend that is to succeed in its setup function is not yet opened. -/
def reckoning : Stages where
  ready _ s := s.query.cursor < s.backends.length ∧ s.query.state ≠ .setup ∧
    Reckoned env s₀ others base 0 s
  run _ ph calls s := match ph with
    | .setup => s.query.state = .setup ∧
        Reckoned env s₀ others base (if succeedsAtOnce calls then 1 else 0) s ∨
        (s.query.state = .resolved ∨ s.query.state = .error) ∧ Reckoned env s₀ others base 0 s
    | .dispatch => s.query.state ≠ .setup ∧ Reckoned env s₀ others base 0 s
  fin _ _ := Reckoned env s₀ others base 0
  rest _ s := s.query.state ≠ .setup ∧ Reckoned env s₀ others base 0 s
  bold _ _ _ := True

end

section

variable {env : Env} {s₀ s s' : St} {others : List Watch} {base : List Fd} {owed : Nat}

/-- A step that is not about descriptors, with what it adds to the trace. -/
theorem Reckoned.note (h : Reckoned env s₀ others base owed s) (more : List Obs)
    (hid : s'.query.id = s.query.id)
    (htype : s'.query.request.type = s.query.request.type)
    (hwatches : s'.query.watches = s.query.watches) (hbackends : s'.backends = s.backends)
    (hcontext : s'.context = s.context) (htrace : s'.trace = more ++ s.trace)
    (hplain : more.countP (Obs.hasty env s₀) = 0) : Reckoned env s₀ others base owed s' := by
  obtain ⟨new, lost, hnew, hcount, htidy⟩ := h.lost
  refine ⟨hid.trans h.id, htype.trans h.type, by rw [hbackends]; exact h.shape,
    more ++ new, lost, ?_, ?_, ?_⟩
  · rw [htrace, hnew, List.append_assoc]
  · rw [List.countP_append, hplain, Nat.zero_add]
    exact hcount
  · refine htidy.congr hwatches (fun d hd => ?_) (by rw [hcontext]) (by rw [hcontext])
    rwa [hbackends] at hd

/-- A function that leaves the visible part alone and keeps things tidy. -/
theorem Reckoned.keep {α : Type} {x : M α} (h : Reckoned env s₀ others base owed s) (hx : Keeps x)
    (htidies : ∀ lost, Tidy s₀ others base lost s → Tidies s₀ others base lost x s) :
    Sat x s (fun _ s' => Reckoned env s₀ others base owed s' ∧ Frame s s') (fun _ _ => True) := by
  obtain ⟨new, lost, hnew, hcount, htidy⟩ := h.lost
  refine (Sat.and (htidies lost htidy) (hx s)).mono (fun _ s' h' => ?_) (fun _ _ _ => trivial)
  obtain ⟨htidy', hframe⟩ := h'
  refine ⟨⟨hframe.id.trans h.id, ?_, hframe.shape.trans h.shape, new, lost, ?_, hcount, htidy'⟩,
    hframe⟩
  · rw [hframe.request]
    exact h.type
  · rw [hframe.trace]
    exact hnew

theorem Reckoned.entered (h : Reckoned env s₀ others base owed s) (state : QueryState)
    (hstate : state ≠ .setup) : Reckoned env s₀ others base owed (s.entered state) := by
  refine h.note [.enter state s.query.cursor s.query.response] rfl rfl rfl rfl rfl rfl ?_
  cases state with
  | setup => exact absurd rfl hstate
  | _ => rfl

theorem Reckoned.reported (h : Reckoned env s₀ others base owed s) (call : Call) :
    Reckoned env s₀ others base owed (s.reported call) :=
  h.note [.report s.query.cursor call] rfl rfl rfl rfl rfl rfl rfl

theorem Reckoned.toError (h : Reckoned env s₀ others base owed s) :
    Reckoned env s₀ others base owed s.toError := by
  unfold St.toError
  split
  · exact h
  · exact h.entered _ (by decide)

theorem Reckoned.stored (h : Reckoned env s₀ others base owed s) (path : Path) :
    Reckoned env s₀ others base owed (s.stored env path) :=
  h.note [.path s.query.cursor path] rfl rfl rfl rfl rfl rfl rfl

theorem Reckoned.called (h : Reckoned env s₀ others base owed s) :
    Reckoned env s₀ others base owed s.called := by
  unfold St.called
  split
  · exact h.note [.callback s.query.state s.query.cursor s.query.response] rfl rfl rfl rfl rfl rfl
      rfl
  · exact h

theorem Reckoned.warned (h : Reckoned env s₀ others base owed s) :
    Reckoned env s₀ others base owed s.warned := by
  unfold St.warned
  split
  · exact h.note [.error "Failed reply has data."] rfl rfl rfl rfl rfl rfl rfl
  · exact h

theorem Reckoned.moved (h : Reckoned env s₀ others base owed s) (i : Nat) :
    Reckoned env s₀ others base owed (s.moved i) :=
  h.note [] rfl rfl rfl rfl rfl rfl rfl

/-- The set-up of a backend puts a descriptor on the bill if the backend is to succeed at once. -/
theorem Reckoned.setUp (h : Reckoned env s₀ others base 0 s) {b : Backend}
    (hb : s.backends[s.query.cursor]? = some b) :
    Reckoned env s₀ others base (if b.setup s.query.request.type = true ∧
      succeedsAtOnce (env.setup s.query.cursor) = true then 1 else 0) (s.setUp b) := by
  have hhasty : hasty env s₀ s.query.cursor = (b.setup s.query.request.type &&
      succeedsAtOnce (env.setup s.query.cursor)) := by
    have hshape : (s₀.backends.map Backend.shape)[s.query.cursor]? = some b.shape := by
      rw [← h.shape, List.getElem?_map, hb]
      rfl
    rw [List.getElem?_map] at hshape
    obtain ⟨b₀, hb₀, heq⟩ := Option.map_eq_some_iff.mp hshape
    have hsetup : b₀.setup = b.setup := congrArg Prod.snd heq
    simp only [hasty, hb₀, Option.any_some, hsetup, h.type]
  obtain ⟨new, lost, hnew, hcount, htidy⟩ := h.lost
  refine ⟨h.id, h.type, ?_, .enter .setup s.query.cursor s.query.response :: new, lost, ?_, ?_, ?_⟩
  · refine (map_modify_eq Backend.shape _ ?_ s.backends s.query.cursor).trans h.shape
    exact fun _ => rfl
  · exact congrArg (_ :: ·) hnew
  · rw [List.countP_cons, ← hcount]
    simp only [Obs.hasty, hhasty, Bool.and_eq_true, Nat.add_zero]
  · refine Tidy.congr (htidy.modifyBackend_data (f := fun b' => { b' with
      history := .setup s.query.id (b.setup s.query.request.type) :: b'.history })
      fun _ => Or.inl rfl) rfl (fun _ hd => hd) rfl (Nat.le_refl _)

/-- The descriptor that was on the bill is opened. -/
theorem Reckoned.resolve (h : Reckoned env s₀ others base 1 s) :
    Sat (enterResolved env .setup) s (fun _ s' => Reckoned env s₀ others base 0 s' ∧ Frame s s')
      (fun _ _ => True) := by
  obtain ⟨new, lost, hnew, hcount, htidy⟩ := h.lost
  simp only [enterResolved, openEventfd, if_true, sat_bind, sat_get, sat_ite, modifyContext,
    sat_modify, sat_throw, implies_true, and_true]
  intro _
  have hlost : Reckoned env s₀ others base 0 { s with context := { s.context with
      next := s.context.next + 1, opened := .core s.context.next :: s.context.opened } } := by
    refine ⟨h.id, h.type, h.shape, new, .core s.context.next :: lost, hnew, ?_,
      htidy.lose rfl rfl rfl rfl⟩
    rw [← hcount]
    exact Nat.add_zero _
  have hframe : Frame s { s with context := { s.context with
      next := s.context.next + 1, opened := .core s.context.next :: s.context.opened } } :=
    ⟨rfl, rfl, rfl, rfl, rfl, rfl, rfl, rfl, Nat.le_succ _⟩
  exact (hlost.keep (keeps_setTimeout env .delayed) fun lost h' => tidies_setTimeout h' _).mono
    (fun _ s' h' => ⟨h'.1, hframe.trans h'.2⟩) (fun _ _ _ => trivial)

theorem Reckoned.armResultTimeout (h : Reckoned env s₀ others base owed s) :
    Sat (armResultTimeout env) s
      (fun _ s' => Reckoned env s₀ others base owed s' ∧ Frame s s') (fun _ _ => True) := by
  simp only [Netresolve.armResultTimeout, sat_bind, sat_get, sat_ite, sat_pure]
  exact ⟨fun _ => h.keep (keeps_setTimeout env _) fun _ h' => tidies_setTimeout h' _,
    fun _ => ⟨h, Frame.refl s⟩⟩

theorem Reckoned.quiet (h : Reckoned env s₀ others base owed s) {call : Call}
    (hquiet : call.quiet = true) :
    Sat (runCall env (fun _ => pure ()) call) s
      (fun _ s' => Reckoned env s₀ others base owed s' ∧ s'.query.state = s.query.state)
      (fun _ _ => True) := by
  have hreported := h.reported call
  simp only [runCall, observe, sat_bind, sat_get, sat_modify]
  cases call with
  | watchAdd fd =>
      exact (hreported.keep (keeps_callWatchAdd env fd) fun _ h' => tidies_callWatchAdd h' fd).mono
        (fun _ _ h' => ⟨h'.1, h'.2.state⟩) (fun _ _ he => he)
  | watchRemove k doClose =>
      exact (hreported.keep (keeps_callWatchRemove env k doClose)
        fun _ h' => tidies_callWatchRemove h' k doClose).mono
        (fun _ _ h' => ⟨h'.1, h'.2.state⟩) (fun _ _ he => he)
  | addNameInfo nodename =>
      simp only [backendAddNameInfo, modifyQuery, sat_modify]
      refine ⟨hreported.note [] ?_ ?_ ?_ rfl rfl rfl rfl, ?_⟩
      · split <;> rfl
      · split <;> rfl
      · split <;> rfl
      · split <;> rfl
  | setCanonicalName name => exact ⟨hreported.note [] rfl rfl rfl rfl rfl rfl rfl, rfl⟩
  | setDnsAnswer answer => exact ⟨hreported.note [] rfl rfl rfl rfl rfl rfl rfl, rfl⟩
  | setSecure => exact ⟨hreported.note [] rfl rfl rfl rfl rfl rfl rfl, rfl⟩
  | addPath _ | newPriv _ | finished | failed => cases hquiet

/-- A call that reports nothing leaves success to the calls that follow. -/
theorem succeedsAtOnce_cons {call : Call} (rest : List Call) (hcall : call ≠ .finished)
    (hfailed : call ≠ .failed) (hpriv : call ≠ .newPriv false) :
    succeedsAtOnce (call :: rest) = succeedsAtOnce rest := by
  cases call with
  | finished => exact absurd rfl hcall
  | failed => exact absurd rfl hfailed
  | newPriv allocated =>
      cases allocated with
      | true => rfl
      | false => exact absurd rfl hpriv
  | _ => rfl

/-- A running backend goes on with calls that succeed as those before, the state being the same. -/
theorem reckoning_next {k : Nat} {ph : Phase} {calls rest : List Call}
    (h : (reckoning env s₀ others base).run k ph calls s)
    (hcalls : succeedsAtOnce calls = succeedsAtOnce rest)
    (hstate : s'.query.state = s.query.state)
    (hkeep : ∀ owed, Reckoned env s₀ others base owed s → Reckoned env s₀ others base owed s') :
    (reckoning env s₀ others base).run k ph rest s' := by
  cases ph with
  | setup =>
      rcases h with ⟨hs, hr⟩ | ⟨hs, hr⟩
      · rw [hcalls] at hr
        exact Or.inl ⟨hstate.trans hs, hkeep _ hr⟩
      · exact Or.inr ⟨by rw [hstate]; exact hs, hkeep _ hr⟩
  | dispatch => exact ⟨by rw [hstate]; exact h.1, hkeep _ h.2⟩

/-- The same for a function, whatever is owed when it is called. -/
theorem reckoning_through {α : Type} {x : M α} {k : Nat} {ph : Phase} {calls rest : List Call}
    (h : (reckoning env s₀ others base).run k ph calls s)
    (hcalls : succeedsAtOnce calls = succeedsAtOnce rest)
    (hx : ∀ owed, Reckoned env s₀ others base owed s → Sat x s
      (fun _ s' => Reckoned env s₀ others base owed s' ∧ s'.query.state = s.query.state)
      (fun _ _ => True)) :
    Sat x s (fun _ => (reckoning env s₀ others base).run k ph rest) (fun _ _ => True) := by
  cases ph with
  | setup =>
      rcases h with ⟨hs, hr⟩ | ⟨hs, hr⟩
      · rw [hcalls] at hr
        exact (hx _ hr).mono (fun _ s' h' => Or.inl ⟨h'.2.trans hs, h'.1⟩) (fun _ _ he => he)
      · refine (hx _ hr).mono (fun _ s' h' => Or.inr ⟨?_, h'.1⟩) (fun _ _ he => he)
        rw [h'.2]
        exact hs
  | dispatch =>
      refine (hx _ h.2).mono (fun _ s' h' => ⟨?_, h'.1⟩) (fun _ _ he => he)
      rw [h'.2]
      exact h.1

/-- Nothing is owed once the state is one by which backends report, or the query has waited. -/
theorem reckoning_over {k : Nat} {ph : Phase} {calls : List Call}
    (hstate : s.query.state = .resolved ∨ s.query.state = .error)
    (h : Reckoned env s₀ others base 0 s) :
    (reckoning env s₀ others base).run k ph calls s := by
  cases ph with
  | setup => exact Or.inr ⟨hstate, h⟩
  | dispatch =>
      refine ⟨?_, h⟩
      rcases hstate with hs | hs <;> rw [hs] <;> decide

/-- A backend that is not to succeed in its setup function owes nothing. -/
theorem reckoning_unowed {k : Nat} {ph : Phase} {calls : List Call}
    (h : (reckoning env s₀ others base).run k ph calls s)
    (hcalls : s.query.state = .setup → succeedsAtOnce calls = false) :
    Reckoned env s₀ others base 0 s := by
  cases ph with
  | setup =>
      rcases h with ⟨hs, hr⟩ | ⟨-, hr⟩
      · rw [hcalls hs] at hr
        exact hr
      · exact hr
  | dispatch => exact h.2

theorem reckoning_settled {k : Nat} {ph : Phase} (h : (reckoning env s₀ others base).run k ph [] s) :
    Reckoned env s₀ others base 0 s :=
  reckoning_unowed h fun _ => rfl

/-- Only a dispatch function runs while the query waits. -/
theorem reckoning_waiting {k : Nat} {ph : Phase} {calls : List Call}
    (h : (reckoning env s₀ others base).run k ph calls s) (hw : s.query.state = .waiting) :
    ph = .dispatch ∧ Reckoned env s₀ others base 0 s := by
  cases ph with
  | setup =>
      rcases h with ⟨hs, -⟩ | ⟨hs | hs, -⟩ <;> rw [hw] at hs <;> cases hs
  | dispatch => exact ⟨rfl, h.2⟩

theorem called_state (s : St) : s.called.query.state = s.query.state := by
  unfold St.called
  split <;> rfl

/-- **One step loses a descriptor for each backend that succeeds at once, and no other.** -/
theorem reckoning_sound (env : Env) (s₀ : St) (others : List Watch) (base : List Fd) :
    Sound env (fun _ _ => True) (reckoning env s₀ others base) where
  fuel _ := trivial
  setUp k s h := by
    obtain ⟨hlt, hstate, hr⟩ := h
    have hb : s.backends[s.query.cursor]? = some s.backends[s.query.cursor] :=
      List.getElem?_eq_getElem hlt
    have hset := hr.setUp hb
    refine ⟨hstate, _, hb, fun hpresent => Or.inl ⟨rfl, ?_⟩, fun habsent => ?_⟩
    · simpa only [hpresent, true_and] using hset
    · simp only [habsent, Bool.false_eq_true, false_and, if_false] at hset
      exact hset
  waiting k s h hs _ := by
    have hr := (reckoning_settled h).entered .waiting (by decide)
    simp only [enterWaiting, sat_bind, sat_get, sat_ite, sat_pure]
    refine ⟨fun _ => ?_, fun _ => ⟨by simp [St.entered], hr⟩⟩
    refine (hr.keep (keeps_setTimeout env _) fun _ h' => tidies_setTimeout h' _).mono
      (fun _ s' h' => ⟨?_, h'.1⟩) (fun _ _ he => he)
    rw [h'.2.state]
    exact QueryState.noConfusion
  impatient k s h _ _ := reckoning_settled h
  finished k ph rest s h := by
    refine ⟨fun hs => ?_, fun hs => ?_⟩
    · have hr := reckoning_unowed h fun hsetup => by rw [hs] at hsetup; cases hsetup
      exact reckoning_over (Or.inl hs) (hr.reported .finished)
    · by_cases hsetup : s.query.state = .setup
      · -- only the setup function runs in this state, and the descriptor is on the bill
        cases ph with
        | setup =>
            rcases h with ⟨-, hr⟩ | ⟨hstate, -⟩
            · rw [hsetup]
              have hentered := (hr.reported .finished).entered .resolved (by decide)
              refine Sat.mono (Reckoned.resolve hentered) (fun _ s' h' => ?_) (fun _ _ he => he)
              exact reckoning_over (Or.inl h'.2.state) h'.1
            · rw [hsetup] at hstate
              rcases hstate with hstate | hstate <;> cases hstate
        | dispatch => exact absurd hsetup h.1
      · have hr := reckoning_unowed h fun hyes => absurd hyes hsetup
        simp only [enterResolved, if_neg hsetup, sat_pure]
        exact reckoning_over (Or.inl rfl) ((hr.reported .finished).entered _ (by decide))
  failed k ph rest s h := by
    have hr := reckoning_unowed h fun _ => rfl
    exact reckoning_over (Or.inr (toError_state _)) (hr.reported .failed).toError
  alloc k ph rest s allocated h := by
    cases allocated with
    | true =>
        have hrun : (reckoning env s₀ others base).run k ph rest (s.reported (.newPriv true)) :=
          reckoning_next h rfl rfl fun _ hr => hr.reported _
        refine reckoning_through hrun rfl fun _ hr => ?_
        exact (hr.keep (keeps_allocPriv true) fun _ h' => tidies_allocPriv h' true).mono
          (fun _ s' h' => ⟨h'.1, h'.2.state⟩) (fun _ _ he => he)
    | false =>
        have hr := reckoning_unowed h fun _ => rfl
        refine ((hr.reported (.newPriv false)).keep (keeps_allocPriv false)
          fun _ h' => tidies_allocPriv h' false).mono (fun _ s' h' => ?_) (fun _ _ he => he)
        exact reckoning_over (Or.inr (toError_state _)) h'.1.toError
  quiet k ph rest s call hquiet h := by
    have hcons : succeedsAtOnce (call :: rest) = succeedsAtOnce rest :=
      succeedsAtOnce_cons rest (by rintro rfl; cases hquiet) (by rintro rfl; cases hquiet)
        (by rintro rfl; cases hquiet)
    exact reckoning_through h hcons fun _ hr => hr.quiet hquiet
  addPath k ph rest s a h :=
    ⟨reckoning_next h rfl rfl fun _ hr => hr.reported _, fun _ => trivial⟩
  store k ph rest s path h _ :=
    ⟨reckoning_next h rfl rfl fun _ hr => hr.stored path, trivial⟩
  more k ph rest s h _ hw _ := by
    obtain ⟨rfl, hr⟩ := reckoning_waiting h hw
    refine ((hr.entered .waitingMore (by decide)).armResultTimeout).mono
      (fun _ s' h' => ⟨⟨?_, h'.1⟩, trivial⟩) (fun _ _ he => he)
    rw [h'.2.state]
    exact QueryState.noConfusion
  zero k ph rest s h _ hw _ := by
    obtain ⟨rfl, hr⟩ := reckoning_waiting h hw
    refine ⟨hr.entered _ (by decide), fun s' h' => ?_⟩
    refine h'.2.armResultTimeout.mono (fun _ s'' h'' => ⟨⟨?_, h''.1⟩, trivial⟩) (fun _ _ he => he)
    rw [h''.2.state]
    exact h'.1
  done k s h := by
    refine ⟨fun hs => ⟨by rw [hs]; decide, h⟩, fun _ => ?_⟩
    have hentered := h.entered .done (by decide)
    have hclean := hentered.keep (keeps_cleanupQuery env) fun _ h' => tidies_cleanupQuery h'
    simp only [leaveDone, sat_bind]
    refine hclean.mono (fun _ s₁ h₁ => ?_) (fun _ _ he => he)
    have hstate : s₁.query.state ≠ .setup := by
      rw [h₁.2.state]
      exact QueryState.noConfusion
    simp only [sat_get, sat_ite, sat_bind, modifyQuery, sat_modify, sat_pure, sat_throw,
      implies_true, and_true]
    intro _
    have hmoved := h₁.1.moved s₁.afterDone.1
    cases hnext : s₁.afterDone.2 with
    | true =>
        unfold St.afterDone at hnext
        rw [hnext]
        exact ⟨(afterDone_found hnext).2.1, hstate, hmoved⟩
    | false =>
        unfold St.afterDone at hnext
        rw [hnext]
        exact ⟨by rw [called_state]; exact hstate, hmoved.called⟩
  leave k s h := by
    refine ⟨fun hs => ⟨by rw [hs]; decide, h⟩, fun _ => ?_⟩
    have hwarned := (h.entered .failed (by decide)).warned
    have hclean := hwarned.keep (keeps_cleanupQuery env) fun _ h' => tidies_cleanupQuery h'
    simp only [leaveFailed, sat_bind, sat_get]
    rw [sat_warn]
    refine hclean.mono (fun _ s₁ h₁ => ?_) (fun _ _ he => he)
    have hstate : s₁.query.state ≠ .setup := by
      rw [h₁.2.state]
      rcases warned_cases (s.entered .failed) with hw | hw <;> rw [hw] <;>
        exact QueryState.noConfusion
    simp only [nextBackend, currentBackend, modifyQuery, sat_bind, sat_modify, sat_get, sat_ite,
      sat_pure, sat_throw, implies_true, and_true]
    intro _
    have hmoved := h₁.1.moved (s₁.query.cursor + 1)
    cases hb : s₁.backends[s₁.query.cursor + 1]? with
    | some b => exact ⟨(List.getElem?_eq_some_iff.mp hb).1, hstate, hmoved⟩
    | none => exact ⟨by rw [called_state]; exact hstate, hmoved.called⟩
  called k s h := ⟨by rw [called_state]; exact h.1, h.2.called⟩
  settled k s h hs _ := ⟨hs, reckoning_settled h⟩
  woken k s h _ _ := ⟨h.1, h.2⟩
  succeeded k s h _ := h.2
  broken k ph s h _ := by
    rcases h with h | h
    · exact reckoning_settled h
    · exact h.2

/-! ### One step of a query -/

theorem Reckoned.refl (h : Tidy s₀ others base [] s₀) : Reckoned env s₀ others base 0 s₀ :=
  ⟨rfl, rfl, rfl, [], [], rfl, rfl, h⟩

theorem Reckoned.expire (h : Reckoned env s₀ others base 0 s) (t : Timer) :
    Sat (expire env t) s (fun _ => Reckoned env s₀ others base 0) (fun _ _ => True) := by
  simp only [Netresolve.expire, sat_bind, sat_get, sat_ite, sat_throw, implies_true, and_true,
    true_and]
  intro _ _
  exact (h.keep (keeps_clearTimeout env t) fun _ h' => tidies_clearTimeout h' t).mono
    (fun _ _ h' => h'.1) (fun _ _ he => he)

theorem start_reckoned (env : Env) (h : Tidy s₀ others base [] s₀) (hcursor : s₀.query.cursor = 0)
    (hstate : s₀.query.state ≠ .setup) :
    Sat (queryStart env) s₀ (fun _ => (reckoning env s₀ others base).rest 0) (fun _ _ => True) := by
  by_cases hb : s₀.backends = []
  · simp only [queryStart, sat_bind, sat_get, hb, List.isEmpty_nil, if_true, sat_throw]
  · refine (reckoning_sound env s₀ others base).queryStart ⟨?_, hstate, .refl h⟩
    rw [hcursor]
    exact List.length_pos_iff.mpr hb

theorem dispatch_reckoned (env : Env) (h : Tidy s₀ others base [] s₀) {w : Nat}
    (hw : ∃ x ∈ s₀.query.watches, x.id = w) (hstate : s₀.query.state ≠ .setup) :
    Sat (queryDispatch env w) s₀ (fun _ => (reckoning env s₀ others base).rest 0)
      (fun _ _ => True) := by
  obtain ⟨x, hx, -, -⟩ := find_watch hw
  refine (reckoning_sound env s₀ others base).queryDispatch hx ?_
  cases x.callback with
  | backend i => exact ⟨hstate, .refl h⟩
  | timeout t => exact ⟨(Reckoned.refl h).expire t, fun s' h' _ => h'.2⟩

theorem free_reckoned (env : Env) (h : Tidy s₀ others base [] s₀) :
    Sat (queryFree env) s₀
      (fun _ s' => Reckoned env s₀ others base 0 s' ∧ s'.query.watches = []) (fun _ _ => True) := by
  have hstart : Reckoned env s₀ others base 0 s₀ := .refl h
  have hclean := hstart.keep (keeps_cleanupQuery env) fun _ h' => tidies_cleanupQuery h'
  simp only [queryFree, sat_bind]
  refine hclean.mono (fun _ s₁ h₁ => ?_) (fun _ _ he => he)
  show Sat (get >>= fun t => setState env (nesting t) .none) s₁ _ _
  rw [sat_bind, sat_get]
  show Sat (setState env ((3 * s₁.backends.length + 2) + 1) .none) s₁ _ _
  simp only [setState, sat_bind, sat_get, sat_ite, sat_pure, modifyQuery, observe, sat_modify,
    enterState, enterNone]
  have hnone : Reckoned env s₀ others base 0
      { s₁.entered .none with query := { (s₁.entered .none).query with response := {} } } :=
    (h₁.1.entered .none (by decide)).note [] rfl rfl rfl rfl rfl rfl rfl
  refine ⟨fun _ => ⟨fun hgone => ⟨h₁.1, hgone.2⟩, fun _ => trivial⟩, fun _ => ?_⟩
  exact ⟨fun hgone => ⟨hnone, hgone.2⟩, fun _ => trivial⟩

end

/-! ### All queries of a context -/

/-- The number of the descriptor was handed out in this step. -/
def Moment.Hands (m : Moment) (fd : Fd) : Prop :=
  ∃ n, fd = .core n ∧ m.pool.context.next ≤ n ∧ n < m.after.context.next

/--
The descriptors that are open belong to the queries, to the time before the run, or were lost in a
step that was not patient.
-/
structure Accounts (pool₀ : Pool) (ms : List Moment) (pool : Pool) (leaked : List (Moment × Fd)) :
    Prop where
  opened : pool.context.opened.Perm (pool.queries.flatMap (·.query.cores) ++
    (leaked.map Prod.snd ++ pool₀.context.opened))
  core : ∀ fd ∈ pool.context.opened, ∃ n, fd = .core n ∧ n < pool.context.next
  fresh : ∀ p ∈ pool.queries, ∀ x ∈ p.query.watches, x.id < pool.context.next
  apart : ∀ d, some d ∈ pool.backends.map (·.data) → ∀ w ∈ d.watches, w < pool.context.next ∧
    ∀ p ∈ pool.queries, ∀ x ∈ p.query.watches, x.id = w → x.fd.isCore = false
  state : ∀ p ∈ pool.queries, p.query.state ≠ .setup
  next : pool₀.context.next ≤ pool.context.next
  past : ∀ m ∈ ms, pool₀.context.next ≤ m.pool.context.next ∧
    m.after.context.next ≤ pool.context.next
  owner : ∀ p ∈ pool.queries, ∀ fd ∈ p.query.cores,
    ∃ m ∈ ms, m.party.query.id = p.query.id ∧ m.Hands fd
  opens : ∀ m ∈ ms, ∀ fd, m.Opens fd → m.Hands fd
  lost : ∀ e ∈ leaked, e.1 ∈ ms ∧ e.1.Opens e.2 ∧ ¬ e.1.Patient
  found : ∀ m ∈ ms, ¬ m.Patient → ∃ fd, (m, fd) ∈ leaked
  same : ∀ m ∈ ms, ∀ m' ∈ ms, ∀ fd, m.Hands fd → m'.Hands fd → m = m'

/-- The watches of several queries. -/
def watchesOf (ps : List Party) : List Watch := ps.flatMap (·.query.watches)

/-- Their descriptors of the core. -/
def coresOf (ps : List Party) : List Fd := ps.flatMap (·.query.cores)

section

variable {pool₀ pool : Pool} {ms : List Moment} {leaked : List (Moment × Fd)} {action : Action}
  {before after : List Party} {p : Party}

theorem coresOf_middle (before after : List Party) (p : Party) :
    (coresOf (before ++ p :: after)).Perm (p.query.cores ++ coresOf (before ++ after)) := by
  unfold coresOf
  refine (List.perm_middle.flatMap_right _).trans ?_
  rw [List.flatMap_cons]

/-- What holds of a query before its step. -/
structure Stands (pool : Pool) (ms : List Moment) (before after : List Party) (p : Party)
    (base : List Fd) : Prop where
  tidy : Tidy (pool.view p) (watchesOf (before ++ after)) base [] (pool.view p)
  state : p.query.state ≠ .setup
  owner : ∀ fd ∈ p.query.cores, ∃ m ∈ ms, m.party.query.id = p.query.id ∧ m.Hands fd
  others : ∀ o ∈ before ++ after, o ∈ pool.queries

theorem mem_queries {pool : Pool} {before after : List Party} {p : Party}
    (hp : pool.queries = before ++ p :: after) :
    p ∈ pool.queries ∧ ∀ o ∈ before ++ after, o ∈ pool.queries := by
  rw [hp]
  refine ⟨List.mem_append_right _ List.mem_cons_self, fun o ho => ?_⟩
  exact List.mem_append.mpr ((List.mem_append.mp ho).imp id (List.mem_cons_of_mem _))

theorem Accounts.stands (h : Accounts pool₀ ms pool leaked) (hturn : Turn pool action before p after) :
    Stands pool ms before after p
      (coresOf (before ++ after) ++ (leaked.map Prod.snd ++ pool₀.context.opened)) := by
  -- a new query has no watches, and any other one is in the list
  have hall : (coresOf (before ++ p :: after)).Perm (coresOf pool.queries) ∧
      (∀ o ∈ before ++ after, o ∈ pool.queries) ∧
      (∀ x ∈ p.query.watches, p ∈ pool.queries) ∧ p.query.state ≠ .setup := by
    cases hturn with
    | start hnew htrace hid =>
        have hnone : p.query.cores = [] := by
          unfold Query.cores
          rw [hnew.watches]
          rfl
        refine ⟨?_, fun o ho => by simpa using ho, fun x hx => ?_, ?_⟩
        · refine (coresOf_middle _ _ _).trans ?_
          rw [hnone, List.append_nil, List.nil_append]
        · rw [hnew.watches] at hx
          cases hx
        · rw [hnew.state]
          decide
    | dispatch hp hw =>
        obtain ⟨hmem, hothers⟩ := mem_queries hp
        exact ⟨by rw [hp], hothers, fun _ _ => hmem, h.state p hmem⟩
    | free hp =>
        obtain ⟨hmem, hothers⟩ := mem_queries hp
        exact ⟨by rw [hp], hothers, fun _ _ => hmem, h.state p hmem⟩
  obtain ⟨hcores, hothers, hin, hstate⟩ := hall
  have hopened : pool.context.opened.Perm (p.query.cores ++ (coresOf (before ++ after) ++
      (leaked.map Prod.snd ++ pool₀.context.opened))) := by
    refine h.opened.trans ?_
    refine ((hcores.symm.trans (coresOf_middle _ _ _)).append_right _).trans ?_
    rw [List.append_assoc]
  have hwatch : ∀ x ∈ p.query.watches ++ watchesOf (before ++ after),
      ∃ o ∈ pool.queries, x ∈ o.query.watches := by
    intro x hx
    rcases List.mem_append.mp hx with hx | hx
    · exact ⟨p, hin x hx, hx⟩
    · obtain ⟨o, ho, hx⟩ := List.mem_flatMap.mp hx
      exact ⟨o, hothers o ho, hx⟩
  refine ⟨⟨hopened, fun fd hfd => ?_, fun x hx => ?_, fun d hd w hw => ?_, fun fd hfd => Or.inl hfd,
    fun fd hfd => (by cases hfd), Nat.le_refl _⟩, hstate, fun fd hfd => ?_, hothers⟩
  · obtain ⟨n, rfl, -⟩ := h.core fd (hopened.mem_iff.mpr (List.mem_append_right _ hfd))
    rfl
  · obtain ⟨o, ho, hx⟩ := hwatch x hx
    exact h.fresh o ho x hx
  · refine ⟨(h.apart d hd w hw).1, fun x hx => ?_⟩
    obtain ⟨o, ho, hx⟩ := hwatch x hx
    exact (h.apart d hd w hw).2 o ho x hx
  · obtain ⟨fd', hfd', heq⟩ := List.mem_map.mp (List.mem_filter.mp hfd).1
    exact h.owner p (hin fd' hfd') fd hfd

/-- What a step that returns has come to. -/
structure Came (env : Env) (action : Action) (s₀ : St) (others : List Watch) (base : List Fd)
    (s : St) : Prop where
  reckoned : Reckoned env s₀ others base 0 s
  state : action ≠ .free → s.query.state ≠ .setup
  gone : action = .free → s.query.watches = []

theorem Stands.came {env : Env} {base : List Fd} {s : St} (h : Stands pool ms before after p base)
    (hturn : Turn pool action before p after) (hok : action.run env (pool.view p) = .ok () s) :
    Came env action (pool.view p) (watchesOf (before ++ after)) base s := by
  cases hturn with
  | start hnew htrace hid =>
      have hrest := (start_reckoned env h.tidy hnew.cursor h.state).of_ok hok
      exact ⟨hrest.2, fun _ => hrest.1, fun hfree => by cases hfree⟩
  | dispatch hp hw =>
      have hrest := (dispatch_reckoned env h.tidy hw h.state).of_ok hok
      exact ⟨hrest.2, fun _ => hrest.1, fun hfree => by cases hfree⟩
  | free hp =>
      have hgone := (free_reckoned env h.tidy).of_ok hok
      exact ⟨hgone.1, fun hnot => absurd rfl hnot, fun _ => hgone.2⟩

/-- What is left of the query has its descriptors. -/
theorem Came.leaves {env : Env} {base : List Fd} {s s₀ : St} {others : List Watch}
    (h : Came env action s₀ others base s) :
    (∀ o ∈ action.leaves s.party, o = s.party ∧ action ≠ .free) ∧
      coresOf (action.leaves s.party) = s.query.cores := by
  cases action with
  | free =>
      refine ⟨fun o ho => (by cases ho), ?_⟩
      unfold Query.cores
      rw [h.gone rfl]
      rfl
  | start =>
      exact ⟨fun o ho => ⟨List.mem_singleton.mp ho, fun hf => by cases hf⟩, List.append_nil _⟩
  | dispatch w =>
      exact ⟨fun o ho => ⟨List.mem_singleton.mp ho, fun hf => by cases hf⟩, List.append_nil _⟩

/-- A step is patient if no set-up in its trace is of a backend that succeeds at once. -/
theorem patient_iff {env : Env} {s : St} {new : List Obs} (pool' : Pool)
    (hok : action.run env (pool.view p) = .ok () s) (htrace : s.trace = new ++ (pool.view p).trace) :
    Moment.Patient ⟨pool, env, action, p, pool'⟩ ↔
      new.countP (Obs.hasty env (pool.view p)) = 0 := by
  rw [List.countP_eq_zero]
  constructor
  · intro h o ho hhasty
    unfold Obs.hasty at hhasty
    split at hhasty
    · next j response =>
        have hfalse := h j ((setsUp_iff hok htrace j).mpr ⟨response, ho⟩)
        rw [hfalse] at hhasty
        cases hhasty
    · cases hhasty
  · intro h j hsets
    obtain ⟨response, hmem⟩ := (setsUp_iff hok htrace j).mp hsets
    exact Bool.eq_false_iff.mpr (h _ hmem)

/-- The queries after the step, with what the others had before. -/
theorem coresOf_leaves (before after ps : List Party) :
    (coresOf (before ++ ps ++ after)).Perm (coresOf ps ++ coresOf (before ++ after)) := by
  unfold coresOf
  rw [List.append_assoc, List.flatMap_append, List.flatMap_append, List.flatMap_append]
  exact List.perm_append_comm_assoc _ _ _

theorem distinct_snoc {m : Moment}
    (h : ∀ m₁ ∈ ms, ∀ m₂ ∈ ms, ∀ fd, m₁.Hands fd → m₂.Hands fd → m₁ = m₂)
    (hm : ∀ m' ∈ ms, ∀ fd, m'.Hands fd → ¬ m.Hands fd) :
    ∀ m₁ ∈ ms ++ [m], ∀ m₂ ∈ ms ++ [m], ∀ fd, m₁.Hands fd → m₂.Hands fd → m₁ = m₂ := by
  intro m₁ hm₁ m₂ hm₂ fd h₁ h₂
  simp only [List.mem_append, List.mem_singleton] at hm₁ hm₂
  rcases hm₁ with hold₁ | rfl
  · rcases hm₂ with hold₂ | rfl
    · exact h m₁ hold₁ m₂ hold₂ fd h₁ h₂
    · exact absurd h₂ (hm m₁ hold₁ fd h₁)
  · rcases hm₂ with hold₂ | rfl
    · exact absurd h₁ (hm m₂ hold₂ fd h₂)
    · rfl

theorem Accounts.step {env : Env} {s : St} {pool' : Pool} (h : Accounts pool₀ ms pool leaked)
    (hturn : Turn pool action before p after) (hok : action.run env (pool.view p) = .ok () s)
    (hpool : pool' = ⟨before ++ action.leaves s.party ++ after, s.backends, s.context⟩) :
    ∃ leaked', Accounts pool₀ (ms ++ [⟨pool, env, action, p, pool'⟩]) pool' leaked' := by
  have hstands := h.stands hturn
  have hcame := hstands.came hturn hok
  obtain ⟨hleaves, hcores⟩ := hcame.leaves
  obtain ⟨hid, -, -, new, lost, htrace, hcount, htidy⟩ := hcame.reckoned
  have hpatient := patient_iff pool' hok htrace
  rw [← hcount, Nat.add_zero, List.length_eq_zero_iff] at hpatient
  have hcontext : pool'.context = s.context := by rw [hpool]
  have hnext : pool.context.next ≤ pool'.context.next := by
    rw [hcontext]
    exact htidy.next
  generalize hm : (⟨pool, env, action, p, pool'⟩ : Moment) = m at hpatient ⊢
  -- a query is another one, or what is left of this one
  have hin : ∀ o ∈ pool'.queries, o ∈ before ++ after ∨ o = s.party ∧ action ≠ .free := by
    intro o ho
    rw [hpool] at ho
    simp only [List.mem_append] at ho ⊢
    rcases ho with (ho | ho) | ho
    · exact Or.inl (Or.inl ho)
    · exact Or.inr (hleaves o ho)
    · exact Or.inl (Or.inr ho)
  have hwatch : ∀ o ∈ pool'.queries, ∀ x ∈ o.query.watches,
      x ∈ s.query.watches ++ watchesOf (before ++ after) := by
    intro o ho x hx
    rcases hin o ho with ho | ⟨rfl, -⟩
    · exact List.mem_append_right _ (List.mem_flatMap.mpr ⟨o, ho, hx⟩)
    · exact List.mem_append_left _ hx
  have hhands : ∀ fd, Young (pool.view p) s fd → m.Hands fd := by
    rintro fd ⟨n, rfl, hle, hlt⟩
    subst hm
    refine ⟨n, rfl, hle, ?_⟩
    show n < pool'.context.next
    rw [hcontext]
    exact hlt
  have hwhence : ∀ fd ∈ pool'.context.opened, fd ∈ pool.context.opened ∨ m.Hands fd := by
    intro fd hfd
    rw [hcontext] at hfd
    exact (htidy.whence hstands.tidy hfd).imp id (hhands fd)
  have hopens : ∀ fd ∈ lost, m.Opens fd := by
    intro fd hfd
    obtain ⟨n, rfl, hle, -⟩ := htidy.lost fd hfd
    subst hm
    refine ⟨?_, fun hmem => ?_⟩
    · show _ ∈ pool'.context.opened
      rw [hcontext]
      exact htidy.opened.mem_iff.mpr (List.mem_append_right _ (List.mem_append_left _ hfd))
    · obtain ⟨k, hk, hlt⟩ := h.core _ hmem
      obtain rfl := Fd.core.inj hk
      exact absurd hlt (Nat.not_lt.mpr hle)
  have hmms : ∀ m' ∈ ms ++ [m], m' ∈ ms ∨ m' = m := fun m' hm' => by simpa using hm'
  refine ⟨lost.map (m, ·) ++ leaked, ?_, fun fd hfd => ?_, fun o ho x hx => ?_,
    fun d hd w hw => ?_, fun o ho => ?_, h.next.trans hnext, fun m' hm' => ?_, fun o ho fd hfd => ?_,
    fun m' hm' fd hfd => ?_, fun e he => ?_, fun m' hm' hnot => ?_, ?_⟩
  · rw [hcontext]
    refine htidy.opened.trans ?_
    rw [hpool]
    refine List.Perm.trans ?_ ((coresOf_leaves before after (action.leaves s.party)).symm.append_right _)
    rw [hcores, List.append_assoc]
    refine List.Perm.append_left _ ?_
    have hlost : (lost.map (m, ·) ++ leaked).map Prod.snd = lost ++ leaked.map Prod.snd := by
      rw [List.map_append, List.map_map]
      exact congrArg (· ++ _) (List.map_id lost)
    rw [hlost, List.append_assoc]
    exact List.perm_append_comm_assoc _ _ _
  · rcases hwhence fd hfd with hold | ⟨n, rfl, -, hlt⟩
    · obtain ⟨n, rfl, hlt⟩ := h.core fd hold
      exact ⟨n, rfl, Nat.lt_of_lt_of_le hlt hnext⟩
    · subst hm
      exact ⟨n, rfl, hlt⟩
  · rw [hcontext]
    exact htidy.fresh x (hwatch o ho x hx)
  · rw [hpool] at hd
    rw [hcontext]
    exact ⟨(htidy.apart d hd w hw).1, fun o ho x hx => (htidy.apart d hd w hw).2 x (hwatch o ho x hx)⟩
  · rcases hin o ho with ho | ⟨rfl, hnot⟩
    · exact h.state o (hstands.others o ho)
    · exact hcame.state hnot
  · rcases hmms m' hm' with hm' | rfl
    · exact ⟨(h.past m' hm').1, (h.past m' hm').2.trans hnext⟩
    · subst hm
      exact ⟨h.next, Nat.le_refl _⟩
  · rcases hin o ho with ho | ⟨rfl, -⟩
    · obtain ⟨m', hm', howner, hhand⟩ := h.owner o (hstands.others o ho) fd hfd
      exact ⟨m', List.mem_append_left _ hm', howner, hhand⟩
    · rcases htidy.young fd hfd with hold | hyoung
      · obtain ⟨m', hm', howner, hhand⟩ := hstands.owner fd hold
        exact ⟨m', List.mem_append_left _ hm', howner.trans hid.symm, hhand⟩
      · refine ⟨m, List.mem_append_right _ List.mem_cons_self, ?_, hhands fd hyoung⟩
        subst hm
        exact hid.symm
  · rcases hmms m' hm' with hm' | rfl
    · exact h.opens m' hm' fd hfd
    · subst hm
      exact (hwhence fd hfd.1).resolve_left hfd.2
  · rcases List.mem_append.mp he with he | he
    · obtain ⟨fd, hfd, rfl⟩ := List.mem_map.mp he
      refine ⟨List.mem_append_right _ List.mem_cons_self, hopens fd hfd, fun hyes => ?_⟩
      rw [hpatient.mp hyes] at hfd
      cases hfd
    · obtain ⟨hmem, hrest⟩ := h.lost e he
      exact ⟨List.mem_append_left _ hmem, hrest⟩
  · rcases hmms m' hm' with hm' | rfl
    · obtain ⟨fd, hfd⟩ := h.found m' hm' hnot
      exact ⟨fd, List.mem_append_right _ hfd⟩
    · obtain ⟨fd, hfd⟩ := List.exists_mem_of_ne_nil lost (mt hpatient.mpr hnot)
      exact ⟨fd, List.mem_append_left _ (List.mem_map_of_mem hfd)⟩
  · refine distinct_snoc h.same fun m' hm' fd hhands' hhands'' => ?_
    -- the numbers of a new step are not those of an old one
    obtain ⟨n, rfl, -, hlt⟩ := hhands'
    obtain ⟨n', heq, hle, -⟩ := hhands''
    obtain rfl := Fd.core.inj heq
    subst hm
    have hpast := (h.past m' hm').2
    change pool.context.next ≤ n at hle
    omega

theorem PoolHistory.accounts (hunused : pool₀.Unused)
    (hopened : ∀ fd ∈ pool₀.context.opened, ∃ n, fd = .core n ∧ n < pool₀.context.next)
    (h : PoolHistory pool₀ ms pool) : ∃ leaked, Accounts pool₀ ms pool leaked := by
  induction h with
  | init =>
      refine ⟨[], ?_, hopened, ?_, fun d hd => ?_, ?_, Nat.le_refl _, ?_, ?_, ?_, ?_, ?_, ?_⟩
      · rw [hunused.queries]
        exact List.Perm.refl _
      · simp [hunused.queries]
      · obtain ⟨b, hb, hdata⟩ := List.mem_map.mp hd
        rw [(hunused.backends b hb).1] at hdata
        cases hdata
      · simp [hunused.queries]
      · simp
      · simp [hunused.queries]
      · simp
      · simp
      · simp
      · simp
  | step h hturn hok hpool ih =>
      obtain ⟨leaked, hleaked⟩ := ih
      exact hleaked.step hturn hok hpool

theorem Accounts.closed_iff (h : Accounts pool₀ ms pool leaked)
    (hopened : ∀ fd ∈ pool₀.context.opened, ∃ n, fd = .core n ∧ n < pool₀.context.next) {k : Nat}
    (hgone : ∀ p ∈ pool.queries, p.query.id ≠ k) :
    (∀ m ∈ ms, m.party.query.id = k → ∀ fd, m.Opens fd → fd ∉ pool.context.opened) ↔
      ∀ m ∈ ms, m.party.query.id = k → m.Patient := by
  constructor
  · intro hclosed m hm hid
    by_contra hnot
    obtain ⟨fd, hfd⟩ := h.found m hm hnot
    refine hclosed m hm hid fd (h.lost _ hfd).2.1 (h.opened.mem_iff.mpr ?_)
    exact List.mem_append_right _ (List.mem_append_left _ (List.mem_map_of_mem (f := Prod.snd) hfd))
  · intro hpatient m hm hid fd hopens hmem
    have hhands := h.opens m hm fd hopens
    rcases List.mem_append.mp (h.opened.mem_iff.mp hmem) with hlive | hrest
    · obtain ⟨p, hp, hfd⟩ := List.mem_flatMap.mp hlive
      obtain ⟨m', hm', howner, hhands'⟩ := h.owner p hp fd hfd
      obtain rfl := h.same m hm m' hm' fd hhands hhands'
      exact hgone p hp (howner.symm.trans hid)
    · rcases List.mem_append.mp hrest with hlost | hbase
      · obtain ⟨⟨m', fd'⟩, he, rfl⟩ := List.mem_map.mp hlost
        obtain ⟨hm', hopens', hnot⟩ := h.lost _ he
        obtain rfl := h.same m hm m' hm' fd' hhands (h.opens m' hm' fd' hopens')
        exact hnot (hpatient m hm hid)
      · obtain ⟨n, rfl, hlt⟩ := hopened fd hbase
        obtain ⟨n', heq, hle, -⟩ := hhands
        obtain rfl := Fd.core.inj heq
        have hpast := (h.past m hm).1
        omega

theorem Accounts.unchanged_iff (h : Accounts pool₀ ms pool leaked) (hover : pool.queries = []) :
    pool.context.opened.Perm pool₀.context.opened ↔ ∀ m ∈ ms, m.Patient := by
  have hopened := h.opened
  rw [hover, List.flatMap_nil, List.nil_append] at hopened
  constructor
  · intro hsame m hm
    by_contra hnot
    obtain ⟨fd, hfd⟩ := h.found m hm hnot
    have hlength := (hsame.symm.trans hopened).length_eq
    rw [List.length_append, List.length_map] at hlength
    have hpos := List.length_pos_of_mem hfd
    omega
  · intro hpatient
    have hnone : leaked = [] := by
      rw [List.eq_nil_iff_forall_not_mem]
      intro e he
      obtain ⟨hm, -, hnot⟩ := h.lost e he
      exact hnot (hpatient _ hm)
    rw [hnone] at hopened
    exact hopened

/--
**A query leaves no descriptor open exactly if none of the backends it sets up succeeds in its
setup function at once**, whatever the backends do and whatever other queries there are.  So a
context on which all queries were freed has the descriptors open it had at first exactly if no
step set up such a backend.
-/
theorem descriptors_closed_iff {pool₀ pool : Pool} {ms : List Moment} (hunused : pool₀.Unused)
    (hopened : ∀ fd ∈ pool₀.context.opened, ∃ n, fd = .core n ∧ n < pool₀.context.next)
    (h : PoolHistory pool₀ ms pool) :
    (∀ k, (∀ p ∈ pool.queries, p.query.id ≠ k) →
      ((∀ m ∈ ms, m.party.query.id = k → ∀ fd, m.Opens fd → fd ∉ pool.context.opened) ↔
        ∀ m ∈ ms, m.party.query.id = k → m.Patient)) ∧
    (pool.queries = [] →
      (pool.context.opened.Perm pool₀.context.opened ↔ ∀ m ∈ ms, m.Patient)) := by
  obtain ⟨leaked, haccounts⟩ := h.accounts hunused hopened
  exact ⟨fun k hgone => haccounts.closed_iff hopened hgone, haccounts.unchanged_iff⟩

end

/-- The state in which a query on one backend is when it has been started. -/
def startedOn (env : Env) : St :=
  final (queryStart env) ((single {}).view (newParty 1 .forward))

/-- A query is started on one backend, and freed. -/
theorem start_and_free (env : Env)
    (hstart : returns (queryStart env) ((single {}).view (newParty 1 .forward)) = true)
    (hfree : returns (queryFree env) (startedOn env) = true) :
    ∃ ms pool, PoolHistory (single {}) ms pool ∧ (∀ m ∈ ms, m.env = env) ∧ pool.queries = [] ∧
      pool.context = (final (queryFree env) (startedOn env)).context := by
  have hstarted : Action.start.run env ((single {}).view (newParty 1 .forward)) =
      .ok () (startedOn env) := ok_of_returns hstart
  have hfirst : PoolHistory (single {}) _ _ := .step .init
    (.start (newParty_new 1 .forward) rfl (fun _ ho => by cases ho)) hstarted rfl
  have hturn : Turn ⟨[(startedOn env).party], (startedOn env).backends, (startedOn env).context⟩
      .free [] (startedOn env).party [] := .free rfl
  have hfreed : Action.free.run env (startedOn env) =
      .ok () (final (queryFree env) (startedOn env)) := ok_of_returns hfree
  refine ⟨_, _, .step hfirst hturn hfreed rfl, ?_, rfl, rfl⟩
  intro m hm
  simp only [List.nil_append, List.mem_append, List.mem_singleton] at hm
  rcases hm with rfl | rfl <;> rfl

/-- A query that is freed while it waits leaves nothing open. -/
theorem descriptors_closed_waiting : ∃ ms pool, PoolHistory (single {}) ms pool ∧
    pool.queries = [] ∧ pool.context.next = 3 ∧
    pool.context.opened.Perm (single {}).context.opened := by
  obtain ⟨ms, pool, hrun, henv, hover, hcontext⟩ :=
    start_and_free keeper (by decide +kernel) (by decide +kernel)
  refine ⟨ms, pool, hrun, hover, by rw [hcontext]; decide +kernel, ?_⟩
  refine ((descriptors_closed_iff (single_unused {} ⟨rfl, rfl, rfl⟩) (fun _ hfd => by cases hfd)
    hrun).2 hover).mpr fun m hm j _ => ?_
  rw [henv m hm]
  exact Bool.and_false _

/-- A backend that has its answer at once. -/
def answersAtOnce : Env := { setup := fun _ => [.finished] }

/-- Its query leaves the event descriptor open. -/
theorem event_descriptor_stays_open : ¬ ∀ ms pool, PoolHistory (single {}) ms pool →
    pool.queries = [] → pool.context.opened.Perm (single {}).context.opened := by
  intro hclaim
  obtain ⟨ms, pool, hrun, -, hover, hcontext⟩ :=
    start_and_free answersAtOnce (by decide +kernel) (by decide +kernel)
  have hperm := hclaim ms pool hrun hover
  rw [hcontext] at hperm
  have hlength := hperm.length_eq
  revert hlength
  decide +kernel

end Netresolve
