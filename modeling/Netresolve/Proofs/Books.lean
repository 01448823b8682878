/-
Backends keep the books.

A backend changes the watch list through its private data only, so each call it can
make is one lemma about `Books`.  Leaving a backend is the other direction: its
timers are cleared, its cleanup function removes what it remembers, and `Clean` is
what is left.
-/
import Netresolve.Proofs.Ledger
import Mathlib.Data.List.Perm.Basic

namespace Netresolve

open Outcome

/-- No watch, no timer and no private data: the state in which a backend is set up. -/
structure Clean (R : List Nat) (s : St) : Prop where
  watches : s.query.watches = []
  nfds : s.query.nfds = 0
  timeout : ∀ t, s.query.timeout t = none
  data : ∀ b ∈ s.backends, b.data = none
  total : s.context.nfds = R.length
  loop : s.context.loop.count = R.length
  registered : s.context.loop.registered.Perm R

theorem owned_eq_nil {s : St} (h : ∀ b ∈ s.backends, b.data = none) : s.owned = [] := by
  have hpriv : backendGetPriv s = none := by
    unfold backendGetPriv
    cases hb : s.backends[s.query.cursor]? with
    | none => rfl
    | some b => exact h b (List.mem_of_getElem? hb)
  simp [St.owned, hpriv]

theorem Clean.books {R : List Nat} {s : St} (h : Clean R s) : Books R s := by
  refine ⟨⟨?_, ?_, ?_, ?_, ?_, ?_, ?_⟩, ?_, ?_, ?_⟩
  · rw [h.nfds, h.watches]; rfl
  · rw [h.total, h.nfds]; rfl
  · rw [h.loop, h.total]
  · rw [timers_eq_nil h.timeout, owned_eq_nil h.data]
    simpa using h.registered
  · rw [h.watches, timers_eq_nil h.timeout, owned_eq_nil h.data]; rfl
  · rw [timers_eq_nil h.timeout, owned_eq_nil h.data]; exact List.nodup_nil
  · rw [timers_eq_nil h.timeout, owned_eq_nil h.data]; intro w hw; simp at hw
  · intro x hx; rw [h.watches] at hx; simp at hx
  · intro x hx; rw [h.watches] at hx; simp at hx
  · intro i b block hb hd
    rw [h.data b (List.mem_of_getElem? hb)] at hd
    simp at hd

/-- With nothing on the ledger the counters are those of the other queries. -/
theorem Ledger.clean {R : List Nat} {s : St} (h : Ledger R [] s) (ht : ∀ t, s.query.timeout t = none)
    (hd : ∀ b ∈ s.backends, b.data = none) : Clean R s := by
  have hw : s.query.watches = [] := by simpa using h.ids
  have hn : s.query.nfds = 0 := by rw [h.count, hw]; rfl
  have hc : s.context.nfds = R.length := by rw [h.total, hn]; rfl
  exact ⟨hw, hn, ht, hd, hc, by rw [h.loop, hc], by simpa using h.registered⟩

/-! ### Leaving a backend -/

/-- What clearing the timers leaves: the watches the backend remembers. -/
theorem clearTimeouts_books (env : Env) {R : List Nat} {s : St} (h : Books R s) :
    Sat (do clearTimeout env .delayed; clearTimeout env .requestTimeout
            clearTimeout env .resultTimeout) s
      (fun _ s' => Books R s' ∧ s'.backends = s.backends ∧ Frame s s' ∧
        ∀ t, s'.query.timeout t = none) OnlyAbort := by
  simp only [sat_bind]
  refine (clearTimeout_books env .delayed h).mono (fun _ s₁ h₁ => ?_) (fun _ _ he => he)
  obtain ⟨hb₁, hf₁, hn₁⟩ := h₁
  refine (clearTimeout_books env .requestTimeout hb₁).mono (fun _ s₂ h₂ => ?_) (fun _ _ he => he)
  obtain ⟨hb₂, hf₂, hn₂⟩ := h₂
  refine (clearTimeout_books env .resultTimeout hb₂).mono (fun _ s₃ h₃ => ?_) (fun _ _ he => he)
  obtain ⟨hb₃, hf₃, hn₃⟩ := h₃
  refine ⟨hb₃, ?_, (hf₁.toFrame.trans hf₂.toFrame).trans hf₃.toFrame, ?_⟩
  · rw [hf₃.backends, hf₂.backends, hf₁.backends]
  · intro t
    cases t with
    | delayed => rw [hf₃.others _ (by decide), hf₂.others _ (by decide), hn₁]
    | requestTimeout => rw [hf₃.others _ (by decide), hn₂]
    | resultTimeout => exact hn₃

/-- A cleanup function that removes the watches on the ledger empties it. -/
theorem removeAll_ledger (env : Env) {R : List Nat} (ws : List Nat) (s : St) (h : Ledger R ws s) :
    Sat (forM ws (watchRemove env · false)) s
      (fun _ s' => Ledger R [] s' ∧ s'.backends = s.backends ∧
        ∀ t, s'.query.timeout t = s.query.timeout t) OnlyAbort := by
  refine sat_forM (fun rest s' => Ledger R rest s' ∧ s'.backends = s.backends ∧
    ∀ t, s'.query.timeout t = s.query.timeout t) ?_ ws s ⟨h, rfl, fun _ => rfl⟩
  rintro w rest s' ⟨hl, hb, ht⟩
  refine (sat_watchRemove env false hl).mono (fun _ s'' hu => ?_) (fun _ _ he => he)
  refine ⟨hl.unlink hu, hu.backends.trans hb, fun t => ?_⟩
  rw [← ht t, hu.query]
  cases t <;> rfl

theorem getPriv_eq {s : St} {b : Backend} (hb : s.backends[s.query.cursor]? = some b) :
    backendGetPriv s = b.data := by
  simp [backendGetPriv, hb]

/-- Forgetting the data under the cursor leaves no data at all. -/
theorem OwnData.dropped {s : St} {bs : List Backend} (h : OwnData s)
    (hbs : bs.map (·.data) = s.backends.map (·.data)) :
    ∀ b ∈ bs.modify s.query.cursor (fun b => { b with data := none }), b.data = none := by
  intro b hb
  obtain ⟨i, hi⟩ := List.mem_iff_getElem?.mp hb
  rw [List.getElem?_modify] at hi
  cases hbi : bs[i]? with
  | none => rw [hbi] at hi; simp at hi
  | some b' =>
      rw [hbi] at hi
      by_cases hc : s.query.cursor = i
      · simp only [if_pos hc, Option.map_eq_map, Option.map_some, Option.some.injEq] at hi
        rw [← hi]
      · simp only [if_neg hc, Option.map_eq_map, Option.map_some, Option.some.injEq] at hi
        subst hi
        -- An entry elsewhere in the list had no data to begin with.
        cases hd : b'.data with
        | none => rfl
        | some block =>
            exfalso
            have hmap : (s.backends.map (·.data))[i]? = some (some block) := by
              rw [← hbs, List.getElem?_map, hbi, Option.map_some, hd]
            rw [List.getElem?_map] at hmap
            obtain ⟨b₀, hb₀, hd₀⟩ := Option.map_eq_some_iff.mp hmap
            exact hc (h i b₀ block hb₀ hd₀).1.symm

theorem backendCleanup_ledger (env : Env) {R : List Nat} {s : St} {b : Backend}
    (h : Ledger R s.owned s) (hd : OwnData s) (hb : s.backends[s.query.cursor]? = some b) :
    Sat (if b.cleanup then backendCleanup env b.data else pure ()) s
      (fun _ s' => Ledger R [] s' ∧
        s'.backends.map (·.data) = s.backends.map (·.data) ∧
        ∀ t, s'.query.timeout t = s.query.timeout t) OnlyAbort := by
  have howned : s.owned = (b.data.map (·.watches)).getD [] := by
    unfold St.owned; rw [getPriv_eq hb]
  cases hdata : b.data with
  | none =>
      have hnil : s.owned = [] := by rw [howned, hdata]; rfl
      rw [hnil] at h
      split
      · simp only [backendCleanup, sat_bind, sat_get, modifyBackend, sat_modify, sat_pure]
        exact ⟨h.congr rfl rfl rfl rfl (Nat.le_refl _),
          map_modify_eq Backend.data _ (by intro b; rfl) _ _, fun _ => trivial⟩
      · exact ⟨h, rfl, fun _ => rfl⟩
  | some block =>
      obtain ⟨-, hq, hcl⟩ := hd _ b block hb hdata
      have hws : s.owned = block.watches := by rw [howned, hdata]; rfl
      rw [hws] at h
      rw [if_pos hcl]
      simp only [backendCleanup, sat_bind, sat_get, modifyBackend, sat_modify, if_pos hq]
      refine Sat.mono (removeAll_ledger (R := R) env block.watches _ ?_) (fun _ s' h' => ?_)
        (fun _ _ he => he)
      · exact h.congr rfl rfl rfl rfl (Nat.le_refl _)
      refine ⟨h'.1, ?_, h'.2.2⟩
      rw [h'.2.1]
      exact map_modify_eq Backend.data _ (by intro b; rfl) _ _

/-- **Leaving a backend leaves no watch, no timer and no private data behind.** -/
theorem cleanupQuery_clean (env : Env) {R : List Nat} {s : St} (h : Books R s)
    (hc : s.query.cursor ≤ s.backends.length) :
    Sat (cleanupQuery env) s (fun _ s' => Clean R s' ∧ Frame s s') OnlyAbort := by
  refine Sat.mono (Sat.and (keeps_cleanupQuery env s) (T := fun _ s' => Clean R s')
    (F := OnlyAbort) ?_) (fun _ s' h' => ⟨h'.2, h'.1⟩) (fun _ _ h' => h'.2)
  have hclear := clearTimeouts_books env h
  simp only [sat_bind] at hclear
  simp only [cleanupQuery, currentBackend, sat_bind, sat_get, if_pos hc, sat_pure]
  refine hclear.mono (fun _ s₁ h₁ => ?_) (fun _ _ he => he)
  refine h₁.mono (fun _ s₂ h₂ => ?_) (fun _ _ he => he)
  refine h₂.mono (fun _ s₃ h₃ => ?_) (fun _ _ he => he)
  obtain ⟨hb, hbs, hf, ht⟩ := h₃
  have hl : Ledger R s₃.owned s₃ := by
    have := hb.ledger
    rwa [timers_eq_nil ht, List.nil_append] at this
  cases hcur : s.backends[s.query.cursor]? with
  | none =>
      have hnone : ∀ b ∈ s₃.backends, b.data = none := by
        intro b hbm
        cases hd : b.data with
        | none => rfl
        | some block =>
            obtain ⟨i, hi⟩ := List.mem_iff_getElem?.mp hbm
            obtain ⟨hic, -, -⟩ := hb.data i b block hi hd
            rw [hic, hf.cursor, hbs, hcur] at hi
            simp at hi
      rw [owned_eq_nil hnone] at hl
      exact hl.clean ht hnone
  | some b =>
      have hb₃ : s₃.backends[s₃.query.cursor]? = some b := by rw [hbs, hf.cursor, hcur]
      have hkeep := keeps_backendCleanup env b.data
      simp only [sat_bind, modifyBackend, modifyQuery, sat_modify]
      refine (Sat.and (Stays.ite hkeep (Stays.pure ()) s₃)
        (backendCleanup_ledger env hl hb.data hb₃)).mono (fun _ s₄ h₄ => ?_) (fun _ _ he => he.2)
      obtain ⟨hf₄, hl₄, hd₄, ht₄⟩ := h₄
      refine Ledger.clean (hl₄.congr rfl rfl rfl rfl (Nat.le_refl _)) ?_ ?_
      · intro t
        rw [← ht t, ← ht₄ t]
        cases t <;> rfl
      · rw [hf₄.cursor]
        exact hb.data.dropped hd₄

/-! ### The calls of a backend that concern its watches -/

/-- The running backend has private data, or has none. -/
def HasPriv (has : Bool) (s : St) : Prop := (backendGetPriv s).isSome = has

theorem ownBlock_eq {s : St} (h : OwnData s) : ownBlock s = backendGetPriv s := by
  unfold ownBlock
  cases hp : backendGetPriv s with
  | none => rfl
  | some block =>
      obtain ⟨b, hb, hd⟩ := Option.bind_eq_some_iff.mp hp
      simp [Option.filter, (h _ b block hb hd).2.1]

/-- Changing the entry under the cursor to data of the query's own. -/
theorem OwnData.modify {s s' : St} {f : Backend → Backend} (h : OwnData s)
    (hb : s'.backends = s.backends.modify s.query.cursor f)
    (hcur : s'.query.cursor = s.query.cursor) (hid : s'.query.id = s.query.id)
    (hf : ∀ b block, s.backends[s.query.cursor]? = some b → (f b).data = some block →
      block.query = s.query.id ∧ (f b).cleanup = true) : OwnData s' := by
  intro i b block hbi hd
  rw [hb, List.getElem?_modify] at hbi
  cases hbs : s.backends[i]? with
  | none => rw [hbs] at hbi; simp at hbi
  | some b' =>
      rw [hbs] at hbi
      by_cases hc : s.query.cursor = i
      · simp only [if_pos hc, Option.map_eq_map, Option.map_some, Option.some.injEq] at hbi
        subst hbi
        have hres := hf b' block (by rw [hc]; exact hbs) hd
        exact ⟨by rw [hcur, hc], by rw [hid]; exact hres.1, hres.2⟩
      · simp only [if_neg hc, Option.map_eq_map, Option.map_some, Option.some.injEq] at hbi
        subst hbi
        exact absurd (h i b' block hbs hd).1.symm hc

theorem getPriv_modify {s s' : St} {b : Backend} {f : Backend → Backend}
    (hb : s'.backends = s.backends.modify s.query.cursor f)
    (hcur : s'.query.cursor = s.query.cursor) (hget : s.backends[s.query.cursor]? = some b) :
    backendGetPriv s' = (f b).data := by
  simp [backendGetPriv, hb, hcur, hget]

/-- The backend now keeps `block`, and the ledger has exactly the watches in it. -/
theorem Books.keep {R : List Nat} {s s' : St} {b : Backend} {f : Backend → Backend}
    (h : Books R s) (block : Block) (hget : s.backends[s.query.cursor]? = some b)
    (hb : s'.backends = s.backends.modify s.query.cursor f)
    (hcur : s'.query.cursor = s.query.cursor) (hid : s'.query.id = s.query.id)
    (hdata : (f b).data = some block) (hquery : block.query = s.query.id)
    (hcl : (f b).cleanup = true) (hl : Ledger R (s'.query.timers ++ block.watches) s')
    (hk : Kinds s') (hm : Mine s') : Books R s' ∧ HasPriv true s' := by
  have hpriv : backendGetPriv s' = some block := (getPriv_modify hb hcur hget).trans hdata
  refine ⟨⟨?_, hk, hm, h.data.modify hb hcur hid ?_⟩, by simp [HasPriv, hpriv]⟩
  · simpa [St.owned, hpriv] using hl
  · intro b' block' hb' hd'
    obtain rfl := Option.some.inj (hget.symm.trans hb')
    obtain rfl := Option.some.inj (hdata.symm.trans hd')
    exact ⟨hquery, hcl⟩

theorem allocPriv_books {R : List Nat} {s : St} (h : Books R s) (hp : HasPriv false s)
    (hc : s.query.cursor < s.backends.length) (allocated : Bool) :
    Sat (allocPriv allocated) s
      (fun _ s' => (Books R s' ∧ HasPriv allocated s') ∧ Frame s s' ∧
        ∀ t, s'.query.timeout t = s.query.timeout t) OnlyAbort := by
  obtain ⟨b, hb⟩ : ∃ b, s.backends[s.query.cursor]? = some b := ⟨_, List.getElem?_eq_getElem hc⟩
  have hnone : b.data = none := by
    have : backendGetPriv s = none := by simpa [HasPriv] using hp
    rwa [getPriv_eq hb] at this
  have howned : s.owned = [] := by simp [St.owned, getPriv_eq hb, hnone]
  have hl := h.ledger
  rw [howned] at hl
  simp only [allocPriv, currentBackend, sat_bind, sat_get, if_pos (Nat.le_of_lt hc), sat_pure,
    hb, hnone, Option.isSome_none, Bool.false_eq_true, if_false, modifyContext,
    modifyBackend, modifyQuery]
  cases allocated with
  | true =>
      refine ⟨h.keep _ hb rfl rfl rfl rfl rfl rfl ?_ h.kinds h.mine, ?_, ?_⟩
      · exact hl.congr rfl rfl rfl rfl (Nat.le_succ _)
      · exact ⟨rfl, rfl, rfl, rfl, rfl, rfl, rfl, map_modify_eq _ _ (by intro b; rfl) _ _,
          Nat.le_succ _⟩
      · intro t
        cases t <;> rfl
  | false =>
      -- The entry gets a cleanup function all the same, but no data.
      have hpriv : backendGetPriv { s with backends := s.backends.modify s.query.cursor fun b =>
          { b with cleanup := true, history := .allocFailed s.query.id :: b.history } } = none := by
        simp [backendGetPriv, hb, hnone]
      refine ⟨⟨⟨?_, h.kinds, h.mine, ?_⟩, ?_⟩, ?_, ?_⟩
      · show Ledger R (s.query.timers ++ ((backendGetPriv _).map (·.watches)).getD []) _
        rw [hpriv]
        exact hl.congr rfl rfl rfl rfl (Nat.le_refl _)
      · refine h.data.modify rfl rfl rfl fun b' block hb' hd => ?_
        obtain rfl := Option.some.inj (hb.symm.trans hb')
        rw [hnone] at hd
        simp at hd
      · show (backendGetPriv _).isSome = false
        rw [hpriv]
        rfl
      · exact ⟨rfl, rfl, rfl, rfl, rfl, rfl, rfl, map_modify_eq _ _ (by intro b; rfl) _ _,
          Nat.le_refl _⟩
      · intro t
        cases t <;> rfl

theorem callWatchAdd_books (env : Env) (fd : Nat) {R : List Nat} {s : St} (h : Books R s)
    (hp : HasPriv true s) :
    Sat (callWatchAdd env fd) s
      (fun _ s' => (Books R s' ∧ HasPriv true s') ∧ Frame s s' ∧
        ∀ t, s'.query.timeout t = s.query.timeout t) OnlyAbort := by
  refine Sat.mono (Sat.and (keeps_callWatchAdd env fd s) (T := fun _ s' => (Books R s' ∧
    HasPriv true s') ∧ ∀ t, s'.query.timeout t = s.query.timeout t) (F := OnlyAbort) ?_)
    (fun _ s' h' => ⟨h'.2.1, h'.1, h'.2.2⟩) (fun _ _ h' => h'.2)
  obtain ⟨block, hblock⟩ := Option.isSome_iff_exists.mp hp
  obtain ⟨b, hb, hd⟩ := Option.bind_eq_some_iff.mp hblock
  obtain ⟨-, hq, hcl⟩ := h.data _ b block hb hd
  simp only [callWatchAdd, sat_bind, sat_get]
  refine sat_watchAdd env _ _ s _ ?_
  have hown : ownBlock (s.link (.backend fd) (.backend s.query.cursor)) = some block := by
    rw [ownBlock_eq (s := s.link _ _) h.data]
    exact hblock
  have hlink := h.ledger.link (.backend fd) (.backend s.query.cursor)
  have howned : s.owned = block.watches := by simp [St.owned, hblock]
  simp only [hown, modifyBackend, sat_modify]
  refine ⟨h.keep _ hb rfl rfl rfl rfl hq hcl ?_ ?_ ?_, ?_⟩
  · refine Ledger.congr (hlink.perm ?_) rfl rfl rfl rfl (Nat.le_refl _)
    rw [howned]
    exact (List.perm_append_singleton _ _).symm.trans (List.Perm.of_eq (List.append_assoc ..))
  · intro x hx t
    rcases List.mem_append.mp hx with hxs | hxn
    · exact h.kinds x hxs t
    · have hxe : x = ⟨s.context.next, .backend fd, .backend s.query.cursor⟩ := by simpa using hxn
      subst hxe
      constructor
      · intro hcb; exact absurd hcb (by simp)
      · intro hid
        have hid' : s.query.timeout t = some s.context.next := hid
        have hlt := h.ledger.fresh _ (List.mem_append_left _ (mem_timers hid'))
        omega
  · intro x hx i hcb
    rcases List.mem_append.mp hx with hxs | hxn
    · exact h.mine x hxs i hcb
    · have hxe : x = ⟨s.context.next, .backend fd, .backend s.query.cursor⟩ := by simpa using hxn
      subst hxe
      exact (WatchCallback.backend.inj hcb).symm
  · intro t
    cases t <;> rfl

theorem callWatchRemove_books (env : Env) (k : Nat) (doClose : Bool) {R : List Nat} {s : St}
    {has : Bool} (h : Books R s) (hp : HasPriv has s) :
    Sat (callWatchRemove env k doClose) s
      (fun _ s' => (Books R s' ∧ HasPriv has s') ∧ Frame s s' ∧
        ∀ t, s'.query.timeout t = s.query.timeout t) OnlyAbort := by
  refine Sat.mono (Sat.and (keeps_callWatchRemove env k doClose s) (T := fun _ s' =>
    (Books R s' ∧ HasPriv has s') ∧ ∀ t, s'.query.timeout t = s.query.timeout t)
    (F := OnlyAbort) ?_) (fun _ s' h' => ⟨h'.2.1, h'.1, h'.2.2⟩) (fun _ _ h' => h'.2)
  simp only [callWatchRemove, sat_bind, sat_get, ownBlock_eq h.data]
  cases hblock : backendGetPriv s with
  | none => exact ⟨⟨h, hp⟩, fun _ => rfl⟩
  | some block =>
      cases hk : block.watches[k]? with
      | none => simpa only [hk] using ⟨⟨h, hp⟩, fun _ => rfl⟩
      | some w =>
          obtain ⟨b, hb, hd⟩ := Option.bind_eq_some_iff.mp hblock
          obtain ⟨-, hq, hcl⟩ := h.data _ b block hb hd
          have hhas : has = true := by rw [← hp, hblock]; rfl
          subst hhas
          have howned : s.owned = block.watches := by simp [St.owned, hblock]
          have hperm : block.watches.Perm (w :: block.watches.eraseIdx k) := by
            obtain ⟨hlt, hget⟩ := List.getElem?_eq_some_iff.mp hk
            rw [← hget]
            exact (List.getElem_cons_eraseIdx_perm hlt).symm
          have hl : Ledger R (w :: (s.query.timers ++ block.watches.eraseIdx k)) s := by
            refine h.ledger.perm ?_
            rw [howned]
            exact (hperm.append_left _).trans List.perm_middle
          simp only [hk, sat_bind, modifyBackend, sat_modify]
          refine (sat_watchRemove env doClose hl).mono (fun _ s' hu => ?_) (fun _ _ he => he)
          have htimers : s'.query.timers = s.query.timers := by rw [hu.query]; rfl
          have hcur : s'.query.cursor = s.query.cursor := by rw [hu.query]
          have hid : s'.query.id = s.query.id := by rw [hu.query]
          refine ⟨h.keep { block with watches := block.watches.eraseIdx k } hb
            (by rw [hu.backends, hcur]) hcur hid rfl hq hcl ?_ (hu.kinds h.kinds)
            (fun x hx i hcb => (h.mine x (hu.mem hx) i hcb).trans hcur.symm), ?_⟩
          · show Ledger R (s'.query.timers ++ _) _
            rw [htimers]
            exact (hl.unlink hu).congr rfl rfl rfl rfl (Nat.le_refl _)
          · intro t
            show s'.query.timeout t = _
            rw [hu.query]
            cases t <;> rfl

end Netresolve
