/-
The counters of a context are right.

Every query of a context is at rest between two events, next to the watches of the
others.  A step of one query changes the counters by what it changes in its own watch
list, so the others find theirs as before.  Freeing a query at any point is leaving
its backend, which takes away exactly the watches it has.
-/
import Netresolve.Proofs.Timers
import Netresolve.Core.Net

namespace Netresolve

open Outcome

/-- The query waits for its next event or has ended, next to the watches `R` of others. -/
def AtRest (R : List Nat) (s : St) : Prop := Waits R s ∨ Ended R s

/-- What the counters of the context have to do with one query of it. -/
structure Counted (R : List Nat) (l : Local) (c : Context) : Prop where
  own : l.query.nfds = l.query.watches.length
  total : c.nfds = R.length + l.query.nfds
  loop : c.loop.count = c.nfds
  registered : c.loop.registered.Perm (R ++ l.watchIds)

theorem Ledger.counted {R L : List Nat} {s : St} (h : Ledger R L s) :
    Counted R s.toLocal s.context :=
  ⟨h.count, h.total, h.loop, h.registered.trans (h.ids.symm.append_left R)⟩

theorem AtRest.counted {R : List Nat} {s : St} (h : AtRest R s) :
    Counted R s.toLocal s.context := by
  rcases h with hw | he
  · exact hw.books.ledger.counted
  · exact he.clean.books.ledger.counted

/-! ### The steps of other queries -/

theorem Ledger.elsewhere {R R' L : List Nat} {l : Local} {c c' : Context}
    (h : Ledger R L { toLocal := l, context := c }) (hc : Counted R' l c')
    (hnext : c.next ≤ c'.next) : Ledger R' L { toLocal := l, context := c' } :=
  ⟨h.count, hc.total, hc.loop, hc.registered.trans (h.ids.append_left R'), h.ids, h.nodup,
    fun w hw => Nat.lt_of_lt_of_le (h.fresh w hw) hnext⟩

/-- A query at rest is at rest after a step of another one. -/
theorem AtRest.elsewhere {R R' : List Nat} {l : Local} {c c' : Context}
    (h : AtRest R { toLocal := l, context := c }) (hc : Counted R' l c')
    (hnext : c.next ≤ c'.next) : AtRest R' { toLocal := l, context := c' } := by
  rcases h with hw | he
  · refine Or.inl ⟨⟨?_, hw.books.kinds, hw.books.mine, hw.books.data⟩, hw.cursor, hw.state,
      hw.timers⟩
    exact hw.books.ledger.elsewhere hc hnext
  · have hn : l.query.nfds = 0 := he.clean.nfds
    have hw : l.watchIds = [] := by
      unfold Local.watchIds
      rw [show l.query.watches = [] from he.clean.watches]
      rfl
    refine Or.inr ⟨⟨he.clean.watches, he.clean.nfds, he.clean.timeout, he.clean.data, ?_, ?_, ?_⟩,
      he.cursor, he.state⟩
    · exact hc.total.trans (by rw [hn]; rfl)
    · exact hc.loop.trans (hc.total.trans (by rw [hn]; rfl))
    · simpa [hw] using hc.registered

/-! ### Freeing a query -/

theorem AtRest.books {R : List Nat} {s : St} (h : AtRest R s) :
    Books R s ∧ s.query.cursor ≤ s.backends.length := by
  rcases h with hw | he
  · exact ⟨hw.books, Nat.le_of_lt hw.cursor⟩
  · exact ⟨he.clean.books, Nat.le_of_eq he.cursor⟩

theorem querySetState_none (env : Env) (s : St) (Q : Unit → St → Prop) (E : Fault → St → Prop)
    (h : ∀ s', s'.query.watches = s.query.watches → s'.query.nfds = s.query.nfds →
      (∀ t, s'.query.timeout t = s.query.timeout t) → s'.backends = s.backends →
      s'.context = s.context → Q () s') : Sat (querySetState env .none) s Q E := by
  show Sat (get >>= fun t => setState env (nesting t) .none) s Q E
  rw [sat_bind, sat_get]
  show Sat (setState env ((3 * s.backends.length + 2) + 1) .none) s Q E
  simp only [setState, sat_bind, sat_get, sat_ite, sat_pure, modifyQuery, observe, sat_modify,
    enterState, enterNone]
  refine ⟨fun _ => h s rfl rfl (fun _ => rfl) rfl rfl, fun _ => ?_⟩
  exact h _ rfl rfl (fun t => by cases t <;> rfl) rfl rfl

/-- Freeing a query at rest takes its watches away and nothing else. -/
theorem queryFree_clean (env : Env) {R : List Nat} {s : St} (h : AtRest R s) :
    Sat (queryFree env) s (fun _ s' => Clean R s' ∧ s.context.next ≤ s'.context.next)
      OnlyAbort := by
  obtain ⟨hbooks, hcur⟩ := h.books
  simp only [queryFree, sat_bind]
  refine (cleanupQuery_clean env hbooks hcur).mono (fun _ s₁ h₁ => ?_) (fun _ _ he => he)
  obtain ⟨hclean, hframe⟩ := h₁
  refine querySetState_none env s₁ _ _ fun s₂ hw hn ht hb hc => ?_
  have hclean₂ := hclean.move hw hn ht hb hc
  have hok : s₂.query.nfds = 0 ∧ s₂.query.watches = [] := ⟨hclean₂.nfds, hclean₂.watches⟩
  simp only [sat_get, if_pos hok, sat_pure]
  exact ⟨hclean₂, by rw [hc]; exact hframe.next⟩

/-! ### All queries of a context -/

/-- Every query is at rest, and the counters are the sums over the queries. -/
structure NetInv (net : Net) : Prop where
  rest : ∀ l ∈ net.queries, ∃ R, AtRest R (net.view l)
  result : ∀ l ∈ net.queries, l.query.request.resultTimeout ≠ 0
  total : net.context.nfds = (net.queries.map (·.query.nfds)).sum
  loop : net.context.loop.count = net.context.nfds
  registered : net.context.loop.registered.Perm (net.queries.flatMap Local.watchIds)

theorem flatMap_watchIds_length {qs : List Local}
    (h : ∀ l ∈ qs, l.query.nfds = l.query.watches.length) :
    (qs.flatMap Local.watchIds).length = (qs.map (·.query.nfds)).sum := by
  rw [List.length_flatMap]
  congr 1
  refine List.map_congr_left fun l hl => ?_
  rw [Local.watchIds, List.length_map, h l hl]

theorem NetInv.own {net : Net} (h : NetInv net) :
    ∀ l ∈ net.queries, l.query.nfds = l.query.watches.length := by
  intro l hl
  obtain ⟨R, hR⟩ := h.rest l hl
  exact hR.counted.own

section

variable {net : Net} {before after : List Local} {l : Local}

theorem mem_of_others (hl : net.queries = before ++ l :: after)
    {l' : Local} (hl' : l' ∈ before ++ after) : l' ∈ net.queries := by
  rw [hl]
  rcases List.mem_append.mp hl' with h₁ | h₁
  · exact List.mem_append_left _ h₁
  · exact List.mem_append_right _ (List.mem_cons_of_mem _ h₁)

/-- The other queries account for the watches the query itself does not have. -/
theorem NetInv.others (h : NetInv net) (hl : net.queries = before ++ l :: after) {R : List Nat}
    (hrest : AtRest R (net.view l)) :
    R.Perm ((before ++ after).flatMap Local.watchIds) ∧
      R.length = ((before ++ after).map (·.query.nfds)).sum := by
  have hc := hrest.counted
  constructor
  · have h₁ : (R ++ l.watchIds).Perm ((before ++ after).flatMap Local.watchIds ++ l.watchIds) := by
      refine hc.registered.symm.trans (h.registered.trans ?_)
      rw [hl]
      have hmid : (before ++ l :: after).Perm (l :: (before ++ after)) := List.perm_middle
      refine (hmid.flatMap_right Local.watchIds).trans ?_
      rw [List.flatMap_cons]
      exact List.perm_append_comm
    exact (List.perm_append_right_iff _).mp h₁
  · have h₁ := hc.total
    have h₂ := h.total
    rw [hl] at h₂
    simp only [List.map_append, List.map_cons, List.sum_append, List.sum_cons] at h₂ ⊢
    have h₃ : (net.view l).context.nfds = net.context.nfds := rfl
    have h₄ : (net.view l).query.nfds = l.query.nfds := rfl
    omega

end

/--
A step that leaves the queries `others` alone and has `new` for the rest: the counters
account for both, so the context is in order again.
-/
theorem netInv_of_step (others new : List Local) {qs : List Local} {R : List Nat} {c c' : Context}
    (hperm : qs.Perm (others ++ new))
    (hothers : ∀ l ∈ others, l.query.request.resultTimeout ≠ 0 ∧
      ∃ R', AtRest R' { toLocal := l, context := c })
    (hR : R.Perm (others.flatMap Local.watchIds))
    (hlen : R.length = (others.map (·.query.nfds)).sum) (hnext : c.next ≤ c'.next)
    (hnew : ∀ l ∈ new, l.query.request.resultTimeout ≠ 0 ∧
      AtRest R { toLocal := l, context := c' })
    (htotal : c'.nfds = R.length + (new.map (·.query.nfds)).sum)
    (hloop : c'.loop.count = c'.nfds)
    (hreg : c'.loop.registered.Perm (R ++ new.flatMap Local.watchIds)) : NetInv ⟨qs, c'⟩ := by
  have htot : c'.nfds = (qs.map (·.query.nfds)).sum := by
    rw [(hperm.map _).sum_nat, List.map_append, List.sum_append, ← hlen, htotal]
  have hregs : c'.loop.registered.Perm (qs.flatMap Local.watchIds) := by
    refine hreg.trans (List.Perm.trans ?_ (hperm.flatMap_right _).symm)
    rw [List.flatMap_append]
    exact hR.append_right _
  have hown : ∀ l ∈ qs, l.query.nfds = l.query.watches.length := by
    intro l hl
    rcases List.mem_append.mp (hperm.mem_iff.mp hl) with hold | hnew'
    · obtain ⟨-, R', hrest⟩ := hothers l hold
      exact hrest.counted.own
    · exact (hnew l hnew').2.counted.own
  refine ⟨fun l (hl : l ∈ qs) => ?_, fun l (hl : l ∈ qs) => ?_, htot, hloop, hregs⟩
  · rcases List.mem_append.mp (hperm.mem_iff.mp hl) with hold | hnew'
    · obtain ⟨-, R', hrest⟩ := hothers l hold
      obtain ⟨pre, post, rfl⟩ := List.append_of_mem hl
      refine ⟨(pre ++ post).flatMap Local.watchIds, hrest.elsewhere ⟨hown l hl, ?_, hloop, ?_⟩ hnext⟩
      · rw [htot, flatMap_watchIds_length fun l' hl' => hown l' ?_]
        · simp only [List.map_append, List.map_cons, List.sum_append, List.sum_cons]
          omega
        · rcases List.mem_append.mp hl' with h₁ | h₁
          · exact List.mem_append_left _ h₁
          · exact List.mem_append_right _ (List.mem_cons_of_mem _ h₁)
      · refine hregs.trans ?_
        rw [List.flatMap_append, List.flatMap_append, List.flatMap_cons, List.append_assoc]
        exact List.perm_append_comm.append_left _
    · exact ⟨R, (hnew l hnew').2⟩
  · rcases List.mem_append.mp (hperm.mem_iff.mp hl) with hold | hnew'
    · exact (hothers l hold).1
    · exact (hnew l hnew').1

/-- What is left of the context of a query when the query itself is taken out. -/
theorem NetInv.rest_of_others {net : Net} (h : NetInv net) {others : List Local}
    (hsub : ∀ l ∈ others, l ∈ net.queries) :
    ∀ l ∈ others, l.query.request.resultTimeout ≠ 0 ∧
      ∃ R, AtRest R { toLocal := l, context := net.context } :=
  fun l hl => ⟨h.result l (hsub l hl), h.rest l (hsub l hl)⟩

theorem netInv_step {net net' : Net} (h : NetInv net) (hstep : NetStep net net') :
    NetInv net' := by
  cases hstep with
  | @create env l s hnew hresult henv hstart =>
      have hlen : net.context.loop.registered.length = (net.queries.map (·.query.nfds)).sum := by
        rw [h.registered.length_eq]
        exact flatMap_watchIds_length h.own
      have hfresh : Fresh (net.view l) := ⟨hnew, h.loop, h.total.trans hlen.symm⟩
      obtain ⟨hfix, hrest⟩ :=
        (queryStart_rest hfresh (backends_ne_nil hstart) henv).of_ok hstart
      have hres : s.query.request.resultTimeout ≠ 0 := by
        rw [hfix.resultTimeout]; exact hresult
      have hc : Counted net.context.loop.registered s.toLocal s.context := AtRest.counted hrest
      exact netInv_of_step net.queries [s.toLocal] (.refl _) (h.rest_of_others fun _ hl => hl)
        h.registered hlen hfix.next (List.forall_mem_singleton.mpr ⟨hres, hrest⟩)
        (by simpa using hc.total) hc.loop (by simpa using hc.registered)
  | @dispatch before after env l w s hl henv hw hok =>
      have hmem : l ∈ net.queries := by rw [hl]; simp
      obtain ⟨R, hrest⟩ := h.rest l hmem
      obtain ⟨hR, hlen⟩ := h.others hl hrest
      have hsat := queryDispatch_rest env ⟨Fixed.refl (net.view l), hrest⟩ ⟨henv, Or.inl (h.result l hmem)⟩ hw
      obtain ⟨hfix, hrest'⟩ := hsat.of_ok hok
      have hres : s.query.request.resultTimeout ≠ 0 := by
        rw [hfix.resultTimeout]; exact h.result l hmem
      have hc := AtRest.counted hrest'
      refine netInv_of_step (before ++ after) [s.toLocal] ?_
        (h.rest_of_others fun x hx => ?_) hR hlen hfix.next
        (List.forall_mem_singleton.mpr ⟨hres, hrest'⟩) (by simpa using hc.total) hc.loop
        (by simpa using hc.registered)
      · exact List.perm_middle.trans (List.perm_append_singleton _ _).symm
      · exact mem_of_others hl hx
  | @free before after env l s hl hok =>
      have hmem : l ∈ net.queries := by rw [hl]; simp
      obtain ⟨R, hrest⟩ := h.rest l hmem
      obtain ⟨hR, hlen⟩ := h.others hl hrest
      obtain ⟨hclean, hnext⟩ := (queryFree_clean env hrest).of_ok hok
      refine netInv_of_step (before ++ after) [] ?_
        (h.rest_of_others fun x hx => mem_of_others hl hx) hR hlen hnext (by simp)
        (by simpa using hclean.total) (by rw [hclean.loop, hclean.total])
        (by simpa using hclean.registered)
      rw [List.append_nil]

theorem NetReachable.inv {net : Net} (h : NetReachable net) : NetInv net := by
  induction h with
  | init => exact ⟨by simp, by simp, rfl, rfl, by simp⟩
  | step _ hstep ih => exact netInv_step ih hstep

/--
**The counters of a context are right**, whatever queries are created, run and freed on
it.  Freeing a query at any point stops only if a system call fails, takes away its
watches and leaves those of the others registered.
-/
theorem counters_agree {net : Net} (h : NetReachable net) :
    (∀ l ∈ net.queries, l.query.nfds = l.query.watches.length) ∧
    net.context.nfds = (net.queries.map (·.query.nfds)).sum ∧
    net.context.loop.count = net.context.nfds ∧
    ∀ before l after env, net.queries = before ++ l :: after →
      (∀ e s, queryFree env (net.view l) = .error e s → e = .abort) ∧
      ∀ s, queryFree env (net.view l) = .ok () s →
        s.query.watches = [] ∧ s.query.nfds = 0 ∧
        s.context.nfds = ((before ++ after).map (·.query.nfds)).sum ∧
        s.context.loop.count = s.context.nfds ∧
        s.context.loop.registered.Perm ((before ++ after).flatMap Local.watchIds) := by
  have hinv := h.inv
  refine ⟨hinv.own, hinv.total, hinv.loop, fun before l after env hl => ?_⟩
  obtain ⟨R, hrest⟩ := hinv.rest l (by rw [hl]; simp)
  obtain ⟨hR, hlen⟩ := hinv.others hl hrest
  have hfree := queryFree_clean env hrest
  refine ⟨fun e s herr => hfree.of_error herr, fun s hok => ?_⟩
  obtain ⟨hclean, -⟩ := hfree.of_ok hok
  exact ⟨hclean.watches, hclean.nfds, hclean.total.trans hlen,
    hclean.loop.trans hclean.total.symm, hclean.registered.trans hR⟩

/-- A second query on a backend of its own. -/
def otherBackend : Local := { query := { id := 1 }, backends := [{}] }

/-- The context with both queries, and with the second one alone. -/
def bothWaiting : St :=
  final (queryStart answersLater) (Net.view ⟨[oneBackendWaiting.toLocal], oneBackendWaiting.context⟩
    otherBackend)

def firstFreed : St :=
  final (queryFree {}) (Net.view ⟨[oneBackendWaiting.toLocal, bothWaiting.toLocal],
    bothWaiting.context⟩ oneBackendWaiting.toLocal)

theorem otherBackend_new : otherBackend.New := by
  refine ⟨rfl, rfl, rfl, rfl, fun t => by cases t <;> rfl, rfl, rfl, fun b hb => ?_⟩
  rw [List.mem_singleton.mp hb]

/-- Of two queries that wait the first is freed, and the watches of the second one are left. -/
theorem counters_agree_freed : ∃ net : Net, NetReachable net ∧ net.context.nfds = 2 ∧
    net.context.nfds = (net.queries.map (·.query.nfds)).sum := by
  have hone : NetReachable ⟨[oneBackendWaiting.toLocal], oneBackendWaiting.context⟩ :=
    .step .init (.create answersLater oneBackend_fresh.toNew (by decide)
      answersLater_wellBehaved rfl)
  have htwo : NetReachable ⟨[oneBackendWaiting.toLocal, bothWaiting.toLocal],
      bothWaiting.context⟩ :=
    .step hone (.create answersLater otherBackend_new (by decide) answersLater_wellBehaved
      (ok_of_returns (by decide +kernel)))
  have hrun : NetReachable ⟨[bothWaiting.toLocal], firstFreed.context⟩ :=
    .step htwo (@NetStep.free _ [] [bothWaiting.toLocal] {} oneBackendWaiting.toLocal firstFreed rfl
      (ok_of_returns (by decide +kernel)))
  exact ⟨_, hrun, by decide +kernel, (counters_agree hrun).2.1⟩

end Netresolve
