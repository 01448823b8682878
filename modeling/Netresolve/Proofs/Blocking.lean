/-
What the blocking mode comes to.

A query that has not ended has a timer, and the timer has a watch; a query that has ended has no
watch at all.  So the count of the loop is zero exactly when all queries have ended, and the loop
of `netresolve_epoll_wait` does not wait for something that cannot come.  Freeing the queries of a
context one by one takes all their watches away, wherever they are, and then the assertion of
`cleanup_members` holds.  What can stop it is the memory of a query, and it stops at the first one
that cannot be freed.
-/
import Netresolve.Proofs.Armed
import Netresolve.Proofs.Reliable

namespace Netresolve

open Outcome

/-! ### One event -/

section

variable {env : Env} {R : List Nat} {s₀ s : St}

/-- What is known of a query between two events is about its own part. -/
theorem Rested.elsewhere {from? : Departure} {l : Local} {c c' : Context}
    (h : Rested from? { toLocal := l, context := c }) :
    Rested from? { toLocal := l, context := c' } :=
  ⟨h.timed, h.onward, h.waiting, h.resolved, h.ended⟩

theorem Rested.weaken {from? : Departure} (h : Rested from? s) : Rested none s :=
  ⟨h.timed, by simp [Departure.Onward], h.waiting,
    fun hs => ⟨(h.resolved hs).1, by simp [Departure.Past]⟩,
    fun hs => ⟨(h.ended hs).1, by simp [Departure.Past]⟩⟩

theorem start_rested (hnew : s.toLocal.New) (htimed : s.toLocal.Timed) (henv : env.Timely)
    (hne : s.backends ≠ []) :
    Sat (queryStart env) s (fun _ s' => Rested none s') (fun _ _ => True) := by
  refine (armed_sound henv).queryStart (P := armed none) ⟨htimed, by simp [Departure.Past], ?_, ?_⟩
  · rw [hnew.cursor]
    exact List.length_pos_iff.mpr hne
  · rw [hnew.state]
    decide

/-- An event finds the query behind its backend, or with the same request timer. -/
theorem dispatch_rested (hrested : Rested none s) (hwaits : Waits R s) (henv : env.Timely) {w : Nat}
    (hw : ∃ x ∈ s.query.watches, x.id = w) :
    Sat (queryDispatch env w) s
      (fun _ s' => Rested (some (s.query.cursor, s.query.requestTimeout)) s')
      (fun _ _ => True) := by
  obtain ⟨x, hfind, -, -⟩ := find_watch hw
  refine (armed_sound henv).queryDispatch hfind ?_
  have hhas : Phase.has .dispatch s.query.state := by
    rcases hwaits.state with hs | hs | hs <;> rw [hs] <;> rfl
  have hne : s.query.state ≠ .done ∧ s.query.state ≠ .failed := by
    rcases hwaits.state with hs | hs | hs <;> rw [hs] <;> decide
  cases x.callback with
  | backend i =>
      refine ⟨hrested.timed, hhas, ?_, hrested.waiting, by simp⟩
      intro p hp
      obtain rfl := Option.mem_some_iff.mp hp
      exact ⟨Nat.le_refl _, fun _ => rfl⟩
  | timeout t =>
      refine ⟨(keeps_expire t s).mono (fun _ s' hf => ?_) (fun _ _ _ => trivial),
        fun s' h' hr => ?_⟩
      · refine ⟨hf.timed hrested.timed, ?_, by rw [hf.state]; exact hne.1,
          by rw [hf.state]; exact hne.2⟩
        intro p hp
        obtain rfl := Option.mem_some_iff.mp hp
        exact Nat.le_of_eq hf.cursor.symm
      · exact ⟨h'.timed, fun p hp => (h'.onward p hp).1, by rw [hr]; decide, by rw [hr]; decide⟩

/-- The timer that ends the backend of a waiting query. -/
theorem Rested.timer {from? : Departure} (h : Rested from? s) (hwaits : Waits R s) :
    ∃ t w, s.query.timeout t = some w ∧
      (t = .delayed ∧ s.query.state = .resolved ∨
        t = .requestTimeout ∧ s.query.state ≠ .resolved) := by
  by_cases hs : s.query.state = .resolved
  · obtain ⟨w, hw⟩ := Option.isSome_iff_exists.mp (h.resolved hs).1
    exact ⟨.delayed, w, hw, Or.inl ⟨rfl, hs⟩⟩
  · have hwait : s.query.state = .waiting ∨ s.query.state = .waitingMore := by
      rcases hwaits.state with h₁ | h₁ | h₁
      · exact Or.inl h₁
      · exact Or.inr h₁
      · exact absurd h₁ hs
    obtain ⟨w, hw⟩ := Option.isSome_iff_exists.mp (h.waiting hwait)
    exact ⟨.requestTimeout, w, hw, Or.inr ⟨rfl, hs⟩⟩

theorem AtRest.over_iff (h : AtRest R s) : s.toLocal.Over ↔ Ended R s := by
  constructor
  · intro hover
    refine h.resolve_left fun hwaits => ?_
    have := hwaits.cursor
    have hcur : s.query.cursor = s.backends.length := hover.cursor
    omega
  · exact fun he => ⟨he.state, he.cursor⟩

end

/-! ### All queries of a context -/

theorem NetReachable.created {net net' : Net} (h : NetReachable net) (hstep : Created net net') :
    NetReachable net' := by
  obtain ⟨env, hnew, htimed, henv, hok⟩ := hstep
  exact .step h (.create env hnew htimed.result henv.toWellBehaved hok)

theorem NetReachable.dispatched {net net' : Net} (h : NetReachable net)
    (hstep : Dispatched net net') : NetReachable net' := by
  obtain ⟨hl, henv, hw, hok⟩ := hstep
  exact .step h (.dispatch hl henv.toWellBehaved hw hok)

theorem NetReachable.released {net net' : Net} (h : NetReachable net)
    (hstep : Released net net') : NetReachable net' := by
  obtain ⟨hl, hok⟩ := hstep
  exact .step h (.free hl hok)

theorem TimedReachable.toNet {net : Net} (h : TimedReachable net) : NetReachable net := by
  induction h with
  | init => exact .init
  | created _ hstep ih => exact ih.created hstep
  | dispatched _ hstep ih => exact ih.dispatched hstep
  | released _ hstep ih => exact ih.released hstep

/-- Every query is armed. -/
def Net.Armed (net : Net) : Prop := ∀ l ∈ net.queries, Rested none (net.view l)

theorem Net.Armed.created {net net' : Net} (h : net.Armed) (hstep : Created net net') :
    net'.Armed := by
  obtain ⟨env, hnew, htimed, henv, hok⟩ := hstep
  intro l hl
  rcases List.mem_append.mp hl with hold | hlast
  · exact (h l hold).elsewhere
  · obtain rfl := List.mem_singleton.mp hlast
    exact (start_rested hnew htimed henv (backends_ne_nil hok)).of_ok hok

theorem Net.Armed.dispatched {net net' : Net} (h : net.Armed) (hinv : NetInv net)
    (hstep : Dispatched net net') : net'.Armed := by
  obtain ⟨hl, henv, hw, hok⟩ := hstep
  rename_i before after env l w s
  have hmem : l ∈ net.queries := by rw [hl]; simp
  obtain ⟨R, hrest⟩ := hinv.rest l hmem
  have hwaits : Waits R (net.view l) := by
    refine hrest.resolve_right fun hended => ?_
    obtain ⟨x, hx, -⟩ := hw
    exact hended.no_watch hx
  intro l' hl'
  rcases List.mem_append.mp hl' with hold | hrest'
  · exact (h l' (by rw [hl]; exact List.mem_append_left _ hold)).elsewhere
  · rcases List.mem_cons.mp hrest' with rfl | hold
    · exact ((dispatch_rested (h l hmem) hwaits henv hw).of_ok hok).weaken
    · refine (h l' ?_).elsewhere
      rw [hl]
      exact List.mem_append_right _ (List.mem_cons_of_mem _ hold)

theorem Net.Armed.released {net net' : Net} (h : net.Armed) (hstep : Released net net') :
    net'.Armed := by
  obtain ⟨hl, -⟩ := hstep
  exact fun l' hl' => (h l' (mem_of_others hl hl')).elsewhere

theorem TimedReachable.armed {net : Net} (h : TimedReachable net) : net.Armed := by
  induction h with
  | init => intro l hl; simp at hl
  | created _ hstep ih => exact ih.created hstep
  | dispatched h hstep ih => exact ih.dispatched h.toNet.inv hstep
  | released _ hstep ih => exact ih.released hstep

theorem NetInv.registered_of_watch {net : Net} (h : NetInv net) {l : Local} (hl : l ∈ net.queries)
    {x : Watch} (hx : x ∈ l.query.watches) : x.id ∈ net.context.loop.registered := by
  refine h.registered.mem_iff.mpr (List.mem_flatMap.mpr ⟨l, hl, ?_⟩)
  exact List.mem_map_of_mem hx

/-- A query that has not ended has a timer. -/
theorem TimedReachable.timer {net : Net} (h : TimedReachable net) {l : Local}
    (hl : l ∈ net.queries) (hover : ¬ l.Over) :
    ∃ t w, l.query.timeout t = some w ∧ ∃ x ∈ l.query.watches, x.id = w := by
  obtain ⟨R, hrest⟩ := h.toNet.inv.rest l hl
  have hwaits : Waits R (net.view l) :=
    hrest.resolve_right fun he => hover (hrest.over_iff.mpr he)
  obtain ⟨t, w, ht, -⟩ := (h.armed l hl).timer hwaits
  obtain ⟨x, hx, hid, -⟩ := hwaits.timer_watch ht
  exact ⟨t, w, ht, x, hx, hid⟩

/-- The loop counts no watch if and only if all queries have ended. -/
theorem TimedReachable.count_iff {net : Net} (h : TimedReachable net) :
    net.context.loop.count = 0 ↔ ∀ l ∈ net.queries, l.Over := by
  have hinv := h.toNet.inv
  rw [hinv.loop, hinv.total, List.sum_eq_zero_iff_forall_eq_nat]
  constructor
  · intro hzero l hl
    by_contra hover
    obtain ⟨t, w, -, x, hx, -⟩ := h.timer hl hover
    have hn := hzero _ (List.mem_map_of_mem hl)
    rw [hinv.own l hl, List.length_eq_zero_iff] at hn
    rw [hn] at hx
    simp at hx
  · intro hover n hn
    obtain ⟨l, hl, rfl⟩ := List.mem_map.mp hn
    obtain ⟨R, hrest⟩ := hinv.rest l hl
    exact (hrest.over_iff.mp (hover l hl)).clean.nfds

/--
**The wait is over when the queries are.**  The count of the loop is zero if and only if all
queries of the context have ended, and as long as one of them has not, it has a timer that is
registered with the loop.
-/
theorem wait_over_iff {net : Net} (h : TimedReachable net) :
    (net.context.loop.count = 0 ↔ ∀ l ∈ net.queries, l.Over) ∧
    ∀ l ∈ net.queries, ¬ l.Over → ∃ t w, l.query.timeout t = some w ∧
      w ∈ net.context.loop.registered := by
  refine ⟨h.count_iff, fun l hl hover => ?_⟩
  obtain ⟨t, w, ht, x, hx, rfl⟩ := h.timer hl hover
  exact ⟨t, x.id, ht, h.toNet.inv.registered_of_watch hl hx⟩

theorem answersLater_timely : answersLater.Timely :=
  ⟨answersLater_wellBehaved, fun _ => rfl, fun _ => rfl⟩

theorem oneBackend_created :
    Created ⟨[], {}⟩ ⟨[oneBackendWaiting.toLocal], oneBackendWaiting.context⟩ := by
  have hstart : queryStart answersLater (Net.view ⟨[], {}⟩ oneBackend.toLocal) =
      .ok () oneBackendWaiting := rfl
  exact .mk answersLater oneBackend_fresh.toNew ⟨by decide, by decide⟩ answersLater_timely hstart

/-- A context with one query, on one backend that answers later. -/
theorem oneBackend_timed :
    TimedReachable ⟨[oneBackendWaiting.toLocal], oneBackendWaiting.context⟩ :=
  .created .init oneBackend_created

theorem wait_over_iff_waiting :
    TimedReachable ⟨[oneBackendWaiting.toLocal], oneBackendWaiting.context⟩ ∧
      ¬ ∀ l ∈ [oneBackendWaiting.toLocal], l.Over :=
  ⟨oneBackend_timed, fun h => absurd ((wait_over_iff oneBackend_timed).1.mpr h) (by decide)⟩

/-! ### Freeing a context -/

theorem netStep_free_first {env : Env} {l : Local} {rest : List Local} {c : Context} {s : St}
    (h : queryFree env { toLocal := l, context := c } = .ok () s) :
    NetStep ⟨l :: rest, c⟩ ⟨rest, s.context⟩ := by
  have hl : (⟨l :: rest, c⟩ : Net).queries = [] ++ l :: rest := rfl
  exact .free hl h

theorem releaseNone_congr {q q' : Query} (h : q'.state = q.state) (services : Option ServiceList) :
    releaseNone q' services = releaseNone q services := by
  unfold releaseNone
  rw [h]

theorem releaseEnd_congr {q q' : Query} (h : q'.state = q.state)
    (hrequest : q'.request = q.request) : releaseEnd q' = releaseEnd q := by
  unfold releaseEnd
  rw [h, hrequest]

/-- What `netresolve_query_free` comes to: it ends, it stops in the query, or in one of its frees. -/
theorem queryDestroy_cases (env : Env) (services : Option ServiceList) (s : St) :
    (∃ s', queryDestroy env services s = .ok s' ∧ queryFree env s = .ok () s' ∧
      releaseQuery s.query services = .ok ()) ∨
    (∃ e s', queryDestroy env services s = .error (.query e) ∧ queryFree env s = .error e s') ∨
    ∃ e, queryDestroy env services s = .error (.release e) ∧
      releaseQuery s.query services = .error e := by
  cases hclean : cleanupQuery env s with
  | error e s' =>
      refine Or.inr (Or.inl ⟨e, s', ?_, ?_⟩)
      · simp [queryDestroy, during, hclean, bind, Except.bind]
      · simp [queryFree, hclean, bind, EStateM.bind]
  | ok a s₁ =>
      have hframe := (keeps_cleanupQuery env s).of_ok hclean
      have hend := releaseEnd_congr hframe.state hframe.request
      have hnone := releaseNone_congr hframe.state services
      unfold queryDestroy releaseQuery
      simp only [during, hclean, bind, Except.bind, hnone, hend]
      cases hservices : releaseNone s.query services with
      | error e =>
          refine Or.inr (Or.inr ⟨e, ?_, ?_⟩)
          · simp [Except.mapError]
          · rfl
      | ok _ =>
          simp only [Except.mapError]
          cases hset : querySetState env .none s₁ with
          | error e s' =>
              refine Or.inr (Or.inl ⟨e, s', ?_, ?_⟩)
              · simp
              · simp [queryFree, hclean, hset, bind, EStateM.bind]
          | ok _ s₂ =>
              have hrun : queryFree env s =
                  (if s₂.query.nfds = 0 ∧ s₂.query.watches = [] then pure ()
                    else throw (.assertion .queryFree) : M Unit) s₂ := by
                unfold queryFree
                rw [bind_of_ok hclean, bind_of_ok hset]
                rfl
              by_cases hrest : s₂.query.nfds = 0 ∧ s₂.query.watches = []
              · have hfree : queryFree env s = .ok () s₂ := by
                  rw [hrun, if_pos hrest]
                  rfl
                cases hname : releaseEnd s.query with
                | error e =>
                    refine Or.inr (Or.inr ⟨e, ?_, rfl⟩)
                    simp [hrest, pure, Except.pure]
                | ok _ =>
                    refine Or.inl ⟨s₂, ?_, hfree, rfl⟩
                    simp [hrest, pure, Except.pure]
              · refine Or.inr (Or.inl ⟨.assertion .queryFree, s₂, ?_, ?_⟩)
                · simp [hrest, throw, throwThe, MonadExceptOf.throw]
                · rw [hrun, if_neg hrest]
                  rfl

/-- Freeing the queries of a context takes all of them away, or stops in `abort()` or at a free. -/
theorem freeQueries_all (env : Env) : ∀ {queries : List Equipped} {c : Context},
    NetReachable ⟨queries.map (·.entry), c⟩ →
    (∃ c', freeQueries env queries c = .ok c' ∧ NetReachable ⟨[], c'⟩ ∧
      ∀ l ∈ queries, Releasable l.entry.query l.services) ∨
    freeQueries env queries c = .error (.query .abort) ∨
    ∃ e, freeQueries env queries c = .error (.release e) ∧
      ∃ l ∈ queries, releaseQuery l.entry.query l.services = .error e := by
  intro queries
  induction queries with
  | nil => exact fun {c} h => Or.inl ⟨c, rfl, h, fun _ hl => by cases hl⟩
  | cons l rest ih =>
      intro c h
      obtain ⟨R, hrest⟩ := h.inv.rest l.entry (by simp)
      have hfree := queryFree_clean env hrest
      simp only [freeQueries, bind, Except.bind]
      rcases queryDestroy_cases env l.services { toLocal := l.entry, context := c } with
        ⟨s, hrun, hok, hrelease⟩ | ⟨e, s, hrun, herr⟩ | ⟨e, hrun, hrelease⟩
      · rw [hrun]
        have hnext : NetReachable ⟨rest.map (·.entry), s.context⟩ :=
          .step h (netStep_free_first hok)
        rcases ih hnext with ⟨c', hc', hnet, hall⟩ | habort | ⟨e, herr, l', hl', he⟩
        · refine Or.inl ⟨c', hc', hnet, fun l' hl' => ?_⟩
          rcases List.mem_cons.mp hl' with rfl | hl'
          · exact (releaseQuery_ok_iff _ _).mp hrelease
          · exact hall l' hl'
        · exact Or.inr (Or.inl habort)
        · exact Or.inr (Or.inr ⟨e, herr, l', List.mem_cons_of_mem _ hl', he⟩)
      · rw [hrun]
        have habort : e = .abort := hfree.of_error herr
        exact Or.inr (Or.inl (by rw [habort]))
      · rw [hrun]
        exact Or.inr (Or.inr ⟨e, rfl, l, List.mem_cons_self, hrelease⟩)

theorem contextFree_of_queries {env : Env} {queries : List Equipped} {c c' : Context}
    (h : freeQueries env queries c = .ok c') (hc : c'.loop.count = 0) :
    contextFree env queries c = .ok c' := by
  show (freeQueries env queries c).bind _ = _
  rw [h]
  show (if c'.loop.count = 0 then pure c' else throw .cleanupMembers : Except FreeFault Context) = _
  rw [if_pos hc]
  rfl

theorem contextFree_of_fault {env : Env} {queries : List Equipped} {c : Context} {e : FreeFault}
    (h : freeQueries env queries c = .error e) : contextFree env queries c = .error e := by
  show (freeQueries env queries c).bind _ = _
  rw [h]
  rfl

theorem queryFree_safe {env : Env} (henv : env.Reliable) (s : St) :
    Sat (queryFree env) s (fun _ _ => True) (fun e _ => e ≠ .abort) := by
  have hsafe : Safe (queryFree env) := by
    refine .bind (safe_cleanupQuery henv) fun _ => .bind (safe_querySetState henv .none) fun _ =>
      .bind .get fun _ => .ite (.pure _) (.throw (by decide))
  exact (hsafe s).mono (fun _ _ _ => trivial) (fun _ _ he => he.2)

theorem freeQueries_safe {env : Env} (henv : env.Reliable) : ∀ (queries : List Equipped)
    (c : Context), freeQueries env queries c ≠ .error (.query .abort) := by
  intro queries
  induction queries with
  | nil => exact fun c h => by cases h
  | cons l rest ih =>
      intro c h
      simp only [freeQueries, bind, Except.bind] at h
      rcases queryDestroy_cases env l.services { toLocal := l.entry, context := c } with
        ⟨s, hrun, -, -⟩ | ⟨e, s, hrun, herr⟩ | ⟨e, hrun, -⟩
      · rw [hrun] at h
        exact ih s.context h
      · rw [hrun] at h
        have habort : e = .abort := by simpa using h
        exact (queryFree_safe henv _).of_error herr habort
      · rw [hrun] at h
        cases h

/-- The query that waits, with the services that are in the file. -/
def waitingEquipped : Equipped :=
  ⟨oneBackendWaiting.toLocal, some ⟨some [⟨IPPROTO_TCP, 80, "http"⟩]⟩⟩

theorem EpollWait.timed {net net' : Net} (hwait : EpollWait net net') (h : TimedReachable net) :
    TimedReachable net' ∧ net'.context.loop.count = 0 := by
  induction hwait with
  | done hc => exact ⟨h, hc⟩
  | turn _ hstep _ ih => exact ih (h.dispatched hstep)

theorem Blocking.timed {net : Net} (h : Blocking net) : TimedReachable net := by
  induction h with
  | init => exact .init
  | query _ hstep hwait ih => exact (hwait.timed (ih.created hstep)).1
  | released _ hstep ih => exact ih.released hstep

/-- Between two blocking calls every query has ended. -/
theorem Blocking.over {net : Net} (h : Blocking net) : ∀ l ∈ net.queries, l.Over := by
  induction h with
  | init => intro l hl; simp at hl
  | query h hstep hwait _ =>
      obtain ⟨htimed, hcount⟩ := hwait.timed (h.timed.created hstep)
      exact htimed.count_iff.mp hcount
  | released _ hstep ih =>
      obtain ⟨hl, -⟩ := hstep
      exact fun l' hl' => ih l' (mem_of_others hl hl')

theorem cleanupQuery_over (env : Env) {R : List Nat} {s : St} (h : Ended R s) :
    Sat (cleanupQuery env) s (fun _ s' => s' = s) (fun _ _ => False) := by
  have hcur : s.query.cursor ≤ s.backends.length := Nat.le_of_eq h.cursor
  have hnone : s.backends[s.query.cursor]? = none := by
    rw [h.cursor]
    simp
  simp only [cleanupQuery, currentBackend, clearTimeout, h.clean.timeout, sat_bind, sat_get, hcur,
    if_true, sat_pure, hnone]

/-- Freeing a query that has ended asks nothing of the system. -/
theorem queryFree_over (env : Env) {R : List Nat} {s : St} (h : Ended R s) :
    Sat (queryFree env) s (fun _ _ => True) (fun _ _ => False) := by
  simp only [queryFree, sat_bind]
  refine (cleanupQuery_over env h).mono (fun _ s' hs => ?_) (fun _ _ he => he)
  subst hs
  refine querySetState_none env _ _ _ fun s₂ hw hn _ _ _ => ?_
  have hok : s₂.query.nfds = 0 ∧ s₂.query.watches = [] :=
    ⟨hn.trans h.clean.nfds, hw.trans h.clean.watches⟩
  simp only [sat_get, if_pos hok, sat_pure]

theorem freeQueries_over (env : Env) : ∀ {queries : List Equipped} {c : Context},
    NetReachable ⟨queries.map (·.entry), c⟩ → (∀ l ∈ queries, l.entry.Over) →
    freeQueries env queries c ≠ .error (.query .abort) := by
  intro queries
  induction queries with
  | nil => exact fun _ _ herr => by cases herr
  | cons l rest ih =>
      intro c h hover herr
      obtain ⟨R, hrest⟩ := h.inv.rest l.entry (by simp)
      have hended : Ended R { toLocal := l.entry, context := c } :=
        hrest.over_iff.mp (hover l (by simp))
      simp only [freeQueries, bind, Except.bind] at herr
      rcases queryDestroy_cases env l.services { toLocal := l.entry, context := c } with
        ⟨s, hrun, hok, -⟩ | ⟨e, s, -, hfault⟩ | ⟨e, hrun, -⟩
      · rw [hrun] at herr
        refine ih ?_ (fun l' hl' => hover l' (List.mem_cons_of_mem _ hl')) herr
        exact .step h (netStep_free_first hok)
      · exact (queryFree_over env hended).of_error hfault
      · rw [hrun] at herr
        cases herr

/-- The query on one backend when it has ended. -/
def oneBackendEnded : St := Outcome.final (queryDispatch answersLater 1) oneBackendWaiting

theorem oneBackend_dispatch :
    queryDispatch answersLater 1 (Net.view ⟨[oneBackendWaiting.toLocal], oneBackendWaiting.context⟩
      oneBackendWaiting.toLocal) = .ok () oneBackendEnded := ok_of_returns rfl

theorem oneBackend_dispatched :
    Dispatched ⟨[oneBackendWaiting.toLocal], oneBackendWaiting.context⟩
      ⟨[oneBackendEnded.toLocal], oneBackendEnded.context⟩ := by
  have hl : [oneBackendWaiting.toLocal] = [] ++ oneBackendWaiting.toLocal :: [] := rfl
  have hw : ∃ x ∈ oneBackendWaiting.query.watches, x.id = 1 := ⟨_, List.mem_cons_self, rfl⟩
  exact .mk hl answersLater_timely hw oneBackend_dispatch

theorem oneBackend_blocking : Blocking ⟨[oneBackendEnded.toLocal], oneBackendEnded.context⟩ :=
  .query .init oneBackend_created (.turn (by decide) oneBackend_dispatched (.done rfl))

/-- The query that has ended, with no list of services. -/
def endedEquipped : Equipped := ⟨oneBackendEnded.toLocal, none⟩

end Netresolve
