/-
How long a query can take.

A backend is left at the latest when the request timer fires that was set for it, and then the
next one gets a timer of its own.  So if no event comes later than a timer that is set, a query
has ended after the request timeout times the number of backends.  The invariant is about the
stamps of the timers: that of the request timer is from the time of the backends before, and the
delayed timer takes no time worth mentioning.
-/
import Netresolve.Proofs.Blocking

namespace Netresolve

open Outcome

/-! ### Durations -/

theorem duration_requestTimeout {r : Request} (h : 0 < r.requestTimeout) :
    r.duration .requestTimeout = r.requestTimeout * 1000000 := by
  have hdiv := Int.tdiv_eq_ediv_of_nonneg (b := 1000) (Int.le_of_lt h)
  have hmod := Int.tmod_eq_emod_of_nonneg (b := 1000) (Int.le_of_lt h)
  simp only [Request.duration, Request.milliseconds, timeoutValueMs, timeoutValue,
    Timespec.nanoseconds, hdiv, hmod]
  split <;> omega

theorem duration_delayed (r : Request) : r.duration .delayed = 1 := rfl

/-- The time a query can spend on one backend. -/
def Local.period (l : Local) : Int := l.query.request.requestTimeout * 1000000

theorem Local.Timed.period_pos {l : Local} (h : l.Timed) : 1 ≤ l.period := by
  have := h.request
  unfold Local.period
  omega

theorem period_mul_le {period : Int} (h : 1 ≤ period) {i j : Nat} (hij : i ≤ j) :
    (i : Int) * period ≤ j * period :=
  Int.mul_le_mul_of_nonneg_right (Int.ofNat_le.mpr hij) (by omega)

theorem succ_mul_period (i : Nat) (period : Int) :
    ((i + 1 : Nat) : Int) * period = i * period + period := by
  rw [Int.natCast_succ, Int.add_mul, Int.one_mul]

/-! ### The clock and the context -/

theorem net_at (c : Clock) (time : Int) (queries : List Dated) (context : Context) :
    (c.at time queries context).net = ⟨queries.map (·.entry), context⟩ := rfl

theorem Punctual.timed {c : Clock} (h : Punctual c) : TimedReachable c.net := by
  induction h with
  | init => exact .init
  | @step c c' time _ _ _ hstep ih =>
      cases hstep with
      | created env hnew htimed henv hok =>
          have hstep' : Created c.net _ := .mk env hnew htimed henv hok
          rw [net_at, List.map_append]
          exact ih.created hstep'
      | @dispatched before after env d w s hd henv hw hok =>
          have hl : c.net.queries = before.map (·.entry) ++ d.entry :: after.map (·.entry) := by
            show c.queries.map (·.entry) = _
            rw [hd, List.map_append, List.map_cons]
          rw [net_at, List.map_append, List.map_cons]
          exact ih.dispatched (.mk hl henv hw hok)
      | @released before after env d s hd hok =>
          have hl : c.net.queries = before.map (·.entry) ++ d.entry :: after.map (·.entry) := by
            show c.queries.map (·.entry) = _
            rw [hd, List.map_append, List.map_cons]
          rw [net_at, List.map_append]
          exact ih.released (.mk hl hok)

/-- The number of a timer that is set was handed out before. -/
theorem AtRest.timer_lt {R : List Nat} {s : St} (h : AtRest R s) {t : Timer} {w : Nat}
    (ht : s.query.timeout t = some w) : w < s.context.next := by
  rcases h with hwaits | hended
  · exact hwaits.books.ledger.fresh w (List.mem_append_left _ (mem_timers ht))
  · rw [hended.clean.timeout t] at ht
    cases ht

theorem stamp_at (c : Clock) (time : Int) (queries : List Dated) (context : Context) {w : Nat}
    (hw : w < c.context.next) : (c.at time queries context).stamp w = c.stamp w := if_pos hw

theorem stamp_at_le (c : Clock) {time : Int} (hnow : ∀ n, c.stamp n ≤ time) (queries : List Dated)
    (context : Context) (w : Nat) : (c.at time queries context).stamp w ≤ time := by
  show (if w < c.context.next then c.stamp w else time) ≤ time
  split
  · exact hnow w
  · exact Int.le_refl _

/-! ### The invariant -/

/-- The timers of a query are from the time it is allowed for the backends before. -/
structure Dated.OnTime (stamp : Nat → Int) (d : Dated) : Prop where
  request : ∀ w, d.entry.query.requestTimeout = some w →
    stamp w ≤ d.born + d.entry.query.cursor * d.entry.period
  delayed : ∀ w, d.entry.query.delayed = some w →
    stamp w + 1 ≤ d.born + (d.entry.query.cursor + 1 : Nat) * d.entry.period
  ended : d.entry.Over → d.last ≤ d.born + d.entry.backends.length * d.entry.period

/-- No event comes later than the timer of the present backend. -/
theorem Dated.OnTime.bound {c : Clock} {d : Dated} (h : d.OnTime c.stamp) (hmem : d ∈ c.queries)
    {R : List Nat} (hwaits : Waits R (c.net.view d.entry))
    (hrested : Rested none (c.net.view d.entry)) {time : Int} (htime : c.InTime time) :
    time ≤ d.born + (d.entry.query.cursor + 1 : Nat) * d.entry.period := by
  have hdist := succ_mul_period d.entry.query.cursor d.entry.period
  obtain ⟨t, w, ht, hguard⟩ := hrested.timer hwaits
  have hle := htime d hmem t w ht
  rcases hguard with ⟨rfl, -⟩ | ⟨rfl, -⟩
  · have := h.delayed w ht
    rw [duration_delayed] at hle
    omega
  · have := h.request w ht
    rw [show d.entry.query.request.duration .requestTimeout = d.entry.period from
      duration_requestTimeout hrested.timed.request] at hle
    omega

/-- A query whose backend began at `time` at the latest, with timers no later than that. -/
theorem OnTime.of_event {R : List Nat} {d : Dated} {c : Context} {stamp : Nat → Int} {time : Int}
    (hrest : AtRest R { toLocal := d.entry, context := c })
    (htimed : d.entry.Timed) (hlast : d.last = time) (hstamp : ∀ n, stamp n ≤ time)
    (hrequest : ∀ w, d.entry.query.requestTimeout = some w →
      stamp w ≤ d.born + d.entry.query.cursor * d.entry.period)
    (htime : d.entry.query.state = .resolved ∨ d.entry.Over →
      time ≤ d.born + d.entry.query.cursor * d.entry.period) : d.OnTime stamp := by
  have hpos := htimed.period_pos
  refine ⟨hrequest, fun w hw => ?_, fun hover => ?_⟩
  · have hres : d.entry.query.state = .resolved := by
      rcases hrest with hwaits | hended
      · have hset : (d.entry.query.timeout .delayed).isSome := by
          show d.entry.query.delayed.isSome
          rw [hw]
          rfl
        exact (due_delayed _).mp (hwaits.timers .delayed hset)
      · have hnone : d.entry.query.delayed = none := hended.clean.timeout .delayed
        rw [hnone] at hw
        cases hw
    have h₁ := htime (Or.inl hres)
    have h₂ := hstamp w
    have h₃ := succ_mul_period d.entry.query.cursor d.entry.period
    omega
  · rw [hlast, ← hover.cursor]
    exact htime (Or.inr hover)

/-- The timers of the queries that have no part in an event are those they had. -/
theorem Dated.OnTime.elsewhere {c : Clock} {d : Dated} (h : d.OnTime c.stamp) {R : List Nat}
    (hrest : AtRest R (c.net.view d.entry)) (time : Int) (queries : List Dated)
    (context : Context) : d.OnTime (c.at time queries context).stamp := by
  refine ⟨fun w hw => ?_, fun w hw => ?_, h.ended⟩
  · rw [stamp_at c time queries context (hrest.timer_lt (t := .requestTimeout) hw)]
    exact h.request w hw
  · rw [stamp_at c time queries context (hrest.timer_lt (t := .delayed) hw)]
    exact h.delayed w hw

theorem onTime_created {s : St} {R : List Nat} {stamp : Nat → Int} {time : Int}
    (hrest : AtRest R s) (htimed : s.toLocal.Timed) (hstamp : ∀ n, stamp n ≤ time) :
    Dated.OnTime stamp ⟨time, time, s.toLocal⟩ := by
  have hpos := htimed.period_pos
  have hnonneg : 0 ≤ (s.query.cursor : Int) * s.toLocal.period :=
    Int.mul_nonneg (Int.natCast_nonneg _) (by omega)
  refine OnTime.of_event (c := s.context) hrest htimed rfl hstamp (fun w _ => ?_) fun _ => ?_
  · have := hstamp w
    show stamp w ≤ time + (s.query.cursor : Int) * s.toLocal.period
    omega
  · show time ≤ time + (s.query.cursor : Int) * s.toLocal.period
    omega

theorem onTime_dispatched {c : Clock} {d : Dated} {s : St} {R R' : List Nat} {time : Int}
    (h : d.OnTime c.stamp) (hwaits : Waits R (c.net.view d.entry)) (hrest : AtRest R' s)
    (hrested : Rested (some (d.entry.query.cursor, d.entry.query.requestTimeout)) s)
    (hfix : Fixed (c.net.view d.entry) s)
    (htime : time ≤ d.born + (d.entry.query.cursor + 1 : Nat) * d.entry.period)
    (hstamp : ∀ n, c.stamp n ≤ time) (queries : List Dated) :
    Dated.OnTime (c.at time queries s.context).stamp ⟨d.born, time, s.toLocal⟩ := by
  have hperiod : s.toLocal.period = d.entry.period := by
    unfold Local.period
    rw [hfix.requestTimeout]
    rfl
  have hpos := hrested.timed.period_pos
  have hlater : ∀ {i : Nat}, d.entry.query.cursor < i → time ≤ d.born + i * s.toLocal.period := by
    intro i hi
    have := period_mul_le hpos (Nat.succ_le_of_lt hi)
    rw [hperiod] at this ⊢
    exact Int.le_trans htime (Int.add_le_add_left this d.born)
  have hstamp' := stamp_at_le c hstamp queries s.context
  refine OnTime.of_event (c := s.context) hrest hrested.timed rfl hstamp' (fun w hw => ?_)
    fun hend => ?_
  · obtain ⟨hle, hsame⟩ := hrested.onward _ rfl
    show (c.at time queries s.context).stamp w ≤ d.born + s.query.cursor * s.toLocal.period
    rcases Nat.eq_or_lt_of_le hle with heq | hlt
    · -- The backend goes on, and its timer is the one it had.
      have hold : d.entry.query.timeout .requestTimeout = some w := (hsame heq.symm).symm.trans hw
      rw [stamp_at c time queries s.context (AtRest.timer_lt (Or.inl hwaits) hold), ← heq, hperiod]
      exact h.request w hold
    · exact Int.le_trans (hstamp' w) (hlater hlt)
  · refine hlater ?_
    rcases hend with hres | hover
    · exact (hrested.resolved hres).2 _ rfl
    · exact (hrested.ended hover.state).2 _ rfl

/-- The timers of all queries are on time. -/
theorem Punctual.onTime {c : Clock} (h : Punctual c) :
    (∀ n, c.stamp n ≤ c.now) ∧ ∀ d ∈ c.queries, d.OnTime c.stamp := by
  induction h with
  | init => exact ⟨fun _ => Int.le_refl _, by simp⟩
  | @step c c' time hc hnow htime hstep ih =>
      obtain ⟨hpast, hall⟩ := ih
      have hstamp : ∀ n, c.stamp n ≤ time := fun n => Int.le_trans (hpast n) hnow
      have hrest : ∀ d ∈ c.queries, ∃ R, AtRest R (c.net.view d.entry) :=
        fun d hd => hc.timed.toNet.inv.rest _ (List.mem_map_of_mem hd)
      have hrest' : ∀ d ∈ c'.queries, ∃ R, AtRest R (c'.net.view d.entry) := fun d hd =>
        (Punctual.step hc hnow htime hstep).timed.toNet.inv.rest _ (List.mem_map_of_mem hd)
      have hold : ∀ queries context, ∀ d ∈ c.queries,
          d.OnTime (c.at time queries context).stamp := by
        intro queries context d hd
        obtain ⟨R, hR⟩ := hrest d hd
        exact (hall d hd).elsewhere hR time queries context
      cases hstep with
      | @created env l s hnew htimed henv hok =>
          refine ⟨stamp_at_le c hstamp _ _, fun d hd => ?_⟩
          rcases List.mem_append.mp hd with hmem | hlast
          · exact hold _ _ d hmem
          · obtain rfl := List.mem_singleton.mp hlast
            obtain ⟨R, hR⟩ := hrest' _ hd
            have hrested := (start_rested hnew htimed henv (backends_ne_nil hok)).of_ok hok
            exact onTime_created (s := s) hR hrested.timed (stamp_at_le c hstamp _ _)
      | @dispatched before after env d w s hd henv hw hok =>
          have hmem : d ∈ c.queries := by rw [hd]; simp
          obtain ⟨R, hR⟩ := hrest d hmem
          have hwaits : Waits R (c.net.view d.entry) := by
            refine hR.resolve_right fun hended => ?_
            obtain ⟨x, hx, -⟩ := hw
            exact hended.no_watch hx
          have hrested : Rested none (c.net.view d.entry) :=
            hc.timed.armed _ (List.mem_map_of_mem hmem)
          refine ⟨stamp_at_le c hstamp _ _, fun d' hd' => ?_⟩
          rcases List.mem_append.mp hd' with hbefore | hafter
          · exact hold _ _ d' (by rw [hd]; exact List.mem_append_left _ hbefore)
          · rcases List.mem_cons.mp hafter with rfl | hafter
            · obtain ⟨R', hR'⟩ := hrest' _ hd'
              have hfix := ((queryDispatch_rest env ⟨Fixed.refl _, hR⟩
                ⟨henv.toWellBehaved, Or.inl hrested.timed.result⟩ hw).of_ok hok).1
              exact onTime_dispatched (hall d hmem) hwaits hR'
                ((dispatch_rested hrested hwaits henv hw).of_ok hok) hfix
                ((hall d hmem).bound hmem hwaits hrested htime) hstamp _
            · refine hold _ _ d' ?_
              rw [hd]
              exact List.mem_append_right _ (List.mem_cons_of_mem _ hafter)
      | @released before after env d s hd hok =>
          refine ⟨stamp_at_le c hstamp _ _, fun d' hd' => hold _ _ d' ?_⟩
          rw [hd]
          rcases List.mem_append.mp hd' with hbefore | hafter
          · exact List.mem_append_left _ hbefore
          · exact List.mem_append_right _ (List.mem_cons_of_mem _ hafter)

/--
**A query ends in time.**  If no event comes later than a timer that is set, a query has ended
when the request timeout, in nanoseconds, has passed once for each backend of its list: it ended
with an event before, or no event can come later.
-/
theorem ends_in_time {c : Clock} (h : Punctual c) {d : Dated} (hd : d ∈ c.queries) :
    (d.entry.Over → d.last ≤
      d.born + d.entry.backends.length * (d.entry.query.request.requestTimeout * 1000000)) ∧
    (¬ d.entry.Over → ∀ time, c.InTime time → time ≤
      d.born + d.entry.backends.length * (d.entry.query.request.requestTimeout * 1000000)) := by
  have honTime := h.onTime.2 d hd
  refine ⟨honTime.ended, fun hover time htime => ?_⟩
  obtain ⟨R, hR⟩ := h.timed.toNet.inv.rest _ (List.mem_map_of_mem hd)
  have hwaits : Waits R (c.net.view d.entry) :=
    hR.resolve_right fun he => hover (hR.over_iff.mpr he)
  have hrested : Rested none (c.net.view d.entry) := h.timed.armed _ (List.mem_map_of_mem hd)
  refine Int.le_trans (honTime.bound hd hwaits hrested htime) (Int.add_le_add_left ?_ d.born)
  exact period_mul_le hrested.timed.period_pos (Nat.succ_le_of_lt hwaits.cursor)

/-- A query on two backends that ask somebody else. -/
def twoAsked : Local := { query := { id := 0 }, backends := [{}, {}] }

/-- It waits for the first backend, then for the second one, which answers. -/
def firstAsked : St := final (queryStart answersLater) (Net.view ⟨[], {}⟩ twoAsked)

def secondAsked : St := final (queryDispatch answersLater 2) firstAsked

def secondEnded : St := final (queryDispatch answersLater 4) secondAsked

theorem twoAsked_new : twoAsked.New := by
  refine ⟨rfl, rfl, rfl, rfl, fun t => by cases t <;> rfl, rfl, rfl, fun b hb => ?_⟩
  obtain rfl : b = {} := by simpa [twoAsked] using hb
  rfl

/-- A query whose only timer is that of the request is in time as long as that one is. -/
theorem inTime_of_request {c : Clock} {d : Dated} {time : Int} {w : Nat} (hd : c.queries = [d])
    (htimers : (d.entry.query.delayed, d.entry.query.requestTimeout, d.entry.query.resultTimeout) =
      (none, some w, none))
    (htime : time ≤ c.stamp w + d.entry.query.request.duration .requestTimeout) :
    c.InTime time := by
  simp only [Prod.mk.injEq] at htimers
  obtain ⟨hdelayed, hrequest, hresult⟩ := htimers
  intro d' hd' t w' ht
  rw [hd] at hd'
  obtain rfl := List.mem_singleton.mp hd'
  cases t with
  | requestTimeout =>
      obtain rfl := Option.some.inj (hrequest.symm.trans ht)
      exact htime
  | delayed => cases hdelayed.symm.trans ht
  | resultTimeout => cases hresult.symm.trans ht

/-- The request timer ends the first backend, and the second one answers five milliseconds later. -/
theorem ends_in_time_two : ∃ c : Clock, Punctual c ∧ ∃ d ∈ c.queries, d.last = 15005000000 ∧
    d.last ≤ d.born + 2 * (15000 * 1000000) := by
  obtain ⟨s₁, hs₁⟩ : ∃ s, firstAsked = s := ⟨_, rfl⟩
  obtain ⟨s₂, hs₂⟩ : ∃ s, secondAsked = s := ⟨_, rfl⟩
  obtain ⟨s₃, hs₃⟩ : ∃ s, secondEnded = s := ⟨_, rfl⟩
  have hstart : queryStart answersLater (Net.view ⟨[], {}⟩ twoAsked) = .ok () s₁ := by
    rw [← hs₁]
    exact ok_of_returns (by decide +kernel)
  have hfirst : queryDispatch answersLater 2 s₁ = .ok () s₂ := by
    rw [← hs₁, ← hs₂]
    exact ok_of_returns (by decide +kernel)
  have hsecond : queryDispatch answersLater 4 s₂ = .ok () s₃ := by
    rw [← hs₂, ← hs₃]
    exact ok_of_returns (by decide +kernel)
  -- what is needed of the three states
  have hseen₁ : (s₁.query.delayed, s₁.query.requestTimeout, s₁.query.resultTimeout) =
      (none, some 2, none) ∧ s₁.query.request.duration .requestTimeout = 15000000000 ∧
      s₁.context.next = 3 ∧ ∃ x ∈ s₁.query.watches, x.id = 2 := by
    rw [← hs₁]
    decide +kernel
  have hseen₂ : (s₂.query.delayed, s₂.query.requestTimeout, s₂.query.resultTimeout) =
      (none, some 5, none) ∧ s₂.query.request.duration .requestTimeout = 15000000000 ∧
      ∃ x ∈ s₂.query.watches, x.id = 4 := by
    rw [← hs₂]
    decide +kernel
  have hseen₃ : s₃.query.state = .done ∧ s₃.query.cursor = s₃.backends.length ∧
      s₃.backends.length = 2 ∧ s₃.query.request.requestTimeout = 15000 := by
    rw [← hs₃]
    decide +kernel
  obtain ⟨htimers₁, hduration₁, hnext, hw₁⟩ := hseen₁
  obtain ⟨htimers₂, hduration₂, hw₂⟩ := hseen₂
  obtain ⟨hstate, hcursor, hlength, hrequest⟩ := hseen₃
  have hpunctual₁ : Punctual (Clock.at { queries := [] } 0 [⟨0, 0, s₁.toLocal⟩] s₁.context) :=
    .step .init (Int.le_refl 0) (fun d hd => by simp at hd)
      (.created answersLater twoAsked_new ⟨by decide, by decide⟩ answersLater_timely hstart)
  generalize hc₁ : Clock.at { queries := [] } 0 [⟨0, 0, s₁.toLocal⟩] s₁.context = c₁ at hpunctual₁
  have hd₁ : c₁.queries = [⟨0, 0, s₁.toLocal⟩] := by rw [← hc₁]; rfl
  have hcontext₁ : c₁.context = s₁.context := by rw [← hc₁]; rfl
  have hpunctual₂ : Punctual (c₁.at 15000000000 [⟨0, 15000000000, s₂.toLocal⟩] s₂.context) := by
    have hnow : c₁.now ≤ 15000000000 := by rw [← hc₁]; exact (by decide : (0 : Int) ≤ 15000000000)
    have hstamp : c₁.stamp 2 = 0 := by
      rw [← hc₁]
      rfl
    have hintime : c₁.InTime 15000000000 := inTime_of_request hd₁ htimers₁ (by
      rw [hstamp]
      exact hduration₁ ▸ Int.le_of_eq (Int.zero_add _).symm)
    have hview : c₁.net.view s₁.toLocal = s₁ := by
      show ({ toLocal := s₁.toLocal, context := c₁.context } : St) = s₁
      rw [hcontext₁]
    exact .step hpunctual₁ hnow hintime (@Ticked.dispatched _ _ [] [] _ ⟨0, 0, s₁.toLocal⟩ 2 s₂ hd₁
      answersLater_timely hw₁ (by rw [hview]; exact hfirst))
  generalize hc₂ : c₁.at 15000000000 [⟨0, 15000000000, s₂.toLocal⟩] s₂.context = c₂ at hpunctual₂
  have hd₂ : c₂.queries = [⟨0, 15000000000, s₂.toLocal⟩] := by rw [← hc₂]; rfl
  have hpunctual₃ : Punctual (c₂.at 15005000000 [⟨0, 15005000000, s₃.toLocal⟩] s₃.context) := by
    have hnow : c₂.now ≤ 15005000000 := by
      rw [← hc₂]
      exact (by decide : (15000000000 : Int) ≤ 15005000000)
    have hstamp : c₂.stamp 5 = 15000000000 := by
      rw [← hc₂]
      exact if_neg (by rw [hcontext₁, hnext]; decide)
    have hintime : c₂.InTime 15005000000 := inTime_of_request hd₂ htimers₂ (by
      rw [hstamp]
      exact hduration₂ ▸ (by decide : (15005000000 : Int) ≤ 15000000000 + 15000000000))
    have hview : c₂.net.view s₂.toLocal = s₂ := by
      rw [← hc₂]
      rfl
    exact .step hpunctual₂ hnow hintime (@Ticked.dispatched _ _ [] [] _ ⟨0, 15000000000, s₂.toLocal⟩ 4
      s₃ hd₂ answersLater_timely hw₂ (by rw [hview]; exact hsecond))
  refine ⟨_, hpunctual₃, ⟨0, 15005000000, s₃.toLocal⟩, List.mem_singleton.mpr rfl, rfl, ?_⟩
  have hends := (ends_in_time hpunctual₃ (List.mem_singleton.mpr rfl)).1 ⟨Or.inl hstate, hcursor⟩
  rw [hlength, hrequest] at hends
  exact hends

end Netresolve
