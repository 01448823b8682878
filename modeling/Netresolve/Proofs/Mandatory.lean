/-
Mandatory backends and the outcome of a query.

The README has a mandatory backend run even if another one has succeeded already, and
the application is to be called once, when all backends that have to run have ended.
The first half is what DONE is written for, and it holds as long as the second does.
But the restart is made by a nested state change, and the application is called when
that returns: once for every success, after the setup function of the mandatory
backend and not after its end, and once more when the query ends.  And if the mandatory
backend fails, the backends behind it are tried as if none had succeeded.

So the documented behaviour is that of the code exactly if no mandatory backend follows
a successful one.  Outcomes are assigned to the backends here, to be reported from the
setup function or from a watch; no timer but the one that delays a success fires.
-/
import Netresolve.Proofs.Timers
import Netresolve.Proofs.Loose
import Netresolve.Proofs.Reliable

namespace Netresolve

open Outcome Past

/-! ### Outcomes -/

/-- The calls that supply data and report nothing. -/
def Call.supplies : Call → Bool
  | .addPath _ => true
  | call => call.data

/-- For each backend, whether it succeeds, whether it says so at once, and its data. -/
structure Assignment where
  ok : Nat → Bool
  sync : Nat → Bool
  data : Nat → List Call

/-- The report of backend `i`. -/
def Assignment.report (a : Assignment) (i : Nat) : Call := if a.ok i then .finished else .failed

/-- The state the report leads to. -/
def Assignment.outcome (a : Assignment) (i : Nat) : QueryState :=
  if a.ok i then .resolved else .error

/-- The backends do as assigned, and no system call fails. -/
def Assignment.env (a : Assignment) (base : Env) : Env :=
  { base with
    setup := fun i => if a.sync i then a.data i ++ [a.report i] else [.newPriv true, .watchAdd 0]
    dispatch := fun i => a.data i ++ [a.report i]
    timerfd := fun _ => true
    eventfd := fun _ => true
    epollAdd := fun _ => true
    epollDel := fun _ => true }

/--
The assignment is one the backends of the query can have: only data come before the
report, a backend without a setup function fails at once, a query that may not wait has
no backend that reports later, and no path ends the query before its backend reports.
-/
structure Assignment.Valid (a : Assignment) (s₀ : St) : Prop where
  data : ∀ i, ∀ call ∈ a.data i, call.supplies = true
  absent : ∀ i b, s₀.backends[i]? = some b → b.setup s₀.query.request.type = false →
    a.ok i = false
  later : ∀ i, a.sync i = false → s₀.query.request.requestTimeout ≠ 0
  paths : s₀.query.request.resultTimeout ≠ 0 ∨ ∀ i args, Call.addPath args ∉ a.data i

/-- The events of such a query: its backends report, or the delayed success takes effect. -/
structure Assigned (a : Assignment) (base : Env) (s : St) (env : Env) (w : Nat) : Prop where
  env : env = a.env base
  timer : ∀ x ∈ s.query.watches, x.id = w → ∀ t, x.callback = .timeout t → t = .delayed

/-- The runs of such a query. -/
abbrev Assignment.Runs (a : Assignment) (base : Env) : St → St → Prop :=
  Reachable (· = a.env base) (Assigned a base)

/-! ### What is documented -/

/--
A backend is set up exactly if no earlier one succeeded or it is mandatory.  The
application is called once, after all these have ended, with DONE if one succeeded and
FAILED otherwise.
-/
structure Documented (a : Assignment) (bs : List Backend) (tr : List Obs) : Prop where
  setups : ∀ i, i < bs.length → (Entered .setup i tr ↔
    (∀ j, j < i → ¬ (Entered .setup j tr ∧ a.ok j = true)) ∨ Mandatory bs i)
  called : ∃ state i r past, tr = .callback state i r :: past ∧ ¬ CalledBack past ∧
    (∀ j, Entered .setup j past → Entered .done j past ∨ Entered .failed j past) ∧
    (state = .done ∨ state = .failed) ∧
    (state = .done ↔ ∃ j, Entered .setup j past ∧ a.ok j = true)

/-- No mandatory backend follows a successful one. -/
def Assignment.NoneFollows (a : Assignment) (bs : List Backend) : Prop :=
  ∀ i j, i < j → a.ok i = true → ¬ Mandatory bs j

/-! ### The trace -/

/-- How often the application was called. -/
def callbacks (tr : List Obs) : Nat :=
  tr.countP fun o => match o with
    | .callback _ _ _ => true
    | _ => false

@[simp] theorem callbacks_callback (state : QueryState) (i : Nat) (r : Response) (tr : List Obs) :
    callbacks (.callback state i r :: tr) = callbacks tr + 1 := by
  simp [callbacks]

@[simp] theorem callbacks_enter (state : QueryState) (i : Nat) (r : Response) (tr : List Obs) :
    callbacks (.enter state i r :: tr) = callbacks tr := by
  simp [callbacks]

theorem callbacks_plain {o : Obs} (ho : o.plain) (tr : List Obs) :
    callbacks (o :: tr) = callbacks tr := by
  cases o with
  | callback state i r => simp [Obs.plain] at ho
  | _ => simp [callbacks]

theorem calledBack_of_pos {tr : List Obs} (h : 0 < callbacks tr) : CalledBack tr := by
  obtain ⟨o, ho, hp⟩ := List.countP_pos_iff.mp h
  cases o with
  | callback state i r => exact ⟨state, i, r, ho⟩
  | _ => simp at hp

section

variable (a : Assignment) (bs : List Backend)

/-- No backend has succeeded yet: those before `c` have failed, in the order of the list. -/
structure Line (c upto : Nat) (tr : List Obs) : Prop where
  setups : ∀ i, Entered .setup i tr ↔ i < upto
  fails : ∀ i, i < c → Entered .failed i tr
  quiet : ¬ CalledBack tr
  before : ∀ i, i < c → a.ok i = false

/-- The query is on that line, or has been restarted and owes or has made a call too many. -/
def Going (k c upto : Nat) (tr : List Obs) : Prop :=
  k = 0 ∧ Line a c upto tr ∨ ¬ a.NoneFollows bs ∧ 1 ≤ callbacks tr + k

/-- How a query ends that never was restarted. -/
structure Once (tr : List Obs) : Prop where
  ends : ∃ state i r past c, tr = .callback state i r :: past ∧ ¬ CalledBack past ∧
    (∀ j, Entered .setup j past ↔ j ≤ c) ∧
    (∀ j, j < c → Entered .failed j past ∧ a.ok j = false) ∧
    (state = .done ∧ a.ok c = true ∧ Entered .done c past ∧ (∀ m, c < m → ¬ Mandatory bs m) ∨
      state = .failed ∧ a.ok c = false ∧ Entered .failed c past ∧ c + 1 = bs.length)

end

section

variable {a : Assignment} {bs : List Backend} {k c upto : Nat} {tr : List Obs}

theorem Line.plain (h : Line a c upto tr) {o : Obs} (ho : o.plain) : Line a c upto (o :: tr) := by
  refine ⟨fun i => ?_, fun i hi => ?_, ?_, h.before⟩
  · rw [entered_plain ho (Or.inl rfl)]
    exact h.setups i
  · rw [entered_plain ho (Or.inr (Or.inr rfl))]
    exact h.fails i hi
  · rw [calledBack_plain ho]
    exact h.quiet

theorem Line.setup (h : Line a c c tr) (r : Response) :
    Line a c (c + 1) (.enter .setup c r :: tr) := by
  refine ⟨fun i => ?_, fun i hi => by simpa using h.fails i hi, by simpa using h.quiet, h.before⟩
  simp only [entered_enter, true_and, h.setups i]
  omega

theorem Line.fail (h : Line a c (c + 1) tr) (r : Response) (hok : a.ok c = false) :
    Line a (c + 1) (c + 1) (.enter .failed c r :: tr) := by
  refine ⟨fun i => by simpa using h.setups i, fun i hi => ?_, by simpa using h.quiet,
    fun i hi => ?_⟩
  · rcases Nat.lt_succ_iff_lt_or_eq.mp hi with hlt | rfl
    · simpa using Or.inr (h.fails i hlt)
    · simp
  · rcases Nat.lt_succ_iff_lt_or_eq.mp hi with hlt | rfl
    · exact h.before i hlt
    · exact hok

theorem Going.plain (h : Going a bs k c upto tr) {o : Obs} (ho : o.plain) :
    Going a bs k c upto (o :: tr) := by
  rcases h with ⟨hk, hline⟩ | hagain
  · exact Or.inl ⟨hk, hline.plain ho⟩
  · refine Or.inr ?_
    rw [callbacks_plain ho]
    exact hagain

theorem Going.setup (h : Going a bs k c c tr) (r : Response) :
    Going a bs k c (c + 1) (.enter .setup c r :: tr) := by
  rcases h with ⟨hk, hline⟩ | hagain
  · exact Or.inl ⟨hk, hline.setup r⟩
  · exact Or.inr (by simpa using hagain)

theorem Going.fail (h : Going a bs k c (c + 1) tr) (r : Response) (hok : a.ok c = false) :
    Going a bs k (c + 1) (c + 1) (.enter .failed c r :: tr) := by
  rcases h with ⟨hk, hline⟩ | hagain
  · exact Or.inl ⟨hk, hline.fail r hok⟩
  · exact Or.inr (by simpa using hagain)

/-- Once a query has been restarted it owes a call, or has made one. -/
theorem Going.again (h : Going a bs (k + 1) c upto tr) :
    ¬ a.NoneFollows bs ∧ 1 ≤ callbacks tr + (k + 1) := by
  rcases h with ⟨hk, -⟩ | hagain
  · omega
  · exact hagain

/-- The end after FAILED, with the message that may come before it. -/
theorem Going.failed_end (h : Going a bs k (c + 1) (c + 1) tr) (hent : Entered .failed c tr)
    (hok : a.ok c = false) (hc : c + 1 = bs.length) (r : Response) :
    k = 0 ∧ Once a bs (.callback .failed bs.length r :: tr) ∨ ¬ a.NoneFollows bs ∧
      2 ≤ callbacks (.callback .failed bs.length r :: tr) + k := by
  rcases h with ⟨hk, hline⟩ | ⟨hnot, hle⟩
  · refine Or.inl ⟨hk, ⟨_, _, r, tr, c, rfl, hline.quiet, fun j => ?_, fun j hj => ?_, ?_⟩⟩
    · rw [hline.setups j]
      omega
    · exact ⟨hline.fails j (by omega), hline.before j (by omega)⟩
    · exact Or.inr ⟨rfl, hok, hent, hc⟩
  · refine Or.inr ⟨hnot, ?_⟩
    rw [callbacks_callback]
    omega

/-- The end after DONE, with no mandatory backend left. -/
theorem Going.done_end (h : Going a bs k c (c + 1) tr) (hok : a.ok c = true)
    (hnone : ∀ m, c < m → ¬ Mandatory bs m) (r r' : Response) :
    k = 0 ∧ Once a bs (.callback .done bs.length r' :: .enter .done c r :: tr) ∨
      ¬ a.NoneFollows bs ∧
        2 ≤ callbacks (.callback .done bs.length r' :: .enter .done c r :: tr) + k := by
  rcases h with ⟨hk, hline⟩ | ⟨hnot, hle⟩
  · refine Or.inl ⟨hk, ⟨_, _, r', _, c, rfl, by simpa using hline.quiet, fun j => ?_,
      fun j hj => ⟨by simpa using hline.fails j hj, hline.before j hj⟩, ?_⟩⟩
    · simp only [entered_enter, reduceCtorEq, false_and, false_or, hline.setups j]
      omega
    · exact Or.inl ⟨rfl, hok, by simp, hnone⟩
  · refine Or.inr ⟨hnot, ?_⟩
    rw [callbacks_callback, callbacks_enter]
    omega

/-! ### From the end of a run to what is documented -/

theorem Once.documented (h : Once a bs tr) : Documented a bs tr ∧ a.NoneFollows bs := by
  obtain ⟨state, i, r, past, c, rfl, hquiet, hsetups, hbefore, hend⟩ := h.ends
  have hsetups' : ∀ j, Entered .setup j (.callback state i r :: past) ↔ j ≤ c := by
    intro j
    rw [entered_cons]
    simpa using hsetups j
  have hok : ∀ j, j < c → a.ok j = false := fun j hj => (hbefore j hj).2
  refine ⟨⟨fun j hj => ?_, state, i, r, past, rfl, hquiet, fun j hj => ?_, ?_, ?_⟩, ?_⟩
  · simp only [hsetups']
    constructor
    · intro hle
      refine Or.inl fun l hl => ?_
      rw [hok l (by omega)]
      simp
    · intro hor
      by_contra hgt
      rcases hend with ⟨-, hokc, -, hnone⟩ | ⟨-, -, -, hlast⟩
      · rcases hor with hall | hm
        · exact hall c (by omega) ⟨Nat.le_refl c, hokc⟩
        · exact hnone j (by omega) hm
      · omega
  · have hle := (hsetups j).mp hj
    rcases Nat.lt_or_eq_of_le hle with hlt | rfl
    · exact Or.inr (hbefore j hlt).1
    · rcases hend with ⟨-, -, hd, -⟩ | ⟨-, -, hf, -⟩
      · exact Or.inl hd
      · exact Or.inr hf
  · rcases hend with ⟨hs, -⟩ | ⟨hs, -⟩
    · exact Or.inl hs
    · exact Or.inr hs
  · rcases hend with ⟨hs, hokc, -⟩ | ⟨hs, hokc, -⟩
    · exact iff_of_true hs ⟨c, (hsetups c).mpr (Nat.le_refl c), hokc⟩
    · refine iff_of_false (by rw [hs]; decide) ?_
      rintro ⟨j, hj, hokj⟩
      rcases Nat.lt_or_eq_of_le ((hsetups j).mp hj) with hlt | rfl
      · rw [hok j hlt] at hokj
        simp at hokj
      · rw [hokc] at hokj
        simp at hokj
  · intro l m hlm hokl
    rcases hend with ⟨-, -, -, hnone⟩ | ⟨-, hokc, -, hlast⟩
    · refine hnone m ?_
      by_contra hle
      rw [hok l (by omega)] at hokl
      simp at hokl
    · rintro ⟨b, hb, -⟩
      have hm := (List.getElem?_eq_some_iff.mp hb).1
      rw [hok l (by omega)] at hokl
      simp at hokl

theorem not_documented (h : 2 ≤ callbacks tr) : ¬ Documented a bs tr := by
  intro hdoc
  obtain ⟨state, i, r, past, rfl, hquiet, -⟩ := hdoc.called
  rw [callbacks_callback] at h
  exact hquiet (calledBack_of_pos (by omega))

end

/-! ### The stages -/

/-- What the running backend has still to do. -/
structure Acts (a : Assignment) (ph : Phase) (rest : List Call) (s : St) : Prop where
  acts :
    -- It has its report to make, and data before that.
    (∃ data, (∀ call ∈ data, call.supplies = true) ∧ rest = data ++ [a.report s.query.cursor] ∧
      (ph = .setup → a.sync s.query.cursor = true ∧ s.query.state = .setup)) ∨
    -- It has reported.
    (rest = [] ∧ s.query.state = a.outcome s.query.cursor ∧
      (ph = .setup → a.sync s.query.cursor = true ∧
        (a.ok s.query.cursor = true → s.query.delayed.isSome))) ∨
    -- It will report later, from a watch.
    (ph = .setup ∧ a.sync s.query.cursor = false ∧ s.query.state = .setup ∧
      (rest = [.newPriv true, .watchAdd 0] ∨ rest = [.watchAdd 0] ∨ rest = [] ∧ s.watched))

/-- What the query waits for. -/
def Awaits (a : Assignment) (s : St) : Prop :=
  s.query.state = .waiting ∧ a.sync s.query.cursor = false ∧ s.watched ∨
    s.query.state = .resolved ∧ a.ok s.query.cursor = true ∧ s.query.delayed.isSome

/-- The stages of an event that ends with the cursor at `b` or behind. -/
def assigned (a : Assignment) (bs : List Backend) (b : Nat) : Stages where
  ready k s := Going a bs k s.query.cursor s.query.cursor s.trace ∧ b ≤ s.query.cursor
  run k ph rest s := Acts a ph rest s ∧
    Going a bs k s.query.cursor (s.query.cursor + 1) s.trace ∧
    b ≤ s.query.cursor + 1 ∧ (ph = .setup → b ≤ s.query.cursor)
  fin k state s := (state = .done → a.ok s.query.cursor = true) ∧
    (state = .failed → a.ok s.query.cursor = false) ∧
    Going a bs k s.query.cursor (s.query.cursor + 1) s.trace ∧ b ≤ s.query.cursor + 1
  rest k s := (s.query.cursor < bs.length →
      Awaits a s ∧ Going a bs k s.query.cursor (s.query.cursor + 1) s.trace) ∧
    (s.query.cursor = bs.length → k = 0 ∧ Once a bs s.trace ∨
      ¬ a.NoneFollows bs ∧ 2 ≤ callbacks s.trace + k) ∧ b ≤ s.query.cursor
  bold _ _ _ := True

section

variable {a : Assignment} {ph : Phase} {rest : List Call} {call : Call} {s : St}

theorem not_supplies_report (a : Assignment) (i : Nat) : (a.report i).supplies = false := by
  unfold Assignment.report
  split <;> rfl

/-- A call that supplies data leaves the backend with the rest of what it has to do. -/
theorem Acts.supply (h : Acts a ph (call :: rest) s) (hs : call.supplies = true) :
    ∃ data, (∀ call ∈ data, call.supplies = true) ∧ rest = data ++ [a.report s.query.cursor] ∧
      (ph = .setup → a.sync s.query.cursor = true ∧ s.query.state = .setup) := by
  rcases h.acts with ⟨data, hdata, hrest, hph⟩ | ⟨hrest, -⟩ | ⟨-, -, -, hrest | hrest | ⟨hrest, -⟩⟩
  · cases data with
    | nil =>
        obtain ⟨rfl, -⟩ := List.cons.inj hrest
        rw [not_supplies_report] at hs
        simp at hs
    | cons d data =>
        exact ⟨data, fun c hc => hdata c (List.mem_cons_of_mem _ hc), (List.cons.inj hrest).2, hph⟩
  · simp at hrest
  · obtain ⟨rfl, -⟩ := List.cons.inj hrest
    simp [Call.supplies, Call.data] at hs
  · obtain ⟨rfl, -⟩ := List.cons.inj hrest
    simp [Call.supplies, Call.data] at hs
  · simp at hrest

/-- A report is the last call, and the one assigned. -/
theorem Acts.report (h : Acts a ph (call :: rest) s) (hcall : call = .finished ∨ call = .failed) :
    rest = [] ∧ call = a.report s.query.cursor ∧
      (ph = .setup → a.sync s.query.cursor = true ∧ s.query.state = .setup) := by
  rcases h.acts with ⟨data, hdata, hrest, hph⟩ | ⟨hrest, -⟩ | ⟨-, -, -, hrest | hrest | ⟨hrest, -⟩⟩
  · cases data with
    | nil =>
        obtain ⟨hc, hr⟩ := List.cons.inj hrest
        exact ⟨hr, hc, hph⟩
    | cons d data =>
        obtain ⟨rfl, -⟩ := List.cons.inj hrest
        have := hdata call List.mem_cons_self
        rcases hcall with rfl | rfl <;> simp [Call.supplies, Call.data] at this
  · simp at hrest
  · obtain ⟨rfl, -⟩ := List.cons.inj hrest
    simp at hcall
  · obtain ⟨rfl, -⟩ := List.cons.inj hrest
    simp at hcall
  · simp at hrest

/-- Private data and watches are for a backend that reports later. -/
theorem Acts.later (h : Acts a ph (call :: rest) s) (hs : call.supplies = false)
    (hcall : call ≠ .finished ∧ call ≠ .failed) :
    ph = .setup ∧ a.sync s.query.cursor = false ∧ s.query.state = .setup ∧
      (call = .newPriv true ∧ rest = [.watchAdd 0] ∨ call = .watchAdd 0 ∧ rest = []) := by
  rcases h.acts with ⟨data, hdata, hrest, -⟩ | ⟨hrest, -⟩ |
    ⟨hph, hsync, hstate, hrest | hrest | ⟨hrest, -⟩⟩
  · cases data with
    | nil =>
        obtain ⟨rfl, -⟩ := List.cons.inj hrest
        unfold Assignment.report at hcall
        split at hcall <;> simp at hcall
    | cons d data =>
        obtain ⟨rfl, -⟩ := List.cons.inj hrest
        rw [hdata call List.mem_cons_self] at hs
        simp at hs
  · simp at hrest
  · exact ⟨hph, hsync, hstate, Or.inl (List.cons.inj hrest)⟩
  · exact ⟨hph, hsync, hstate, Or.inr (List.cons.inj hrest)⟩
  · simp at hrest

/-- With nothing left to do, the backend has reported or waits for its watch. -/
theorem Acts.ended (h : Acts a ph [] s) :
    s.query.state = a.outcome s.query.cursor ∧
      (ph = .setup → a.sync s.query.cursor = true ∧
        (a.ok s.query.cursor = true → s.query.delayed.isSome)) ∨
    ph = .setup ∧ a.sync s.query.cursor = false ∧ s.query.state = .setup ∧ s.watched := by
  rcases h.acts with ⟨data, -, hrest, -⟩ | ⟨-, hstate, hph⟩ |
    ⟨hph, hsync, hstate, hrest | hrest | ⟨-, hw⟩⟩
  · simp at hrest
  · exact Or.inl ⟨hstate, hph⟩
  · simp at hrest
  · simp at hrest
  · exact Or.inr ⟨hph, hsync, hstate, hw⟩

theorem outcome_cases (a : Assignment) (i : Nat) :
    a.outcome i = .resolved ∧ a.ok i = true ∨ a.outcome i = .error ∧ a.ok i = false := by
  unfold Assignment.outcome
  cases a.ok i <;> simp

/-- A backend that still has its report to make, in a state that differs in data only. -/
theorem Acts.pending {s' : St}
    (h : ∃ data, (∀ call ∈ data, call.supplies = true) ∧
      rest = data ++ [a.report s.query.cursor] ∧
      (ph = .setup → a.sync s.query.cursor = true ∧ s.query.state = .setup))
    (hcur : s'.query.cursor = s.query.cursor)
    (hstate : ph = .setup → s'.query.state = s.query.state) : Acts a ph rest s' := by
  obtain ⟨data, hdata, hrest, hph⟩ := h
  refine ⟨Or.inl ⟨data, hdata, by rw [hcur]; exact hrest, fun hs => ?_⟩⟩
  rw [hcur, hstate hs]
  exact hph hs

theorem Acts.congr {s' : St} (h : Acts a ph rest s) (hcur : s'.query.cursor = s.query.cursor)
    (hstate : s'.query.state = s.query.state) (hdelayed : s'.query.delayed = s.query.delayed)
    (hwatches : s'.query.watches = s.query.watches) : Acts a ph rest s' := by
  have hw : s'.watched ↔ s.watched := by unfold St.watched; rw [hwatches, hcur]
  refine ⟨?_⟩
  rw [hcur, hstate, hdelayed, hw]
  exact h.acts

/-- A waiting query has its backend's report still to come. -/
theorem Acts.waiting (h : Acts a ph rest s) (hw : s.query.state = .waiting) :
    ph = .dispatch ∧ ∃ data, (∀ call ∈ data, call.supplies = true) ∧
      rest = data ++ [a.report s.query.cursor] ∧
      (ph = .setup → a.sync s.query.cursor = true ∧ s.query.state = .setup) := by
  rcases h.acts with hp | ⟨-, hstate, -⟩ | ⟨-, -, hstate, -⟩
  · obtain ⟨data, hdata, hrest, hph⟩ := hp
    refine ⟨?_, data, hdata, hrest, hph⟩
    cases ph with
    | dispatch => rfl
    | setup =>
        have := (hph rfl).2
        rw [hw] at this
        simp at this
  · rcases outcome_cases a s.query.cursor with ⟨ho, -⟩ | ⟨ho, -⟩ <;> rw [hw, ho] at hstate <;>
      simp at hstate
  · rw [hw] at hstate
    simp at hstate

end

section

variable {a : Assignment} {base : Env} {R : List Nat} {s₀ s : St} {b k : Nat}

theorem Fixed.backend (h : Fixed s₀ s) {i : Nat} {backend : Backend}
    (hb : s.backends[i]? = some backend) :
    ∃ backend₀, s₀.backends[i]? = some backend₀ ∧ backend₀.setup = backend.setup := by
  have hmap : (s₀.backends.map Backend.shape)[i]? = some backend.shape := by
    rw [← h.shape, List.getElem?_map, hb]
    rfl
  rw [List.getElem?_map] at hmap
  obtain ⟨backend₀, hb₀, hshape⟩ := Option.map_eq_some_iff.mp hmap
  exact ⟨backend₀, hb₀, congrArg Prod.snd hshape⟩

theorem assigned_setUp (hvalid : a.Valid s₀) {backend : Backend} (hfix : Fixed s₀ s)
    (h : (assigned a s₀.backends b).ready k s) (hget : s.backends[s.query.cursor]? = some backend) :
    (backend.setup s.query.request.type = true →
      (assigned a s₀.backends b).run k .setup ((a.env base).setup s.query.cursor)
        (s.setUp backend)) ∧
    (backend.setup s.query.request.type = false →
      (assigned a s₀.backends b).fin k .failed (s.setUp backend)) := by
  obtain ⟨hgoing, hb⟩ := h
  have hgoing' := hgoing.setup s.query.response
  refine ⟨fun _ => ⟨⟨?_⟩, hgoing', Nat.le_succ_of_le hb, fun _ => hb⟩, fun hno => ?_⟩
  · cases hsync : a.sync s.query.cursor with
    | true =>
        refine Or.inl ⟨a.data s.query.cursor, hvalid.data _, ?_, fun _ => ⟨hsync, rfl⟩⟩
        simp only [Assignment.env, hsync, if_true]
        rfl
    | false =>
        refine Or.inr (Or.inr ⟨rfl, hsync, rfl, Or.inl ?_⟩)
        simp only [Assignment.env, hsync, Bool.false_eq_true, if_false]
  · obtain ⟨backend₀, hget₀, hsetup⟩ := hfix.backend hget
    refine ⟨fun hc => absurd hc (by decide), fun _ => ?_, hgoing', Nat.le_succ_of_le hb⟩
    refine hvalid.absent _ backend₀ hget₀ ?_
    rw [hsetup, ← hfix.type]
    exact hno

theorem called_of_callback {s : St} (h : s.query.callback = true) :
    s.called = { s with
      trace := .callback s.query.state s.query.cursor s.query.response :: s.trace } := by
  simp [St.called, h]

theorem assigned_done (hcb : s₀.query.callback = true)
    (h : (assigned a s₀.backends b).fin k .done s) {s₁ : St} (hfix : Fixed s₀ s₁)
    (hf : Frame (s.entered .done) s₁) (hlt : s₁.query.cursor < s₁.backends.length) :
    if s₁.afterDone.2 then (assigned a s₀.backends b).ready (k + 1) (s₁.moved s₁.afterDone.1)
    else (assigned a s₀.backends b).rest k (s₁.moved s₁.afterDone.1).called := by
  obtain ⟨hok, -, hgoing, hb⟩ := h
  have hok := hok rfl
  have hcur : s₁.query.cursor = s.query.cursor := hf.cursor
  have hstate : s₁.query.state = .done := hf.state
  have htrace : s₁.trace = .enter .done s.query.cursor s.query.response :: s.trace := hf.trace
  have hlen := hfix.length
  cases hnext : s₁.afterDone.2 with
  | true =>
      obtain ⟨hgt, -, hm⟩ := afterDone_found hnext
      rw [hcur] at hgt
      refine ⟨Or.inr ⟨fun hnone => ?_, Nat.le_add_left 1 _⟩, ?_⟩
      · exact hnone _ _ hgt hok ((mandatory_congr hfix.shape _).mp hm)
      · show b ≤ s₁.afterDone.1
        omega
  | false =>
      have hend : s₁.afterDone.1 = s₀.backends.length := by
        obtain ⟨-, -, -, h₄⟩ := nextMandatory_spec (s₁.backends.drop (s₁.query.cursor + 1))
          (s₁.query.cursor + 1)
        have := h₄ hnext
        rw [List.length_drop] at this
        unfold St.afterDone
        omega
      have hnone : ∀ m, s.query.cursor < m → ¬ Mandatory s₀.backends m := by
        intro m hgt hm
        have hm₁ := (mandatory_congr hfix.shape m).mpr hm
        refine afterDone_skips (by rw [hcur]; exact hgt) ?_ hm₁
        rw [hend]
        obtain ⟨_, hb, -⟩ := hm
        exact (List.getElem?_eq_some_iff.mp hb).1
      have hcalled := called_of_callback (s := s₁.moved s₁.afterDone.1)
        (show s₁.query.callback = true by rw [hfix.callback]; exact hcb)
      rw [hend] at hcalled ⊢
      simp only [Bool.false_eq_true, if_false]
      rw [hcalled]
      refine ⟨fun hc => absurd hc (Nat.lt_irrefl _), fun _ => ?_, ?_⟩
      · show k = 0 ∧ Once a s₀.backends (.callback s₁.query.state _ _ :: s₁.trace) ∨ _ ∧
          2 ≤ callbacks (.callback s₁.query.state _ _ :: s₁.trace) + k
        rw [hstate, htrace]
        exact hgoing.done_end hok hnone _ _
      · show b ≤ s₀.backends.length
        omega

theorem assigned_leave (hcb : s₀.query.callback = true)
    (h : (assigned a s₀.backends b).fin k .failed s) {s₁ : St} (hfix : Fixed s₀ s₁)
    (hf : Frame (s.entered .failed).warned s₁) (hle : s₁.query.cursor + 1 ≤ s₁.backends.length) :
    if s₁.query.cursor + 1 < s₁.backends.length
    then (assigned a s₀.backends b).ready k (s₁.moved (s₁.query.cursor + 1))
    else (assigned a s₀.backends b).rest k (s₁.moved (s₁.query.cursor + 1)).called := by
  obtain ⟨-, hok, hgoing, hb⟩ := h
  have hok := hok rfl
  have hwarn : (s.entered .failed).warned.query = (s.entered .failed).query ∧
      Going a s₀.backends k (s.query.cursor + 1) (s.query.cursor + 1)
        (s.entered .failed).warned.trace ∧
      Entered .failed s.query.cursor (s.entered .failed).warned.trace := by
    have hfail := hgoing.fail s.query.response hok
    rcases warned_cases (s.entered .failed) with hw | hw <;> rw [hw]
    · exact ⟨rfl, hfail, s.query.response, List.mem_cons_self⟩
    · exact ⟨rfl, hfail.plain rfl, s.query.response, List.mem_cons_of_mem _ List.mem_cons_self⟩
  obtain ⟨hq, hgoing', hent⟩ := hwarn
  have hcur : s₁.query.cursor = s.query.cursor := hf.cursor.trans (by rw [hq]; rfl)
  have hstate : s₁.query.state = .failed := hf.state.trans (by rw [hq]; rfl)
  have hlen := hfix.length
  rw [← hf.trace, ← hcur] at hgoing' hent
  rw [← hcur] at hok hb
  split
  · exact ⟨hgoing', hb⟩
  · have hend : s₁.query.cursor + 1 = s₀.backends.length := by omega
    have hcalled := called_of_callback (s := s₁.moved (s₁.query.cursor + 1))
      (show s₁.query.callback = true by rw [hfix.callback]; exact hcb)
    rw [hcalled]
    refine ⟨fun hc => absurd hc ?_, fun _ => ?_, hb⟩
    · show ¬ s₁.query.cursor + 1 < s₀.backends.length
      omega
    · show k = 0 ∧ Once a s₀.backends (.callback s₁.query.state (s₁.query.cursor + 1) _ ::
        s₁.trace) ∨ _ ∧ 2 ≤ callbacks (.callback s₁.query.state (s₁.query.cursor + 1) _ ::
        s₁.trace) + k
      rw [hstate, hend]
      exact hgoing'.failed_end hent hok hend _

/-- The report is made, and the state is the one it leads to. -/
theorem assigned_reported {ph : Phase} {call : Call} {rest : List Call} {s' : St}
    (h : (assigned a s₀.backends b).run k ph (call :: rest) s)
    (hcall : call = .finished ∨ call = .failed)
    (hcur : s'.query.cursor = s.query.cursor) (hstate : s'.query.state =
      if call = .finished then .resolved else .error)
    (htrace : s'.trace = .report s.query.cursor call :: s.trace ∨
      ∃ state r, state ≠ .setup ∧ state ≠ .done ∧ state ≠ .failed ∧
        s'.trace = .enter state s.query.cursor r :: .report s.query.cursor call :: s.trace)
    (hdelayed : call = .finished → s.query.state = .setup → s'.query.delayed.isSome) :
    (assigned a s₀.backends b).run k ph rest s' := by
  obtain ⟨hacts, hgoing, hb, hb'⟩ := h
  obtain ⟨rfl, hrep, hph⟩ := hacts.report hcall
  have hout : s'.query.state = a.outcome s.query.cursor := by
    rw [hstate, hrep]
    unfold Assignment.report Assignment.outcome
    cases a.ok s.query.cursor <;> rfl
  refine ⟨⟨Or.inr (Or.inl ⟨rfl, by rw [hcur]; exact hout, fun hs => ?_⟩)⟩, ?_, by rw [hcur]; exact hb,
    fun hs => by rw [hcur]; exact hb' hs⟩
  · rw [hcur]
    refine ⟨(hph hs).1, fun hok => hdelayed ?_ (hph hs).2⟩
    rw [hrep]
    simp [Assignment.report, hok]
  · rw [hcur]
    rcases htrace with htr | ⟨state, r, h₁, h₂, h₃, htr⟩ <;> rw [htr]
    · exact hgoing.plain rfl
    · refine (hgoing.plain rfl).plain ?_
      cases state <;> first | rfl | contradiction

/-- A step that leaves the cursor where it is, with what the backend has to do then. -/
theorem assigned_go {ph : Phase} {calls rest : List Call} {o : Obs} {s' : St}
    (h : (assigned a s₀.backends b).run k ph calls s) (hacts : Acts a ph rest s')
    (hcur : s'.query.cursor = s.query.cursor) (htrace : s'.trace = o :: s.trace) (ho : o.plain) :
    (assigned a s₀.backends b).run k ph rest s' := by
  obtain ⟨-, hgoing, hb, hb'⟩ := h
  refine ⟨hacts, ?_, ?_, ?_⟩
  · rw [hcur, htrace]
    exact hgoing.plain ho
  · rw [hcur]; exact hb
  · rw [hcur]; exact hb'

/-- A call that supplies data. -/
theorem assigned_supply {ph : Phase} {call : Call} {rest : List Call} {s' : St}
    (h : (assigned a s₀.backends b).run k ph (call :: rest) s) (hs : call.supplies = true)
    (hcur : s'.query.cursor = s.query.cursor) (hstate : s'.query.state = s.query.state)
    (htrace : s'.trace = .report s.query.cursor call :: s.trace) :
    (assigned a s₀.backends b).run k ph rest s' :=
  assigned_go h (Acts.pending (h.1.supply hs) hcur fun _ => hstate) hcur htrace rfl

/-- A backend that reports later makes itself a watch. -/
theorem assigned_later {ph : Phase} {call : Call} {rest : List Call} {s' : St}
    (h : (assigned a s₀.backends b).run k ph (call :: rest) s) (hs : call.supplies = false)
    (hcall : call ≠ .finished ∧ call ≠ .failed) (hf : Frame (s.reported call) s')
    (hw : call = .watchAdd 0 → s'.watched) :
    call ≠ .newPriv false ∧ (assigned a s₀.backends b).run k ph rest s' := by
  obtain ⟨hph, hsync, hstate, hor⟩ := h.1.later hs hcall
  have hcur : s'.query.cursor = s.query.cursor := hf.cursor
  have htrace : s'.trace = .report s.query.cursor call :: s.trace := hf.trace
  have hstate' : s'.query.state = .setup := hf.state.trans hstate
  refine ⟨?_, assigned_go h ⟨Or.inr (Or.inr ⟨hph, by rw [hcur]; exact hsync, hstate', ?_⟩)⟩
    hcur htrace rfl⟩
  · rcases hor with ⟨rfl, -⟩ | ⟨rfl, -⟩ <;> simp
  · rcases hor with ⟨-, rfl⟩ | ⟨rfl, rfl⟩
    · exact Or.inr (Or.inl rfl)
    · exact Or.inr (Or.inr ⟨rfl, hw rfl⟩)

/-- At rest before the end. -/
theorem assigned_rest (hlt : s.query.cursor < s₀.backends.length) (hawaits : Awaits a s)
    (hgoing : Going a s₀.backends k s.query.cursor (s.query.cursor + 1) s.trace)
    (hb : b ≤ s.query.cursor) : (assigned a s₀.backends b).rest k s :=
  ⟨fun _ => ⟨hawaits, hgoing⟩, fun hend => absurd hend (Nat.ne_of_lt hlt), hb⟩

theorem assigned_waiting (hlt : s.query.cursor < s₀.backends.length)
    (h : (assigned a s₀.backends b).run k .setup [] s) (hs : s.query.state = .setup) {s' : St}
    (hf : Frame (s.entered .waiting) s')
    (hwatches : ∀ x ∈ s.query.watches, x ∈ s'.query.watches) :
    (assigned a s₀.backends b).rest k s' := by
  obtain ⟨hacts, hgoing, -, hb⟩ := h
  have hcur : s'.query.cursor = s.query.cursor := hf.cursor
  have htrace : s'.trace = .enter .waiting s.query.cursor s.query.response :: s.trace := hf.trace
  rcases hacts.ended with ⟨hout, -⟩ | ⟨-, hsync, -, x, hx, hxcb⟩
  · rcases outcome_cases a s.query.cursor with ⟨ho, -⟩ | ⟨ho, -⟩ <;> rw [hs, ho] at hout <;>
      simp at hout
  · refine assigned_rest (by rw [hcur]; exact hlt) (Or.inl ⟨hf.state, ?_, x, hwatches x hx, ?_⟩)
      ?_ ?_
    · rw [hcur]; exact hsync
    · rw [hcur]; exact hxcb
    · rw [hcur, htrace]; exact hgoing.plain rfl
    · rw [hcur]; exact hb rfl

theorem assigned_called (hcb : s.query.callback = true)
    (h : (assigned a s₀.backends b).rest (k + 1) s) :
    (assigned a s₀.backends b).rest k s.called := by
  rw [called_of_callback hcb]
  obtain ⟨hwaits, hends, hb⟩ := h
  refine ⟨fun hlt => ?_, fun hend => Or.inr ?_, hb⟩
  · obtain ⟨hawaits, hgoing⟩ := hwaits hlt
    obtain ⟨hnot, hle⟩ := hgoing.again
    refine ⟨hawaits, Or.inr ⟨hnot, ?_⟩⟩
    show 1 ≤ callbacks (.callback _ _ _ :: s.trace) + k
    rw [callbacks_callback]
    omega
  · rcases hends hend with ⟨hk, -⟩ | ⟨hnot, hle⟩
    · omega
    · refine ⟨hnot, ?_⟩
      show 2 ≤ callbacks (.callback _ _ _ :: s.trace) + k
      rw [callbacks_callback]
      omega

theorem assigned_more {ph : Phase} {rest : List Call}
    (h : (assigned a s₀.backends b).run k ph rest s) (hw : s.query.state = .waiting) {s' : St}
    (hf : Frame (s.entered .waitingMore) s') : (assigned a s₀.backends b).run k ph rest s' := by
  obtain ⟨rfl, hpending⟩ := h.1.waiting hw
  exact assigned_go h (Acts.pending hpending hf.cursor fun hc => absurd hc (by decide))
    hf.cursor hf.trace rfl

/-- A backend that has reported ends as assigned. -/
theorem assigned_fin {ph : Phase} {state : QueryState}
    (h : (assigned a s₀.backends b).run k ph [] s)
    (hs : s.query.state = .resolved ∧ state = .done ∨ s.query.state = .error ∧ state = .failed) :
    (assigned a s₀.backends b).fin k state s := by
  obtain ⟨hacts, hgoing, hb, -⟩ := h
  have hout : s.query.state = a.outcome s.query.cursor := by
    rcases hacts.ended with ⟨hout, -⟩ | ⟨-, -, hsetup, -⟩
    · exact hout
    · rcases hs with ⟨hs, -⟩ | ⟨hs, -⟩ <;> rw [hsetup] at hs <;> simp at hs
  refine ⟨fun hd => ?_, fun hd => ?_, hgoing, hb⟩
  · rcases hs with ⟨hs, -⟩ | ⟨-, hf⟩
    · rcases outcome_cases a s.query.cursor with ⟨-, hok⟩ | ⟨ho, -⟩
      · exact hok
      · rw [hout, ho] at hs
        simp at hs
    · rw [hd] at hf
      simp at hf
  · rcases hs with ⟨-, hf⟩ | ⟨hs, -⟩
    · rw [hd] at hf
      simp at hf
    · rcases outcome_cases a s.query.cursor with ⟨ho, -⟩ | ⟨-, hok⟩
      · rw [hout, ho] at hs
        simp at hs
      · exact hok

/-- **An assignment of outcomes is carried out.** -/
theorem assigned_extends (hvalid : a.Valid s₀) (hcb : s₀.query.callback = true) :
    Extends (a.env base) (stages (a.env base) R s₀) (assigned a s₀.backends b)
      fun _ => True where
  frame_stop _ _ := trivial
  run_stop _ := trivial
  report_stop _ _ := trivial
  resolve_stop _ := trivial
  rest_stop _ := trivial
  setUp hP h hget := assigned_setUp hvalid hP.1 h hget
  waiting hP h hs _ _ hf hwatches := by
    refine assigned_waiting ?_ h hs hf hwatches
    rw [← hP.1.length]
    exact hP.2.1.cursor
  impatient := by
    intro k s hP h hs ht
    rcases h.1.ended with ⟨hout, -⟩ | ⟨-, hsync, -, -⟩
    · rcases outcome_cases a s.query.cursor with ⟨ho, -⟩ | ⟨ho, -⟩ <;> rw [hs, ho] at hout <;>
        simp at hout
    · rw [hP.1.requestTimeout] at ht
      exact absurd ht (hvalid.later _ hsync)
  finished := by
    intro k ph rest s _ h s' hf hdelayed
    have hres : (s.reported .finished).toResolved.query.cursor = s.query.cursor ∧
        (s.reported .finished).toResolved.query.state = .resolved ∧
        ((s.reported .finished).toResolved.trace = .report s.query.cursor .finished :: s.trace ∨
          ∃ state r, state ≠ .setup ∧ state ≠ .done ∧ state ≠ .failed ∧
            (s.reported .finished).toResolved.trace =
              .enter state s.query.cursor r :: .report s.query.cursor .finished :: s.trace) := by
      unfold St.toResolved
      split
      · rename_i hs
        exact ⟨rfl, hs, Or.inl rfl⟩
      · exact ⟨rfl, rfl, Or.inr ⟨.resolved, _, by decide, by decide, by decide, rfl⟩⟩
    obtain ⟨hcur, hstate, htrace⟩ := hres
    rw [← hf.trace] at htrace
    refine assigned_reported h (Or.inl rfl) (hf.cursor.trans hcur) (hf.state.trans hstate) htrace
      fun _ hs => hdelayed hs fun _ => rfl
  failed := by
    intro k ph rest s _ h
    unfold St.toError
    split
    · rename_i hs
      exact assigned_reported h (Or.inr rfl) rfl hs (Or.inl rfl) fun hc => absurd hc (by decide)
    · exact assigned_reported h (Or.inr rfl) rfl rfl
        (Or.inr ⟨.error, _, by decide, by decide, by decide, rfl⟩) fun hc => absurd hc (by decide)
  alloc := by
    intro k ph rest s allocated _ h s' hf
    obtain ⟨hne, hrun⟩ := assigned_later h rfl ⟨by simp, by simp⟩ hf (by simp)
    cases allocated with
    | true => exact hrun
    | false => exact absurd rfl hne
  watchAdd h _ hf hw := (assigned_later h rfl ⟨by simp, by simp⟩ hf fun _ => hw).2
  watchRemove := by
    intro k ph j doClose rest s h
    obtain ⟨-, -, -, hor⟩ := h.1.later rfl ⟨by simp, by simp⟩
    rcases hor with ⟨hc, -⟩ | ⟨hc, -⟩ <;> simp at hc
  write := by
    intro k ph call rest s hd h
    refine assigned_supply h ?_ rfl rfl rfl
    cases call <;> first | exact hd | rfl
  addPath h := ⟨assigned_supply h rfl rfl rfl rfl, fun _ => trivial⟩
  store path _ _ h _ := ⟨⟨h.1.congr rfl rfl rfl rfl, h.2.1.plain rfl, h.2.2⟩, trivial⟩
  more _ _ h _ hw _ _ hf := ⟨assigned_more h hw hf, trivial⟩
  zero _ hbold _ _ hw hz := by
    rcases hbold with h | h
    · exact absurd hz h
    · exact absurd hw h
  done hP h := by
    obtain ⟨hfix, -, -, hd, -⟩ := hP
    exact ⟨fun hs => absurd hs hd, fun _ => ⟨trivial, fun s₁ hf => ⟨trivial, fun hlt =>
      assigned_done hcb h ((hfix.entered .done).frame hf) hf hlt⟩⟩⟩
  leave := by
    intro k s hP h
    obtain ⟨hfix, -, -, -, hd⟩ := hP
    refine ⟨fun hs => absurd hs hd, fun _ => ⟨trivial, fun s₁ hf => ⟨trivial, fun hle => ?_⟩⟩⟩
    refine assigned_leave hcb h (Fixed.frame ?_ hf) hf hle
    rcases warned_cases (s.entered .failed) with hw | hw <;> rw [hw]
    · exact hfix.entered .failed
    · exact ⟨hfix.id, hfix.callback, hfix.type, hfix.requestTimeout, hfix.resultTimeout, hfix.shape,
        hfix.next⟩
  called hP h := assigned_called (by rw [hP.1.callback]; exact hcb) h
  settled := by
    intro k s hP h hs he
    obtain ⟨hacts, hgoing, -, hb⟩ := h
    refine assigned_rest ?_ (Or.inr ?_) hgoing (hb rfl)
    · rw [← hP.1.length]
      exact hP.2.1.cursor
    · rcases hacts.ended with ⟨hout, hph⟩ | ⟨-, -, hsetup, -⟩
      · rcases outcome_cases a s.query.cursor with ⟨ho, hok⟩ | ⟨ho, -⟩
        · exact ⟨hout.trans ho, hok, (hph rfl).2 hok⟩
        · exact absurd (hout.trans ho) he
      · exact absurd hsetup hs
  woken := by
    intro k s _ h hr he
    rcases h.1.ended with ⟨hout, -⟩ | ⟨hph, -⟩
    · rcases outcome_cases a s.query.cursor with ⟨ho, -⟩ | ⟨ho, -⟩
      · exact absurd (hout.trans ho) hr
      · exact absurd (hout.trans ho) he
    · simp at hph
  succeeded _ h hs := assigned_fin h (Or.inl ⟨hs, rfl⟩)
  broken := by
    rintro k ph s (⟨-, h⟩ | ⟨⟨-, hw | he⟩, -⟩) hs
    · exact assigned_fin h (Or.inr ⟨hs, rfl⟩)
    · rcases hw.state with h' | h' | h' <;> rw [hs] at h' <;> simp at h'
    · rcases he.state with h' | h' <;> rw [hs] at h' <;> simp at h'

end

/-! ### Whole runs -/

section

variable {a : Assignment} {base : Env} {s₀ s : St}

theorem assignment_reliable (a : Assignment) (base : Env) : (a.env base).Reliable :=
  ⟨fun _ => rfl, fun _ => rfl, fun _ => rfl, fun _ => rfl⟩

theorem keepsWatches_supplies (has : Bool) : ∀ (data rest : List Call),
    (∀ call ∈ data, call.supplies = true) → keepsWatches has rest = true →
    keepsWatches has (data ++ rest) = true := by
  intro data
  induction data with
  | nil => intro rest _ h; exact h
  | cons call data ih =>
      intro rest hdata h
      have hcall := hdata call List.mem_cons_self
      have hih := ih rest (fun c hc => hdata c (List.mem_cons_of_mem _ hc)) h
      cases call <;> first | exact hih | simp [Call.supplies, Call.data] at hcall

theorem keepsWatches_report (a : Assignment) (i : Nat) (has : Bool) :
    keepsWatches has [a.report i] = true := by
  unfold Assignment.report
  split <;> rfl

theorem Assignment.Valid.wellBehaved (h : a.Valid s₀) (base : Env) : (a.env base).WellBehaved := by
  constructor
  · intro i
    simp only [Assignment.env]
    split
    · exact keepsWatches_supplies _ _ _ (h.data i) (keepsWatches_report a i _)
    · rfl
  · exact fun i => keepsWatches_supplies _ _ _ (h.data i) (keepsWatches_report a i _)

theorem pathFirst_supplies (services : List Service) (request : Request) (a : Assignment)
    (i : Nat) : ∀ (data : List Call), (∀ args, Call.addPath args ∉ data) →
    (∀ call ∈ data, call.supplies = true) →
    pathFirst services request (data ++ [a.report i]) = false := by
  intro data
  induction data with
  | nil =>
      intro _ _
      unfold Assignment.report
      split <;> rfl
  | cons call data ih =>
      intro hno hdata
      have hcall := hdata call List.mem_cons_self
      have hih := ih (fun args hc => hno args (List.mem_cons_of_mem _ hc))
        (fun c hc => hdata c (List.mem_cons_of_mem _ hc))
      cases call with
      | addPath args => exact absurd List.mem_cons_self (hno args)
      | _ => first | exact hih | simp [Call.supplies, Call.data] at hcall

theorem Assignment.Valid.tame (h : a.Valid s₀) (base : Env) (hfix : Fixed s₀ s) (w : Nat) :
    Tame s (a.env base) w := by
  refine ⟨h.wellBehaved base, ?_⟩
  rcases h.paths with hres | hno
  · exact Or.inl (by rw [hfix.resultTimeout]; exact hres)
  · exact Or.inr (Or.inr (pathFirst_supplies _ _ a _ _ (hno _) (h.data _)))

theorem assigned_ready (hfresh : Fresh s₀) : (assigned a s₀.backends 0).ready 0 s₀ := by
  refine ⟨Or.inl ⟨rfl, ⟨fun i => ?_, fun i hi => ?_, ?_, fun i hi => ?_⟩⟩, Nat.zero_le _⟩
  · rw [hfresh.trace, hfresh.cursor]
    simp [Entered]
  · rw [hfresh.cursor] at hi
    omega
  · rw [hfresh.trace]
    simp [CalledBack]
  · rw [hfresh.cursor] at hi
    omega

/-- What an event of a query at rest starts from; it will move the cursor on. -/
theorem assigned_starts (hvalid : a.Valid s₀) {R : List Nat} {b : Nat} (hfix : Fixed s₀ s)
    (hwaits : Waits R s) (h : (assigned a s₀.backends 0).rest 0 s) (hb : b ≤ s.query.cursor + 1)
    {x : Watch} (hx : x ∈ s.query.watches)
    (htimer : ∀ t, x.callback = .timeout t → t = .delayed) :
    Starts (a.env base) (stages (a.env base) R s₀) (assigned a s₀.backends b) s x.callback := by
  have hok : ∀ s', (stages (a.env base) R s₀).rest 0 s' → (assigned a s₀.backends 0).rest 0 s' →
      s'.query.state = .resolved → a.ok s'.query.cursor = true ∧
        Going a s₀.backends 0 s'.query.cursor (s'.query.cursor + 1) s'.trace := by
    rintro s' ⟨hfix', hw | he⟩ h' hr
    · obtain ⟨hawaits, hgoing⟩ := h'.1 (by rw [← hfix'.length]; exact hw.cursor)
      rcases hawaits with ⟨hs, -⟩ | ⟨-, hok, -⟩
      · rw [hs] at hr
        simp at hr
      · exact ⟨hok, hgoing⟩
    · rcases he.state with hs | hs <;> rw [hs] at hr <;> simp at hr
  obtain ⟨-, hgoing⟩ := h.1 (by rw [← hfix.length]; exact hwaits.cursor)
  cases hcb : x.callback with
  | backend i =>
      obtain rfl := hwaits.books.mine x hx i hcb
      exact ⟨⟨Or.inl ⟨_, hvalid.data _, rfl, fun hc => absurd hc (by decide)⟩⟩, hgoing, hb,
        fun hc => absurd hc (by decide)⟩
  | timeout t =>
      obtain rfl := htimer t hcb
      refine ⟨fun hdue s' hf => ?_, fun s' hP h' hr => ?_⟩
      · have hok' := (hok s ⟨hfix, Or.inl hwaits⟩ h ((due_delayed _).mp hdue)).1
        refine ⟨fun _ => ?_, fun hc => absurd hc (by decide), ?_, ?_⟩
        · rw [hf.cursor]; exact hok'
        · rw [hf.cursor, hf.trace]; exact hgoing
        · rw [hf.cursor]; exact hb
      · obtain ⟨hok', hgoing'⟩ := hok s' hP ⟨h'.1, h'.2.1, Nat.zero_le _⟩ hr
        exact ⟨fun _ => hok', fun hc => absurd hc (by decide), hgoing', Nat.le_succ_of_le h'.2.2⟩

theorem Reachable.assigned (hfresh : Fresh s₀) (hvalid : a.Valid s₀)
    (hcb : s₀.query.callback = true) (h : a.Runs base s₀ s) :
    (Fixed s₀ s ∧ (Waits s₀.context.loop.registered s ∨ Ended s₀.context.loop.registered s)) ∧
      (Netresolve.assigned a s₀.backends 0).rest 0 s := by
  induction h with
  | start env hP hok =>
      subst hP
      exact (start_follows hfresh (backends_ne_nil hok) (hvalid.wellBehaved _)
        (assigned_extends hvalid hcb) (assigned_ready hfresh)).of_ok hok
  | step _ hstep ih =>
      obtain ⟨env, w, ⟨rfl, htimer⟩, hw, hok⟩ := hstep
      obtain ⟨⟨hfix, hwaits | hended⟩, hI⟩ := ih
      · exact (dispatch_follows hfix hwaits (hvalid.tame base hfix w) hw (assigned_extends hvalid hcb)
          fun x hx hid => assigned_starts hvalid hfix hwaits hI (Nat.zero_le _) hx
            (htimer x hx hid)).of_ok hok
      · obtain ⟨x, hx, -⟩ := hw
        exact absurd hx hended.no_watch

/-- A query that waits has an event to come, and it moves the cursor on. -/
theorem assigned_progress (base : Env) (hvalid : a.Valid s₀) (hcb : s₀.query.callback = true) {R : List Nat}
    (hfix : Fixed s₀ s) (hwaits : Waits R s) (h : (assigned a s₀.backends 0).rest 0 s) :
    ∃ s', Step (Assigned a base) s s' ∧ s.query.cursor < s'.query.cursor := by
  have hkinds := hwaits.books.kinds
  obtain ⟨x, hx, hxcb⟩ : ∃ x ∈ s.query.watches, ∀ t, x.callback = .timeout t → t = .delayed := by
    obtain ⟨hawaits, -⟩ := h.1 (by rw [← hfix.length]; exact hwaits.cursor)
    rcases hawaits with ⟨-, -, x, hx, hcb⟩ | ⟨-, -, hdelayed⟩
    · exact ⟨x, hx, fun t ht => by rw [hcb] at ht; simp at ht⟩
    · obtain ⟨w, hw⟩ := Option.isSome_iff_exists.mp hdelayed
      have htimeout : s.query.timeout .delayed = some w := hw
      obtain ⟨x, hx, -, hcb⟩ := hwaits.timer_watch htimeout
      exact ⟨x, hx, fun t ht => by rw [hcb] at ht; exact (WatchCallback.timeout.inj ht).symm⟩
  -- A watch of the same number is of the same kind.
  have htimer : ∀ y ∈ s.query.watches, y.id = x.id → ∀ t, y.callback = .timeout t →
      t = .delayed := by
    intro y hy hid t ht
    refine hxcb t ((hkinds x hx t).mpr ?_)
    rw [← hid]
    exact (hkinds y hy t).mp ht
  have hw : ∃ y ∈ s.query.watches, y.id = x.id := ⟨x, hx, rfl⟩
  have hsat := dispatch_follows hfix hwaits (hvalid.tame base hfix x.id) hw
    (assigned_extends hvalid hcb) fun y hy hid =>
      assigned_starts hvalid hfix hwaits h (Nat.le_refl _) hy (htimer y hy hid)
  cases hrun : queryDispatch (a.env base) x.id s with
  | ok u s' =>
      obtain ⟨-, -, -, hlt⟩ := hsat.of_ok hrun
      exact ⟨s', ⟨a.env base, x.id, ⟨rfl, htimer⟩, hw, hrun⟩, hlt⟩
  | error e s' =>
      have habort : e = .abort := hsat.of_error hrun
      have hsafe := safe_queryDispatch (assignment_reliable a base) x.id s
      exact absurd habort (hsafe.of_error hrun).2

theorem assigned_completes (hfresh : Fresh s₀) (hvalid : a.Valid s₀)
    (hcb : s₀.query.callback = true) : ∀ (m : Nat) (s : St), a.Runs base s₀ s →
    s₀.backends.length - s.query.cursor ≤ m → ∃ s', a.Runs base s₀ s' ∧ s'.query.watches = [] := by
  intro m
  induction m with
  | zero =>
      intro s hrun hm
      obtain ⟨⟨hfix, hwaits | hended⟩, -⟩ := hrun.assigned hfresh hvalid hcb
      · have := hwaits.cursor
        rw [hfix.length] at this
        omega
      · exact ⟨s, hrun, hended.clean.watches⟩
  | succ m ih =>
      intro s hrun hm
      obtain ⟨⟨hfix, hwaits | hended⟩, hI⟩ := hrun.assigned hfresh hvalid hcb
      · obtain ⟨s', hstep, hlt⟩ := assigned_progress base hvalid hcb hfix hwaits hI
        exact ih s' (.step hrun hstep) (by omega)
      · exact ⟨s, hrun, hended.clean.watches⟩

/--
**Mandatory backends are run as documented exactly if none follows a successful one.**
Whatever the outcomes, the query can be run to its end, and every run that has come to
its end is as documented if and only if no mandatory backend follows a successful one.
-/
theorem documented_iff_none_follows (base : Env) (hfresh : Fresh s₀) (hne : s₀.backends ≠ [])
    (hcb : s₀.query.callback = true) (hvalid : a.Valid s₀) :
    (∃ s, a.Runs base s₀ s ∧ s.query.watches = []) ∧
    ∀ s, a.Runs base s₀ s → s.query.watches = [] →
      (Documented a s₀.backends s.trace ↔ a.NoneFollows s₀.backends) := by
  constructor
  · cases hrun : queryStart (a.env base) s₀ with
    | ok u s => exact assigned_completes hfresh hvalid hcb _ s (.start _ rfl hrun) (Nat.le_refl _)
    | error e s =>
        have hsat := queryStart_rest hfresh hne (hvalid.wellBehaved base)
        have habort : e = .abort := hsat.of_error hrun
        rw [habort] at hrun
        exact absurd hrun (safe_queryStart (assignment_reliable a base) hne)
  · intro s hrun hwatches
    obtain ⟨⟨hfix, hwaits | hended⟩, hI⟩ := hrun.assigned hfresh hvalid hcb
    · obtain ⟨s', ⟨env, w, -, ⟨x, hx, -⟩, -⟩, -⟩ :=
        assigned_progress base hvalid hcb hfix hwaits hI
      rw [hwatches] at hx
      simp at hx
    · rcases hI.2.1 (by rw [← hfix.length]; exact hended.cursor) with ⟨-, honce⟩ | ⟨hnot, htwo⟩
      · exact iff_of_true honce.documented.1 honce.documented.2
      · exact iff_of_false (not_documented htwo) hnot

end

/-- Every backend succeeds at once. -/
def allSucceed : Assignment := { ok := fun _ => true, sync := fun _ => true, data := fun _ => [] }

theorem allSucceed_valid {s₀ : St} (h : ∀ b ∈ s₀.backends, b.setup s₀.query.request.type = true)
    (hres : s₀.query.request.resultTimeout ≠ 0) : allSucceed.Valid s₀ := by
  refine ⟨fun _ _ hc => absurd hc List.not_mem_nil, fun i b hb hno => ?_,
    fun _ (hc : true = false) => absurd hc (by decide), Or.inl hres⟩
  rw [h b (List.mem_of_getElem? hb)] at hno
  simp at hno

/-- Two backends, the first one mandatory. -/
def firstMandatory : St := { query := { id := 0 }, backends := [{ mandatory := true }, {}] }

theorem firstMandatory_fresh : Fresh firstMandatory := by
  refine ⟨⟨rfl, rfl, rfl, rfl, fun t => by cases t <;> rfl, rfl, rfl, fun b hb => ?_⟩, rfl, rfl⟩
  rcases List.mem_cons.mp hb with rfl | hb
  · rfl
  · rw [List.mem_singleton.mp hb]

/-- A mandatory backend in front of another one is run as documented. -/
theorem documented_iff_none_follows_first :
    ∃ s, allSucceed.Runs {} firstMandatory s ∧
      Documented allSucceed firstMandatory.backends s.trace := by
  have hvalid : allSucceed.Valid firstMandatory :=
    allSucceed_valid (by simp [firstMandatory]) (by decide)
  obtain ⟨⟨s, hrun, hend⟩, hdoc⟩ :=
    documented_iff_none_follows {} firstMandatory_fresh (by simp [firstMandatory]) rfl hvalid
  refine ⟨s, hrun, (hdoc s hrun hend).mpr ?_⟩
  rintro i j hij - ⟨b, hb, hm⟩
  obtain ⟨k, rfl⟩ : ∃ k, j = k + 1 := ⟨j - 1, by omega⟩
  obtain rfl : b = {} := List.mem_singleton.mp (List.mem_of_getElem? hb)
  simp at hm

/-- Two backends, the second one mandatory. -/
def secondMandatory : St := { query := { id := 0 }, backends := [{}, { mandatory := true }] }

/--
Both backends succeed.  The application is called in state RESOLVED, after the mandatory
backend has been set up, and again when that is done.
-/
theorem mandatory_calls_twice : ∃ s, allSucceed.Runs {} secondMandatory s ∧
    s.query.watches = [] ∧ s.trace =
      [.callback .done 2 {}, .enter .done 1 {}, .callback .resolved 1 {}, .enter .resolved 1 {},
        .report 1 .finished, .enter .setup 1 {}, .enter .done 0 {}, .enter .resolved 0 {},
        .report 0 .finished, .enter .setup 0 {}] ∧
    ¬ Documented allSucceed secondMandatory.backends s.trace := by
  obtain ⟨s₁, hstart, hwatches⟩ := peek_some (show peek (·.query.watches)
    (queryStart (allSucceed.env {})) secondMandatory = some [⟨1, .core 1, .timeout .delayed⟩] by
      decide +kernel)
  obtain ⟨s, hplay, hseen⟩ := peek_some (show peek (fun s => (s.query.watches, s.trace))
    (play (allSucceed.env {}) [1]) secondMandatory = some ([],
      [.callback .done 2 {}, .enter .done 1 {}, .callback .resolved 1 {}, .enter .resolved 1 {},
        .report 1 .finished, .enter .setup 1 {}, .enter .done 0 {}, .enter .resolved 0 {},
        .report 0 .finished, .enter .setup 0 {}]) by decide +kernel)
  obtain ⟨hend, htrace⟩ := Prod.mk.inj hseen
  refine ⟨s, .step (.start _ rfl hstart) ⟨_, 1, ⟨rfl, ?_⟩, ?_, play_single hstart hplay⟩, hend,
    htrace, not_documented ?_⟩
  · intro x hx _ t ht
    rw [hwatches] at hx
    obtain rfl := List.mem_singleton.mp hx
    exact (WatchCallback.timeout.inj ht).symm
  · rw [hwatches]
    exact ⟨_, List.mem_singleton.mpr rfl, rfl⟩
  · rw [htrace]
    decide

end Netresolve
