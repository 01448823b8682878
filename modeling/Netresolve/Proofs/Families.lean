/-
One path of a family at a time.

The loop of `enable_sockets` counts the paths of each family that are not done and turns only
to the first.  The counters are local, and while the loop is at a path a nested call may walk
over the same paths and finish some of them.  What the loop relies on survives that: the
paths it has left behind without counting were done, and done they stay.  This is `Sweep`.

So the paths of a family are attempted in order and no path is attempted before all earlier
ones of its family are done, in every state a run goes through.
-/
import Netresolve.Proofs.Sockets

namespace Netresolve.Connect

open Outcome

/-! ### The loop -/

/--
The loop has `rest` before it, and of the paths behind it those that it would not skip for its
counters are done.
-/
def Sweep (rest : List Nat) (a b : Nat) (r : Run) : Prop :=
  ∃ m, rest = (List.range r.now.paths.length).drop m ∧
    ∀ j < m, hasSockaddr (r.now.path j).family = true → ¬ (r.now.path j).counted a b →
      (r.now.path j).state = .done

namespace Sweep

variable {r r' : Run} {i a b : Nat} {rest : List Nat}

theorem start (r : Run) (a b : Nat) : Sweep (List.range r.now.paths.length) a b r :=
  ⟨0, rfl, fun _ hj => absurd hj (Nat.not_lt_zero _)⟩

/-- Where the loop stands. -/
theorem cons {n m : Nat} (h : i :: rest = (List.range n).drop m) :
    i = m ∧ m < n ∧ rest = (List.range n).drop (m + 1) := by
  have hlt : m < n := by
    by_contra hge
    rw [List.drop_eq_nil_of_le (by simpa using hge)] at h
    cases h
  rw [List.drop_eq_getElem_cons (by simpa using hlt), List.getElem_range] at h
  injection h with hi hrest
  exact ⟨hi, hlt, hrest⟩

theorem skip (h : Sweep (i :: rest) a b r) (hdone : (r.now.path i).state = .done) :
    Sweep rest a b r := by
  obtain ⟨m, hrest, hbehind⟩ := h
  obtain ⟨rfl, -, hrest'⟩ := cons hrest
  refine ⟨i + 1, hrest', fun j hj hfamily hfresh => ?_⟩
  rcases Nat.lt_succ_iff_lt_or_eq.mp hj with hj | rfl
  · exact hbehind j hj hfamily hfresh
  · exact hdone

theorem counted_self {p : Path} (h : hasSockaddr p.family = true) (a b : Nat) :
    p.counted (p.up4 a) (p.up6 b) := by
  unfold hasSockaddr at h
  unfold Path.counted Path.up4 Path.up6
  rcases of_decide_eq_true h with h4 | h6
  · exact Or.inl ⟨h4, by rw [if_pos h4]; exact Nat.succ_ne_zero a⟩
  · exact Or.inr ⟨h6, by rw [if_pos h6]; exact Nat.succ_ne_zero b⟩

theorem counted_mono {p : Path} (q : Path) (h : p.counted a b) : p.counted (q.up4 a) (q.up6 b) := by
  unfold Path.counted Path.up4 Path.up6 at *
  rcases h with ⟨hfamily, ha⟩ | ⟨hfamily, hb⟩
  · refine Or.inl ⟨hfamily, ?_⟩
    split
    · exact Nat.succ_ne_zero a
    · exact ha
  · refine Or.inr ⟨hfamily, ?_⟩
    split
    · exact Nat.succ_ne_zero b
    · exact hb

/-- The loop goes on with the path counted, whatever has happened meanwhile. -/
theorem next (h : Sweep (i :: rest) a b r) (hon : Onward r r') :
    Sweep rest ((r.now.path i).up4 a) ((r.now.path i).up6 b) r' := by
  obtain ⟨m, hrest, hbehind⟩ := h
  obtain ⟨rfl, -, hrest'⟩ := cons hrest
  rw [← hon.length] at hrest'
  refine ⟨i + 1, hrest', fun j hj hfamily hfresh => ?_⟩
  have hcounted : ∀ c d, (r'.now.path j).counted c d ↔ (r.now.path j).counted c d := by
    intro c d
    unfold Path.counted
    rw [hon.family j]
  rw [hcounted] at hfresh
  rw [hon.family j] at hfamily
  rcases Nat.lt_succ_iff_lt_or_eq.mp hj with hj | rfl
  · exact hon.done (hbehind j hj hfamily fun hc => hfresh (counted_mono _ hc))
  · exact absurd (counted_self hfamily a b) hfresh

/-- A path that the loop turns to is the first of its family that is not done. -/
theorem first (h : Sweep (i :: rest) a b r) (hturns : Turns r i a b)
    (hfamily : hasSockaddr (r.now.path i).family = true) {j : Nat} (hj : j < i)
    (hsame : (r.now.path j).family = (r.now.path i).family) : (r.now.path j).state = .done := by
  obtain ⟨m, hrest, hbehind⟩ := h
  obtain ⟨rfl, -⟩ := cons hrest
  refine hbehind j hj (by rw [hsame]; exact hfamily) fun hcounted => hturns.fresh ?_
  unfold Path.counted at *
  rw [hsame] at hcounted
  exact hcounted

end Sweep

/-! ### Moments -/

/-- The path is SCHEDULED or READY. -/
def Socket.active (s : Socket) (i : Nat) : Prop :=
  (s.path i).state = .scheduled ∨ (s.path i).state = .ready

/-- The states a run has gone through, newest first. -/
def Run.moments (r : Run) : List Socket := r.now :: r.log.map Prod.snd

/-- Of the states a run goes through, newest first. -/
structure Fair (moments : List Socket) : Prop where
  single : ∀ s ∈ moments, ∀ i j, s.active i → s.active j →
    (s.path i).family = (s.path j).family → i = j
  first : ∀ s ∈ moments, ∀ i, s.active i → ∀ j < i,
    (s.path j).family = (s.path i).family → (s.path j).state = .done
  final : moments.Pairwise fun later earlier =>
    ∀ i, (earlier.path i).state = .done → (later.path i).state = .done

/-- No path is active before the earlier ones of its family are done. -/
def Ordered (s : Socket) : Prop :=
  ∀ i j, i < j → (s.path i).family = (s.path j).family → s.active j → (s.path i).state = .done

theorem not_active_done {s : Socket} {i : Nat} (h : s.active i) : (s.path i).state ≠ .done := by
  rcases h with h | h <;> rw [h] <;> exact SocketState.noConfusion

/-- The paths have kept their families and states. -/
def Alike (s s' : Socket) : Prop :=
  ∀ j, (s'.path j).family = (s.path j).family ∧ (s'.path j).state = (s.path j).state

theorem Ordered.alike {s s' : Socket} (h : Ordered s) (hsame : Alike s s') : Ordered s' := by
  intro i j hij hfamily hactive
  rw [(hsame i).1, (hsame j).1] at hfamily
  unfold Socket.active at hactive
  rw [(hsame j).2] at hactive
  rw [(hsame i).2]
  exact h i j hij hfamily hactive

/-- The path is the first of its family that is not done. -/
def Leading (s : Socket) (i : Nat) : Prop :=
  (s.path i).state ≠ .done ∧
    ∀ j < i, (s.path j).family = (s.path i).family → (s.path j).state = .done

theorem Ordered.moved {s s' : Socket} {i : Nat} (h : Ordered s)
    (hfamily : ∀ j, (s'.path j).family = (s.path j).family)
    (hother : ∀ j, j ≠ i → (s'.path j).state = (s.path j).state)
    (hi : (s'.path i).state = .done ∨ Leading s i) : Ordered s' := by
  intro a b hab hsame hactive
  rw [hfamily, hfamily] at hsame
  by_cases hb : b = i
  · subst hb
    rcases hi with hi | ⟨-, hbefore⟩
    · exact absurd hi (not_active_done hactive)
    · rw [hother a (Nat.ne_of_lt hab)]
      exact hbefore a hab hsame
  · have ha : (s.path a).state = .done := by
      unfold Socket.active at hactive
      rw [hother b hb] at hactive
      exact h a b hab hsame hactive
    by_cases hai : a = i
    · subst hai
      rcases hi with hi | ⟨hundone, -⟩
      · exact hi
      · exact absurd ha hundone
    · rw [hother a hai]
      exact ha

/-! ### What the steps keep -/

structure Steady (r : Run) : Prop where
  ordered : ∀ s ∈ r.moments, Ordered s
  final : r.moments.Pairwise fun later earlier =>
    ∀ i, (earlier.path i).state = .done → (later.path i).state = .done

namespace Steady

variable {world : World} {r : Run} {i : Nat}

theorem now (h : Steady r) : Ordered r.now := h.ordered r.now List.mem_cons_self

theorem noted (h : Steady r) (n : Note) : Steady (r.noted n) where
  ordered := by
    intro s hs
    rcases List.mem_cons.mp hs with rfl | hs
    · exact h.now
    · exact h.ordered s hs
  final := by
    refine List.pairwise_cons.mpr ⟨fun s hs => ?_, h.final⟩
    rcases List.mem_cons.mp hs with rfl | hs
    · exact fun _ hdone => hdone
    · exact (List.pairwise_cons.mp h.final).1 s hs

theorem modified {f : Socket → Socket} (h : Steady r)
    (hdone : ∀ i, (r.now.path i).state = .done → ((f r.now).path i).state = .done)
    (hordered : Ordered (f r.now)) : Steady (r.modified f) where
  ordered := by
    intro s hs
    rcases List.mem_cons.mp hs with rfl | hs
    · exact hordered
    · exact h.ordered s (List.mem_cons_of_mem _ hs)
  final := by
    obtain ⟨hnow, hlog⟩ := List.pairwise_cons.mp h.final
    exact List.pairwise_cons.mpr ⟨fun s hs i hi => hdone i (hnow s hs i hi), hlog⟩

theorem alike {f : Socket → Socket} (h : Steady r) (hsame : Alike r.now (f r.now)) :
    Steady (r.modified f) :=
  h.modified (fun i hi => (hsame i).2.trans hi) (h.now.alike hsame)

theorem moved {state : SocketState} (h : Steady r) (hi : state = .done ∨ Leading r.now i) :
    Steady (r.moved i state) := by
  have hother : ∀ j, j ≠ i → ((r.moved i state).now.path j).state = (r.now.path j).state := by
    intro j hj
    rw [moved_path, if_neg fun hc => hj hc.1.symm]
  have hfamily : ∀ j, ((r.moved i state).now.path j).family = (r.now.path j).family := by
    intro j
    rw [moved_path]
    split <;> rfl
  by_cases hlt : i < r.now.paths.length
  · have hself : ((r.moved i state).now.path i).state = state := by
      rw [moved_path, if_pos ⟨rfl, hlt⟩]
    refine noted (h.modified (fun j hj => ?_) (h.now.moved hfamily hother ?_)) _
    · show ((r.moved i state).now.path j).state = .done
      by_cases hij : j = i
      · subst hij
        rcases hi with rfl | hi
        · exact hself
        · exact absurd hj hi.1
      · rw [hother j hij]
        exact hj
    · exact hi.imp_left fun hdone => hself.trans hdone
  · refine noted (h.alike fun j => ?_) _
    show ((r.moved i state).now.path j).family = _ ∧ ((r.moved i state).now.path j).state = _
    rw [moved_path, if_neg fun hc => hlt (by rw [hc.1]; exact hc.2)]
    exact ⟨rfl, rfl⟩

theorem rewritten {f : Path → Path} (h : Steady r)
    (hf : ∀ p : Path, (f p).family = p.family ∧ (f p).state = p.state) :
    Steady (r.modified (·.modifyPath i f)) := by
  refine h.alike fun j => ?_
  rw [path_modifyPath]
  split
  · exact hf _
  · exact ⟨rfl, rfl⟩

theorem watched (h : Steady r) (i : Nat) (watch : Bool) : Steady (r.watched i watch) :=
  h.rewritten fun _ => ⟨rfl, rfl⟩

theorem timed (h : Steady r) : Steady (r.timed world) := by
  unfold Run.timed
  split
  · exact h.alike fun _ => ⟨rfl, rfl⟩
  · exact h

theorem reached (h : Steady r) (i : Nat) : Steady (r.reached world i) := (h.noted _).timed

theorem attempted (h : Steady r) (i : Nat) (fd : Option Nat) : Steady (r.attempted i fd) := by
  have hfd : Steady ((r.modified fun s => { s with attempts := s.attempts + 1 }).modified
      (·.modifyPath i fun p => { p with fd := fd })) :=
    rewritten (h.alike fun _ => ⟨rfl, rfl⟩) fun _ => ⟨rfl, rfl⟩
  exact Run.attempted_rule hfd fun _ _ h' => h'.noted _

theorem cleaned (h : Steady r) (i : Nat) : Steady (r.cleaned i) := by
  have hdone : Steady ((r.moved i .done).watched i false) := (h.moved (Or.inl rfl)).watched i false
  exact Run.cleaned_rule hdone fun _ _ _ h' => (h'.noted _).rewritten fun _ => ⟨rfl, rfl⟩

theorem picked (h : Steady r) (i : Nat) : Steady (r.picked i) :=
  ((h.noted (.chosen i)).moved (Or.inl rfl)).rewritten fun _ => ⟨rfl, rfl⟩

theorem passed (h : Steady r) (i : Nat) : Steady (r.passed i) := by
  refine noted ((h.picked i).alike fun j => ?_) _
  have hpath := path_map (r.picked i).now Path.paused rfl j
  exact ⟨(congrArg Path.family hpath).trans (paused_family _),
    (congrArg Path.state hpath).trans (paused_state _)⟩

theorem fair (h : Steady r) : Fair r.moments where
  single := by
    intro s hs i j hi hj hfamily
    rcases Nat.lt_trichotomy i j with hij | rfl | hji
    · exact absurd (h.ordered s hs i j hij hfamily hj) (not_active_done hi)
    · rfl
    · exact absurd (h.ordered s hs j i hji hfamily.symm hi) (not_active_done hj)
  first := fun s hs i hi j hj hfamily => h.ordered s hs j i hj hfamily hi
  final := h.final

end Steady

theorem Fair.tail {s : Socket} {moments : List Socket} (h : Fair (s :: moments)) : Fair moments :=
  ⟨fun t ht => h.single t (List.mem_cons_of_mem _ ht),
    fun t ht => h.first t (List.mem_cons_of_mem _ ht), h.final.of_cons⟩

/-- The statements that are kept. -/
def inOrder : Stages where
  enter _ := Steady
  pick _ := Steady
  answer _ := Steady
  loop _ rest a b r := Steady r ∧ Sweep rest a b r
  turned _ rest a b r := Steady r ∧ Sweep rest a b r
  kill := Steady
  rest := Steady
  stop _ log := Fair (log.map Prod.snd)

theorem Sweep.leading {r : Run} {i a b : Nat} {rest : List Nat} (h : Sweep (i :: rest) a b r)
    (hturns : Turns r i a b) (hstarts : Starts r i) (world : World) (fd : Option Nat) :
    Leading ((r.reached world i).attempted i fd).now i := by
  have hpath : ∀ j, (((r.reached world i).attempted i fd).now.path j).family =
        (r.now.path j).family ∧
      (((r.reached world i).attempted i fd).now.path j).state = (r.now.path j).state := by
    intro j
    rw [attempted_path, reached_path]
    split <;> exact ⟨rfl, rfl⟩
  refine ⟨by rw [(hpath i).2]; exact hturns.undone, fun j hj hsame => ?_⟩
  rw [(hpath i).1, (hpath j).1] at hsame
  rw [(hpath j).2]
  exact h.first hturns hstarts.family hj hsame

theorem inOrder_rule (world : World) : Rule world inOrder where
  fuel h := h.fair.tail
  stuck h _ _ _ := (h.1.reached _).fair.tail
  unready h _ _ := h.fair.tail
  unpaused h _ _ _ := (Steady.picked h _).fair.tail
  start {_ r} h := ⟨h, Sweep.start r 0 0⟩
  skip h hdone := ⟨h.1, h.2.skip hdone⟩
  count h _ _ := ⟨h.1, h.2.next (refl_of Onward _)⟩
  idle {_ i _ _ _ r} h _ _ _ := ⟨h.1.reached i, h.2.next (onward_reached world r i)⟩
  resume {_ i _ _ _ r} h _ _ := ⟨(h.1.reached i).watched i true,
    h.2.next (trans_of Onward (onward_reached world r i) (onward_watched _ i true))⟩
  schedule {_ i _ _ _ r} h hturns hstarts _ := by
    refine ⟨?_, h.2.next ?_⟩
    · exact (((h.1.reached i).attempted i _).moved
        (Or.inr (h.2.leading hturns hstarts world _))).watched i true
    · exact trans_of Onward (onward_schedule hstarts world _) (onward_watched _ i true)
  connected {_ i _ _ _ r} h hturns hstarts _ :=
    ((h.1.reached i).attempted i _).moved (Or.inr (h.2.leading hturns hstarts world _))
  refused {_ i _ _ _ r} fd h _ _ _ := ((h.1.reached i).attempted i fd).cleaned i
  back h _ _ hrest hon := ⟨hrest, h.2.next hon⟩
  on h _ := h
  leave h _ := kept_if (fun hr => hr.alike fun _ => ⟨rfl, rfl⟩) h.1
  finish h := kept_if (fun hr => hr.alike fun _ => ⟨rfl, rfl⟩) h.1
  lost h _ := h
  wait h _ _ := kept_if (fun hr => Steady.alike hr fun _ => ⟨rfl, rfl⟩) h
  pass h _ _ _ := Steady.passed h _
  ask h := Steady.alike (h.noted .asked) fun _ => ⟨rfl, rfl⟩
  again _ hrest _ := hrest
  done h := h
  ready {r i} h hstate _ := by
    have hpath : ∀ j, ((r.watched i false).now.path j).family = (r.now.path j).family ∧
        ((r.watched i false).now.path j).state = (r.now.path j).state := by
      intro j
      rw [watched_path]
      split <;> exact ⟨rfl, rfl⟩
    refine (Steady.watched h i false).moved (Or.inr ⟨?_, fun j hj hsame => ?_⟩)
    · rw [(hpath i).2, hstate]
      exact SocketState.noConfusion
    · rw [(hpath i).1, (hpath j).1] at hsame
      rw [(hpath j).2]
      exact Steady.now h j i hj hsame (Or.inl hstate)
  failed h _ _ := Steady.cleaned h _
  next h := Steady.alike (h.noted .asked) fun _ => ⟨rfl, rfl⟩
  expire h _ := Steady.alike h fun _ => ⟨rfl, rfl⟩
  clean h _ := Steady.cleaned h _
  expired h := Steady.noted h _
  skipping h _ := Steady.noted (Steady.alike h fun _ => ⟨rfl, rfl⟩) _
  handled h := Steady.alike h fun _ => ⟨rfl, rfl⟩

theorem initial_inactive (families : List Int) (sequential : Bool) (i : Nat) :
    ¬ (initial families sequential).prepared.now.active i := by
  intro hactive
  unfold Socket.active at hactive
  rw [(initial_path families sequential i).1] at hactive
  rcases hactive with hactive | hactive <;> cases hactive

theorem initial_steady (families : List Int) (sequential : Bool) :
    Steady (initial families sequential).prepared := by
  refine ⟨fun s hs i j _ _ hactive => ?_, List.pairwise_singleton _ _⟩
  obtain rfl := List.mem_singleton.mp hs
  exact absurd hactive (initial_inactive families sequential j)

/--
**At every moment of every run at most one path of a family is SCHEDULED or READY, it is the
first of the family that is not DONE, and what is DONE stays so.**  A run is stopped only by an
assertion, and then has the moments it has noted.
-/
theorem one_of_each_family (world : World) (families : List Int) (sequential : Bool)
    (events : List Event) :
    Sat (connect world events) (initial families sequential) (fun _ r => Fair r.moments)
      (fun e r => (∃ x, e = .assertion x) ∧ Fair (r.log.map Prod.snd)) := by
  refine ((connect_stops world _ events).and ((inOrder_rule world).connect events
    (fun _ _ _ _ h => Fair.tail (Steady.fair h)) (initial_steady families sequential))).mono
    (fun _ _ h => ?_) (fun _ _ h => h)
  exact Steady.fair h.2

end Netresolve.Connect
