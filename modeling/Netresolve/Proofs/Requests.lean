/-
One callback for each request.

`netresolve_connect` is the first request for a socket and every `netresolve_connect_next` is
another.  When a callback has answered the last of them the machine is quiet: the scheduled
sockets are paused and the timers are gone, so that nothing but a new request can wake it.

That is true where the callback is reached from an event.  A connection that succeeds
immediately is handed over from inside the loop of `enable_sockets`, and the loop then goes on
to the other family as if nobody had been served: it starts or resumes a connection that no
request is waiting for.  Runs in which it does not are shown to keep to the count.
-/
import Netresolve.Proofs.Sockets
import Netresolve.Library.Past

namespace Netresolve.Connect

open Outcome Past

/-! ### Counting -/

def Note.isCall : Note → Bool
  | .called _ _ => true
  | _ => false

def Note.isTurn : Note → Bool
  | .turned _ => true
  | _ => false

/-- The callbacks so far. -/
def callbacks (notes : List Note) : Nat := notes.countP (·.isCall)

/-- `netresolve_connect` and the calls of `netresolve_connect_next` so far. -/
def requests (notes : List Note) : Nat := 1 + notes.countP (· = .asked)

/-- The loop of `enable_sockets` turns to a path only while a request is not answered. -/
def Timely (notes : List Note) : Prop :=
  Always (fun n past => n.isTurn = true → callbacks past < requests past) notes

instance (notes : List Note) : Decidable (Timely notes) := inferInstanceAs (Decidable (Always _ _))

/-- At every moment up to which the loop has been timely. -/
def Modest (notes : List Note) : Prop :=
  ∀ past, past <:+ notes → Timely past → callbacks past ≤ requests past

theorem Modest.cons {n : Note} {notes : List Note} (h : Modest notes)
    (hn : Timely (n :: notes) → callbacks (n :: notes) ≤ requests (n :: notes)) :
    Modest (n :: notes) := by
  intro past hpast htimely
  rcases List.suffix_cons_iff.mp hpast with rfl | hpast
  · exact hn htimely
  · exact h past hpast htimely

theorem callbacks_cons {n : Note} (h : n.isCall = false) (notes : List Note) :
    callbacks (n :: notes) = callbacks notes := List.countP_cons_of_neg (by simp [h])

theorem requests_cons {n : Note} (h : n ≠ .asked) (notes : List Note) :
    requests (n :: notes) = requests notes := by
  unfold requests
  rw [List.countP_cons_of_neg (by simp [h])]

/-- A request is to be answered. -/
structure Owed (notes : List Note) : Prop where
  modest : Modest notes
  due : Timely notes → callbacks notes < requests notes

/-- A request is to be answered, or all have been and it is quiet. -/
structure Answered (notes : List Note) (quiet : Prop) : Prop where
  modest : Modest notes
  due : Timely notes → callbacks notes < requests notes ∨
    callbacks notes = requests notes ∧ quiet

namespace Owed

variable {notes : List Note}

theorem of_due (h : Modest notes) {n : Note}
    (hdue : Timely (n :: notes) → callbacks (n :: notes) < requests (n :: notes)) :
    Owed (n :: notes) :=
  ⟨h.cons fun htimely => Nat.le_of_lt (hdue htimely), hdue⟩

theorem plain (h : Owed notes) {n : Note} (hcall : n.isCall = false) (hask : n ≠ .asked) :
    Owed (n :: notes) := by
  refine of_due h.modest fun htimely => ?_
  rw [callbacks_cons hcall, requests_cons hask]
  exact h.due htimely.2

/-- Passing a socket answers a request. -/
theorem called (h : Owed notes) (i : Nat) (fd : Option Nat) {quiet : Prop} (hquiet : quiet) :
    Answered (.called i fd :: notes) quiet := by
  have hcallbacks : callbacks (.called i fd :: notes) = callbacks notes + 1 :=
    List.countP_cons_of_pos rfl
  have hrequests : requests (.called i fd :: notes) = requests notes := requests_cons (by simp) _
  refine ⟨h.modest.cons fun htimely => ?_, fun htimely => ?_⟩
  · rw [hcallbacks, hrequests]
    exact h.due htimely.2
  · rw [hcallbacks, hrequests]
    rcases Nat.lt_or_eq_of_le (Nat.succ_le_of_lt (h.due htimely.2)) with hlt | heq
    · exact Or.inl hlt
    · exact Or.inr ⟨heq, hquiet⟩

theorem answered (h : Owed notes) (quiet : Prop) : Answered notes quiet :=
  ⟨h.modest, fun htimely => Or.inl (h.due htimely)⟩

end Owed

namespace Answered

variable {notes : List Note} {quiet : Prop}

/-- The loop turns to a path: it is timely, or nothing more is said. -/
theorem turned (h : Answered notes quiet) (i : Nat) : Owed (.turned i :: notes) := by
  refine Owed.of_due h.modest fun htimely => ?_
  rw [callbacks_cons rfl, requests_cons (by simp)]
  exact htimely.1 rfl

theorem asked (h : Answered notes quiet) : Owed (.asked :: notes) := by
  have hrequests : requests (.asked :: notes) = requests notes + 1 := by
    unfold requests
    rw [List.countP_cons_of_pos (by simp)]
    rfl
  refine Owed.of_due h.modest fun htimely => ?_
  rw [callbacks_cons rfl, hrequests]
  rcases h.due htimely.2 with hlt | ⟨heq, -⟩
  · exact Nat.lt_succ_of_lt hlt
  · exact Nat.lt_succ_of_le (Nat.le_of_eq heq)

/-- It is not quiet, so a request is to be answered. -/
theorem owed (h : Answered notes quiet) (hbusy : ¬ quiet) : Owed notes :=
  ⟨h.modest, fun htimely => (h.due htimely).resolve_right fun hq => hbusy hq.2⟩

theorem imp {quiet' : Prop} (h : Answered notes quiet) (hq : quiet → quiet') :
    Answered notes quiet' :=
  ⟨h.modest, fun htimely => (h.due htimely).imp_right fun hr => ⟨hr.1, hq hr.2⟩⟩

end Answered

/-! ### Watches -/

/-- Only scheduled sockets are watched. -/
def Watchful (s : Socket) : Prop := ∀ i, (s.path i).watch = true → (s.path i).state = .scheduled

/-- Nothing can happen. -/
structure Quiet (s : Socket) : Prop where
  watch : ∀ i, (s.path i).watch = false
  timeout : s.timeout = false
  priorityTimeout : s.priorityTimeout = false

namespace Watchful

variable {world : World} {r : Run} {i : Nat}

/-- A change of one path. -/
theorem modifyPath {s : Socket} {f : Path → Path} (h : Watchful s)
    (hf : (f (s.path i)).watch = true → (f (s.path i)).state = .scheduled) :
    Watchful (s.modifyPath i f) := by
  intro j hj
  rw [path_modifyPath] at hj ⊢
  split at hj
  · next hij =>
      rw [if_pos hij]
      rw [← hij.1] at hj ⊢
      exact hf hj
  · next hij =>
      rw [if_neg hij]
      exact h j hj

theorem moved {state : SocketState} (h : Watchful r.now)
    (hi : (r.now.path i).watch = true → state = .scheduled) : Watchful (r.moved i state).now :=
  h.modifyPath hi

theorem watched {watch : Bool} (h : Watchful r.now)
    (hi : watch = true → (r.now.path i).state = .scheduled) : Watchful (r.watched i watch).now :=
  h.modifyPath hi

theorem reached (h : Watchful r.now) (i : Nat) : Watchful (r.reached world i).now := by
  intro j
  rw [reached_path]
  exact h j

theorem attempted (h : Watchful r.now) (i : Nat) (fd : Option Nat) :
    Watchful (r.attempted i fd).now := by
  have hfd : Watchful (r.now.modifyPath i fun p => { p with fd := fd }) := h.modifyPath (h i)
  unfold Run.attempted
  cases fd with
  | none => exact hfd
  | some n => exact hfd

theorem cleaned (h : Watchful r.now) (i : Nat) : Watchful (r.cleaned i).now := by
  intro j hj
  rw [cleaned_path] at hj ⊢
  split at hj
  · cases hj
  · next hij =>
      rw [if_neg hij]
      exact h j hj

/-- What is not scheduled is not watched. -/
theorem unwatched (h : Watchful r.now) (hi : (r.now.path i).state ≠ .scheduled) :
    (r.now.path i).watch = false := by
  by_contra hwatch
  rw [Bool.not_eq_false] at hwatch
  exact hi (h i hwatch)

/-- After a socket has been passed on. -/
theorem quiet (h : Watchful r.now) (hi : (r.now.path i).state = .ready) :
    Quiet (r.passed i).now := by
  refine ⟨fun j => ?_, rfl, rfl⟩
  rw [passed_path]
  unfold Path.paused
  split
  · rfl
  · next hstate =>
      rw [picked_path] at hstate ⊢
      split
      · next hij =>
          rw [← hij.1]
          exact h.unwatched (by rw [hi]; exact SocketState.noConfusion)
      · next hij =>
          rw [if_neg hij] at hstate
          exact h.unwatched hstate

end Watchful

/-! ### What the steps keep -/

structure Owing (r : Run) : Prop where
  notes : Owed (r.log.map Prod.fst)
  watch : Watchful r.now

structure Settled (r : Run) : Prop where
  notes : Answered (r.log.map Prod.fst) (Quiet r.now)
  watch : Watchful r.now

theorem Owing.settled {r : Run} (h : Owing r) : Settled r := ⟨h.notes.answered _, h.watch⟩

theorem Settled.owing {r : Run} (h : Settled r) (hbusy : ¬ Quiet r.now) : Owing r :=
  ⟨h.notes.owed hbusy, h.watch⟩

namespace Owing

variable {world : World} {r : Run} {i : Nat}

theorem noted (h : Owing r) {n : Note} (hcall : n.isCall = false) (hask : n ≠ .asked) :
    Owing (r.noted n) := ⟨h.notes.plain hcall hask, h.watch⟩

theorem moved {state : SocketState} (h : Owing r)
    (hi : (r.now.path i).watch = true → state = .scheduled) : Owing (r.moved i state) :=
  ⟨h.notes.plain rfl (by simp), h.watch.moved hi⟩

theorem watched {watch : Bool} (h : Owing r)
    (hi : watch = true → (r.now.path i).state = .scheduled) : Owing (r.watched i watch) :=
  ⟨h.notes, h.watch.watched hi⟩

theorem attempted (h : Owing r) (i : Nat) (fd : Option Nat) : Owing (r.attempted i fd) := by
  refine ⟨?_, h.watch.attempted i fd⟩
  cases fd with
  | none => exact h.notes
  | some n => exact h.notes.plain rfl (by simp)

theorem cleaned (h : Owing r) (i : Nat) : Owing (r.cleaned i) := by
  refine ⟨?_, h.watch.cleaned i⟩
  have hchanged : Owed (.changed i :: r.log.map Prod.fst) := h.notes.plain rfl (by simp)
  exact Run.cleaned_rule (P := fun r => Owed (r.log.map Prod.fst)) hchanged
    fun _ _ _ h' => h'.plain rfl (by simp)

theorem passed (h : Owing r) (hi : (r.now.path i).state = .ready) : Settled (r.passed i) := by
  have hpicked : Owed (.changed i :: .chosen i :: r.log.map Prod.fst) :=
    (h.notes.plain rfl (by simp)).plain rfl (by simp)
  have hquiet := h.watch.quiet hi
  refine ⟨hpicked.called i _ hquiet, fun j hj => ?_⟩
  rw [hquiet.watch j] at hj
  cases hj

end Owing

namespace Settled

variable {world : World} {r : Run} {i : Nat}

theorem reached (h : Settled r) (i : Nat) : Owing (r.reached world i) := by
  refine ⟨?_, h.watch.reached i⟩
  have hturned : Owed (.turned i :: r.log.map Prod.fst) := h.notes.turned i
  unfold Run.reached Run.timed
  split
  · exact hturned
  · exact hturned

theorem asked (h : Settled r) : Owing r.asked := ⟨h.notes.asked, h.watch⟩

theorem cleared (h : Settled r) : Settled r.cleared :=
  ⟨h.notes.imp fun hquiet => ⟨hquiet.watch, rfl, rfl⟩, h.watch⟩

theorem handled (h : Settled r) : Settled r.handled :=
  ⟨h.notes.imp fun hquiet => ⟨hquiet.watch, hquiet.timeout, hquiet.priorityTimeout⟩, h.watch⟩

end Settled

def counting : Stages where
  enter _ := Settled
  pick _ := Owing
  answer _ := Settled
  loop _ _ _ _ := Settled
  turned _ _ _ _ := Settled
  kill := Owing
  rest := Settled
  stop _ log := Modest (log.map Prod.fst)

theorem counting_rule (world : World) : Rule world counting where
  fuel h := h.notes.modest
  stuck h _ _ _ := (Settled.reached h _).settled.notes.modest
  unready h _ _ := h.notes.modest
  unpaused h _ _ _ := ((h.notes.plain rfl (by simp)).plain rfl (by simp)).modest
  start h := h
  skip h _ := h
  count h _ _ := h
  idle h _ _ _ := (Settled.reached h _).settled
  resume {_ i _ _ _ r} h _ hpaused := by
    refine ((Settled.reached h i).watched fun _ => ?_).settled
    rw [reached_path]
    exact hpaused.1
  schedule {_ i _ _ _ r} h _ hstarts _ := by
    refine ((((Settled.reached h i).attempted i _).moved fun _ => rfl).watched fun _ => ?_).settled
    rw [moved_path, if_pos ⟨rfl, by rw [(onward_attempt world r i _).length]; exact hstarts.lt⟩]
  connected {_ i _ _ _ r} h _ hstarts _ := by
    refine ((Settled.reached h i).attempted i _).moved fun hwatch => ?_
    rw [hstarts.attempted world] at hwatch
    have hstate := h.watch i hwatch
    rw [hstarts.state] at hstate
    cases hstate
  refused {_ i _ _ _ r} fd h _ _ _ := ((Settled.reached h i).attempted i fd).cleaned i
  back _ _ _ hrest _ := hrest
  on h _ := h
  leave h _ := kept_if Settled.cleared h
  finish h := kept_if Settled.cleared h
  lost h _ := Owing.settled h
  wait {_ r _} h _ _ := by
    split
    · have harmed : Owing (r.armed world) := ⟨h.notes, h.watch⟩
      exact harmed.settled
    · exact Owing.settled h
  pass h _ hready _ := Owing.passed h hready
  ask h := (Settled.asked h).settled
  again _ hrest _ := hrest
  done h := h
  ready {r i} h hstate hwatch := by
    have howing : Owing r := Settled.owing h fun hquiet => by
      rw [hquiet.watch i] at hwatch
      cases hwatch
    refine (howing.watched fun hset => ?_).moved fun hset => ?_
    · cases hset
    · rw [watched_path, if_pos ⟨rfl, lt_of_state (by rw [hstate]; exact SocketState.noConfusion)⟩]
        at hset
      cases hset
  failed {r i} h _ hwatch := by
    have howing : Owing r := Settled.owing h fun hquiet => by
      rw [hquiet.watch i] at hwatch
      cases hwatch
    exact howing.cleaned i
  next h := (Settled.asked h).settled
  expire {r} h htimeout := by
    have howing : Owing r := Settled.owing h fun hquiet => by
      rw [hquiet.timeout] at htimeout
      cases htimeout
    exact ⟨howing.notes, howing.watch⟩
  clean h _ := Owing.cleaned h _
  expired h := (Owing.noted h rfl (by simp)).settled
  skipping {r} h harmed := by
    have howing : Owing r := Settled.owing h fun hquiet => by
      rw [hquiet.priorityTimeout] at harmed
      cases harmed
    exact ⟨howing.notes.plain rfl (by simp), howing.watch⟩
  handled h := Settled.handled h

theorem initial_settled (families : List Int) (sequential : Bool) :
    Settled (initial families sequential).prepared := by
  have hwatch : Watchful (initial families sequential).prepared.now := by
    intro i hi
    rw [(initial_path families sequential i).2.2] at hi
    cases hi
  have hdue : Owed ((initial families sequential).prepared.log.map Prod.fst) := by
    refine ⟨fun past hpast _ => ?_, fun _ => Nat.zero_lt_one⟩
    obtain rfl := List.suffix_nil.mp hpast
    exact Nat.zero_le _
  exact Owing.settled ⟨hdue, hwatch⟩

/--
**As long as the loop of `enable_sockets` turns to paths only while a request is to be
answered, there are no more callbacks than requests.**
-/
theorem callbacks_within_requests (world : World) (families : List Int) (sequential : Bool)
    (events : List Event) :
    Sat (connect world events) (initial families sequential)
      (fun _ r => Modest (r.log.map Prod.fst))
      (fun e r => (∃ x, e = .assertion x) ∧ Modest (r.log.map Prod.fst)) := by
  exact ((connect_stops world _ events).and ((counting_rule world).connect events
    (fun _ _ _ _ h => h.notes.modest) (initial_settled families sequential))).mono
    (fun _ _ h => h.2.notes.modest) (fun _ _ h => h)

/-- An IPv6 path that takes a while next to an IPv4 path that connects immediately. -/
theorem callbacks_within_requests_one :
    let notes := (final (connect { attempt := fun n => if n = 0 then some .inProgress else some .ok }
      [.ready 0 .ok]) (initial [AF_INET6, AF_INET] false)).log.map Prod.fst
    Timely notes ∧ callbacks notes = 1 ∧ callbacks notes ≤ requests notes := by
  intro notes
  have htimely : Timely notes := by decide +kernel
  refine ⟨htimely, by decide +kernel, ?_⟩
  refine (callbacks_within_requests _ _ _ _).of_ok (ok_of_returns ?_) notes (List.suffix_refl _) htimely
  decide +kernel

/-- Two paths that connect immediately are both handed over, on one request. -/
theorem second_family_unasked : ¬ ∀ (world : World) (families : List Int) (sequential : Bool)
    (events : List Event) (past : List Note),
    past <:+ (final (connect world events) (initial families sequential)).log.map Prod.fst →
      callbacks past ≤ requests past := by
  intro h
  have hcount := h { attempt := fun _ => some .ok } [AF_INET6, AF_INET] false [] _
    (List.suffix_refl _)
  revert hcount
  decide +kernel

end Netresolve.Connect
