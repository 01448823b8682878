/-
The circle of `enable_sockets` ends.

`enableSockets` is cut off at a depth.  A path that is attempted is never attempted again, so the
depth that is needed is the number of paths, and no greater depth changes anything.  This is shown
of every function of the circle, from any state of the machine: the paths may be in any mix of
states, the attempts may end in any way, and a callback may ask for more as often as it likes.
-/
import Netresolve.Proofs.Sockets
import Netresolve.Library.Approximation

namespace Netresolve.Connect

open Outcome

/-! ### A deeper circle -/

section

variable {world : World} {x y : S Unit} {e : Fault}

theorem below_connectNext (h : Below e x y) : Below e (connectNext x) (connectNext y) := by
  unfold connectNext
  exact (Below.refl _).bind fun _ => (Below.refl _).bind fun _ => h

theorem below_callback (h : Below e x y) (i : Nat) (fd : Option Nat) :
    Below e (callback world x i fd) (callback world y i fd) := by
  unfold callback
  refine (Below.refl _).bind fun _ => (Below.refl _).bind fun _ => (Below.refl _).bind fun _ => ?_
  exact Below.forM (fun _ => below_connectNext h) _

theorem below_passSocket (h : Below e x y) (i : Nat) :
    Below e (passSocket world x i) (passSocket world y i) := by
  unfold passSocket
  refine (Below.refl _).bind fun _ => (Below.refl _).bind fun _ => (Below.refl _).bind fun _ => ?_
  refine (Below.refl _).bind fun _ => (Below.refl _).bind fun _ => (Below.refl _).bind fun _ => ?_
  exact (Below.refl _).bind fun _ => below_callback h i _

theorem below_pickupConnectedSocket (h : Below e x y) :
    Below e (pickupConnectedSocket world x) (pickupConnectedSocket world y) := by
  unfold pickupConnectedSocket
  refine (Below.refl _).bind fun r => ?_
  dsimp only
  cases r.now.found with
  | none => exact h
  | some i => exact (below_passSocket h i).ite ((Below.refl _).bind fun _ => h)

theorem below_connectCheck (h : Below e x y) (i : Nat) (errno : Errno) :
    Below e (connectCheck world x i errno) (connectCheck world y i errno) := by
  cases errno with
  | inProgress => exact Below.refl _
  | ok =>
      refine (Below.refl _).bind fun _ => (Below.refl _).bind fun _ => (Below.refl _).bind fun _ => ?_
      exact below_pickupConnectedSocket h
  | failed => exact (Below.refl _).bind fun _ => below_pickupConnectedSocket h

theorem below_connectStart (h : Below e x y) (i : Nat) :
    Below e (connectStart world x i) (connectStart world y i) := by
  unfold connectStart
  refine (Below.refl _).bind fun r => (Below.refl _).ite (Below.ite ?_ (Below.refl _))
  refine (Below.refl _).bind fun r' => (Below.refl _).bind fun _ => ?_
  cases world.attempt r'.now.attempts with
  | none => exact (Below.refl _).bind fun _ => below_connectCheck h i _
  | some errno =>
      exact (Below.refl _).bind fun _ => (Below.refl _).bind fun _ => below_connectCheck h i _

theorem below_enableSocket (h : Below e x y) (i : Nat) :
    Below e (enableSocket world x i) (enableSocket world y i) := by
  unfold enableSocket
  refine (Below.refl _).bind fun _ => (Below.refl _).bind fun _ => (Below.refl _).bind fun _ => ?_
  exact (Below.refl _).bind fun _ => (below_connectStart h i).ite (Below.refl _)

theorem below_enableLoop (h : Below e x y) (rest : List Nat) : ∀ ip4 ip6,
    Below e (enableLoop world x rest ip4 ip6) (enableLoop world y rest ip4 ip6) := by
  induction rest with
  | nil => exact fun _ _ => Below.refl _
  | cons i rest ih =>
      intro ip4 ip6
      unfold enableLoop
      refine (Below.refl _).bind fun _ => (ih _ _).ite ((ih _ _).ite ?_)
      exact (below_enableSocket h i).bind fun _ =>
        (Below.refl _).bind fun _ => (Below.refl _).ite (ih _ _)

theorem below_enablePaths (h : Below e x y) :
    Below e (enablePaths world x) (enablePaths world y) := by
  unfold enablePaths
  exact (Below.refl _).bind fun _ => (below_enableLoop h _ 0 0).bind fun _ => Below.refl _

end

theorem enableSockets_cut (world : World) :
    Cut .fuel (enablePaths world) (enableSockets world) where
  zero := rfl
  succ _ := rfl
  mono h := below_enablePaths h

/-! ### The functions of the circle -/

/-- A call of one of the functions. -/
inductive Call where
  | enableSockets
  | connectStart (i : Nat)
  | connectCheck (i : Nat) (errno : Errno)
  | pickupConnectedSocket
  | connectNext
  deriving DecidableEq, Repr

/-- What the call does, given what `enable_sockets` does inside. -/
def Call.run (world : World) (enable : S Unit) : Call → S Unit
  | .enableSockets => enablePaths world enable
  | .connectStart i => Connect.connectStart world enable i
  | .connectCheck i errno => Connect.connectCheck world enable i errno
  | .pickupConnectedSocket => Connect.pickupConnectedSocket world enable
  | .connectNext => Connect.connectNext enable

theorem below_call {world : World} {x y : S Unit} {e : Fault} (call : Call) (h : Below e x y) :
    Below e (call.run world x) (call.run world y) := by
  cases call with
  | enableSockets => exact below_enablePaths h
  | connectStart i => exact below_connectStart h i
  | connectCheck i errno => exact below_connectCheck h i errno
  | pickupConnectedSocket => exact below_pickupConnectedSocket h
  | connectNext => exact below_connectNext h

/-- The call is stopped by an assertion at most. -/
abbrev Ends (x : S Unit) (r : Run) : Prop :=
  Sat x r (fun _ _ => True) (fun e _ => ∃ a, e = .assertion a)

theorem shallow_of_length {r r' : Run} (h : r'.now.paths.length = r.now.paths.length) :
    r'.now.untried.card < nesting r.now := by
  unfold nesting
  rw [← h]
  exact untried_le _

section

variable (world : World) {r r' : Run}

theorem enableSockets_ends (h : r'.now.paths.length = r.now.paths.length) :
    Ends (enableSockets world (nesting r.now)) r' :=
  ((shallow_rule world).enableSockets _ (shallow_of_length h)).mono (fun _ _ _ => trivial)
    (fun _ _ he => he)

theorem pickup_ends (h : r'.now.paths.length = r.now.paths.length) :
    Ends (pickupConnectedSocket world (enableSockets world (nesting r.now))) r' := by
  have hpick : shallow.pick (nesting r.now) r' := shallow_of_length h
  exact ((shallow_rule world).pickup (fun _ hr => (shallow_rule world).enableSockets _ hr) hpick).mono
    (fun _ _ _ => trivial) (fun _ _ he => he)

theorem watchAdd_ends (i : Nat) (r : Run) : Ends (watchAdd i) r := by
  unfold Ends watchAdd
  rw [sat_bind, sat_get, sat_ite]
  exact ⟨fun _ => ⟨_, rfl⟩, fun _ => trivial⟩

theorem connectCheck_ends (h : r'.now.paths.length = r.now.paths.length) (i : Nat)
    (errno : Errno) :
    Ends (connectCheck world (enableSockets world (nesting r.now)) i errno) r' := by
  cases errno with
  | inProgress =>
      unfold Ends connectCheck socketSchedule
      rw [sat_bind, sat_get, sat_ite]
      refine ⟨fun _ => ⟨_, rfl⟩, fun _ => ?_⟩
      rw [sat_bind, sat_setState]
      exact watchAdd_ends i _
  | ok =>
      unfold Ends connectCheck
      rw [sat_bind, sat_get, sat_bind, sat_ite]
      refine ⟨fun _ => ?_, fun _ => ?_⟩
      · unfold socketPause
        rw [sat_bind, sat_get]
        dsimp only
        rw [sat_ite]
        refine ⟨fun _ => ⟨_, rfl⟩, fun _ => ?_⟩
        rw [sat_modifyPath, sat_bind, sat_setState]
        refine pickup_ends world (Eq.trans ?_ h)
        exact (length_modifyPath ..).trans (length_modifyPath ..)
      · rw [sat_pure, sat_bind, sat_setState]
        exact pickup_ends world ((length_modifyPath ..).trans h)
  | failed =>
      unfold Ends connectCheck
      rw [sat_bind, sat_socketCleanup]
      exact pickup_ends world ((onward_cleaned r' i).length.trans h)

theorem connectStart_ends (i : Nat) :
    Ends (connectStart world (enableSockets world (nesting r.now)) i) r := by
  unfold Ends connectStart
  rw [sat_bind, sat_get]
  dsimp only
  rw [sat_ite]
  refine ⟨fun _ => ⟨_, rfl⟩, fun _ => ?_⟩
  rw [sat_ite]
  refine ⟨fun _ => ?_, fun _ => trivial⟩
  rw [sat_bind, sat_get, sat_bind, sat_modifySocket]
  cases world.attempt r.now.attempts with
  | none =>
      dsimp only
      rw [sat_bind, sat_modifyPath]
      exact connectCheck_ends world (length_modifyPath ..) i _
  | some errno =>
      dsimp only
      rw [sat_bind, sat_modifyPath, sat_bind, sat_note]
      exact connectCheck_ends world (length_modifyPath ..) i _

/-- At a depth of as many calls as there are paths no call is cut off. -/
theorem call_ends (call : Call) (r : Run) :
    Ends (call.run world (enableSockets world (nesting r.now))) r := by
  cases call with
  | enableSockets =>
      have henter : shallow.enter (nesting r.now + 1) r :=
        (shallow_of_length rfl).trans (Nat.lt_succ_self _)
      exact ((shallow_rule world).enableSockets (nesting r.now + 1) henter).mono
        (fun _ _ _ => trivial) (fun _ _ he => he)
  | connectStart i => exact connectStart_ends world i
  | connectCheck i errno => exact connectCheck_ends world rfl i errno
  | pickupConnectedSocket => exact pickup_ends world rfl
  | connectNext =>
      unfold Ends Call.run Connect.connectNext
      rw [sat_bind, sat_note, sat_bind, sat_modifySocket]
      exact enableSockets_ends world rfl

end

/-- **The circle ends: however deep it may go, every call does the same and is not cut off.** -/
theorem circle_terminates (world : World) (call : Call) (r : Run) :
    ∃ outcome : EStateM.Result Fault Run Unit, (∀ r', outcome ≠ .error .fuel r') ∧
      ∀ fuel, nesting r.now ≤ fuel → call.run world (enableSockets world fuel) r = outcome := by
  have hends := call_ends world call r
  refine ⟨call.run world (enableSockets world (nesting r.now)) r, ?_, ?_⟩
  · intro r' hcut
    obtain ⟨a, ha⟩ := hends.of_error hcut
    cases ha
  · intro fuel hfuel
    refine (enableSockets_cut world).stable (fun h => below_call call h) hfuel ?_
    intro r' hcut
    obtain ⟨a, ha⟩ := hends.of_error hcut
    cases ha

end Netresolve.Connect
