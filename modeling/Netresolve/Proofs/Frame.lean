/-
What the bookkeeping leaves alone.

Adding and removing watches, setting and clearing timers and running a cleanup
function change watches, counters and private data, and nothing else.  `Frame s s'`
says so once: the state, the cursor, the request, the response and the trace are
those of `s`, and so are the parts of the backend entries that never change.  Every
proof about transitions uses these functions through `Keeps` and does not look
inside them.  Watches and timers alone do not touch the private data either, which is
`Beside` and `Aside`.
-/
import Netresolve.Core.Run
import Netresolve.Library.Outcome

namespace Netresolve

open Outcome

/-- The part of a backend entry that stays as `load_backend` made it. -/
def Backend.shape (b : Backend) : Bool × (RequestType → Bool) := (b.mandatory, b.setup)

/-- `s'` differs from `s` in watches, timers, counters and private data only. -/
structure Frame (s s' : St) : Prop where
  id : s'.query.id = s.query.id
  state : s'.query.state = s.query.state
  cursor : s'.query.cursor = s.query.cursor
  callback : s'.query.callback = s.query.callback
  request : s'.query.request = s.query.request
  response : s'.query.response = s.query.response
  trace : s'.trace = s.trace
  shape : s'.backends.map Backend.shape = s.backends.map Backend.shape
  next : s.context.next ≤ s'.context.next

theorem Frame.refl (s : St) : Frame s s := ⟨rfl, rfl, rfl, rfl, rfl, rfl, rfl, rfl, Nat.le_refl _⟩

theorem Frame.trans {s s' s'' : St} (h : Frame s s') (h' : Frame s' s'') : Frame s s'' :=
  ⟨h'.id.trans h.id, h'.state.trans h.state, h'.cursor.trans h.cursor,
    h'.callback.trans h.callback, h'.request.trans h.request, h'.response.trans h.response,
    h'.trace.trans h.trace, h'.shape.trans h.shape, Nat.le_trans h.next h'.next⟩

theorem Frame.length {s s' : St} (h : Frame s s') : s'.backends.length = s.backends.length := by
  simpa using congrArg List.length h.shape

theorem map_modify_eq {α β : Type} (g : α → β) (f : α → α) (hf : ∀ a, g (f a) = g a) :
    ∀ (l : List α) (i : Nat), (l.modify i f).map g = l.map g := by
  intro l
  induction l with
  | nil => intro i; simp
  | cons a rest ih =>
      intro i
      cases i with
      | zero => simp [hf]
      | succ i => simp [ih]

instance : IsPreorder St Frame where
  refl := Frame.refl
  trans _ _ _ := Frame.trans

/-- Running `x` stays within the frame, whether it returns or stops, and needs no fuel. -/
abbrev Keeps {α : Type} (x : M α) : Prop := Stays Frame (· ≠ .fuel) x

/-- `s'` differs from `s` in watches, timers and counters only. -/
structure Beside (s s' : St) : Prop extends Frame s s' where
  backends : s'.backends = s.backends
  priv : s'.query.priv = s.query.priv

instance : IsPreorder St Beside where
  refl s := ⟨Frame.refl s, rfl, rfl⟩
  trans _ _ _ h h' :=
    ⟨h.toFrame.trans h'.toFrame, h'.backends.trans h.backends, h'.priv.trans h.priv⟩

/-- The faults that have nothing to do with the private data of a backend. -/
def Fault.mundane (e : Fault) : Prop := e ≠ .fuel ∧ e ≠ .foreign ∧ e ≠ .assertion .newPriv

/-- Running `x` leaves the backend entries alone as well. -/
abbrev Aside {α : Type} (x : M α) : Prop := Stays Beside Fault.mundane x

theorem Aside.keeps {α : Type} {x : M α} (h : Aside x) : Keeps x :=
  h.weaken (fun _ _ hb => hb.toFrame) (fun _ he => he.1)

theorem aside_throw {α : Type} {e : Fault} (he : e.mundane) : Aside (throw e : M α) := .throw he

theorem aside_modifyContext {f : Context → Context} (hf : ∀ c, c.next ≤ (f c).next) :
    Aside (modifyContext f) :=
  .modify fun s => ⟨⟨rfl, rfl, rfl, rfl, rfl, rfl, rfl, rfl, hf s.context⟩, rfl, rfl⟩

/-- A change of the query that touches none of the framed fields. -/
theorem aside_modifyQuery {f : Query → Query}
    (hf : ∀ q, (f q).id = q.id ∧ (f q).state = q.state ∧ (f q).cursor = q.cursor ∧
      (f q).callback = q.callback ∧ (f q).request = q.request ∧ (f q).response = q.response ∧
      (f q).priv = q.priv) : Aside (modifyQuery f) := by
  refine .modify fun s => ?_
  obtain ⟨h1, h2, h3, h4, h5, h6, h7⟩ := hf s.query
  exact ⟨⟨h1, h2, h3, h4, h5, h6, rfl, rfl, Nat.le_refl _⟩, rfl, h7⟩

theorem keeps_modifyContext {f : Context → Context} (hf : ∀ c, c.next ≤ (f c).next) :
    Keeps (modifyContext f) := (aside_modifyContext hf).keeps

theorem keeps_modifyBackend {f : Backend → Backend} (hf : ∀ b, (f b).shape = b.shape) :
    Keeps (modifyBackend f) :=
  .modify fun s => ⟨rfl, rfl, rfl, rfl, rfl, rfl, rfl, map_modify_eq _ f hf s.backends _,
    Nat.le_refl _⟩

theorem keeps_modifyPriv {f : Query → Option Nat} :
    Keeps (modifyQuery fun q => { q with priv := f q }) :=
  .modify fun _ => ⟨rfl, rfl, rfl, rfl, rfl, rfl, rfl, rfl, Nat.le_refl _⟩

theorem setTimeout_framed (t : Timer) (w : Option Nat) (q : Query) :
    (q.setTimeout t w).id = q.id ∧ (q.setTimeout t w).state = q.state ∧
      (q.setTimeout t w).cursor = q.cursor ∧ (q.setTimeout t w).callback = q.callback ∧
      (q.setTimeout t w).request = q.request ∧ (q.setTimeout t w).response = q.response ∧
      (q.setTimeout t w).priv = q.priv := by
  cases t <;> exact ⟨rfl, rfl, rfl, rfl, rfl, rfl, rfl⟩

/-! ### The functions of `lib/event.c` -/

section

variable (env : Env)

theorem aside_watchAdd (fd : Fd) (callback : WatchCallback) : Aside (watchAdd env fd callback) := by
  unfold watchAdd epollAddWatch
  refine .bind .get fun s => .bind (aside_modifyContext fun _ => Nat.le_succ _) fun _ =>
    .bind ?_ fun _ => ?_
  · exact .ite (aside_modifyContext fun _ => Nat.le_refl _) (aside_throw (by simp [Fault.mundane]))
  · refine .bind (aside_modifyQuery fun q => ⟨rfl, rfl, rfl, rfl, rfl, rfl, rfl⟩) fun _ => ?_
    exact .bind (aside_modifyContext fun _ => Nat.le_refl _) fun _ => .pure _

theorem aside_watchRemove (w : Nat) (doClose : Bool) : Aside (watchRemove env w doClose) := by
  unfold watchRemove epollRemoveWatch
  refine .bind .get fun s => .ite (aside_throw (by simp [Fault.mundane])) ?_
  split
  · exact aside_throw (by simp [Fault.mundane])
  · refine .bind (aside_modifyQuery fun q => ⟨rfl, rfl, rfl, rfl, rfl, rfl, rfl⟩) fun _ => ?_
    refine .bind (aside_modifyContext fun _ => Nat.le_refl _) fun _ => .bind ?_ fun _ => ?_
    · exact .ite (aside_modifyContext fun _ => Nat.le_refl _) (aside_throw (by simp [Fault.mundane]))
    · exact .ite (aside_modifyContext fun _ => Nat.le_refl _) (.pure _)

theorem aside_setTimeout (t : Timer) : Aside (setTimeout env t) := by
  unfold setTimeout timeoutAdd
  refine .bind (.bind .get fun s => .ite ?_ (.pure _)) fun w =>
    aside_modifyQuery (setTimeout_framed t w)
  exact .bind (aside_modifyContext fun _ => Nat.le_refl _) fun _ =>
    .bind (aside_watchAdd env _ _) fun _ => .pure _

theorem aside_clearTimeout (t : Timer) : Aside (clearTimeout env t) := by
  unfold clearTimeout
  refine .bind .get fun s => ?_
  split
  · exact .pure _
  · exact .bind (aside_watchRemove env _ _) fun _ => aside_modifyQuery (setTimeout_framed t none)

theorem keeps_watchAdd (fd : Fd) (callback : WatchCallback) : Keeps (watchAdd env fd callback) :=
  (aside_watchAdd env fd callback).keeps

theorem keeps_watchRemove (w : Nat) (doClose : Bool) : Keeps (watchRemove env w doClose) :=
  (aside_watchRemove env w doClose).keeps

theorem keeps_setTimeout (t : Timer) : Keeps (setTimeout env t) := (aside_setTimeout env t).keeps

theorem keeps_clearTimeout (t : Timer) : Keeps (clearTimeout env t) :=
  (aside_clearTimeout env t).keeps

/-! ### Backends and their private data -/

theorem keeps_currentBackend : Keeps currentBackend :=
  .bind .get fun _ => .ite (.pure _) (.throw (by decide))

theorem keeps_allocPriv (allocated : Bool) : Keeps (allocPriv allocated) := by
  unfold allocPriv
  refine .bind keeps_currentBackend fun backend => ?_
  split
  · exact .throw (by decide)
  · refine .ite (.throw (by decide)) (.bind .get fun s => .ite ?_ ?_)
    · exact .bind (keeps_modifyContext fun _ => Nat.le_succ _) fun _ =>
        .bind (keeps_modifyBackend fun _ => rfl) fun _ => keeps_modifyPriv
    · exact keeps_modifyBackend fun _ => rfl

theorem keeps_callWatchAdd (fd : Nat) : Keeps (callWatchAdd env fd) := by
  unfold callWatchAdd
  refine .bind .get fun s => .bind (keeps_watchAdd env _ _) fun w => .bind .get fun s' => ?_
  split
  · exact .pure _
  · exact keeps_modifyBackend fun _ => rfl

theorem keeps_callWatchRemove (k : Nat) (doClose : Bool) :
    Keeps (callWatchRemove env k doClose) := by
  unfold callWatchRemove
  refine .bind .get fun s => ?_
  split
  · exact .pure _
  · split
    · exact .pure _
    · exact .bind (keeps_watchRemove env _ _) fun _ => keeps_modifyBackend fun _ => rfl

theorem keeps_backendCleanup (data : Option Block) : Keeps (backendCleanup env data) := by
  unfold backendCleanup
  refine .bind .get fun s => .bind (keeps_modifyBackend fun _ => rfl) fun _ => ?_
  split
  · exact .pure _
  · exact .ite (.forM (fun w => keeps_watchRemove env w false) _) (.throw (by decide))

theorem keeps_cleanupQuery : Keeps (cleanupQuery env) := by
  unfold cleanupQuery
  refine .bind keeps_currentBackend fun backend => .bind (keeps_clearTimeout env _) fun _ =>
    .bind (keeps_clearTimeout env _) fun _ => .bind (keeps_clearTimeout env _) fun _ => ?_
  split
  · exact .pure _
  · refine .bind (.ite (keeps_backendCleanup env _) (.pure _)) fun _ => ?_
    exact .bind (keeps_modifyBackend fun _ => rfl) fun _ => keeps_modifyPriv

end

end Netresolve
