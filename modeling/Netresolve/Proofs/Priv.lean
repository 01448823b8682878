/-
Whose private data is in a backend entry.

A step of a query is followed through the entries it shares with others.  `Held` says
that the blocks of other queries are untouched, that a block of its own is found under
the cursor only, and that the record of each entry matches its data.  `Owning` adds that
the block under the cursor, if any, is the query's own.  In between, after the cursor has
moved and before the backend there is set up, it need not be: this is where the queries of
a context get in each other's way, and where a rule of the pool has to help.

All of this is shown for steps whose set-ups are of the kind `OK`, which is what the
stages of `Proofs/Machine.lean` are used with here.
-/
import Netresolve.Core.Pool
import Netresolve.Library.Past
import Netresolve.Proofs.Loose

namespace Netresolve

open Outcome Past

/-! ### The record of an entry -/

/-- The block that was obtained last, with its query, unless it has been cleaned up. -/
def outstanding : List PrivEvent → Option (Nat × Nat)
  | [] => none
  | .alloc q b :: _ => some (q, b)
  | .cleanup _ _ :: _ => none
  | .setup _ _ :: past | .allocFailed _ :: past => outstanding past

/--
The cleanup function is called with what is outstanding, by the query that obtained it,
and nothing is outstanding when a backend is set up or obtains another block.
-/
def Paired : PrivEvent → List PrivEvent → Prop
  | .cleanup q arg, past => arg = (outstanding past).map (·.2) ∧ ∀ o ∈ outstanding past, o.1 = q
  | .alloc _ b, past => outstanding past = none ∧ ∀ q, .alloc q b ∉ past
  | .setup _ _, past => outstanding past = none
  | .allocFailed _, _ => True

/-- The cleanup function has never been called without a block. -/
def NoNull (history : List PrivEvent) : Prop := ∀ q, .cleanup q none ∉ history

/-- What the record of an entry says, in the end without NULL. -/
structure Told (Strict : Prop) (b : Backend) : Prop where
  paired : Always Paired b.history
  noNull : Strict → NoNull b.history

/-- The record of an entry matches its data; block numbers are below `next`. -/
structure Recorded (Strict : Prop) (next : Nat) (b : Backend) : Prop extends Told Strict b where
  open_ : outstanding b.history = b.data.map fun d => (d.query, d.id)
  registered : b.data ≠ none → b.cleanup = true
  fresh : ∀ q n, .alloc q n ∈ b.history → n < next

theorem Recorded.later {Strict : Prop} {next next' : Nat} {b : Backend}
    (h : Recorded Strict next b) (hle : next ≤ next') : Recorded Strict next' b :=
  { h with fresh := fun q n hn => Nat.lt_of_lt_of_le (h.fresh q n hn) hle }

section

variable {Strict : Prop} {next : Nat} {b : Backend}

theorem Recorded.setup (h : Recorded Strict next b) (hnone : b.data = none) (q : Nat)
    (present : Bool) :
    Recorded Strict next { b with history := .setup q present :: b.history } := by
  have hopen : outstanding b.history = none := by rw [h.open_, hnone]; rfl
  refine ⟨⟨⟨hopen, h.paired⟩, fun hs q' hq' => ?_⟩, h.open_, h.registered, fun q' n hn => ?_⟩
  · exact h.noNull hs q' ((List.mem_cons.mp hq').resolve_left (by simp))
  · exact h.fresh q' n ((List.mem_cons.mp hn).resolve_left (by simp))

theorem Recorded.alloc (h : Recorded Strict next b) (hnone : b.data = none) (q : Nat) :
    Recorded Strict (next + 1) { b with
      cleanup := true, data := some ⟨next, q, []⟩, history := .alloc q next :: b.history } := by
  have hopen : outstanding b.history = none := by rw [h.open_, hnone]; rfl
  have hnew : ∀ q', .alloc q' next ∉ b.history :=
    fun q' hq' => Nat.lt_irrefl next (h.fresh q' next hq')
  refine ⟨⟨⟨⟨hopen, hnew⟩, h.paired⟩, fun hs q' hq' => ?_⟩, rfl, fun _ => rfl, fun q' n hn => ?_⟩
  · exact h.noNull hs q' ((List.mem_cons.mp hq').resolve_left (by simp))
  · rcases List.mem_cons.mp hn with heq | hn
    · obtain ⟨-, rfl⟩ : q' = q ∧ n = next := by simpa using heq
      exact Nat.lt_succ_self n
    · exact Nat.lt_succ_of_lt (h.fresh q' n hn)

theorem Recorded.allocFailed (h : Recorded Strict next b) (q : Nat) :
    Recorded Strict next { b with cleanup := true, history := .allocFailed q :: b.history } := by
  refine ⟨⟨⟨trivial, h.paired⟩, fun hs q' hq' => ?_⟩, h.open_, fun _ => rfl, fun q' n hn => ?_⟩
  · exact h.noNull hs q' ((List.mem_cons.mp hq').resolve_left (by simp))
  · exact h.fresh q' n ((List.mem_cons.mp hn).resolve_left (by simp))

/-- The cleanup function is called by the query that owns the block. -/
theorem Recorded.told (h : Recorded Strict next b) {q : Nat}
    (hown : ∀ d, b.data = some d → d.query = q) (hsome : Strict → b.data ≠ none) :
    Told Strict { b with history := .cleanup q (b.data.map (·.id)) :: b.history } := by
  refine ⟨⟨⟨?_, fun o ho => ?_⟩, h.paired⟩, fun hs q' hq' => ?_⟩
  · rw [h.open_, Option.map_map]
    rfl
  · rw [h.open_] at ho
    obtain ⟨d, hd, rfl⟩ := Option.map_eq_some_iff.mp ho
    exact hown d hd
  · rcases List.mem_cons.mp hq' with heq | hq'
    · have hnull : b.data.map (·.id) = none := by
        injection heq with _ harg
        exact harg.symm
      exact hsome hs (Option.map_eq_none_iff.mp hnull)
    · exact h.noNull hs q' hq'

theorem Recorded.cleanup (h : Recorded Strict next b) {q : Nat}
    (hown : ∀ d, b.data = some d → d.query = q) (hsome : Strict → b.data ≠ none) :
    Recorded Strict next { b with
      data := none, history := .cleanup q (b.data.map (·.id)) :: b.history } :=
  { h.told hown hsome with
    open_ := rfl
    registered := fun hne => absurd rfl hne
    fresh := fun q' n hn => h.fresh q' n ((List.mem_cons.mp hn).resolve_left (by simp)) }

/-- The backend changes what it remembers in its block. -/
theorem Recorded.rewatch (h : Recorded Strict next b) {d : Block} (hd : b.data = some d)
    (watches : List Nat) :
    Recorded Strict next { b with data := some { d with watches := watches } } :=
  { h with
    open_ := by rw [h.open_, hd]; rfl
    registered := fun _ => h.registered (by rw [hd]; exact Option.some_ne_none d) }

end

/-! ### The entries during a step -/

/-- The private data of the entry at position `j`. -/
def St.dataAt (s : St) (j : Nat) : Option Block := (s.backends[j]?).bind (·.data)

/-- The entry under the cursor has a cleanup function. -/
def St.registered (s : St) : Bool := (s.backends[s.query.cursor]?).any (·.cleanup)

theorem dataAt_of {s : St} {j : Nat} {b : Backend} (h : s.backends[j]? = some b) :
    s.dataAt j = b.data := by
  unfold St.dataAt
  rw [h]
  rfl

section

/-
The step starts in `s₀`; `Solo j` says that no other query stands at position `j`, and
`Strict` that the cleanup function is not to be called without a block.
-/
variable (s₀ : St) (Solo : Nat → Prop) (Strict : Prop)

/-- The blocks of others are where they were, and one of its own is under the cursor. -/
structure Held (s : St) : Prop where
  id : s.query.id = s₀.query.id
  type : s.query.request.type = s₀.query.request.type
  length : s.backends.length = s₀.backends.length
  foreign : ∀ j d, d.query ≠ s₀.query.id → (s.dataAt j = some d ↔ s₀.dataAt j = some d)
  mine : ∀ j d, s.dataAt j = some d → d.query = s₀.query.id →
    j = s.query.cursor ∧ s.query.priv = some d.id
  solo : s.query.priv ≠ none → Solo s.query.cursor
  forward : s₀.query.cursor ≤ s.query.cursor
  behind : ∀ j, j < s₀.query.cursor → s.backends[j]? = s₀.backends[j]?
  ahead : ∀ j, s.query.cursor < j → s.backends[j]? = s₀.backends[j]?
  recorded : ∀ (j : Nat) b, s.backends[j]? = some b → Recorded Strict s.context.next b

/-- The cursor has moved to an entry this step has not touched. -/
structure Arriving (s : St) : Prop extends Held s₀ Solo Strict s where
  empty : s.query.priv = none
  untouched : s.backends[s.query.cursor]? = s₀.backends[s.query.cursor]?

/-- The block under the cursor is the query's own, and the one it obtained. -/
structure Owning (s : St) : Prop extends Held s₀ Solo Strict s where
  own : ∀ d, s.dataAt s.query.cursor = some d → d.query = s₀.query.id
  priv : s.query.priv = (s.dataAt s.query.cursor).map (·.id)

/-- If the backend is left now, its cleanup function is not called with NULL. -/
structure Serving (s : St) : Prop extends Owning s₀ Solo Strict s where
  served : Strict → s.registered = true → s.query.priv ≠ none

end

/-- `s'` has the same entries as `s`, under the same cursor. -/
structure Level (s s' : St) : Prop where
  id : s'.query.id = s.query.id
  cursor : s'.query.cursor = s.query.cursor
  priv : s'.query.priv = s.query.priv
  type : s'.query.request.type = s.query.request.type
  backends : s'.backends = s.backends
  next : s.context.next ≤ s'.context.next

theorem Beside.level {s s' : St} (h : Beside s s') : Level s s' :=
  ⟨h.id, h.cursor, h.priv, congrArg Request.type h.request, h.backends, h.next⟩

theorem Level.trans {s s' s'' : St} (h : Level s s') (h' : Level s' s'') : Level s s'' :=
  ⟨h'.id.trans h.id, h'.cursor.trans h.cursor, h'.priv.trans h.priv, h'.type.trans h.type,
    h'.backends.trans h.backends, Nat.le_trans h.next h'.next⟩

theorem Level.dataAt {s s' : St} (h : Level s s') (j : Nat) : s'.dataAt j = s.dataAt j := by
  unfold St.dataAt
  rw [h.backends]

theorem Level.registered {s s' : St} (h : Level s s') : s'.registered = s.registered := by
  unfold St.registered
  rw [h.backends, h.cursor]

variable {s₀ s s' : St} {Solo : Nat → Prop} {Strict : Prop}

theorem Held.level (h : Held s₀ Solo Strict s) (hl : Level s s') : Held s₀ Solo Strict s' := by
  refine ⟨hl.id.trans h.id, hl.type.trans h.type, ?_, ?_, ?_, ?_, ?_, ?_, ?_, ?_⟩
  · rw [hl.backends]
    exact h.length
  · simpa only [hl.dataAt] using h.foreign
  · simpa only [hl.dataAt, hl.cursor, hl.priv] using h.mine
  · simpa only [hl.cursor, hl.priv] using h.solo
  · simpa only [hl.cursor] using h.forward
  · simpa only [hl.backends] using h.behind
  · simpa only [hl.backends, hl.cursor] using h.ahead
  · intro j b hb
    rw [hl.backends] at hb
    exact (h.recorded j b hb).later hl.next

theorem Owning.level (h : Owning s₀ Solo Strict s) (hl : Level s s') : Owning s₀ Solo Strict s' := by
  refine ⟨h.toHeld.level hl, ?_, ?_⟩
  · simpa only [hl.dataAt, hl.cursor] using h.own
  · simpa only [hl.dataAt, hl.cursor, hl.priv] using h.priv

theorem Serving.level (h : Serving s₀ Solo Strict s) (hl : Level s s') :
    Serving s₀ Solo Strict s' := by
  refine ⟨h.toOwning.level hl, ?_⟩
  rw [hl.registered, hl.priv]
  exact h.served

/-- `s'` has the entry `b'` under the cursor where `s` has `b`, and the others are the same. -/
structure Touches (s s' : St) (b b' : Backend) : Prop where
  before : s.backends[s.query.cursor]? = some b
  after : s'.backends[s.query.cursor]? = some b'
  others : ∀ j, j ≠ s.query.cursor → s'.backends[j]? = s.backends[j]?
  length : s'.backends.length = s.backends.length
  id : s'.query.id = s.query.id
  cursor : s'.query.cursor = s.query.cursor
  type : s'.query.request.type = s.query.request.type
  next : s.context.next ≤ s'.context.next

theorem touches_modify {b b' : Backend} {f : Backend → Backend}
    (hb : s.backends[s.query.cursor]? = some b)
    (hs' : s'.backends = s.backends.modify s.query.cursor f)
    (hid : s'.query.id = s.query.id) (hcursor : s'.query.cursor = s.query.cursor)
    (htype : s'.query.request.type = s.query.request.type)
    (hnext : s.context.next ≤ s'.context.next) (hb' : f b = b') : Touches s s' b b' := by
  subst hb'
  refine ⟨hb, ?_, fun j hj => ?_, ?_, hid, hcursor, htype, hnext⟩
  · simp [hs', hb]
  · simp [hs', Ne.symm hj]
  · rw [hs', List.length_modify]

theorem Touches.trans {s'' : St} {b b' b'' : Backend} (h : Touches s s' b b')
    (h' : Touches s' s'' b' b'') : Touches s s'' b b'' := by
  refine ⟨h.before, ?_, fun j hj => ?_, h'.length.trans h.length, h'.id.trans h.id,
    h'.cursor.trans h.cursor, h'.type.trans h.type, Nat.le_trans h.next h'.next⟩
  · rw [← h.cursor]
    exact h'.after
  · rw [h'.others j (by rw [h.cursor]; exact hj), h.others j hj]

theorem Touches.level {s'' : St} {b b' : Backend} (h : Touches s s' b b') (hl : Level s' s'') :
    Touches s s'' b b' := by
  refine ⟨h.before, ?_, fun j hj => ?_, ?_, hl.id.trans h.id, hl.cursor.trans h.cursor,
    hl.type.trans h.type, Nat.le_trans h.next hl.next⟩
  · rw [hl.backends]
    exact h.after
  · rw [hl.backends]
    exact h.others j hj
  · rw [hl.backends]
    exact h.length

theorem Touches.dataAt {b b' : Backend} (h : Touches s s' b b') {j : Nat}
    (hj : j ≠ s.query.cursor) : s'.dataAt j = s.dataAt j := by
  unfold St.dataAt
  rw [h.others j hj]

/-- The query changes its own entry: no block but its own goes, and no other comes. -/
theorem Held.touch {b b' : Backend} (h : Held s₀ Solo Strict s) (ht : Touches s s' b b')
    (hown : ∀ d, b.data = some d → d.query = s₀.query.id)
    (hown' : ∀ d, b'.data = some d → d.query = s₀.query.id)
    (hpriv : s'.query.priv = b'.data.map (·.id))
    (hsolo : b'.data ≠ none → Solo s.query.cursor)
    (hrec : Recorded Strict s'.context.next b') : Owning s₀ Solo Strict s' := by
  have hat : s.dataAt s.query.cursor = b.data := dataAt_of ht.before
  have hat' : s'.dataAt s.query.cursor = b'.data := dataAt_of ht.after
  refine ⟨⟨ht.id.trans h.id, ht.type.trans h.type, ht.length.trans h.length, ?_, ?_, ?_, ?_, ?_,
    ?_, ?_⟩, ?_, ?_⟩
  · intro j d hd
    by_cases hj : j = s.query.cursor
    · subst hj
      rw [← h.foreign _ d hd, hat, hat']
      exact ⟨fun hd' => absurd (hown' d hd') hd, fun hd' => absurd (hown d hd') hd⟩
    · rw [ht.dataAt hj]
      exact h.foreign j d hd
  · intro j d hd hq
    rw [ht.cursor]
    by_cases hj : j = s.query.cursor
    · subst hj
      rw [hat'] at hd
      exact ⟨rfl, by rw [hpriv, hd]; rfl⟩
    · rw [ht.dataAt hj] at hd
      exact absurd (h.mine j d hd hq).1 hj
  · intro hne
    rw [hpriv] at hne
    rw [ht.cursor]
    exact hsolo fun hnone => hne (by rw [hnone]; rfl)
  · rw [ht.cursor]
    exact h.forward
  · intro j hj
    rw [ht.others j (Nat.ne_of_lt (Nat.lt_of_lt_of_le hj h.forward))]
    exact h.behind j hj
  · intro j hj
    rw [ht.cursor] at hj
    rw [ht.others j (Nat.ne_of_gt hj)]
    exact h.ahead j hj
  · intro j b₁ hb₁
    by_cases hj : j = s.query.cursor
    · subst hj
      obtain rfl : b' = b₁ := Option.some.inj (ht.after.symm.trans hb₁)
      exact hrec
    · rw [ht.others j hj] at hb₁
      exact (h.recorded j b₁ hb₁).later ht.next
  · intro d hd
    rw [ht.cursor, hat'] at hd
    exact hown' d hd
  · rw [ht.cursor, hat', hpriv]

/-! ### The functions that touch private data -/

section

variable {env : Env}

/-- What can be said of the entries wherever the step stops. -/
def AllTold (Strict : Prop) (s : St) : Prop :=
  ∀ (j : Nat) b, s.backends[j]? = some b → Told Strict b

theorem Held.allTold (h : Held s₀ Solo Strict s) : AllTold Strict s :=
  fun j b hb => (h.recorded j b hb).toTold

/-- The backend has been left: its entry is empty, and so is the query. -/
structure Vacating (s₀ : St) (Solo : Nat → Prop) (Strict : Prop) (s : St) : Prop
    extends Owning s₀ Solo Strict s where
  empty : s.query.priv = none

/-- The cleanup function of the entry `b` under the cursor, and what `cleanup_query` does then. -/
theorem backendCleanup_vacates {b : Backend} (h : Owning s₀ Solo Strict s)
    (hb : s.backends[s.query.cursor]? = some b)
    (hserved : Strict → b.cleanup = true → b.data ≠ none) :
    Sat (do
      (if b.cleanup then backendCleanup env b.data else pure ())
      modifyBackend fun b => { b with data := none }
      modifyQuery fun q => { q with priv := none }) s
      (fun _ => Vacating s₀ Solo Strict) (fun e s' => e.mundane ∧ AllTold Strict s') := by
  have hown : ∀ d, b.data = some d → d.query = s₀.query.id :=
    fun d hd => h.own d ((dataAt_of hb).trans hd)
  have hown' : ∀ d, b.data = some d → d.query = s.query.id :=
    fun d hd => (hown d hd).trans h.id.symm
  have hrec := h.recorded _ b hb
  -- what comes after the cleanup function, whatever the entry has become by then
  have hfin : ∀ t b₁, Touches s t b b₁ → Recorded Strict t.context.next { b₁ with data := none } →
      Sat (modifyBackend (fun b => { b with data := none }) >>= fun _ =>
        modifyQuery fun q => { q with priv := none }) t
        (fun _ => Vacating s₀ Solo Strict) (fun e s' => e.mundane ∧ AllTold Strict s') := by
    intro t b₁ ht hrec₁
    have hb₁ : t.backends[t.query.cursor]? = some b₁ := by rw [ht.cursor]; exact ht.after
    have hlast : Touches t { t with
        query := { t.query with priv := none }
        backends := t.backends.modify t.query.cursor fun b => { b with data := none } } b₁
        { b₁ with data := none } := touches_modify hb₁ rfl rfl rfl rfl (Nat.le_refl _) rfl
    simp only [modifyBackend, modifyQuery, sat_bind, sat_modify]
    exact ⟨h.toHeld.touch (ht.trans hlast) hown nofun rfl (fun hne => absurd rfl hne) hrec₁, rfl⟩
  rw [sat_bind]
  by_cases hcleanup : b.cleanup = true
  · -- the record of the entry grows first, then the backend removes its watches
    have hclean := hrec.cleanup hown' fun hs => hserved hs hcleanup
    have hgrow : Touches s { s with
        backends := s.backends.modify s.query.cursor fun b' =>
          { b' with history := .cleanup s.query.id (b.data.map (·.id)) :: b'.history } } b
        { b with history := .cleanup s.query.id (b.data.map (·.id)) :: b.history } :=
      touches_modify hb rfl rfl rfl rfl (Nat.le_refl _) rfl
    have htold : AllTold Strict { s with
        backends := s.backends.modify s.query.cursor fun b' =>
          { b' with history := .cleanup s.query.id (b.data.map (·.id)) :: b'.history } } := by
      intro j b₁ hb₁
      by_cases hj : j = s.query.cursor
      · subst hj
        obtain rfl := Option.some.inj (hgrow.after.symm.trans hb₁)
        exact hrec.told hown' fun hs => hserved hs hcleanup
      · rw [hgrow.others j hj] at hb₁
        exact h.allTold j b₁ hb₁
    rw [if_pos hcleanup]
    unfold backendCleanup
    simp only [sat_bind, sat_get, modifyBackend, sat_modify]
    cases hdata : b.data with
    | none =>
        rw [hdata] at hgrow hclean
        exact hfin _ _ hgrow hclean
    | some block =>
        rw [hdata] at hgrow htold hclean
        simp only [hown' block hdata, if_true]
        refine (Stays.forM (fun w => aside_watchRemove env w false) block.watches _).mono
          (fun _ t ht => ?_) (fun e t ht => ⟨ht.2, ?_⟩)
        · exact hfin t _ (hgrow.level ht.level) (hclean.later ht.next)
        · intro j b₁ hb₁
          rw [ht.1.backends] at hb₁
          exact htold j b₁ hb₁
  · -- without a cleanup function there are no data
    have hnone : b.data = none := by
      refine Option.eq_none_iff_forall_ne_some.mpr fun d hd => hcleanup (hrec.registered ?_)
      rw [hd]
      exact Option.some_ne_none d
    rw [if_neg hcleanup, sat_pure]
    refine hfin s b ⟨hb, hb, fun _ _ => rfl, rfl, rfl, rfl, rfl, Nat.le_refl _⟩ ?_
    rw [← hnone]
    exact hrec

theorem cleanupQuery_vacates (h : Serving s₀ Solo Strict s) :
    Sat (cleanupQuery env) s (fun _ s' => Frame s s' ∧ Vacating s₀ Solo Strict s')
      (fun e s' => Frame s s' ∧ e.mundane ∧ AllTold Strict s') := by
  have hvac : Sat (cleanupQuery env) s (fun _ => Vacating s₀ Solo Strict)
      (fun e s' => e.mundane ∧ AllTold Strict s') := by
    unfold cleanupQuery currentBackend
    simp only [sat_bind, sat_get, sat_ite, sat_pure, sat_throw]
    refine ⟨fun _ => ?_, fun _ => ⟨by simp [Fault.mundane], h.toHeld.allTold⟩⟩
    have hclear : Aside (do
        clearTimeout env .delayed
        clearTimeout env .requestTimeout
        clearTimeout env .resultTimeout) :=
      .bind (aside_clearTimeout env _) fun _ => .bind (aside_clearTimeout env _) fun _ =>
        aside_clearTimeout env _
    simp only [← sat_bind, ← bind_assoc]
    rw [sat_bind]
    simp only [bind_assoc]
    refine (hclear s).mono (fun _ t ht => ?_) (fun e t ht => ⟨ht.2, (h.toHeld.level ht.1.level).allTold⟩)
    have h' := h.level ht.level
    have hentry : t.backends[t.query.cursor]? = s.backends[s.query.cursor]? := by
      rw [ht.backends, ht.cursor]
    split
    · next hnone =>
        refine ⟨h'.toOwning, ?_⟩
        rw [h'.priv]
        unfold St.dataAt
        rw [hentry, hnone]
        rfl
    · next b hb =>
        rw [← hentry] at hb
        refine backendCleanup_vacates h'.toOwning hb fun hs hc hnone => ?_
        refine h'.served hs (by simp [St.registered, hb, hc]) ?_
        rw [h'.priv, dataAt_of hb, hnone]
        rfl
  exact ((keeps_cleanupQuery env s).and hvac).mono (fun _ _ h => h)
    (fun _ _ he => ⟨he.1.1, he.2⟩)

/-- A query that has left its backend has nothing of its own, so its cursor can go on. -/
theorem Vacating.arrive (h : Vacating s₀ Solo Strict s) {i : Nat} (hi : s.query.cursor < i) :
    Arriving s₀ Solo Strict (s.moved i) := by
  refine ⟨⟨h.id, h.type, h.length, h.foreign, ?_, ?_, ?_, h.behind, ?_, h.recorded⟩, h.empty, ?_⟩
  · intro j d hd hq
    have hpriv := (h.mine j d hd hq).2
    rw [h.empty] at hpriv
    cases hpriv
  · intro hne
    exact absurd h.empty hne
  · exact Nat.le_trans h.forward (Nat.le_of_lt hi)
  · intro j hj
    exact h.ahead j (Nat.lt_trans hi hj)
  · exact h.ahead i hi

/-- At the end of the list there is no entry to look at. -/
theorem Arriving.ended (h : Arriving s₀ Solo Strict s) (hend : s.backends.length ≤ s.query.cursor) :
    Serving s₀ Solo Strict s := by
  have hnone : s.backends[s.query.cursor]? = none := List.getElem?_eq_none hend
  have hdata : s.dataAt s.query.cursor = none := by
    unfold St.dataAt
    rw [hnone]
    rfl
  refine ⟨⟨h.toHeld, ?_, ?_⟩, ?_⟩
  · intro d hd
    rw [hdata] at hd
    cases hd
  · rw [hdata, h.empty]
    rfl
  · intro _ hreg
    unfold St.registered at hreg
    rw [hnone] at hreg
    cases hreg

/-- What leaving a backend comes to: another entry, or the end of the list. -/
structure Left (s₀ : St) (Solo : Nat → Prop) (Strict : Prop) (s : St) (restart : Bool) (s' : St) :
    Prop where
  arriving : Arriving s₀ Solo Strict s'
  state : s'.query.state = s.query.state
  found : restart = true → s'.query.cursor < s'.backends.length
  ended : restart = false → s'.backends.length ≤ s'.query.cursor

theorem leaveDone_left (h : Serving s₀ Solo Strict s) :
    Sat (leaveDone env) s (Left s₀ Solo Strict s) (fun e s' => e.mundane ∧ AllTold Strict s') := by
  simp only [leaveDone, sat_bind]
  refine (cleanupQuery_vacates h).mono (fun _ s₁ ⟨hf, hv⟩ => ?_) (fun _ _ he => he.2)
  simp only [sat_get, sat_ite, sat_bind, modifyQuery, sat_modify, sat_pure, sat_throw]
  refine ⟨fun hlt => ?_, fun _ => ⟨by simp [Fault.mundane], hv.toHeld.allTold⟩⟩
  obtain ⟨hle, -, hfound, hend⟩ := nextMandatory_spec (s₁.backends.drop (s₁.query.cursor + 1))
    (s₁.query.cursor + 1)
  rw [List.length_drop] at hfound hend
  refine ⟨hv.arrive (Nat.lt_of_succ_le hle), hf.state, fun h => ?_, fun h => ?_⟩
  · have := hfound h
    show (nextMandatory _ _).1 < s₁.backends.length
    omega
  · have := hend h
    show s₁.backends.length ≤ (nextMandatory _ _).1
    omega

theorem warned_level (s : St) : Level s s.warned := by
  unfold St.warned
  split
  · exact ⟨rfl, rfl, rfl, rfl, rfl, Nat.le_refl _⟩
  · exact ⟨rfl, rfl, rfl, rfl, rfl, Nat.le_refl _⟩

theorem warned_state (s : St) : s.warned.query.state = s.query.state := by
  unfold St.warned
  split
  · rfl
  · rfl

theorem leaveFailed_left (h : Serving s₀ Solo Strict s) :
    Sat (leaveFailed env) s (Left s₀ Solo Strict s)
      (fun e s' => e.mundane ∧ AllTold Strict s') := by
  simp only [leaveFailed, sat_bind, sat_get]
  rw [sat_warn]
  refine (cleanupQuery_vacates (h.level (warned_level s))).mono (fun _ s₁ hs₁ => ?_)
    (fun _ _ he => he.2)
  obtain ⟨hf, hv⟩ := hs₁
  have harrive := hv.arrive (Nat.lt_succ_self s₁.query.cursor)
  simp only [nextBackend, currentBackend, modifyQuery, sat_bind, sat_modify, sat_get, sat_ite,
    sat_pure, sat_throw]
  refine ⟨fun hle => ⟨harrive, hf.state.trans (warned_state s), fun h => ?_, fun h => ?_⟩,
    fun _ => ⟨by simp [Fault.mundane], harrive.toHeld.allTold⟩⟩
  · obtain ⟨b, hb⟩ := Option.isSome_iff_exists.mp h
    exact (List.getElem?_eq_some_iff.mp hb).1
  · exact List.getElem?_eq_none_iff.mp (by simpa using h)

theorem ownBlock_some {block : Block} (h : ownBlock s = some block) :
    s.dataAt s.query.cursor = some block := (Option.filter_eq_some_iff.mp h).1

/-- What the watches of a backend leave as it is. -/
structure Likewise (s₀ : St) (Solo : Nat → Prop) (Strict : Prop) (s s' : St) : Prop where
  owning : Owning s₀ Solo Strict s'
  priv : s'.query.priv = s.query.priv
  cursor : s'.query.cursor = s.query.cursor
  registered : s'.registered = s.registered

theorem Level.likewise (hl : Level s s') (h : Owning s₀ Solo Strict s) :
    Likewise s₀ Solo Strict s s' := ⟨h.level hl, hl.priv, hl.cursor, hl.registered⟩

/-- The backend changes the watches its block remembers. -/
theorem Owning.rewatch (h : Owning s₀ Solo Strict s) {block : Block}
    (hdata : s.dataAt s.query.cursor = some block) (watches : List Nat) :
    Likewise s₀ Solo Strict s { s with
      backends := s.backends.modify s.query.cursor fun b =>
        { b with data := some { block with watches := watches } } } := by
  obtain ⟨b, hb, hd⟩ := Option.bind_eq_some_iff.mp hdata
  have ht : Touches s { s with
      backends := s.backends.modify s.query.cursor fun b =>
        { b with data := some { block with watches := watches } } } b
      { b with data := some { block with watches := watches } } :=
    touches_modify hb rfl rfl rfl rfl (Nat.le_refl _) rfl
  have hpriv : s.query.priv = some block.id := by rw [h.priv, hdata]; rfl
  refine ⟨h.toHeld.touch ht (fun d hd' => h.own d (by rw [dataAt_of hb, hd'])) ?_ hpriv ?_
    ((h.recorded _ b hb).rewatch hd watches), rfl, rfl, ?_⟩
  · rintro d ⟨⟩
    exact h.own block hdata
  · intro _
    exact h.solo (by rw [hpriv]; exact Option.some_ne_none _)
  · unfold St.registered
    rw [ht.after, hb]
    rfl

theorem Likewise.after {t : St} (hl : Level s t) (h : Likewise s₀ Solo Strict t s') :
    Likewise s₀ Solo Strict s s' :=
  ⟨h.owning, h.priv.trans hl.priv, h.cursor.trans hl.cursor, h.registered.trans hl.registered⟩

theorem callWatchAdd_likewise (fd : Nat) (h : Owning s₀ Solo Strict s) :
    Sat (callWatchAdd env fd) s (fun _ => Likewise s₀ Solo Strict s)
      (fun e s' => e.mundane ∧ AllTold Strict s') := by
  unfold callWatchAdd
  simp only [sat_bind, sat_get]
  refine (aside_watchAdd env _ _ s).mono (fun w t ht => ?_)
    (fun e t ht => ⟨ht.2, (h.toHeld.level ht.1.level).allTold⟩)
  have h' := h.level ht.level
  split
  · exact ht.level.likewise h
  · next block hblock =>
      exact (h'.rewatch (ownBlock_some hblock) _).after ht.level

theorem callWatchRemove_likewise (k : Nat) (doClose : Bool) (h : Owning s₀ Solo Strict s) :
    Sat (callWatchRemove env k doClose) s (fun _ => Likewise s₀ Solo Strict s)
      (fun e s' => e.mundane ∧ AllTold Strict s') := by
  have hself : Likewise s₀ Solo Strict s s := ⟨h, rfl, rfl, rfl⟩
  unfold callWatchRemove
  simp only [sat_bind, sat_get]
  split
  · exact hself
  · next block hblock =>
      split
      · exact hself
      · rw [sat_bind]
        refine (aside_watchRemove env _ _ s).mono (fun _ t ht => ?_)
          (fun e t ht => ⟨ht.2, (h.toHeld.level ht.1.level).allTold⟩)
        have hdata : t.dataAt t.query.cursor = some block := by
          rw [ht.level.dataAt, ht.cursor]
          exact ownBlock_some hblock
        exact ((h.level ht.level).rewatch hdata _).after ht.level

/-- The backend under the cursor is being set up, with the given calls still to make. -/
structure SettingUp (s₀ : St) (Solo : Nat → Prop) (Strict : Prop) (calls : List Call) (s : St) :
    Prop extends Owning s₀ Solo Strict s where
  entry : s.query.cursor < s.backends.length
  keeps : keepsWatches s.query.priv.isSome calls = true
  free : .newPriv true ∈ calls → Solo s.query.cursor
  obtains : Strict → (s.query.priv ≠ none ∨ .newPriv true ∈ calls) ∨
    (s.registered = false ∧ ∀ allocated, .newPriv allocated ∉ calls)

/-- The setup function has returned. -/
theorem SettingUp.serving (h : SettingUp s₀ Solo Strict [] s) : Serving s₀ Solo Strict s := by
  refine ⟨h.toOwning, fun hs hreg => ?_⟩
  rcases h.obtains hs with (hpriv | hmem) | ⟨hnot, -⟩
  · exact hpriv
  · cases hmem
  · rw [hnot] at hreg
    cases hreg

theorem keepsWatches_rest {has : Bool} {call : Call} {rest : List Call}
    (hcall : ∀ allocated, call ≠ .newPriv allocated) (h : keepsWatches has (call :: rest) = true) :
    keepsWatches has rest = true := by
  cases call with
  | newPriv allocated => exact absurd rfl (hcall allocated)
  | watchAdd fd => exact (Bool.and_eq_true_iff.mp h).2
  | _ => exact h

/-- A call that obtains no private data. -/
theorem SettingUp.next {call : Call} {rest : List Call}
    (h : SettingUp s₀ Solo Strict (call :: rest) s) (hcall : ∀ allocated, call ≠ .newPriv allocated)
    (hl : Likewise s₀ Solo Strict s s') : SettingUp s₀ Solo Strict rest s' := by
  refine ⟨hl.owning, ?_, ?_, ?_, fun hs => ?_⟩
  · rw [hl.cursor, hl.owning.length, ← h.length]
    exact h.entry
  · rw [hl.priv]
    exact keepsWatches_rest hcall h.keeps
  · intro hmem
    rw [hl.cursor]
    exact h.free (List.mem_cons_of_mem _ hmem)
  · rw [hl.priv, hl.registered]
    rcases h.obtains hs with (hpriv | hmem) | ⟨hnot, hno⟩
    · exact Or.inl (Or.inl hpriv)
    · exact Or.inl (Or.inr ((List.mem_cons.mp hmem).resolve_left (hcall true).symm))
    · exact Or.inr ⟨hnot, fun a hmem => hno a (List.mem_cons_of_mem _ hmem)⟩

theorem SettingUp.level {calls : List Call} (h : SettingUp s₀ Solo Strict calls s)
    (hl : Level s s') : SettingUp s₀ Solo Strict calls s' := by
  refine ⟨h.toOwning.level hl, ?_, ?_, ?_, ?_⟩
  · rw [hl.cursor, hl.backends]
    exact h.entry
  · rw [hl.priv]
    exact h.keeps
  · rw [hl.cursor]
    exact h.free
  · rw [hl.priv, hl.registered]
    exact h.obtains

/-- `netresolve_backend_new_priv` finds no data, and the block is the query's own. -/
theorem allocPriv_settingUp {allocated : Bool} {rest : List Call}
    (h : SettingUp s₀ Solo Strict (.newPriv allocated :: rest) s) :
    Sat (allocPriv allocated) s (fun _ => SettingUp s₀ Solo Strict rest)
      (fun e s' => e.mundane ∧ AllTold Strict s') := by
  obtain ⟨hnone, hrest⟩ : s.query.priv.isSome = false ∧ keepsWatches allocated rest = true := by
    simpa [keepsWatches] using h.keeps
  obtain ⟨b, hb⟩ : ∃ b, s.backends[s.query.cursor]? = some b :=
    ⟨_, List.getElem?_eq_getElem h.entry⟩
  have hdata : b.data = none := by
    have := h.priv
    rw [dataAt_of hb] at this
    rw [this] at hnone
    simpa using hnone
  have hown : ∀ d, b.data = some d → d.query = s₀.query.id := by
    intro d hd
    rw [hdata] at hd
    cases hd
  have hrec := h.recorded _ b hb
  unfold allocPriv
  rw [sat_bind, sat_currentBackend hb]
  simp only [hdata, Option.isSome_none, Bool.false_eq_true, if_false, sat_bind, sat_get]
  cases allocated with
  | true =>
      simp only [if_true, modifyContext, modifyBackend, modifyQuery, sat_bind, sat_modify]
      have hsolo := h.free (List.mem_cons_self ..)
      have ht : Touches s { s with
          query := { s.query with priv := some s.context.next }
          backends := s.backends.modify s.query.cursor fun b => { b with
            cleanup := true
            data := some ⟨s.context.next, s.query.id, []⟩
            history := .alloc s.query.id s.context.next :: b.history }
          context := { s.context with next := s.context.next + 1 } } b
          { b with
            cleanup := true
            data := some ⟨s.context.next, s.query.id, []⟩
            history := .alloc s.query.id s.context.next :: b.history } :=
        touches_modify hb rfl rfl rfl rfl (Nat.le_succ _) rfl
      refine ⟨h.toHeld.touch ht hown ?_ rfl (fun _ => hsolo) (hrec.alloc hdata _), ?_, hrest, ?_, ?_⟩
      · rintro d ⟨⟩
        exact h.id
      · simpa using h.entry
      · exact fun _ => hsolo
      · exact fun _ => Or.inl (Or.inl (Option.some_ne_none _))
  | false =>
      simp only [Bool.false_eq_true, if_false, modifyBackend, sat_modify]
      have ht : Touches s { s with
          backends := s.backends.modify s.query.cursor fun b => { b with
            cleanup := true
            history := .allocFailed s.query.id :: b.history } } b
          { b with cleanup := true, history := .allocFailed s.query.id :: b.history } :=
        touches_modify hb rfl rfl rfl rfl (Nat.le_refl _) rfl
      have hpriv : s.query.priv = none := by simpa using hnone
      refine ⟨h.toHeld.touch ht hown hown ?_ (fun hne => absurd hdata hne) (hrec.allocFailed _),
        ?_, ?_, ?_, ?_⟩
      · show s.query.priv = b.data.map (·.id)
        rw [hpriv, hdata]
        rfl
      · simpa using h.entry
      · show keepsWatches s.query.priv.isSome rest = true
        rw [hnone]
        exact hrest
      · exact fun hmem => h.free (List.mem_cons_of_mem _ hmem)
      · intro hs
        rcases h.obtains hs with (hne | hmem) | ⟨-, hno⟩
        · exact absurd hpriv hne
        · exact Or.inl (Or.inr ((List.mem_cons.mp hmem).resolve_left (by simp)))
        · exact absurd (List.mem_cons_self ..) (hno false)

end

end Netresolve
