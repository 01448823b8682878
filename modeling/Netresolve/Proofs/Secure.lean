/-
Whose data are reported as secure.

The security of a response is one flag.  Any backend can set it and nothing resets it,
while paths, the node name and the DNS answer are collected over all backends of a
query.  So the flag says nothing about the backend a datum is from: it vouches for all
of them exactly if the calls made so far are not mixed, that is if no backend has
supplied a datum still in the response without declaring itself secure, while another
one has declared itself so.
-/
import Netresolve.Proofs.Loose
import Netresolve.Proofs.Timers

namespace Netresolve

open Outcome Past

/-! ### The calls of the backends -/

/-- Backend `j` has declared itself secure. -/
def Declared (j : Nat) (tr : List Obs) : Prop := Obs.report j .setSecure ∈ tr

/-- The backend the node name is from: that of the last canonical name or first name info. -/
def nameSource : List Obs → Option Nat
  | [] => none
  | .report j (.setCanonicalName _) :: _ => some j
  | .report j (.addNameInfo (some _)) :: past => (nameSource past).or (some j)
  | _ :: past => nameSource past

/-- The backend the DNS answer is from. -/
def dnsSource : List Obs → Option Nat
  | [] => none
  | .report j (.setDnsAnswer _) :: _ => some j
  | _ :: past => dnsSource past

/-- Backend `j` has supplied a path, or the node name or DNS answer that counts. -/
def Supplied (j : Nat) (tr : List Obs) : Prop :=
  (∃ path, Obs.path j path ∈ tr) ∨ nameSource tr = some j ∨ dnsSource tr = some j

/-- Some backend has declared itself secure, and one that has not has supplied data. -/
def Mixed (tr : List Obs) : Prop := ∃ i j, Declared i tr ∧ Supplied j tr ∧ ¬ Declared j tr

/-! ### The response -/

/-- Backend `j` contributed a path, the node name or the DNS answer of the response. -/
def Response.from (r : Response) (j : Nat) : Prop :=
  (∃ p ∈ r.paths, p.origin = j) ∨ r.nodename.map (·.origin) = some j ∨
    r.dns.map (·.origin) = some j

/-- If the response is reported as secure, so has every backend that contributed to it. -/
def Vouched (r : Response) (tr : List Obs) : Prop :=
  queryGetSecure r = true → ∀ j, r.from j → Declared j tr

/-- The response is what the calls have made of it. -/
structure Tracks (r : Response) (tr : List Obs) : Prop where
  security : queryGetSecure r = true ↔ ∃ i, Declared i tr
  paths : ∀ j, (∃ p ∈ r.paths, p.origin = j) ↔ ∃ path, Obs.path j path ∈ tr
  name : r.nodename.map (·.origin) = nameSource tr
  dns : r.dns.map (·.origin) = dnsSource tr

theorem Tracks.vouched_iff {r : Response} {tr : List Obs} (h : Tracks r tr) :
    Vouched r tr ↔ ¬ Mixed tr := by
  have hfrom : ∀ j, r.from j ↔ Supplied j tr := by
    intro j
    unfold Response.from Supplied
    rw [h.paths j, h.name, h.dns]
  constructor
  · rintro hv ⟨i, j, hi, hj, hno⟩
    exact hno (hv (h.security.mpr ⟨i, hi⟩) j ((hfrom j).mpr hj))
  · intro hno hs j hj
    obtain ⟨i, hi⟩ := h.security.mp hs
    by_contra hnot
    exact hno ⟨i, j, hi, (hfrom j).mp hj, hnot⟩

/-! ### One step -/

/-- The entries that have no say in the response. -/
def Obs.idle : Obs → Bool
  | .report _ call => !call.data
  | .path _ _ => false
  | _ => true

theorem Tracks.idle {r : Response} {tr : List Obs} (h : Tracks r tr) {o : Obs} (ho : o.idle) :
    Tracks r (o :: tr) := by
  have hdecl : ∀ j, Declared j (o :: tr) ↔ Declared j tr := by
    intro j
    unfold Declared
    rw [List.mem_cons]
    refine ⟨fun hor => hor.resolve_left fun heq => ?_, Or.inr⟩
    rw [← heq] at ho
    simp [Obs.idle, Call.data] at ho
  have hpath : ∀ j path, Obs.path j path ∈ o :: tr ↔ Obs.path j path ∈ tr := by
    intro j path
    rw [List.mem_cons]
    refine ⟨fun hor => hor.resolve_left fun heq => ?_, Or.inr⟩
    rw [← heq] at ho
    simp [Obs.idle] at ho
  have hsource : nameSource (o :: tr) = nameSource tr ∧ dnsSource (o :: tr) = dnsSource tr := by
    cases o with
    | report j call => cases call <;> first | exact ⟨rfl, rfl⟩ | simp [Obs.idle, Call.data] at ho
    | _ => exact ⟨rfl, rfl⟩
  refine ⟨?_, fun j => ?_, ?_, ?_⟩
  · simp only [hdecl]
    exact h.security
  · simp only [hpath]
    exact h.paths j
  · rw [hsource.1]
    exact h.name
  · rw [hsource.2]
    exact h.dns

theorem insertPath_mem (sort : Bool) (path : Sourced Path) : ∀ (ps : List (Sourced Path)) (j : Nat),
    (∃ p ∈ insertPath sort path ps, p.origin = j) ↔ path.origin = j ∨ ∃ p ∈ ps, p.origin = j := by
  intro ps j
  induction ps with
  | nil => simp [insertPath]
  | cons q rest ih =>
      unfold insertPath
      split
      · simp
      · simp only [List.mem_cons, exists_eq_or_imp] at ih ⊢
        rw [ih]
        tauto

theorem Tracks.stored {env : Env} {s : St} (h : Tracks s.query.response s.trace) (path : Path) :
    Tracks (s.stored env path).query.response (s.stored env path).trace := by
  refine ⟨?_, fun j => ?_, h.name, h.dns⟩
  · refine h.security.trans ?_
    simp [Declared, St.stored]
  · refine (insertPath_mem _ _ _ j).trans ?_
    rw [h.paths j]
    simp [St.stored, exists_or, eq_comm]

/-- Name info counts only if there is no node name yet. -/
theorem name_addNameInfo {env : Env} {q : Query} {tr : List Obs} (nodename : Option String)
    (h : q.response.nodename.map (·.origin) = nameSource tr) :
    ((Call.addNameInfo nodename).answer env q).nodename.map (·.origin) =
      nameSource (.report q.cursor (.addNameInfo nodename) :: tr) := by
  cases hn : q.response.nodename with
  | some name =>
      rw [hn] at h
      cases nodename <;> simp [Call.answer, nameSource, hn, ← h]
  | none =>
      rw [hn] at h
      cases nodename <;> simp [Call.answer, nameSource, hn, ← h]

/-- A call that writes into the response does to the sources what it does to the data. -/
theorem Tracks.answered {env : Env} {s : St} {call : Call} (h : Tracks s.query.response s.trace)
    (hd : call.data = true) :
    Tracks (s.answered env call).query.response (s.answered env call).trace := by
  have hpaths : ∀ j, (∃ path, Obs.path j path ∈ (s.answered env call).trace) ↔
      ∃ path, Obs.path j path ∈ s.trace := by
    intro j
    simp [St.answered, St.reported]
  have hsame : call ≠ .setSecure → ((∃ i, Declared i (s.answered env call).trace) ↔
      ∃ i, Declared i s.trace) := by
    intro hne
    simp [Declared, St.answered, St.reported, Ne.symm hne]
  cases call with
  | setCanonicalName name =>
      exact ⟨h.security.trans (hsame (by simp)).symm, fun j => (h.paths j).trans (hpaths j).symm,
        rfl, h.dns⟩
  | setDnsAnswer answer =>
      exact ⟨h.security.trans (hsame (by simp)).symm, fun j => (h.paths j).trans (hpaths j).symm,
        h.name, rfl⟩
  | setSecure =>
      refine ⟨iff_of_true rfl ⟨s.query.cursor, ?_⟩, fun j => (h.paths j).trans (hpaths j).symm,
        h.name, h.dns⟩
      exact List.mem_cons_self
  | addNameInfo nodename =>
      -- Whether the name is taken or not, the rest of the response stays as it is.
      have hrest : ∀ r, (Call.addNameInfo nodename).answer env s.query = r →
          r.security = s.query.response.security ∧ r.paths = s.query.response.paths ∧
            r.dns = s.query.response.dns := by
        rintro r rfl
        simp only [Call.answer]
        split <;> exact ⟨rfl, rfl, rfl⟩
      obtain ⟨hsec, hp, hdns⟩ := hrest _ rfl
      refine ⟨?_, fun j => ?_, name_addNameInfo nodename h.name, ?_⟩
      · show (((Call.addNameInfo nodename).answer env s.query).security == .secure) = true ↔ _
        rw [hsec]
        exact h.security.trans (hsame (by simp)).symm
      · show (∃ p ∈ ((Call.addNameInfo nodename).answer env s.query).paths, p.origin = j) ↔ _
        rw [hp]
        exact (h.paths j).trans (hpaths j).symm
      · show ((Call.addNameInfo nodename).answer env s.query).dns.map (·.origin) = _
        rw [hdns]
        exact h.dns
  | _ => simp [Call.data] at hd

/-! ### Whole runs -/

/-- The application sees a response that vouches for its data exactly if the calls are not mixed. -/
def VouchedUnlessMixed (o : Obs) (past : List Obs) : Prop :=
  match o with
  | .callback _ _ r => Vouched r past ↔ ¬ Mixed past
  | _ => True

/-- What holds of a query at all times. -/
def Tracked (s : St) : Prop :=
  Tracks s.query.response s.trace ∧ Always VouchedUnlessMixed s.trace

theorem tracked_invariant (env : Env) : Invariant env Tracked where
  frame hf h := by
    unfold Tracked
    rw [hf.response, hf.trace]
    exact h
  entered state h := ⟨h.1.idle rfl, trivial, h.2⟩
  reported hd h := ⟨h.1.idle (by simp [Obs.idle, hd]), trivial, h.2⟩
  answered hd h := ⟨h.1.answered hd, trivial, h.2⟩
  stored path h := ⟨h.1.stored path, trivial, h.2⟩
  warned := by
    intro s h
    rcases warned_cases s with hw | hw <;> rw [hw]
    · exact h
    · exact ⟨h.1.idle rfl, trivial, h.2⟩
  called := by
    intro s h
    unfold St.called
    split
    · exact ⟨h.1.idle rfl, h.1.vouched_iff, h.2⟩
    · exact h
  moved i h := h
  setUp backend h := ⟨h.1.idle rfl, trivial, h.2⟩

/--
**A response is reported as secure for all its data exactly if the calls made before are
not mixed**: at every call of the application, in every run.
-/
theorem secure_vouches_iff {s₀ s : St} (hnew : s₀.toLocal.New) (hrun : Anyhow s₀ s) :
    Always VouchedUnlessMixed s.trace := by
  refine (Invariant.anyhow tracked_invariant hnew ?_ hrun).2
  unfold Tracked
  rw [hnew.response, hnew.trace]
  refine ⟨⟨?_, fun j => ?_, rfl, rfl⟩, trivial⟩
  · simp [queryGetSecure, Declared]
  · simp

/-- The first backend fails, the second one is that of a local table: its data are secure. -/
def answersSecurely : Env where
  setup i := if i = 0 then [.failed] else [.addPath oneAddress, .setSecure, .finished]

def networkThenTable : St := { query := { id := 0 }, backends := [{}, {}] }

theorem networkThenTable_new : networkThenTable.toLocal.New := by
  refine ⟨rfl, rfl, rfl, rfl, fun t => by cases t <;> rfl, rfl, rfl, fun b hb => ?_⟩
  obtain rfl : b = {} := by simpa [networkThenTable, St.toLocal] using hb
  rfl

/-- The calls of the backends are not mixed, and the data are vouched for. -/
theorem secure_vouches_iff_two : ∃ s, Anyhow networkThenTable s ∧
    Always VouchedUnlessMixed s.trace ∧ CalledBack s.trace := by
  obtain ⟨s, hplay, htrace⟩ := peek_some (show peek (fun s => decide (.callback .done 2
      { paths := [⟨{ onePath with reachable := true }, 1⟩], security := .secure } ∈ s.trace))
    (play answersSecurely [1]) networkThenTable = some true by decide +kernel)
  have hrun : Anyhow networkThenTable s := Or.inl (.play trivial (fun _ _ => trivial) hplay)
  exact ⟨s, hrun, secure_vouches_iff networkThenTable_new hrun, _, _, _, of_decide_eq_true htrace⟩

/-- A backend whose answer is not secure, followed by a mandatory one whose answer is. -/
def remoteThenLocal : St :=
  { query := { id := 0 }, backends := [{}, { mandatory := true }] }

def secondIsSecure : Env :=
  { setup := fun i => if i = 0 then [.addPath oneAddress, .finished] else [.setSecure, .finished] }

/-- The path of the first backend, reported as secure. -/
def securedPath : Response :=
  { paths := [⟨{ onePath with reachable := true }, 0⟩], security := .secure }

/-- The mandatory backend makes the data of the backend before it secure. -/
theorem remote_data_reported_secure : ∃ s later past, Anyhow remoteThenLocal s ∧
    s.trace = later ++ .callback .done 2 securedPath :: past ∧ ¬ Vouched securedPath past := by
  obtain ⟨s, hplay, htrace⟩ := peek_some (show peek (·.trace) (play secondIsSecure [1])
    remoteThenLocal = some ([] ++ .callback .done 2 securedPath ::
      [.enter .done 1 securedPath, .callback .resolved 1 securedPath,
      .enter .resolved 1 securedPath, .report 1 .finished, .report 1 .setSecure,
      .enter .setup 1 { securedPath with security := .insecure },
      .enter .done 0 { securedPath with security := .insecure },
      .enter .resolved 0 { securedPath with security := .insecure },
      .report 0 .finished, .path 0 onePath, .report 0 (.addPath oneAddress),
      .enter .setup 0 {}]) by decide +kernel)
  refine ⟨s, [], _, Or.inl (.play trivial (fun _ _ => trivial) hplay), htrace, fun hv => ?_⟩
  have hdecl := hv rfl 0 (Or.inl ⟨_, List.mem_singleton.mpr rfl, rfl⟩)
  simp [Declared] at hdecl

end Netresolve
