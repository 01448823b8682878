/-
When the entry points of the compatibility libraries tell the truth.

The functions of `lib/compat.c` say nothing about a query that found nothing: the status of
`netresolve_query_getnameinfo_done` is always zero, a missing answer has length zero.  An entry
point that takes this for success, or that relies on what is missing, goes wrong for exactly the
queries without the data it was called for.  All of them go wrong for a query that cannot be
freed, and no query for a DNS name can.
-/
import Netresolve.Core.Compat

namespace Netresolve.Compat

/-- A call of one of the entry points, with what became of its query. -/
inductive Entry where
  | getnameinfo (query : Option Finished) (hostlen servlen : Option Nat)
  | gethostbyname2R (query : Option Finished) (errno : Int) (buflen : Nat)
  | resQuery (query : Option Finished) (length : Nat)
  | asyncnsGetnameinfoDone (query : Finished) (hostlen servlen : Nat)
  | asyncnsResDone (query : Finished)

namespace Entry

/-- The value the entry point returns, or how it fails to return one. -/
def status : Entry → Except Crash Int
  | getnameinfo query hostlen servlen => (Compat.getnameinfo query hostlen servlen).map (·.status)
  | gethostbyname2R query errno buflen =>
      (Compat.gethostbyname2R query errno buflen).map (·.status)
  | resQuery query length => (Compat.resQuery query length).map (·.status)
  | asyncnsGetnameinfoDone f hostlen servlen =>
      (Compat.asyncnsGetnameinfoDone f hostlen servlen).map (·.status)
  | asyncnsResDone f => (Compat.asyncnsResDone f).map (·.status)

/-- The value stands for success: a length for `res_query`, zero for the others. -/
def Success : Entry → Int → Prop
  | resQuery _ _, status => 0 ≤ status
  | _, status => status = 0

/-- A string that is asked for is there. -/
def Present (len : Option Nat) (s : Option String) : Prop := len.isSome → s.isSome

/-- There is an IP address among the paths. -/
def HasAddress (q : Query) : Prop :=
  ∃ p ∈ q.response.paths, p.value.family = AF_INET ∨ p.value.family = AF_INET6

/-- The query yielded the data the entry point was called for. -/
def Yields : Entry → Prop
  | getnameinfo query hostlen servlen => ∃ f, query = some f ∧
      Present hostlen (getNodeName f.query) ∧ Present servlen (getServiceName f.query)
  | gethostbyname2R query _ _ => ∃ f, query = some f ∧ HasAddress f.query
  | resQuery query _ => ∃ f, query = some f ∧ f.query.response.dns.isSome
  | asyncnsGetnameinfoDone f _ _ =>
      (getNodeName f.query).isSome ∧ (getServiceName f.query).isSome
  | asyncnsResDone f => f.query.response.dns.isSome

/-- The buffers of the caller have room for what the query yielded. -/
def Fits : Entry → Prop
  | getnameinfo query hostlen servlen => ∀ f, query = some f →
      ¬ (tooShort hostlen (getNodeName f.query) = true ∨
        tooShort servlen (getServiceName f.query) = true)
  | gethostbyname2R query _ buflen => ∀ f, query = some f →
      (getHostent f.query).lenTotal ≤ buflen
  | resQuery _ _ => True
  | asyncnsGetnameinfoDone f hostlen servlen =>
      size (getNodeName f.query) ≤ hostlen ∧ size (getServiceName f.query) ≤ servlen
  | asyncnsResDone _ => True

/--
The entry point returns, without the use of anything that is not there, and its value stands for
success if and only if the query yielded the data and the caller has room for them.
-/
def Honest (e : Entry) : Prop :=
  ∃ status, e.status = .ok status ∧ (e.Success status ↔ e.Yields ∧ e.Fits)

/--
The calls for which the code makes a difference between data and no data, with a query that can
be freed.
-/
def Sound : Entry → Prop
  | e@(getnameinfo query _ _) => query = none ∨
      ∃ f, query = some f ∧ Releasable f.query f.services ∧ (e.Yields ∨ ¬ e.Fits)
  | e@(gethostbyname2R query errno _) => (query = none ∧ errno ≠ 0) ∨
      ∃ f, query = some f ∧ Releasable f.query f.services ∧ f.query.response.paths ≠ [] ∧
        (HasAddress f.query ∨ ¬ e.Fits)
  | resQuery query _ => ∃ f answer, query = some f ∧ Releasable f.query f.services ∧
      f.query.response.dns = some answer ∧ 0 ≤ toInt answer.value.length
  | e@(asyncnsGetnameinfoDone f hostlen servlen) => Releasable f.query f.services ∧ e.Yields ∧
      (hostlen ≤ size (getNodeName f.query) ∧ servlen ≤ size (getServiceName f.query) ↔ e.Fits)
  | e@(asyncnsResDone f) => Releasable f.query f.services ∧ e.Yields

/-! ### One entry point after the other -/

theorem honest_of_ok {e : Entry} {st : Int} (h : e.status = .ok st) :
    e.Honest ↔ (e.Success st ↔ e.Yields ∧ e.Fits) := by
  constructor
  · intro hhonest
    obtain ⟨st', hst', hiff⟩ := hhonest
    have heq : st = st' := Except.ok.inj (h.symm.trans hst')
    exact heq ▸ hiff
  · intro hiff
    exact ⟨st, h, hiff⟩

theorem not_honest_of_error {e : Entry} {c : Crash} (h : e.status = .error c) : ¬ e.Honest := by
  intro hhonest
  obtain ⟨st, hst, _⟩ := hhonest
  rw [h] at hst
  cases hst

theorem queryFree_ok_iff (f : Finished) :
    Compat.queryFree f = .ok () ↔ Releasable f.query f.services := by
  rw [← releaseQuery_ok_iff]
  unfold Compat.queryFree
  cases releaseQuery f.query f.services with
  | ok a => exact iff_of_true rfl rfl
  | error e => exact iff_of_false (by simp [Except.mapError]) (by simp)

/-- A query that cannot be freed stops the function that frees it. -/
theorem queryFree_error {f : Finished} (h : ¬ Releasable f.query f.services) :
    ∃ c, Compat.queryFree f = .error c := by
  cases hfree : Compat.queryFree f with
  | ok a => exact absurd ((queryFree_ok_iff f).mp hfree) h
  | error c => exact ⟨c, rfl⟩

theorem getnameinfo_honest (query : Option Finished) (hostlen servlen : Option Nat) :
    (getnameinfo query hostlen servlen).Honest ↔ (getnameinfo query hostlen servlen).Sound := by
  cases query with
  | none =>
      have hstatus : (getnameinfo none hostlen servlen).status = .ok EAI_SYSTEM := rfl
      rw [honest_of_ok hstatus]
      simp [Success, Yields, Sound, EAI_SYSTEM]
  | some f =>
      by_cases hfree : Releasable f.query f.services
      · have hfreed := (queryFree_ok_iff f).mpr hfree
        by_cases hroom : tooShort hostlen (getNodeName f.query) = true ∨
            tooShort servlen (getServiceName f.query) = true
        · have hstatus : (getnameinfo (some f) hostlen servlen).status = .ok EAI_OVERFLOW := by
            simp [status, Compat.getnameinfo, getnameinfoDone, hfreed, hroom, Except.map, bind,
              Except.bind]
          have hfits : ¬ (getnameinfo (some f) hostlen servlen).Fits := fun h => h f rfl hroom
          rw [honest_of_ok hstatus]
          simp [Success, Sound, EAI_OVERFLOW, hfree, hfits]
        · have hstatus : (getnameinfo (some f) hostlen servlen).status = .ok 0 := by
            have hshort := hroom
            simp only [not_or, Bool.not_eq_true] at hshort
            simp [status, Compat.getnameinfo, getnameinfoDone, hfreed, hshort.1, hshort.2,
              Except.map, bind, Except.bind]
          have hfits : (getnameinfo (some f) hostlen servlen).Fits := by
            intro f' hf'
            rw [← Option.some.inj hf']
            exact hroom
          rw [honest_of_ok hstatus]
          simp [Success, Sound, hfree, hfits]
      · obtain ⟨c, hc⟩ := queryFree_error hfree
        have hstatus : (getnameinfo (some f) hostlen servlen).status = .error c := by
          simp [status, Compat.getnameinfo, hc, Except.map, bind, Except.bind]
        refine iff_of_false (not_honest_of_error hstatus) ?_
        simp [Sound, hfree]

theorem gethostbyname2R_honest (query : Option Finished) (errno : Int) (buflen : Nat) :
    (gethostbyname2R query errno buflen).Honest ↔ (gethostbyname2R query errno buflen).Sound := by
  cases query with
  | none =>
      have hstatus : (gethostbyname2R none errno buflen).status = .ok errno := rfl
      rw [honest_of_ok hstatus]
      simp [Success, Yields, Sound]
  | some f =>
      by_cases hpaths : f.query.response.paths = []
      · -- NULL instead of a hostent
        have hstatus : (gethostbyname2R (some f) errno buflen).status = .error .hostent := by
          simp [status, Compat.gethostbyname2R, gethostbynameDone, hpaths, Except.map]
        refine iff_of_false (not_honest_of_error hstatus) ?_
        simp [Sound, hpaths]
      by_cases hfree : Releasable f.query f.services
      · have hfreed := (queryFree_ok_iff f).mpr hfree
        have hroom : (gethostbyname2R (some f) errno buflen).Fits ↔
            (getHostent f.query).lenTotal ≤ buflen := by
          simp [Fits]
        by_cases hfits : (getHostent f.query).lenTotal ≤ buflen
        · have hstatus : (gethostbyname2R (some f) errno buflen).status = .ok 0 := by
            simp only [status, Compat.gethostbyname2R, gethostbynameDone, hpaths, if_false, hfreed,
              Nat.not_lt.mpr hfits, bind, Except.bind]
            rfl
          rw [honest_of_ok hstatus]
          simp [Success, Yields, Sound, hpaths, hfree, hroom, hfits]
        · have hstatus : (gethostbyname2R (some f) errno buflen).status = .ok ERANGE := by
            simp only [status, Compat.gethostbyname2R, gethostbynameDone, hpaths, if_false, hfreed,
              Nat.lt_of_not_le hfits, if_true, bind, Except.bind]
            rfl
          rw [honest_of_ok hstatus]
          simp [Success, Sound, ERANGE, hpaths, hfree, hroom, hfits]
      · obtain ⟨c, hc⟩ := queryFree_error hfree
        have hstatus : (gethostbyname2R (some f) errno buflen).status = .error c := by
          simp [status, Compat.gethostbyname2R, gethostbynameDone, hpaths, hc, Except.map, bind,
            Except.bind]
        refine iff_of_false (not_honest_of_error hstatus) ?_
        simp [Sound, hfree]

theorem resQuery_honest (query : Option Finished) (length : Nat) :
    (resQuery query length).Honest ↔ (resQuery query length).Sound := by
  cases query with
  | none =>
      have hstatus : (resQuery none length).status = .error .query := rfl
      refine iff_of_false (not_honest_of_error hstatus) ?_
      simp [Sound]
  | some f =>
      by_cases hfree : Releasable f.query f.services
      · have hstatus : (resQuery (some f) length).status =
            .ok (toInt (getDnsAnswer f.query).2) := by
          simp [status, Compat.resQuery, (queryFree_ok_iff f).mpr hfree, Except.map, bind,
            Except.bind, pure, Except.pure]
        rw [honest_of_ok hstatus]
        cases hdns : f.query.response.dns with
        | none =>
            have hzero : 0 ≤ toInt (getDnsAnswer f.query).2 := by
              simp only [getDnsAnswer, hdns]
              decide +kernel
            simp [Success, Yields, Sound, hzero, hdns]
        | some answer =>
            have hlength : (getDnsAnswer f.query).2 = answer.value.length := by
              simp only [getDnsAnswer, hdns]
            simp [Success, Yields, Fits, Sound, hlength, hdns, hfree]
      · -- the query is freed whatever it has found
        obtain ⟨c, hc⟩ := queryFree_error hfree
        have hstatus : (resQuery (some f) length).status = .error c := by
          simp only [status, Compat.resQuery, hc]
          rfl
        refine iff_of_false (not_honest_of_error hstatus) ?_
        simp [Sound, hfree]

theorem asyncnsGetnameinfoDone_honest (f : Finished) (hostlen servlen : Nat) :
    (asyncnsGetnameinfoDone f hostlen servlen).Honest ↔
      (asyncnsGetnameinfoDone f hostlen servlen).Sound := by
  by_cases hfree : Releasable f.query f.services
  · have hfreed := (queryFree_ok_iff f).mpr hfree
    cases hhost : getNodeName f.query with
    | none =>
        -- strlen(NULL)
        have hstatus : (asyncnsGetnameinfoDone f hostlen servlen).status = .error .string := by
          simp [status, Compat.asyncnsGetnameinfoDone, getnameinfoDone, hfreed, hhost, Except.map,
            bind, Except.bind]
        refine iff_of_false (not_honest_of_error hstatus) ?_
        simp [Sound, Yields, hhost]
    | some host =>
        cases hserv : getServiceName f.query with
        | none =>
            have hstatus : (asyncnsGetnameinfoDone f hostlen servlen).status = .error .string := by
              simp [status, Compat.asyncnsGetnameinfoDone, getnameinfoDone, hfreed, hhost, hserv,
                Except.map, bind, Except.bind]
            refine iff_of_false (not_honest_of_error hstatus) ?_
            simp [Sound, Yields, hserv]
        | some serv =>
            have hyields : (asyncnsGetnameinfoDone f hostlen servlen).Yields := by
              simp [Yields, hhost, hserv]
            have hfits : (asyncnsGetnameinfoDone f hostlen servlen).Fits ↔
                size (some host) ≤ hostlen ∧ size (some serv) ≤ servlen := by
              simp [Fits, hhost, hserv]
            have hsound : (asyncnsGetnameinfoDone f hostlen servlen).Sound ↔
                (hostlen ≤ size (some host) ∧ servlen ≤ size (some serv) ↔
                  size (some host) ≤ hostlen ∧ size (some serv) ≤ servlen) := by
              rw [← hfits]
              simp [Sound, hfree, hyields, hhost, hserv]
            rw [hsound]
            by_cases hshort : hostlen ≤ size (some host) ∧ servlen ≤ size (some serv)
            · by_cases hoverflow : hostlen < size (some host) ∨ servlen < size (some serv)
              · have hstatus :
                    (asyncnsGetnameinfoDone f hostlen servlen).status = .error .overflow := by
                  simp [status, Compat.asyncnsGetnameinfoDone, getnameinfoDone, hfreed, hhost,
                    hserv, hshort, hoverflow, Except.map, bind, Except.bind]
                refine iff_of_false (not_honest_of_error hstatus) ?_
                omega
              · have hstatus : (asyncnsGetnameinfoDone f hostlen servlen).status = .ok 0 := by
                  simp [status, Compat.asyncnsGetnameinfoDone, getnameinfoDone, hfreed, hhost,
                    hserv, hshort, hoverflow, Except.map, bind, Except.bind]
                rw [honest_of_ok hstatus]
                refine iff_of_true ⟨fun _ => ⟨hyields, hfits.mpr ?_⟩, fun _ => rfl⟩ ?_
                · omega
                · omega
            · have hstatus : (asyncnsGetnameinfoDone f hostlen servlen).status = .ok ERANGE := by
                simp [status, Compat.asyncnsGetnameinfoDone, getnameinfoDone, hfreed, hhost, hserv,
                  hshort, Except.map, bind, Except.bind]
              rw [honest_of_ok hstatus]
              simp only [Success, ERANGE, hyields, hfits, hshort, true_and, false_iff]
              simp
  · obtain ⟨c, hc⟩ := queryFree_error hfree
    have hstatus : (asyncnsGetnameinfoDone f hostlen servlen).status = .error c := by
      simp [status, Compat.asyncnsGetnameinfoDone, hc, Except.map, bind, Except.bind]
    refine iff_of_false (not_honest_of_error hstatus) ?_
    simp [Sound, hfree]

theorem asyncnsResDone_honest (f : Finished) :
    (asyncnsResDone f).Honest ↔ (asyncnsResDone f).Sound := by
  by_cases hfree : Releasable f.query f.services
  · have hstatus : (asyncnsResDone f).status = .ok 0 := by
      simp only [status, Compat.asyncnsResDone, (queryFree_ok_iff f).mpr hfree]
      rfl
    rw [honest_of_ok hstatus]
    simp [Success, Sound, Fits, hfree]
  · obtain ⟨c, hc⟩ := queryFree_error hfree
    have hstatus : (asyncnsResDone f).status = .error c := by
      simp only [status, Compat.asyncnsResDone, hc]
      rfl
    refine iff_of_false (not_honest_of_error hstatus) ?_
    simp [Sound, hfree]

end Entry

/--
**An entry point tells the truth if and only if the call is one of the sound ones.**  For every
entry point and everything that can become of its query: it returns without the use of anything
that is missing, and with a value for success exactly if the query yielded the data, when and
only when the query can be freed and the data were there, or else a failure that has nothing to do
with them was reported first: no query for `getnameinfo` and `gethostbyname2_r`, or a buffer that
is too short.
-/
theorem honest_iff_sound (e : Entry) : e.Honest ↔ e.Sound := by
  cases e with
  | getnameinfo query hostlen servlen => exact Entry.getnameinfo_honest query hostlen servlen
  | gethostbyname2R query errno buflen => exact Entry.gethostbyname2R_honest query errno buflen
  | resQuery query length => exact Entry.resQuery_honest query length
  | asyncnsGetnameinfoDone f hostlen servlen =>
      exact Entry.asyncnsGetnameinfoDone_honest f hostlen servlen
  | asyncnsResDone f => exact Entry.asyncnsResDone_honest f

/-- A query of which nothing has become. -/
def fruitless (type : RequestType) (dnsName : Option String := none) : Finished :=
  { query := { id := 0, state := .failed, request := { type, dnsName } } }

/-- A DNS query with an answer of one byte. -/
def fruitful : Finished where
  query := {
    id := 0
    state := .done
    request := { type := .dns, dnsName := some "a" }
    response := { dns := some ⟨[0], 0⟩ } }

/--
None of the entry points reports that there are no data: `getnameinfo` returns zero, two rely on a
pointer that is NULL, and the name of a DNS query is freed twice, with or without an answer.
Without a query `res_query` frees NULL.
-/
theorem fruitless_query_not_reported :
    ¬ (Entry.getnameinfo (some (fruitless .reverse)) (some 64) (some 64)).Honest ∧
      ¬ (Entry.gethostbyname2R (some (fruitless .forward)) 0 1024).Honest ∧
      ¬ (Entry.resQuery (some (fruitless .dns (some "a"))) 512).Honest ∧
      ¬ (Entry.resQuery (some fruitful) 512).Honest ∧ ¬ (Entry.resQuery none 512).Honest ∧
      ¬ (Entry.asyncnsGetnameinfoDone (fruitless .reverse) 64 64).Honest ∧
      ¬ (Entry.asyncnsResDone (fruitless .dns (some "a"))).Honest ∧
      ¬ (Entry.asyncnsResDone fruitful).Honest := by
  have hnamed : ∀ f : Finished, f.query.state ≠ .none → f.query.request.dnsName.isSome →
      ¬ Releasable f.query f.services := by
    intro f hstate hname hfree
    rw [hfree.dnsName hstate] at hname
    cases hname
  have hfruitless := hnamed (fruitless .dns (some "a")) (by decide) (by decide)
  have hfruitful := hnamed fruitful (by decide) (by decide)
  refine ⟨?_, ?_, ?_, ?_, ?_, ?_, ?_, ?_⟩
  · rw [Entry.getnameinfo_honest]
    simp [Entry.Sound, Entry.Yields, Entry.Fits, Entry.Present, tooShort, size, getNodeName,
      getServiceName, fruitless]
  · rw [Entry.gethostbyname2R_honest]
    simp [Entry.Sound, fruitless]
  · rw [Entry.resQuery_honest]
    simp [Entry.Sound, hfruitless]
  · rw [Entry.resQuery_honest]
    simp [Entry.Sound, hfruitful]
  · rw [Entry.resQuery_honest]
    simp [Entry.Sound]
  · rw [Entry.asyncnsGetnameinfoDone_honest]
    simp [Entry.Sound, Entry.Yields, getNodeName, fruitless]
  · rw [Entry.asyncnsResDone_honest]
    simp [Entry.Sound, hfruitless]
  · rw [Entry.asyncnsResDone_honest]
    simp [Entry.Sound, hfruitful]

end Netresolve.Compat
