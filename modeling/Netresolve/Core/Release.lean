/-
The memory a query holds when it is freed: `netresolve_query_free` and `case NETRESOLVE_STATE_NONE`
of `lib/query.c` with `netresolve_service_list_free` of `lib/service.c`.

`queryFree` of `Core/Query.lean` does what `netresolve_query_free` does to watches, timers and the
private data of the backend.  Two of its calls of `free` can stop the program.  The name of a DNS
query is freed when the query enters NONE and again with the query itself.  And the end of the list
of services is an entry that is there only if there was a file to read.

A query that is in state NONE, because it was never started, does not enter it.
-/
import Netresolve.Core.Types

namespace Netresolve

/-- `struct netresolve_service_list`; `items` is NULL when no file could be opened. -/
structure ServiceList where
  items : Option (List Service)
  deriving DecidableEq, Repr

/-- How freeing the memory of a query can stop. -/
inductive ReleaseFault where
  | doubleFree | nullItems
  deriving DecidableEq, Repr

/-- `netresolve_service_list_free`, which walks the items up to the one without a name. -/
def serviceListFree : Option ServiceList → Except ReleaseFault Unit
  | none | some ⟨some _⟩ => .ok ()
  | some ⟨none⟩ => .error .nullItems

/-- The frees of `case NETRESOLVE_STATE_NONE`, of a query with this list of services. -/
def releaseNone (q : Query) (services : Option ServiceList) : Except ReleaseFault Unit :=
  if q.state = .none then .ok () else serviceListFree services

/-- The frees at the end of `netresolve_query_free`, of a query that had this state. -/
def releaseEnd (q : Query) : Except ReleaseFault Unit :=
  if q.state ≠ .none ∧ q.request.dnsName.isSome then .error .doubleFree else .ok ()

/-- All frees of `netresolve_query_free`. -/
def releaseQuery (q : Query) (services : Option ServiceList) : Except ReleaseFault Unit := do
  releaseNone q services
  releaseEnd q

/-- The memory of the query can be freed. -/
structure Releasable (q : Query) (services : Option ServiceList) : Prop where
  services : q.state ≠ .none → services ≠ some ⟨none⟩
  dnsName : q.state ≠ .none → q.request.dnsName = none

theorem serviceListFree_eq (services : Option ServiceList) :
    serviceListFree services =
      if services = some ⟨none⟩ then .error .nullItems else .ok () := by
  rcases services with _ | ⟨_ | items⟩ <;> rfl

theorem releaseNone_ok_iff (q : Query) (services : Option ServiceList) :
    releaseNone q services = .ok () ↔ (q.state ≠ .none → services ≠ some ⟨none⟩) := by
  unfold releaseNone
  by_cases hstate : q.state = .none
  · simp [hstate]
  · rw [if_neg hstate, serviceListFree_eq]
    by_cases hservices : services = some ⟨none⟩
    · simp [hservices, hstate]
    · simp [hservices]

theorem releaseEnd_ok_iff (q : Query) :
    releaseEnd q = .ok () ↔ (q.state ≠ .none → q.request.dnsName = none) := by
  unfold releaseEnd
  by_cases hstate : q.state = .none
  · simp [hstate]
  · cases hname : q.request.dnsName with
    | none => simp
    | some name => simp [hstate]

/-- A query can be freed if its list of services ends and it has no name for the DNS. -/
theorem releaseQuery_ok_iff (q : Query) (services : Option ServiceList) :
    releaseQuery q services = .ok () ↔ Releasable q services := by
  unfold releaseQuery
  cases hnone : releaseNone q services with
  | error e =>
      refine iff_of_false (fun h => by cases h) fun h => ?_
      rw [(releaseNone_ok_iff q services).mpr h.services] at hnone
      cases hnone
  | ok a =>
      show releaseEnd q = .ok () ↔ _
      rw [releaseEnd_ok_iff]
      exact ⟨fun h => ⟨(releaseNone_ok_iff q services).mp hnone, h⟩, fun h => h.dnsName⟩

end Netresolve
