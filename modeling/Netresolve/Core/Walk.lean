/-
Walks over the paths of a response.

The functions of `lib/socket.c` do not use `pathcount`.  They start at `response.paths` and go
on until they come to a record with family zero, so that they rely on the record which
`add_path` clears behind the last one.  A response without paths has no block of memory at all.
Some of the functions get to the response by way of `priv->query`, which is set when the
resolution has called `connect_prepare` or `listen_callback`.

A walk is the list of records it visits, and `none` where it reads outside of the block or
follows a NULL pointer.
-/
import Netresolve.Core.PathArray

namespace Netresolve.Sentinel

/-- `for (path = paths; path->node.family; path++)`, from the given record on. -/
def walk : List Path → Option (List Path)
  | [] => none
  | path :: rest => if path.family = 0 then some [] else (walk rest).map (path :: ·)

/-- `query->response`, and whether `priv->query` is set for `priv = query->user_data`. -/
structure Session where
  response : PathArray
  prepared : Bool

/-- A walk over `query->response.paths`. -/
def Session.walkQuery (s : Session) : Option (List Path) := walk s.response.cells

/-- A walk over `priv->query->response.paths`. -/
def Session.walkPriv (s : Session) : Option (List Path) :=
  if s.prepared then walk s.response.cells else none

/-- The functions that walk over the paths. -/
inductive Walker where
  | connectPrepare | enableSockets | pickupConnectedSocket | connectTimeout | connectFree
  | listenCallback | accept | listenFree
  deriving DecidableEq, Repr

/-- The function finds the response by way of `priv->query`. -/
def Walker.viaPriv : Walker → Bool
  | .enableSockets | .pickupConnectedSocket | .connectFree => true
  | .connectPrepare | .connectTimeout | .listenCallback | .accept | .listenFree => false

/-- The paths the function visits. -/
def Walker.visits (w : Walker) (s : Session) : Option (List Path) :=
  if w.viaPriv then s.walkPriv else s.walkQuery

/--
The block of memory after the calls of `add_path` in a trace, newest entry first.  Each of them
has its own environment, and `realloc` its own leftovers.
-/
inductive Block : List Obs → PathArray → Prop
  | new : Block [] {}
  | path {past : List Obs} {r r' : PathArray} (env : Env) (fresh : Nat → Nat → Path) (i : Nat)
      (path : Path) (h : Block past r)
      (hadd : r.addPath env (fun _ => env.reachable) fresh path = some r') :
      Block (.path i path :: past) r'
  | other {past : List Obs} {r : PathArray} {o : Obs} (ho : ∀ i path, o ≠ .path i path)
      (h : Block past r) : Block (o :: past) r

end Netresolve.Sentinel
