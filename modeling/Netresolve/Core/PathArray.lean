/-
The memory behind `response.paths`.

`Report.lean` has the paths of a response as a list.  The source has a block of memory that
grows by `realloc`, a count, and one record more than the count, which is all zero.  Here
is `add_path` of `lib/backend.c` on that block, cell by cell.  An access outside of the
block is `none`.

Cells that `realloc` adds hold anything.  The result of `check_reachability` may be another
one for each record, even for the same address, so its oracle is asked with the number of
records there are.  An address is kept without the zeros behind it, so an empty one is the
array of zeros.
-/
import Netresolve.Core.Report

namespace Netresolve

/-- A record that `memset` has cleared. -/
def Path.zero : Path :=
  { family := 0
    address := []
    ifindex := 0
    reachable := false
    socktype := 0
    protocol := 0
    port := 0
    priority := 0
    weight := 0
    ttl := 0 }

/-- `response->paths` and `response->pathcount`. -/
structure PathArray where
  cells : List Path := []
  pathcount : Nat := 0
  deriving DecidableEq, Repr

/-- The records that count. -/
def PathArray.paths (r : PathArray) : List Path := r.cells.take r.pathcount

/-! ### Memory -/

/-- `realloc` to `n` records; `fresh` is what the new ones happen to hold. -/
def realloc (fresh : Nat → Path) (cells : List Path) (n : Nat) : List Path :=
  cells.take n ++ (List.range (n - cells.length)).map fresh

/-- `memmove` of `n` records. -/
def memmove (cells : List Path) (dst src n : Nat) : Option (List Path) :=
  if src + n ≤ cells.length ∧ dst + n ≤ cells.length then
    some (cells.take dst ++ (cells.drop src).take n ++ cells.drop (dst + n))
  else none

/-- `memcpy` or `memset` of one record. -/
def store (cells : List Path) (i : Nat) (path : Path) : Option (List Path) :=
  if i < cells.length then some (cells.set i path) else none

/-! ### Adding paths -/

section

variable (env : Env) (reach : Nat → Path → Bool) (fresh : Nat → Nat → Path)

/-- The `for` loop of `add_path`: `n` records are left, from position `i` on. -/
def position (sort : Bool) (path : Path) (cells : List Path) : Nat → Nat → Option Nat
  | i, 0 => some i
  | i, n + 1 => do
      let p ← cells[i]?
      if pathCmp sort path p < 0 then some i else position sort path cells (i + 1) n

/-- `check_reachability` of the record that follows `n` others. -/
def checkedPath (n : Nat) (path : Path) : Path :=
  checkReachability { env with reachable := reach n } path

/-- `add_path` up to the state of the query. -/
def PathArray.addPath (r : PathArray) (path : Path) : Option PathArray := do
  let path := checkedPath env reach r.pathcount path
  let i ← position env.sort path r.cells 0 r.pathcount
  let cells := realloc (fresh r.pathcount) r.cells (r.pathcount + 2)
  let cells ← memmove cells (i + 1) i (r.pathcount - i)
  let pathcount := r.pathcount + 1
  let cells ← store cells i path
  let cells ← store cells pathcount Path.zero
  some ⟨cells, pathcount⟩

/-- `netresolve_backend_add_path`. -/
def PathArray.backendAddPath (request : Request) (r : PathArray) (a : PathArgs) :
    Option PathArray :=
  (pathsOf env.services request a).foldlM (PathArray.addPath env reach fresh) r

/-- A sequence of calls on a new response. -/
def PathArray.backendAddPaths (request : Request) (calls : List PathArgs) : Option PathArray :=
  calls.foldlM (PathArray.backendAddPath env reach fresh request) {}

/-! ### The records of a call -/

/-- Records checked one after the other, when there are `n` already. -/
def checkedPaths (n : Nat) : List Path → List Path
  | [] => []
  | path :: rest => checkedPath env reach n path :: checkedPaths (n + 1) rest

/-- The records a sequence of calls produces, in order. -/
def produced (request : Request) (calls : List PathArgs) : List Path :=
  checkedPaths env reach 0 (calls.flatMap (pathsOf env.services request))

end

end Netresolve
