/-
The hosts file: `read_list`, `query_forward` and `query_reverse` of `backends/hosts.c`.

The lines are read as those of the services file are, through a buffer on the stack that `strtok`
writes to.  But after each piece `read_item` is also called for what is left in the buffer, which
may be a line that is not finished and not terminated, with whatever is behind it in memory.
-/
import Netresolve.Core.Parse
import Netresolve.Core.Report
import Netresolve.Core.ServiceFile
import Netresolve.Library.Lines

namespace Netresolve.Hosts

open CString Lines
open ServiceFile (blank)

/-- `struct hosts_item`. -/
structure Item where
  name : Option Text
  family : Int
  address : List UInt8
  ifindex : Int
  deriving DecidableEq, Repr

/-- `add_node`, for each of the names. -/
def addNodes (address : ParsedAddress) (names : List Text) : List Item :=
  names.map fun name => ⟨some name, address.family, address.address, address.ifindex⟩

/-- The item that ends the list. -/
def terminator : Item := ⟨none, 0, [], 0⟩

/-- `read_item`: the items it adds, and the memory it leaves. -/
def readItem (lits : Literals) (line : Text) : List Item × Text :=
  match Tape.strtok blank ⟨[], line⟩ with
  | (string, t) =>
      match parseAddress lits string with
      | none => ([], t.memory)
      | some address =>
          let names := t.tokens blank (t.after.length + 1)
          (addNodes address names.1, names.2.memory)

/-- The call of `read_item` behind the scan. -/
def readRest (lits : Literals) (b : Buffer) : List Item × Buffer :=
  let result := readItem lits b.memory
  (result.1, ⟨result.2.take b.kept.length, result.2.drop b.kept.length⟩)

/-- `read_list`, for a file that may be missing.  The buffer holds anything at first. -/
def readList (lits : Literals) (choice : Nat → Nat) (memory : Text) (fuel : Nat) :
    Option Text → Except (Stop Empty) (List Item)
  | none => .ok [terminator]
  | some content =>
      (readLoop (fun line => .ok (readItem lits line)) (fun b => .ok (readRest lits b)) 1024 choice
        fuel 0 content ⟨[], memory⟩).map (· ++ [terminator])

/-! ### Looking up a name -/

/-- The arguments of `netresolve_backend_add_path` for an item. -/
def Item.args (item : Item) : PathArgs :=
  { family := item.family, address := item.address, ifindex := item.ifindex }

/-- The loop of `query_forward`, which ends at an item without a name. -/
def forwardCalls (node : Text) : List Item → List Call
  | [] => []
  | item :: rest =>
      match item.name with
      | none => []
      | some name =>
          if node ≠ name then forwardCalls node rest
          else .addPath item.args :: forwardCalls node rest

/-- `query_forward`. -/
def queryForward (lits : Literals) (choice : Nat → Nat) (memory : Text) (fuel : Nat)
    (file : Option Text) : Option String → Except (Stop Empty) (List Call)
  | none => .ok [.failed]
  | some node => do
      let list ← readList lits choice memory fuel file
      let calls := forwardCalls node.toList list
      pure (calls ++ if calls = [] then [.failed] else [.setSecure, .finished])

/-! ### Looking up an address -/

/-- The loop of `query_reverse`.  As many bytes are compared as the family has. -/
def reverseCalls (family : Int) (address : List UInt8) : List Item → List Call
  | [] => []
  | item :: rest =>
      match item.name with
      | none => []
      | some name =>
          if family ≠ item.family then reverseCalls family address rest
          else if address.take (familyToLength family) ≠
              item.address.take (familyToLength family) then reverseCalls family address rest
          else .addNameInfo (some (String.ofList name)) :: reverseCalls family address rest

/-- `query_reverse`. -/
def queryReverse (lits : Literals) (choice : Nat → Nat) (memory : Text) (fuel : Nat)
    (file : Option Text) (request : Request) : Except (Stop Empty) (List Call) := do
  let list ← readList lits choice memory fuel file
  let calls := reverseCalls request.family request.address list
  pure (calls ++ if calls = [] then [.failed] else [.setSecure, .finished])

end Netresolve.Hosts
