/-
Reading the services file: the first half of `lib/service.c`.

`read_services` takes the file apart into lines and `read_service` a line into entries.  Both work
in one buffer, which `strtok_r` writes to.  The names, ports and protocols of a line are added to
the list; the entry without a name that ends the list in memory is the end of the list here.

A call of `strtol` with NULL, which is what a missing token is, stops the program.
-/
import Netresolve.Core.Service
import Netresolve.Library.Lines

namespace Netresolve.ServiceFile

open CString Lines

/-- The delimiters `" \t"`. -/
def blank (c : Char) : Bool := c = ' ' || c = '\t'

/-- The delimiter `"/"`. -/
def slash (c : Char) : Bool := c = '/'

/-- A NULL pointer is used as a string. -/
inductive Fault where
  | nullDeref
  deriving DecidableEq, Repr

/-- `protocol_from_string`. -/
def protocolFromString : Option Text → Int
  | none => 0
  | some str => ((protocols.find? fun protocol => str = protocol.name.toList).map (·.protocol)).getD 0

/-- `add_service`, for each of the names. -/
def addServices (protocol port : Int) (names : List Text) : List Service :=
  names.map fun name => ⟨protocol, port, String.ofList name⟩

/-- `read_service`: the entries it adds, and the memory it leaves. -/
def readService (line : Text) : Except Fault (List Service × Text) :=
  match Tape.strtok blank ⟨[], line⟩ with
  | (none, t) => .ok ([], t.memory)
  | (some name, t) =>
      match t.strtok slash with
      | (none, _) => .error .nullDeref
      | (some number, t) =>
          let port := toCInt (strtol number).1
          if port = 0 then .ok ([], t.memory)
          else
            match t.strtok blank with
            | (str, t) =>
                let protocol := protocolFromString str
                if protocol = 0 then .ok ([], t.memory)
                else
                  let aliases := t.tokens blank (t.after.length + 1)
                  .ok (addServices protocol port (name :: aliases.1), aliases.2.memory)

/-- A call of `read_service`: the string it is passed, and what it adds. -/
structure Call where
  line : Text
  added : List Service
  deriving DecidableEq, Repr

def callReadService (memory : Text) : Except Fault (List Call × Text) :=
  (readService memory).map fun result => ([⟨cstring memory, result.1⟩], result.2)

/--
The loop of `read_services` on a file, by the calls it makes.  The buffer holds anything at first.
-/
def readServicesCalls (choice : Nat → Nat) (memory : Text) (fuel : Nat) (content : Text) :
    Except (Stop Fault) (List Call) :=
  readLoop callReadService (fun b => .ok ([], b)) 1024 choice fuel 0 content ⟨[], memory⟩

/-- `read_services`. -/
def readServices (choice : Nat → Nat) (memory : Text) (fuel : Nat) (content : Text) :
    Except (Stop Fault) (List Service) :=
  (readServicesCalls choice memory fuel content).map (·.flatMap Call.added)

end Netresolve.ServiceFile
