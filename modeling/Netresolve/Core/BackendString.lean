/-
The backends of a context: `load_backend` and `netresolve_set_backend_string` of `lib/context.c`.

A string is the list of the characters before its zero byte.  The array of backends is kept cell
by cell, because it grows by `realloc` while its terminator moves.  Memory is taken to be there.
Which modules can be loaded is for the dynamic linker to say.  Releasing the old backends, and the
settings of a module that does not load, is left out.
-/
import Netresolve.Backends.Dns
import Netresolve.Library.CString

namespace Netresolve.BackendString

open CString

/-- `dlopen`, and whether `dlsym` finds a function in the module. -/
structure Linker where
  dlopen : Text → Option Nat
  dlsym : Nat → String → Bool := fun _ _ => true

/-- `struct netresolve_backend`, as it is after loading. -/
structure Loaded where
  mandatory : Bool
  settings : List Text
  dlHandle : Nat
  deriving DecidableEq, Repr

/-- `backend->setup`. -/
def Loaded.setup (linker : Linker) (backend : Loaded) : RequestType → Bool
  | .forward => linker.dlsym backend.dlHandle "query_forward"
  | .reverse => linker.dlsym backend.dlHandle "query_reverse"
  | .dns => linker.dlsym backend.dlHandle "query_dns"

/-- `snprintf` to a buffer of 1024 bytes. -/
def filename (name : Text) : Text :=
  ("libnetresolve-backend-".toList ++ name ++ ".so.0".toList).take 1023

/-- `load_backend`. -/
def loadBackend (linker : Linker) : List Text → Option Loaded
  | [] => none
  | first :: rest =>
      let mandatory := first.head? = some '+'
      let name := if mandatory then first.tail else first
      (linker.dlopen (filename name)).map fun dlHandle =>
        { mandatory, settings := first :: rest, dlHandle }

/-! ### The array -/

/-- A cell of the array of backends. -/
inductive Slot where
  | uninitialized
  | null
  | backend (b : Loaded)
  deriving DecidableEq, Repr

/-- `realloc`, for NULL or an array. -/
def realloc (slots : Option (List Slot)) (n : Nat) : List Slot :=
  (slots.getD []).take n ++ List.replicate (n - (slots.getD []).length) .uninitialized

/-- The backends before the terminator; `none` if it cannot be reached. -/
def readSlots : List Slot → Option (List Loaded)
  | [] => none
  | .uninitialized :: _ => none
  | .null :: _ => some []
  | .backend b :: rest => (readSlots rest).map (b :: ·)

/-- The backends of a context.  There are none without an array. -/
def readBackends : Option (List Slot) → Option (List Loaded)
  | none => some []
  | some slots => readSlots slots

/-! ### `netresolve_set_backend_string` -/

/--
The variables of the loop.  `token` is what stands between `setup` and `end`, and `settings` the
array without its terminator.
-/
structure Scan where
  token : Text := []
  settings : Option (List Text) := none
  backends : Option (List Slot) := none
  nbackends : Nat := 0
  deriving DecidableEq, Repr

/-- The first `if` of the loop, at a separator. -/
def Scan.addSetting (s : Scan) : Scan :=
  { s with token := [], settings := some (s.settings.getD [] ++ [s.token]) }

/-- `settings && *settings && **settings`. -/
def Scan.named (s : Scan) : Option (List Text) :=
  match s.settings with
  | some (first :: rest) => if first ≠ [] then some (first :: rest) else none
  | _ => none

/-- The second `if` of the loop, at the end of a group. -/
def Scan.addBackend (linker : Linker) (s : Scan) : Scan :=
  match s.named with
  | none => { s with settings := none }
  | some settings =>
      let slots := realloc s.backends (s.nbackends + 2)
      match loadBackend linker settings with
      | none => { s with settings := none, backends := some (slots.set s.nbackends .null) }
      | some b =>
          { s with
            settings := none
            backends := some ((slots.set s.nbackends (.backend b)).set (s.nbackends + 1) .null)
            nbackends := s.nbackends + 1 }

/-- The body of the loop at a character. -/
def Scan.step (linker : Linker) (s : Scan) (c : Char) : Scan :=
  if c = ' ' then s.addSetting
  else if c = '|' then s.addSetting.addBackend linker
  else { s with token := s.token ++ [c] }

/-- The body of the loop at the zero byte. -/
def Scan.finish (linker : Linker) (s : Scan) : Scan := s.addSetting.addBackend linker

/-- The default, which depends on the build. -/
def defaultString (variant : Option Dns.Variant) : Text :=
  "unix|any|loopback|numerichost|hosts|hostname|avahi".toList ++
    match variant with
    | some .ares => "|aresdns".toList
    | some .unbound => "|ubdns".toList
    | none => []

/-- `netresolve_set_backend_string`, with `context->backends` afterwards. -/
def setBackendString (linker : Linker) (variant : Option Dns.Variant) (string : Option Text) :
    Option (List Slot) :=
  let string := string.getD (defaultString variant)
  if string = [] then none
  else ((string.foldl (Scan.step linker) {}).finish linker).backends

end Netresolve.BackendString
