/-
Listening: the part of `lib/socket.c` behind `netresolve_listen`.

When the resolution ends, `listen_callback` sets up a socket for each path, and leaves a path at
the first call that fails.  `netresolve_accept` adds watches to those that listen, as often as it
is called, and `netresolve_listen_free` cleans every path up.

What the kernel decides is in `Results`, one record for each path.  The log notes the descriptors
that come from `socket` and those that are passed to `close`; the source has none of it.
-/
import Netresolve.Core.Socket

namespace Netresolve.Listen

open Connect (SocketState hasSockaddr)

/-- `struct netresolve_path`: the family and the socket.  The record is zero but for its family. -/
structure Path where
  family : Int
  state : SocketState := .none
  watch : Bool := false
  fd : Int := 0
  deriving DecidableEq, Repr

/-- The descriptor `socket` returns, if any, and which of the other calls succeed. -/
structure Results where
  socket : Option Nat
  reuseaddr : Bool := true
  v6only : Bool := true
  bind : Bool := true
  listen : Bool := true
  deriving DecidableEq, Repr

inductive Note where
  | opened (fd : Int)
  | closed (fd : Int)
  deriving DecidableEq, Repr

/-- A path with what was noted about it. -/
abbrev Noted := Path × List Note

/-! ### Setting up -/

/-- `setsockopt`, for both options. -/
def Results.options (results : Results) (family : Int) : Bool :=
  results.reuseaddr && !(family = AF_INET6 && !results.v6only)

/-- What the loop of `listen_callback` does with a path. -/
def listenPath (results : Results) (path : Path) : Noted :=
  if hasSockaddr path.family then
    match results.socket with
    | none => ({ path with fd := -1 }, [])
    | some fd =>
        if !results.options path.family then ({ path with fd := fd }, [.opened fd])
        else if !results.bind || !results.listen then
          ({ path with fd := fd }, [.opened fd, .closed fd])
        else ({ path with fd := fd, state := .scheduled }, [.opened fd])
  else (path, [])

/-- `listen_callback`. -/
def listenCallback (results : Nat → Results) (paths : List Path) : List Noted :=
  paths.mapIdx fun i path => listenPath (results i) path

/-! ### Accepting -/

/-- `netresolve_accept`, up to the waiting. -/
def accept (paths : List Path) : List Path :=
  paths.map fun path =>
    if path.state = .scheduled ∧ path.watch = false then { path with watch := true } else path

/-! ### Cleaning up -/

/-- `socket_cleanup`. -/
def socketCleanup (path : Path) : Noted :=
  if path.fd ≠ -1 then
    ({ path with state := .done, watch := false, fd := -1 }, [.closed path.fd])
  else ({ path with state := .done, watch := false }, [])

/-- `netresolve_listen_free`, up to the query. -/
def listenFree (paths : List Path) : List Noted := paths.map socketCleanup

/-- What was noted, in the order of the loop. -/
def log (noted : List Noted) : List Note := noted.flatMap Prod.snd

/-- The paths of a finished resolution.  Loops over them end at the first family zero. -/
def initial (families : List Int) : List Path :=
  (families.takeWhile (· ≠ 0)).map fun family => { family := family }

/-- `netresolve_listen`, calls of `netresolve_accept`, and `netresolve_listen_free`. -/
def run (results : Nat → Results) (accepts : Nat) (families : List Int) : List Note :=
  let listening := listenCallback results (initial families)
  let accepted := accept^[accepts] (listening.map Prod.fst)
  log listening ++ log (listenFree accepted)

end Netresolve.Listen
