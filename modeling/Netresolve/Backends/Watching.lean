/-
The watches of three backends: `backends/exec.c`, `backends/asyncns.c` and, with c-ares, the
descriptors of `backends/dns.c`.

A backend adds its watches in `setup` and whenever it is dispatched, and remembers them in its
private data, if at all.  `Hooks` are its three functions as far as they add and remove watches;
what they report of the answer does not matter for that.  Between two events the library sets and
clears its timers, which are watches in the same list.  `start` is the setup of a backend with
the events after it, up to the first report, and at any point of it the query may come to an end,
which is when `cleanup` is called.
-/
import Netresolve.Core.Event
import Netresolve.Backends.Exec
import Netresolve.Backends.Dns

namespace Netresolve.Watching

open CString (Text)

/-! ### Backends and events -/

/--
What a backend does to its watches: `P` is its private data, `ε` what a dispatch function is
called with and finds.  The flag tells whether the backend has reported an outcome.
-/
structure Hooks (P ε : Type) where
  setup : M (P × Bool)
  dispatch : P → ε → M (P × Bool)
  cleanup : P → M Unit

/-- An event of the backend, or a timer of the library that is set or cleared. -/
inductive Moment (ε : Type) where
  | event (e : ε)
  | arm (t : Timer)
  | clear (t : Timer)
  deriving DecidableEq, Repr

/-- The library sets a timer only if it is not set. -/
def arm (env : Env) (t : Timer) : M Unit := do
  if ((← get).query.timeout t).isNone then setTimeout env t else pure ()

section

variable {P ε : Type} (hooks : Hooks P ε) (env : Env)

/-- The events up to the first report. -/
def play : P → List (Moment ε) → M P
  | p, [] => pure p
  | p, .event e :: rest => do
      let (p, reported) ← hooks.dispatch p e
      if reported then pure p else play p rest
  | p, .arm t :: rest => do
      arm env t
      play p rest
  | p, .clear t :: rest => do
      clearTimeout env t
      play p rest

/-- The setup and the events after it. -/
def start (moments : List (Moment ε)) : M P := do
  let (p, reported) ← hooks.setup
  if reported then pure p else play hooks env p moments

end

/-- The query has the watch that a pointer refers to. -/
def linked (s : St) (watch : Option Nat) : Bool :=
  s.query.watches.any fun x => some x.id = watch

/-- `netresolve_watch_remove`, of the watch that a pointer refers to. -/
def removeAt (env : Env) (watch : Option Nat) (doClose : Bool) : M Unit :=
  match watch with
  | none => throw .nullDeref
  | some w => watchRemove env w doClose

/-- `netresolve_watch_add`, on behalf of the running backend. -/
def addFor (env : Env) (fd : Nat) : M Nat := do
  let i := (← get).query.cursor
  watchAdd env (.backend fd) (.backend i)

/-! ### The exec backend -/

/-- `struct priv_exec`; `inbuf` is what lies between `inbuf.start` and `inbuf.end`. -/
structure PrivExec where
  inbuf : Text := []
  outbuf : Option Exec.Outbuf := none
  input : Option Nat := none
  output : Option Nat := none
  deriving DecidableEq, Repr

/--
`dispatch_input` with the result of `write`, and `dispatch_output` with the result of `malloc` and
what `read` delivers, which is nothing at the end of the output and on errors.
-/
inductive ExecEvent where
  | input (size : Int)
  | output (hangUp : Bool) (memory : Option Text) (chunk : Text)
  deriving DecidableEq, Repr

/--
`dispatch_input`.  The pointer stays in `priv->input`; the descriptor that is then written to the
watch behind it is left out.
-/
def dispatchInput (env : Env) (p : PrivExec) (size : Int) : M PrivExec :=
  if p.inbuf ≠ [] ∧ size > 0 then pure { p with inbuf := p.inbuf.drop size.toNat }
  else do
    removeAt env p.input true
    pure p

/-- How `dispatch_output` ends: in `abort()`, with a report, or with the buffer for the next time. -/
inductive Reading where
  | aborts
  | reports
  | goesOn (b : Exec.Outbuf)
  deriving DecidableEq, Repr

/-- `dispatch_output`, on the buffer there is. -/
def reading (outbuf : Option Exec.Outbuf) (hangUp : Bool) (memory : Option Text) (chunk : Text) :
    Option Reading :=
  if hangUp then some .reports
  else match outbuf.or (memory.map (⟨·, 0⟩)) with
    | none => some .reports
    | some b =>
        if chunk = [] then some .aborts
        else (Exec.dispatchOutput b chunk).map fun r => if r.2.1 then .reports else .goesOn r.2.2

/-- `dispatch_output`; `priv->output` is only read. -/
def dispatchOutput (p : PrivExec) (hangUp : Bool) (memory : Option Text) (chunk : Text) :
    M (PrivExec × Bool) :=
  match reading p.outbuf hangUp memory chunk with
  | none => throw .fuel
  | some .aborts => throw .abort
  | some .reports => pure (p, true)
  | some (.goesOn b) => pure ({ p with outbuf := some b }, false)

/-- An event of a watch that the query does not have any more does not happen. -/
def execDispatch (env : Env) (p : PrivExec) (e : ExecEvent) : M (PrivExec × Bool) := do
  match e with
  | .input size =>
      if linked (← get) p.input then do
        let p ← dispatchInput env p size
        pure (p, false)
      else pure (p, false)
  | .output hangUp memory chunk =>
      if linked (← get) p.output then dispatchOutput p hangUp memory chunk
      else pure (p, false)

/-- `cleanup` of `exec.c`. -/
def execCleanup (env : Env) (p : PrivExec) : M Unit := do
  (if p.input.isSome then removeAt env p.input true else pure ())
  (if p.output.isSome then removeAt env p.output true else pure ())

/-- `query_forward` of `exec.c`; there is no request string if the subprocess does not start. -/
def execSetup (env : Env) (infd outfd : Nat) (request : Option Text) : M (PrivExec × Bool) :=
  match request with
  | none => pure ({}, true)
  | some inbuf => do
      let input ← addFor env infd
      let output ← addFor env outfd
      pure ({ inbuf, input := some input, output := some output }, false)

def exec (env : Env) (infd outfd : Nat) (request : Option Text) : Hooks PrivExec ExecEvent where
  setup := execSetup env infd outfd request
  dispatch := execDispatch env
  cleanup := execCleanup env

/-! ### The asyncns backend -/

/--
`backends/asyncns.c`: whether `asyncns_new` and `asyncns_getaddrinfo` succeed, and at an event
whether there is an answer.  The watch is not remembered.
-/
def asyncns (env : Env) (fd : Nat) (created asked : Bool) : Hooks Unit Bool where
  setup :=
    if !created then pure ((), true)
    else if !asked then pure ((), true)
    else do
      let _ ← addFor env fd
      pure ((), false)
  dispatch _ answered := pure ((), answered)
  cleanup _ := pure ()

/-! ### The descriptors of c-ares -/

/-- `priv->rfds`, `priv->wfds`, `priv->nfds` and the array `priv->watches`. -/
structure PrivAres where
  fds : Dns.Fds := {}
  watches : List (Option Nat) := []
  deriving DecidableEq, Repr

/-- `realloc` of the array; what is new in it was not written. -/
def resize (watches : List (Option Nat)) (n : Nat) : List (Option Nat) :=
  watches.take n ++ List.replicate (n - watches.length) none

/-- `priv->watches[fd] = netresolve_watch_add(...)`. -/
def watchAt (env : Env) (fd : Nat) (p : PrivAres) : M PrivAres := do
  let w ← addFor env fd
  pure { p with watches := p.watches.set fd (some w) }

/-- One turn of the loop of `watch_file_descriptors`. -/
def watchTurn (env : Env) (p : PrivAres) (fd : Nat) : M PrivAres := do
  let p ← if fd ∈ p.fds.rfds then watchAt env fd p else pure p
  if fd ∈ p.fds.wfds then watchAt env fd p else pure p

/-- `watch_file_descriptors`, with what `ares_fds` reports. -/
def watchFileDescriptors (env : Env) (fds : Dns.Fds) (p : PrivAres) : M PrivAres :=
  if p.fds.nfds ≠ 0 then throw .abort
  else (List.range fds.nfds).foldlM (watchTurn env) { fds, watches := resize p.watches fds.nfds }

/-- One turn of the loop of `unwatch_file_descriptors`. -/
def unwatchTurn (env : Env) (p : PrivAres) (fd : Nat) : M Unit :=
  if fd ∈ p.fds.rfds then removeAt env (p.watches[fd]?.join) false else pure ()

/-- `unwatch_file_descriptors`. -/
def unwatchFileDescriptors (env : Env) (p : PrivAres) : M PrivAres := do
  if p.fds.nfds = 0 then throw .abort
  else do
    forM (List.range p.fds.nfds) (unwatchTurn env p)
    pure { p with fds := {} }

/--
What `dispatch` finds: `ares_fds` after the event, whether `check` reports an outcome, and whether
the query comes to its end while `ares_process_fd` adds paths to its response.
-/
structure AresEvent where
  fds : Dns.Fds
  reported : Bool := false
  ended : Bool := false
  deriving DecidableEq, Repr

/-- The part of `cleanup` of `dns.c` for c-ares. -/
def aresCleanup (env : Env) (p : PrivAres) : M Unit :=
  if p.fds.nfds ≠ 0 then do
    let _ ← unwatchFileDescriptors env p
    pure ()
  else pure ()

/-- A watch of the running backend is there to be dispatched. -/
def isBackend (x : Watch) : Bool :=
  match x.callback with
  | .backend _ => true
  | .timeout _ => false

/-- The watches of the query that are not those of its timers. -/
def own (s : St) : List Watch := s.query.watches.filter isBackend

/-- `dispatch`.  A query that has ended takes its private data with it. -/
def aresDispatch (env : Env) (p : PrivAres) (e : AresEvent) : M (PrivAres × Bool) := do
  if (own (← get)).isEmpty then pure (p, false)
  else do
    let p ← unwatchFileDescriptors env p
    if e.ended then do
      aresCleanup env p
      throw .dangling
    else do
      let p ← watchFileDescriptors env e.fds p
      pure (p, e.reported)

/-- `watch_file_descriptors` on a new channel, which is the last thing `query_forward` does. -/
def ares (env : Env) (fds : Dns.Fds) : Hooks PrivAres AresEvent where
  setup := do
    let p ← watchFileDescriptors env fds {}
    pure (p, false)
  dispatch := aresDispatch env
  cleanup := aresCleanup env

end Netresolve.Watching
