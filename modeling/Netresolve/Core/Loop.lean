/-
The main loops of `lib/epoll.c` and `lib/select.c`, below `lib/event.c`.

A context has any number of queries, and a watch is a block of memory that is allocated when it
is added and freed when it is removed.  Its address can therefore come back as the address of
another watch, and a descriptor that was closed can come back as well.  The serial number of a
watch is not in the source; it tells such watches apart.

What a callback does with watches is a list of operations, which may depend on everything that
happened before.  A callback holds pointers to allocated watches only, and `calloc` returns
blocks that are not in use: an operation that breaks this has no effect here.  Debug output is
left out, and so is the loop of `netresolve_epoll_wait` around `dispatch_events`.
-/
import Netresolve.Library.Outcome

namespace Netresolve.Loop

/-- Where an assertion can fail. -/
inductive Site where
  | watchAdd | watchRemove | addWatch | removeWatch | dispatchRead | dispatchWrite
  deriving DecidableEq, Repr

/-- How the process is stopped; `overflow` is `FD_SET` beyond the end of a set. -/
inductive Fault where
  | abort | assertion (site : Site) | overflow | dangling
  deriving DecidableEq, Repr

def pollin : Nat := 1

def pollout : Nat := 4

/-- A `struct netresolve_watch`, by the address of its block and the order of creation. -/
structure Watch where
  serial : Nat
  address : Nat
  query : Nat
  fd : Nat
  handle : Option Nat
  deriving DecidableEq, Repr

/-- A call of `netresolve_dispatch`. -/
structure Dispatch where
  watch : Watch
  events : Nat
  deriving DecidableEq, Repr

/--
One turn of the loop over the ready descriptors: the watches there are and the watches removed
so far when the turn starts, and the calls of `netresolve_dispatch` it makes.
-/
structure Turn (κ : Type) where
  key : κ
  watches : List Watch
  removed : List Watch
  calls : List Dispatch := []
  deriving DecidableEq, Repr

/--
The context with its loop.  Of its fields, `removed` and `turns`, newest first, are there to be
spoken about only.
-/
structure Context (σ κ : Type) where
  loop : σ
  watches : List Watch := []
  nfds : Nat := 0
  queryNfds : Nat → Nat := fun _ => 0
  next : Nat := 0
  removed : List Watch := []
  turns : List (Turn κ) := []

/--
`context->callbacks`, with the answer of the system to the call they make: of `epoll_ctl`, or of
`realloc`.
-/
structure Callbacks (σ : Type) where
  addWatch : (answer : Bool) → (fd events address : Nat) → σ → Except Fault (Option Nat × σ)
  removeWatch : (answer : Bool) → (fd : Nat) → (handle : Option Nat) → σ → Except Fault σ

/-- What a callback does with watches. -/
inductive Op where
  | add (address query fd events : Nat) (answer : Bool)
  | remove (address : Nat) (answer : Bool)
  deriving DecidableEq, Repr

abbrev M (σ κ : Type) := EStateM Fault (Context σ κ)

variable {σ κ : Type}

/-- What `netresolve_query_dispatch` comes to for a watch and its events. -/
abbrev Callback (σ κ : Type) := Context σ κ → Watch → Nat → List Op

/-! ### `lib/event.c` -/

/-- The watch at an address. -/
def Context.at (c : Context σ κ) (address : Nat) : Option Watch :=
  c.watches.find? (·.address = address)

/-- `query->nfds` after one more watch of the query. -/
def Context.added (c : Context σ κ) (w : Watch) (loop : σ) : Context σ κ :=
  { c with
    loop
    watches := w :: c.watches
    nfds := c.nfds + 1
    queryNfds := fun q => if q = w.query then c.queryNfds q + 1 else c.queryNfds q
    next := c.next + 1 }

def Context.dropped (c : Context σ κ) (w : Watch) (loop : σ) : Context σ κ :=
  { c with
    loop
    watches := c.watches.erase w
    nfds := c.nfds - 1
    queryNfds := fun q => if q = w.query then c.queryNfds q - 1 else c.queryNfds q
    removed := w :: c.removed }

/-- `netresolve_watch_add`, with the address that `calloc` returns. -/
def watchAdd (cb : Callbacks σ) (address query fd events : Nat) (answer : Bool) : M σ κ Unit := do
  let c ← get
  -- The second assertion asks for bits of POLLIN and POLLOUT, at least one and no other.
  if events = 0 ∨ events ||| pollin ||| pollout ≠ pollin ||| pollout then
    throw (.assertion .watchAdd)
  else match cb.addWatch answer fd events address c.loop with
    | .error e => throw e
    | .ok (handle, loop) => set (c.added ⟨c.next, address, query, fd, handle⟩ loop)

/-- `netresolve_watch_remove`. -/
def watchRemove (cb : Callbacks σ) (w : Watch) (answer : Bool) : M σ κ Unit := do
  let c ← get
  if c.queryNfds w.query = 0 ∨ c.nfds = 0 then throw (.assertion .watchRemove)
  else match cb.removeWatch answer w.fd w.handle c.loop with
    | .error e => throw e
    | .ok loop => set (c.dropped w loop)

/-- One operation of a callback. -/
def perform (cb : Callbacks σ) : Op → M σ κ Unit
  | .add address query fd events answer => do
      match (← get).at address with
      | some _ => pure ()
      | none => watchAdd cb address query fd events answer
  | .remove address answer => do
      match (← get).at address with
      | some w => watchRemove cb w answer
      | none => pure ()

def performAll (cb : Callbacks σ) : List Op → M σ κ Unit
  | [] => pure ()
  | op :: rest => do
      perform cb op
      performAll cb rest

/-- A turn of the loop starts. -/
def Context.turn (c : Context σ κ) (key : κ) : Context σ κ :=
  { c with turns := { key, watches := c.watches, removed := c.removed } :: c.turns }

/-- The current turn calls `netresolve_dispatch`. -/
def Context.called (c : Context σ κ) (d : Dispatch) : Context σ κ :=
  { c with turns := match c.turns with
      | [] => []
      | t :: rest => { t with calls := d :: t.calls } :: rest }

/-- `netresolve_dispatch`, which reads the watch at the address it is given. -/
def dispatch (cb : Callbacks σ) (act : Callback σ κ) (address events : Nat) : M σ κ Unit := do
  let c ← get
  match c.at address with
  | none => throw .dangling
  | some w => do
      modify (·.called ⟨w, events⟩)
      performAll cb (act c w events)

/-! ### `lib/epoll.c` -/

/-- A `struct epoll_event`. -/
structure Pending where
  ptr : Option Nat
  events : Nat
  deriving DecidableEq, Repr

/-- A `struct netresolve_epoll`, with the first `nevents` entries of `events`. -/
structure Epoll where
  count : Int := 0
  events : List Pending := []
  deriving DecidableEq, Repr

/-- `add_watch`. -/
def Epoll.addWatch (answer : Bool) (_fd _events address : Nat) (l : Epoll) :
    Except Fault (Option Nat × Epoll) :=
  if answer then .ok (some address, { l with count := l.count + 1 })
  else .error .abort

/-- The loop of `remove_watch` at one pending event. -/
def Pending.disable (handle : Option Nat) (e : Pending) : Pending :=
  if handle = e.ptr then { e with ptr := none } else e

/-- `remove_watch`. -/
def Epoll.removeWatch (answer : Bool) (_fd : Nat) (handle : Option Nat) (l : Epoll) :
    Except Fault Epoll :=
  if answer then .ok { count := l.count - 1, events := l.events.map (·.disable handle) }
  else .error .abort

def Epoll.callbacks : Callbacks Epoll where
  addWatch := Epoll.addWatch
  removeWatch := Epoll.removeWatch

/-- An entry that `epoll_wait` writes: its pointer is the one given for the watch. -/
structure Ready where
  watch : Watch
  events : Nat
  deriving DecidableEq, Repr

/-- The body of the loop in `dispatch_events`. -/
def dispatchEvent (act : Callback Epoll Nat) (i : Nat) : M Epoll Nat Unit := do
  modify (·.turn i)
  match (← get).loop.events[i]? with
  | some ⟨some ptr, events⟩ => dispatch Epoll.callbacks act ptr events
  | _ => pure ()

/-- The turns `i`, `i + 1` and so on of the loop in `dispatch_events`, as many as are left. -/
def dispatchFrom (act : Callback Epoll Nat) : (left i : Nat) → M Epoll Nat Unit
  | 0, _ => pure ()
  | left + 1, i => do
      dispatchEvent act i
      dispatchFrom act left (i + 1)

/-- `dispatch_events`, with the answer of `epoll_wait`: no list for -1. -/
def dispatchEvents (act : Callback Epoll Nat) (batch : Option (List Ready)) :
    M Epoll Nat Nat := do
  match batch with
  | none => throw .abort
  | some batch => do
      modify fun c => { c with
        loop := { c.loop with events := batch.map fun e => ⟨some e.watch.address, e.events⟩ }
        turns := [] }
      dispatchFrom act batch.length 0
      pure (← get).loop.events.length

/-! ### `lib/select.c` -/

/-- A descriptor and whether it is served for reading, or else for writing. -/
structure Slot where
  fd : Nat
  read : Bool
  deriving DecidableEq, Repr

/-- `FD_SETSIZE`. -/
def fdSetSize : Nat := 1024

/--
A `struct netresolve_select`.  A cell of `sources` that has not been written is `none`.
-/
structure Select where
  rfds : Nat → Bool := fun _ => false
  wfds : Nat → Bool := fun _ => false
  nfds : Nat := 0
  sources : List (Option Nat) := []

/-- `realloc`. -/
def resize (sources : List (Option Nat)) (n : Nat) : List (Option Nat) :=
  sources.take n ++ List.replicate (n - sources.length) none

/-- `FD_SET` and `FD_CLR`. -/
def setBit (fds : Nat → Bool) (fd : Nat) (b : Bool) : Nat → Bool :=
  fun n => if n = fd then b else fds n

/-- `add_watch`. -/
def Select.addWatch (answer : Bool) (fd events address : Nat) (l : Select) :
    Except Fault (Option Nat × Select) :=
  if fdSetSize ≤ fd then .error .overflow
  else if l.rfds fd ∨ l.wfds fd then .error (.assertion .addWatch)
  else if events &&& (pollin ||| pollout) = 0 then .error (.assertion .addWatch)
  else
    let nfds := if l.nfds ≤ fd then fd + 1 else l.nfds
    if answer then .ok (none, {
      rfds := if events &&& pollin ≠ 0 then setBit l.rfds fd true else l.rfds
      wfds := if events &&& pollout ≠ 0 then setBit l.wfds fd true else l.wfds
      nfds
      sources := (resize l.sources nfds).set fd (some address) })
    else .error (.assertion .addWatch)

/-- The loop of `remove_watch`, which drops unused descriptors from the end. -/
def shrink (rfds wfds : Nat → Bool) : Nat → Nat
  | 0 => 0
  | n + 1 => if rfds n ∨ wfds n then n + 1 else shrink rfds wfds n

/-- `remove_watch`; giving up memory is taken not to fail. -/
def Select.removeWatch (_answer : Bool) (fd : Nat) (handle : Option Nat) (l : Select) :
    Except Fault Select :=
  if fdSetSize ≤ fd then .error .overflow
  else if ¬ (l.rfds fd ∨ l.wfds fd) then .error (.assertion .removeWatch)
  else if handle ≠ none then .error (.assertion .removeWatch)
  else
    let rfds := setBit l.rfds fd false
    let wfds := setBit l.wfds fd false
    let nfds := shrink rfds wfds l.nfds
    .ok { rfds, wfds, nfds, sources := resize l.sources nfds }

def Select.callbacks : Callbacks Select where
  addWatch := Select.addWatch
  removeWatch := Select.removeWatch

/-- The set that goes with the direction. -/
def Select.fds (l : Select) (slot : Slot) : Nat → Bool := if slot.read then l.rfds else l.wfds

/-- `netresolve_select_dispatch_read` and `netresolve_select_dispatch_write`. -/
def selectDispatch (act : Callback Select Slot) (slot : Slot) : M Select Slot Unit := do
  let l := (← get).loop
  if l.nfds ≤ slot.fd ∨ ¬ l.fds slot slot.fd then
    throw (.assertion (if slot.read then .dispatchRead else .dispatchWrite))
  else match l.sources[slot.fd]? with
    | some (some ptr) =>
        dispatch Select.callbacks act ptr (if slot.read then pollin else pollout)
    | _ => throw .dangling

/-- One test of the loop in `netresolve_select_wait`. -/
def serve (act : Callback Select Slot) (fds : Nat → Bool) (slot : Slot) : M Select Slot Unit :=
  if fds slot.fd then do
    modify (·.turn slot)
    selectDispatch act slot
  else pure ()

/-- The turns of the loop in `netresolve_select_wait` from `fd` on, as many as are left. -/
def serveFrom (act : Callback Select Slot) (rfds wfds : Nat → Bool) :
    (left fd : Nat) → M Select Slot Unit
  | 0, _ => pure ()
  | left + 1, fd => do
      serve act rfds ⟨fd, true⟩
      serve act wfds ⟨fd, false⟩
      serveFrom act rfds wfds left (fd + 1)

/-- `netresolve_select_apply_fds` to one set. -/
def Select.applyFds (l : Select) (own fds : Nat → Bool) : Nat → Bool :=
  fun fd => fds fd || (decide (fd < l.nfds) && own fd)

/--
`netresolve_select_wait`.  Of the bits it is given, `select` leaves those in `ready`.  When it
fails it leaves them all.
-/
def selectWait (act : Callback Select Slot) (ready : Slot → Bool) : M Select Slot Unit := do
  modify fun c => { c with turns := [] }
  let l := (← get).loop
  let rfds := l.applyFds l.rfds fun _ => false
  let wfds := l.applyFds l.wfds fun _ => false
  serveFrom act (fun fd => rfds fd && ready ⟨fd, true⟩) (fun fd => wfds fd && ready ⟨fd, false⟩)
    l.nfds 0

/-! ### Runs of the program -/

/-- The states of a program that uses the epoll loop, between two calls of the library. -/
inductive Epoll.Reached : Context Epoll Nat → Prop
  | start : Reached { loop := {} }
  | operate {c c' : Context Epoll Nat} (h : Reached c) (op : Op)
      (hrun : perform Epoll.callbacks op c = .ok () c') : Reached c'
  | batch {c c' : Context Epoll Nat} {n : Nat} (h : Reached c) (act : Callback Epoll Nat)
      (batch : List Ready) (hbatch : ∀ e ∈ batch, e.watch ∈ c.watches)
      (hrun : dispatchEvents act (some batch) c = .ok n c') : Reached c'

/-- The states of a program that uses the select loop, between two calls of the library. -/
inductive Select.Reached : Context Select Slot → Prop
  | start : Reached { loop := {} }
  | operate {c c' : Context Select Slot} (h : Reached c) (op : Op)
      (hrun : perform Select.callbacks op c = .ok () c') : Reached c'
  | wait {c c' : Context Select Slot} (h : Reached c) (act : Callback Select Slot)
      (ready : Slot → Bool) (hrun : selectWait act ready c = .ok () c') : Reached c'

end Netresolve.Loop
