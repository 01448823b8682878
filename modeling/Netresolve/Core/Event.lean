/-
Watches and timers: `lib/event.c`, with the epoll loop of `lib/epoll.c` below it.

A watch is registered with the loop, linked at the end of the query's list and
counted twice, in the query and in its context.  A timer is a watch on a descriptor
the core opens itself.  Debug output and the expiration times are left out.
-/
import Netresolve.Core.Types

namespace Netresolve

def modifyQuery (f : Query → Query) : M Unit :=
  modify fun s => { s with query := f s.query }

def modifyContext (f : Context → Context) : M Unit :=
  modify fun s => { s with context := f s.context }

/-- Adds an entry to the trace of the query. -/
def observe (o : Obs) : M Unit :=
  modify fun s => { s with trace := o :: s.trace }

/-! ### The epoll loop -/

/-- `add_watch` of `lib/epoll.c`: `epoll_ctl` decides, and a failure aborts. -/
def epollAddWatch (env : Env) (w : Nat) : M Unit :=
  if env.epollAdd w then
    modifyContext fun c => { c with loop :=
      { c.loop with registered := w :: c.loop.registered, count := c.loop.count + 1 } }
  else throw .abort

/-- `remove_watch` of `lib/epoll.c`, which also disables the pending events of the watch. -/
def epollRemoveWatch (env : Env) (w : Nat) : M Unit :=
  if env.epollDel w then
    modifyContext fun c => { c with loop :=
      { registered := c.loop.registered.erase w
        events := c.loop.events.map fun e => if e = some w then none else e
        count := c.loop.count - 1 } }
  else throw .abort

/-! ### Watches -/

/-- `netresolve_watch_add`. -/
def watchAdd (env : Env) (fd : Fd) (callback : WatchCallback) : M Nat := do
  let w := (← get).context.next
  modifyContext fun c => { c with next := c.next + 1 }
  epollAddWatch env w
  modifyQuery fun q => { q with watches := q.watches ++ [⟨w, fd, callback⟩], nfds := q.nfds + 1 }
  modifyContext fun c => { c with nfds := c.nfds + 1 }
  pure w

/-- `netresolve_watch_remove`. -/
def watchRemove (env : Env) (w : Nat) (doClose : Bool) : M Unit := do
  let s ← get
  if s.query.nfds = 0 ∨ s.context.nfds = 0 then throw (.assertion .watchRemove)
  else match s.query.watches.find? (·.id = w) with
    | none => throw .dangling
    | some watch => do
        modifyQuery fun q => { q with
          watches := q.watches.eraseP (·.id = w), nfds := q.nfds - 1 }
        modifyContext fun c => { c with nfds := c.nfds - 1 }
        epollRemoveWatch env w
        if doClose then modifyContext fun c => { c with opened := c.opened.erase watch.fd }

/-! ### Timers -/

/-- `netresolve_timeout_add`; NULL when the system refuses a timer descriptor. -/
def timeoutAdd (env : Env) (t : Timer) : M (Option Nat) := do
  let n := (← get).context.next
  if env.timerfd n then do
    modifyContext fun c => { c with opened := .core n :: c.opened }
    let w ← watchAdd env (.core n) (.timeout t)
    pure (some w)
  else pure none

/-- `netresolve_timeout_remove`. -/
def timeoutRemove (env : Env) (w : Nat) : M Unit := watchRemove env w true

/-- `query->... = netresolve_timeout_add_ms(...)`. -/
def setTimeout (env : Env) (t : Timer) : M Unit := do
  let w ← timeoutAdd env t
  modifyQuery (·.setTimeout t w)

/-- `clear_timeout` of `lib/query.c`. -/
def clearTimeout (env : Env) (t : Timer) : M Unit := do
  match (← get).query.timeout t with
  | none => pure ()
  | some w => do
      timeoutRemove env w
      modifyQuery (·.setTimeout t none)

end Netresolve
