/-
The third build of `backends/dns.c`: the Avahi client library.

A lookup is a record browser, which tells of every record it sees, then that this is all for now, and
goes on.  A reverse query is one address resolver.  The library runs on the watches and timeouts that
`AvahiPoll` makes of the core's, and it calls back from their dispatch.  What it does there is a list
of events, of which `Lawful` says how often they come; the events ask for readable, writable or
nothing.

What the build shares with the other two is in `Backends/Dns.lean` and is used from there.  The
pointer from an `AvahiWatch` or an `AvahiTimeout` to the watch of the core is the number of the watch.
Debug output and a failing `calloc` or `strdup` are left out, and so is what a browser gives back.
-/
import Netresolve.Backends.Watching
import Netresolve.Core.Chain

namespace Netresolve.Avahi

open Dns

/-! ### The library -/

/-- `AvahiBrowserEvent`; the record of `AVAHI_BROWSER_NEW` is of the type that is browsed for. -/
inductive BrowserEvent where
  | new (rdata : List UInt8)
  | remove
  | cacheExhausted
  | allForNow
  | failure
  deriving DecidableEq, Repr

/-- `AvahiResolverEvent`. -/
inductive ResolverEvent where
  | found (name : String)
  | failure
  deriving DecidableEq, Repr

/--
What the library does to `AvahiPoll`.  A timeout comes with the descriptor of its timer, if it is set
and `timerfd_create` succeeds.
-/
inductive PollEvent where
  | watchNew (fd : Nat) (event : Bool)
  | watchUpdate (w : Nat) (event : Bool)
  | watchFree (w : Nat)
  | timeoutNew (timer : Option Nat)
  | timeoutUpdate (t : Nat) (timer : Option Nat)
  | timeoutFree (t : Nat)
  deriving DecidableEq, Repr

/-- What the library does in a dispatch. -/
inductive Event where
  | browser (k : Nat) (event : BrowserEvent)
  | resolver (event : ResolverEvent)
  | client (failure : Bool)
  | poll (event : PollEvent)
  deriving DecidableEq, Repr

/-- The library can call back with the second event when it has with the first. -/
def Event.allows : Event → Event → Bool
  | .browser k .allForNow, .browser j .allForNow => k ≠ j
  | .resolver _, .resolver _ => false
  | _, _ => true

/-- A browser says once that this is all for now, and a resolver calls back once. -/
def Lawful (events : List Event) : Prop := events.Pairwise fun e e' => e.allows e' = true

instance (events : List Event) : Decidable (Lawful events) :=
  inferInstanceAs (Decidable (List.Pairwise _ _))

/--
What the library and the allocator decide: whether their calls succeed, the browsers by their number,
what the client does while it is made, and the TTL of a record from `ldns_rr_new_frm_type`.
-/
structure Libs where
  newPriv : Bool := true
  asprintf : Bool := true
  clientNew : Bool := true
  opening : List Event := []
  browserNew : Nat → Bool := fun _ => true
  resolverNew : Bool := true
  ttl : UInt32 := 3600

/-! ### The private data -/

/-- `AvahiRecordBrowser`, and whether it has said that this is all for now, or failed. -/
structure Browser where
  lookup : Lookup
  settled : Bool := false
  failed : Bool := false
  deriving DecidableEq, Repr

/-- `AvahiAddressResolver`, and whether it has called back. -/
structure Resolver where
  protocol : Int
  address : AvahiAddress
  settled : Bool := false
  deriving DecidableEq, Repr

/-- `AvahiWatch` with its descriptor, or `AvahiTimeout`. -/
structure Poll where
  fd : Option Nat := none
  watch : Option Nat := none
  deriving DecidableEq, Repr

/--
`struct priv_avahi`.  `polls` are the watches and timeouts of the library by their number, until they
are freed, and `watches` the watches the query has for them, in the order they were added.  `log` is
ghost data: what the library has called back with.
-/
structure PrivAvahi where
  dns : PrivDns
  browsers : List Browser := []
  resolver : Option Resolver := none
  asked : Nat := 0
  polls : List (Option Poll) := []
  watches : List Nat := []
  next : Nat := 0
  log : List Event := []

abbrev A := EStateM Dns.Fault PrivAvahi

/-- A part of the file that the builds share. -/
def shared {α : Type} (x : D α) : A α := fun p =>
  match x p.dns with
  | .ok a q => .ok a { p with dns := q }
  | .error e q => .error e { p with dns := q }

/-! ### Lookups -/

/-- `lookup_dns`, which browses for the name of the target. -/
def lookupDns (libs : Libs) (srv : PrivSrv) (_name : Option String) (type cls : Int) : A Unit := do
  let n := (← get).asked
  modify fun p => { p with asked := n + 1, dns := { p.dns with pending := p.dns.pending + 1 } }
  if libs.browserNew n then
    modify fun p => { p with browsers := p.browsers ++ [⟨⟨srv, srv.name, type, cls⟩, false, false⟩] }
  else shared (emit .failed)

/-- `lookup_srv`; `asprintf` writes NULL as `(null)`. -/
def lookupSrv (libs : Libs) : A Unit := do
  let p := (← get).dns
  if libs.asprintf then
    lookupDns libs p.srv (some ("_" ++ p.request.servname.getD "(null)" ++ "._" ++
      protocolToString p.protocol ++ "." ++ (backendGetNodename p.request).getD "(null)"))
      LDNS_RR_TYPE_SRV LDNS_RR_CLASS_IN
  else modify fun p => { p with dns := { p.dns with failed := true } }

/-- `lookup_host`. -/
def lookupHost (libs : Libs) (srv : PrivSrv) : A Unit := do
  let family := (← get).dns.family
  (if family = AF_INET ∨ family = AF_UNSPEC then
    lookupDns libs srv srv.name LDNS_RR_TYPE_A LDNS_RR_CLASS_IN else pure ())
  if family = AF_INET6 ∨ family = AF_UNSPEC then
    lookupDns libs srv srv.name LDNS_RR_TYPE_AAAA LDNS_RR_CLASS_IN

def AVAHI_PROTO_UNSPEC : Int := -1

/-- `lookup_address`; the comparison stands where a protocol is expected. -/
def lookupAddress (libs : Libs) (address : AvahiAddress) : A Unit := do
  let protocol : Int := if (← get).dns.family = AVAHI_PROTO_UNSPEC then 1 else 0
  modify fun p => { p with dns := { p.dns with pending := p.dns.pending + 1 } }
  if libs.resolverNew then modify fun p => { p with resolver := some ⟨protocol, address, false⟩ }
  else shared (emit .failed)

/-- `check`, where only an answer counts. -/
def check : A Unit := do
  let p := (← get).dns
  if p.pending < 0 then throw Dns.Fault.assertion
  else if p.pending = 0 then do
    (if p.answered && p.secure then shared (emit .setSecure) else pure ())
    shared (emit (if p.answered then .finished else .failed))
  else pure ()

/-! ### What `AvahiPoll` makes of watches and timeouts -/

section

variable {m : Type → Type} [Monad m] (add : Nat → m Nat) (remove : Nat → Bool → m Unit)

/-- `watch_update` and `timeout_update`, with the descriptor to watch from now on, if any. -/
def update (poll : Poll) (doClose : Bool) (fd : Option Nat) : m Poll := do
  (match poll.watch with
    | none => pure ()
    | some n => remove n doClose)
  match fd with
  | none => pure { poll with watch := none }
  | some fd => do
      let n ← add fd
      pure { poll with watch := some n }

/-- `watch_update`. -/
def watchUpdate (w : Poll) (event : Bool) : m Poll :=
  update add remove w false (if event then w.fd else none)

/-- `timeout_update`, which has the timer closed. -/
def timeoutUpdate (t : Poll) (timer : Option Nat) : m Poll :=
  update add remove t true timer

/-- A watch or timeout that is not freed yet changes; the library uses no other. -/
def change (polls : List (Option Poll)) (h : Nat) (f : Poll → m (Option Poll)) :
    m (List (Option Poll)) := do
  match polls[h]?.join with
  | none => pure polls
  | some poll => do
      let poll ← f poll
      pure (polls.set h poll)

/-- `watch_new`, `watch_update`, `watch_free` and the same for timeouts. -/
def pollEvent (polls : List (Option Poll)) : PollEvent → m (List (Option Poll))
  | .watchNew fd event => do
      let w ← watchUpdate add remove { fd } event
      pure (polls ++ [some w])
  | .watchUpdate w event => change polls w fun poll => do
      let w ← watchUpdate add remove poll event
      pure (some w)
  | .watchFree w => change polls w fun poll => do
      let _ ← watchUpdate add remove poll false
      pure none
  | .timeoutNew timer => do
      let t ← timeoutUpdate add remove {} timer
      pure (polls ++ [some t])
  | .timeoutUpdate t timer => change polls t fun poll => do
      let t ← timeoutUpdate add remove poll timer
      pure (some t)
  | .timeoutFree t => change polls t fun poll => do
      let _ ← timeoutUpdate add remove poll none
      pure none

/-- `avahi_client_free`; `closing` is what the library does then, with the polls that are left. -/
def clientFree (closing : List (Option Poll) → List PollEvent) (polls : List (Option Poll)) :
    m Unit := do
  let _ ← (closing polls).foldlM (pollEvent add remove) polls

end

/-- The event asks for a watch or timeout. -/
def PollEvent.creates : PollEvent → Bool
  | .watchNew _ _ | .timeoutNew _ => true
  | _ => false

/-- The event that frees the watch or timeout with a number. -/
def Poll.free (poll : Poll) (k : Nat) : PollEvent :=
  if poll.fd.isSome then .watchFree k else .timeoutFree k

/-- While its client is freed the library asks for no watch and frees those that it has. -/
structure Closes (closing : List (Option Poll) → List PollEvent) : Prop where
  old : ∀ polls, ∀ event ∈ closing polls, event.creates = false
  all : ∀ (polls : List (Option Poll)) (k : Nat) (poll : Poll), polls[k]?.join = some poll →
    poll.free k ∈ closing polls

/-- `netresolve_watch_add`, as a call of the backend. -/
def addWatch (fd : Nat) : A Nat := do
  let n := (← get).next
  shared (emit (.watchAdd fd))
  modify fun p => { p with next := n + 1, watches := p.watches ++ [n] }
  pure n

/-- `netresolve_watch_remove`. -/
def dropWatch (n : Nat) (doClose : Bool) : A Unit := do
  let k := (← get).watches.idxOf n
  shared (emit (.watchRemove k doClose))
  modify fun p => { p with watches := p.watches.eraseIdx k }

/-- The library changes its watches and timeouts. -/
def polling (event : PollEvent) : A Unit := do
  let polls ← pollEvent addWatch dropWatch (← get).polls event
  modify fun p => { p with polls }

/-! ### The callbacks -/

/-- `client_callback`. -/
def clientCallback (failure : Bool) : A Unit := do
  modify fun p => { p with log := p.log ++ [.client failure] }
  if failure then shared (emit .failed) else pure ()

/-- `record_callback`. -/
def recordCallback (libs : Libs) (lookup : Lookup) : BrowserEvent → A Unit
  | .new rdata =>
      if lookup.type = LDNS_RR_TYPE_A then do
        shared (applyAddress lookup.srv AF_INET rdata libs.ttl)
        check
      else if lookup.type = LDNS_RR_TYPE_AAAA then do
        shared (applyAddress lookup.srv AF_INET6 rdata libs.ttl)
        check
      else pure ()
  | .allForNow => do
      modify fun p => { p with dns := { p.dns with pending := p.dns.pending - 1 } }
      check
  | .cacheExhausted => check
  | .failure => do
      shared (emit .failed)
      check
  | .remove => shared (emit .failed)

/-- `address_callback`. -/
def addressCallback : ResolverEvent → A Unit
  | .found name => do
      modify fun p => { p with dns := { p.dns with pending := p.dns.pending - 1 } }
      shared (emit (.addNameInfo (some name)))
      check
  | .failure => do
      modify fun p => { p with dns := { p.dns with pending := p.dns.pending - 1 } }
      shared (emit .failed)
      check

/-- What is left of a browser after an event. -/
def Browser.after (b : Browser) : BrowserEvent → Browser
  | .allForNow => { b with settled := true }
  | .failure => { b with failed := true }
  | _ => b

/-- The callback of a browser. -/
def browserEvent (libs : Libs) (k : Nat) (event : BrowserEvent) : A Unit := do
  match (← get).browsers[k]? with
  | none => pure ()
  | some b => do
      modify fun p => { p with
        browsers := p.browsers.set k (b.after event), log := p.log ++ [.browser k event] }
      recordCallback libs b.lookup event

/-- The callback of the resolver. -/
def resolverEvent (event : ResolverEvent) : A Unit := do
  match (← get).resolver with
  | none => pure ()
  | some r => do
      modify fun p => { p with
        resolver := some { r with settled := true }, log := p.log ++ [.resolver event] }
      addressCallback event

/-- An event of the library. -/
def handle (libs : Libs) : Event → A Unit
  | .browser k event => browserEvent libs k event
  | .resolver event => resolverEvent event
  | .client failure => clientCallback failure
  | .poll event => polling event

/-! ### Setting up a query -/

/-- `setup`, with whether it returns the private data. -/
def setup (libs : Libs) (settings : List String) : A Bool := do
  shared (emit (.newPriv libs.newPriv))
  if libs.newPriv then do
    modify fun p => { p with dns :=
      { p.dns with
        secure := settings.contains "trust"
        srv := { p.dns.srv with name := backendGetNodename p.dns.request }
        family := p.dns.request.family } }
    forM libs.opening (handle libs)
    pure libs.clientNew
  else pure false

/-- `query_forward`. -/
def queryForward (libs : Libs) (settings : List String) : A Unit := do
  let ready ← setup libs settings
  if ready ∧ (← get).dns.srv.name ≠ none then
    (if (← get).dns.request.dnsSrvLookup then do
      modify fun p => { p with dns := { p.dns with protocol := p.dns.request.protocol } }
      lookupSrv libs
    else do lookupHost libs (← get).dns.srv)
  else shared (emit .failed)

/-- `query_reverse`; the address of a request is an array, so it is never NULL. -/
def queryReverse (libs : Libs) (settings : List String) : A Unit := do
  if ← setup libs settings then do
    let p := (← get).dns
    lookupAddress libs (avahiAddress p.family p.request.address)
  else shared (emit .failed)

/-- `query_dns`. -/
def queryDns (libs : Libs) (settings : List String) : A Unit := do
  let ready ← setup libs settings
  if ready ∧ (← get).dns.srv.name ≠ none then do
    modify fun p => { p with dns :=
      { p.dns with cls := p.dns.request.dnsClass, type := p.dns.request.dnsType } }
    let p := (← get).dns
    lookupDns libs p.srv p.srv.name p.type p.cls
  else shared (emit .failed)

/-- `backend->setup[query->request.type]`. -/
def query (libs : Libs) (settings : List String) : A Unit := do
  match (← get).dns.request.type with
  | .forward => queryForward libs settings
  | .reverse => queryReverse libs settings
  | .dns => queryDns libs settings

/-- The calls that have been made. -/
def PrivAvahi.said (p : PrivAvahi) : List Call := p.dns.calls.map (·.2)

/-- The build as a backend: an event is what the library does in a dispatch. -/
def avahi (libs : Libs) (settings : List String) : Conduct PrivAvahi (List Event) where
  setup request :=
    let p := Outcome.final (query libs settings) { dns := { request } }
    (p, p.said)
  dispatch p events :=
    let p' := Outcome.final (forM events (handle libs)) p
    (p', p'.said.drop p.said.length)

/--
The build as far as it adds and removes watches: what its library does to them in the setup, in each
dispatch and in the end, and whether an outcome is reported.  An event of a watch that the query does
not have any more does not happen.
-/
def hooks (env : Env) (closing : List (Option Poll) → List PollEvent) (opening : List PollEvent)
    (reported : Bool) : Watching.Hooks (List (Option Poll)) (List PollEvent × Bool) where
  setup := do
    let polls ← opening.foldlM
      (pollEvent (Watching.addFor env) fun n => Watching.removeAt env (some n)) []
    pure (polls, reported)
  dispatch polls e := do
    if (Watching.own (← get)).isEmpty then pure (polls, false)
    else do
      let polls ← e.1.foldlM
        (pollEvent (Watching.addFor env) fun n => Watching.removeAt env (some n)) polls
      pure (polls, e.2)
  cleanup :=
    clientFree (Watching.addFor env) (fun n => Watching.removeAt env (some n)) closing

end Netresolve.Avahi
