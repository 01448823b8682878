/-
The DNS backends: `backends/dns.c`, built as `aresdns` and as `ubdns`.

The two share the code that issues lookups and applies answers and differ in the
library below it.  c-ares, libunbound and ldns are outside of the model: what they
decide is in `Libs`, the answers they deliver are the input of a run, and `lookups`
holds the lookups they still owe an answer.  A library calls back once for each lookup,
and only while it processes the descriptors of a dispatch.

The backend reads the request and otherwise talks to the core by calls, which are
collected in `calls`, oldest first.  Each comes with the answer that was being applied
when it was made; this, like the log of the answers, is ghost data.

Debug output, the list of SRV targets that `cleanup` frees and a failing `strdup` are
left out.  Of the third build, the one for Avahi, there is only the address that a reverse
query hands over.
-/
import Netresolve.Core.Report
import Netresolve.Library.Outcome

namespace Netresolve.Dns

/-! ### The libraries -/

/-- The build variants of `backends/dns.c` modelled here. -/
inductive Variant where
  | ares | unbound
  deriving DecidableEq, Repr

def LDNS_RR_TYPE_A : Int := 1
def LDNS_RR_TYPE_PTR : Int := 12
def LDNS_RR_TYPE_AAAA : Int := 28
def LDNS_RR_TYPE_SRV : Int := 33
def LDNS_RR_CLASS_IN : Int := 1
def LDNS_RCODE_NXDOMAIN : Nat := 3

/-- `ldns_rr`, the record types `apply_record` tells apart. -/
inductive Record where
  | cname (name : String)
  | ptr (name : String)
  | a (address : List UInt8) (ttl : UInt32)
  | aaaa (address : List UInt8) (ttl : UInt32)
  | srv (priority weight port : UInt16) (name : String)
  | other (type : Int)
  deriving DecidableEq, Repr

/-- `ldns_pkt`; `question` holds the types of the question section. -/
structure Packet where
  rcode : Nat := 0
  question : List Int
  answer : List Record := []
  ad : Bool := false
  deriving DecidableEq, Repr

/-- The status of a lookup: `ARES_SUCCESS`, `ARES_ENOTFOUND`, `ARES_EDESTRUCTION`, others. -/
inductive Status where
  | success | notFound | destruction | failure
  deriving DecidableEq, Repr

/--
What a library hands to the callback of a lookup.  No data is NULL or a length of zero;
`secure` and `bogus` are fields of `struct ub_result`.
-/
structure Answer where
  status : Status := .success
  data : List UInt8 := []
  secure : Bool := false
  bogus : Bool := false
  deriving DecidableEq, Repr

/-- What `ares_fds` reports. -/
structure Fds where
  nfds : Nat := 0
  rfds : List Nat := []
  wfds : List Nat := []
  deriving DecidableEq, Repr

/--
What the libraries and the allocator decide: whether their calls succeed, how a packet
is read, and the descriptors of a new c-ares channel.
-/
structure Libs where
  newPriv : Bool := true
  asprintf : Bool := true
  calloc : Nat → Bool := fun _ => true
  ctxCreate : Bool := true
  ctxSetFwd : String → Bool := fun _ => true
  ctxResolvconf : Bool := true
  ctxAddTaFile : Bool := true
  ubFd : Nat := 0
  aresLibraryInit : Bool := true
  aresInitOptions : Bool := true
  aresFds : Fds := {}
  wire2pkt : List UInt8 → Option Packet

/-! ### The private data -/

/-- `struct priv_srv`; the one inside `struct priv_dns` holds the node name. -/
structure PrivSrv where
  priority : Int := 0
  weight : Int := 0
  port : Int := 0
  name : Option String := none
  deriving DecidableEq, Repr

/-- A lookup that has not been answered, with the argument of its callback. -/
structure Lookup where
  srv : PrivSrv
  name : Option String
  type : Int
  cls : Int
  deriving DecidableEq, Repr

/--
`struct priv_dns` with the request behind its query.  `watched` lists the descriptors of
the watches the query has for the backend, in the order they were added, and `targets`
counts the entries `apply_srv` asked for.
-/
structure PrivDns where
  request : Request
  protocol : Int := 0
  family : Int := AF_UNSPEC
  address : List UInt8 := []
  cls : Int := 0
  type : Int := 0
  srv : PrivSrv := {}
  pending : Int := 0
  answered : Bool := false
  failed : Bool := false
  secure : Bool := false
  validate : Bool := false
  fds : Fds := {}
  watched : List Nat := []
  targets : Nat := 0
  lookups : List Lookup := []
  applying : Option Answer := none
  answers : List Answer := []
  calls : List (Option Answer × Call) := []
  deriving DecidableEq, Repr

/-- A failed assertion, the question of a packet that has none, a call of `abort()`. -/
inductive Fault where
  | assertion | outOfBounds | abort
  deriving DecidableEq, Repr

abbrev D := EStateM Fault PrivDns

/-- A call of the backend into the core. -/
def emit (call : Call) : D Unit :=
  modify fun p => { p with calls := p.calls ++ [(p.applying, call)] }

/-! ### Lookups -/

/-- `lookup_dns`. -/
def lookupDns (srv : PrivSrv) (name : Option String) (type cls : Int) : D Unit :=
  modify fun p => { p with
    pending := p.pending + 1, lookups := p.lookups ++ [⟨srv, name, type, cls⟩] }

/-- `protocol_to_string`. -/
def protocolToString (proto : Int) : String :=
  if proto = IPPROTO_UDP then "udp"
  else if proto = IPPROTO_TCP then "tcp"
  else if proto = IPPROTO_SCTP then "sctp"
  else "0"

/-- `netresolve_backend_get_nodename`. -/
def backendGetNodename (request : Request) : Option String :=
  request.dnsName <|> request.nodename

/-- `lookup_srv`; `asprintf` writes NULL as `(null)`. -/
def lookupSrv (libs : Libs) : D Unit := do
  let p ← get
  if libs.asprintf then
    lookupDns p.srv (some ("_" ++ p.request.servname.getD "(null)" ++ "._" ++
      protocolToString p.protocol ++ "." ++ (backendGetNodename p.request).getD "(null)"))
      LDNS_RR_TYPE_SRV LDNS_RR_CLASS_IN
  else modify fun p => { p with failed := true }

/-- `lookup_host`. -/
def lookupHost (srv : PrivSrv) : D Unit := do
  let family := (← get).family
  (if family = AF_INET ∨ family = AF_UNSPEC then
    lookupDns srv srv.name LDNS_RR_TYPE_A LDNS_RR_CLASS_IN else pure ())
  if family = AF_INET6 ∨ family = AF_UNSPEC then
    lookupDns srv srv.name LDNS_RR_TYPE_AAAA LDNS_RR_CLASS_IN

/-- What `snprintf` leaves in a buffer of the given size. -/
def snprintf (size : Nat) (text : String) : String :=
  String.ofList (text.toList.take (size - 1))

/-- `%d` of the bytes from the last to the first. -/
def ipv4Name (address : List UInt8) : String :=
  ".".intercalate ((List.range 4).map fun i => toString (address.getD (3 - i) 0).toNat) ++
    ".in-addr.arpa."

/-- `%x` of the low and the high half of the bytes from the last to the first. -/
def ipv6Name (address : List UInt8) : String :=
  ".".intercalate ((List.range 16).flatMap fun i =>
    let byte := (address.getD (15 - i) 0).toNat
    [String.ofList (Nat.toDigits 16 (byte % 16)), String.ofList (Nat.toDigits 16 (byte / 16))]) ++
    ".ip6.arpa"

/-- `lookup_address`. -/
def lookupAddress : D Unit := do
  let p ← get
  if p.family = AF_INET then
    lookupDns p.srv (some (snprintf 128 (ipv4Name p.address))) LDNS_RR_TYPE_PTR LDNS_RR_CLASS_IN
  else if p.family = AF_INET6 then
    lookupDns p.srv (some (snprintf 128 (ipv6Name p.address))) LDNS_RR_TYPE_PTR LDNS_RR_CLASS_IN
  else throw .abort

/-! ### Answers -/

/-- `set_name`: a trailing dot is cut off. -/
def setName (name : String) : D Unit :=
  emit (.addNameInfo (some
    (if name.toList.getLast? = some '.' then String.ofList name.toList.dropLast else name)))

/-- `apply_address`; the TTL becomes an `int`. -/
def applyAddress (srv : PrivSrv) (family : Int) (address : List UInt8) (ttl : UInt32) :
    D Unit := do
  let p ← get
  emit (.addPath
    { family := family
      address := address
      protocol := p.protocol
      port := srv.port
      priority := srv.priority
      weight := srv.weight
      ttl := toCInt ttl.toNat })
  modify fun p => { p with answered := true }

/-- `apply_srv`. -/
def applySrv (libs : Libs) (priority weight port : UInt16) (name : String) : D Unit := do
  let n := (← get).targets
  modify fun p => { p with targets := n + 1 }
  if libs.calloc n then do
    setName name
    lookupHost ⟨priority.toNat, weight.toNat, port.toNat, some name⟩
  else emit .failed

/-- `apply_record`. -/
def applyRecord (libs : Libs) (srv : PrivSrv) : Record → D Unit
  | .cname name => setName name
  | .ptr name => do
      setName name
      modify fun p => { p with answered := true }
  | .a address ttl => applyAddress srv AF_INET address ttl
  | .aaaa address ttl => applyAddress srv AF_INET6 address ttl
  | .srv priority weight port name => applySrv libs priority weight port name
  | .other _ => pure ()

/-- The part of `apply_answer` that comes after the AD flag: the `switch` and the loop. -/
def applyPacket (libs : Libs) (srv : PrivSrv) (type : Int) (pkt : Packet) : D Unit :=
  -- an empty answer with rcode zero counts as one that was not found
  let rcode := if pkt.rcode = 0 ∧ pkt.answer = [] then LDNS_RCODE_NXDOMAIN else pkt.rcode
  if rcode = 0 then forM pkt.answer (applyRecord libs srv)
  else if rcode = LDNS_RCODE_NXDOMAIN ∧ type = LDNS_RR_TYPE_SRV then do
    lookupHost (← get).srv
  else modify fun p => { p with failed := true }

/-- `apply_answer`. -/
def applyAnswer (libs : Libs) (v : Variant) (srv : PrivSrv) (data : List UInt8) : D Unit := do
  if data = [] then throw .assertion
  else if (← get).type ≠ 0 then do
    emit (.setDnsAnswer data)
    modify fun p => { p with answered := true }
  else match libs.wire2pkt data with
    | none => modify fun p => { p with failed := true }
    | some pkt => match pkt.question with
        | [] => throw .outOfBounds
        | type :: _ => do
            modify fun p => { p with
              secure := p.secure && (pkt.ad || (v = .unbound && p.validate)) }
            applyPacket libs srv type pkt

/-- `check`. -/
def check : D Unit := do
  let p ← get
  if p.pending < 0 then throw .assertion
  else if p.pending = 0 then do
    (if p.answered && p.secure then emit .setSecure else pure ())
    emit (if p.failed then .failed else .finished)
  else pure ()

/-- `ubdns_callback`. -/
def ubdnsCallback (libs : Libs) (srv : PrivSrv) (result : Answer) : D Unit := do
  modify fun p => { p with pending := p.pending - 1 }
  if result.status ≠ .success then modify fun p => { p with failed := true }
  else do
    modify fun p => { p with secure := p.secure && result.secure }
    (if result.bogus then modify fun p => { p with secure := false, failed := true }
     else applyAnswer libs .unbound srv result.data)
    check

/-- `aresdns_callback`. -/
def aresdnsCallback (libs : Libs) (srv : PrivSrv) (answer : Answer) : D Unit := do
  modify fun p => { p with pending := p.pending - 1 }
  match answer.status with
  | .destruction => pure ()
  | .failure => modify fun p => { p with failed := true }
  | .success | .notFound => do
      applyAnswer libs .ares srv answer.data
      check

/-! ### Descriptors of c-ares -/

/-- `netresolve_watch_add` for a descriptor of the channel. -/
def watchFd (fd : Nat) : D Unit := do
  emit (.watchAdd fd)
  modify fun p => { p with watched := p.watched ++ [fd] }

/-- `netresolve_watch_remove` of `priv->watches[fd]`, the last watch added for `fd`. -/
def unwatchFd (fd : Nat) : D Unit := do
  let k := (← get).watched.length - 1 - (← get).watched.reverse.idxOf fd
  emit (.watchRemove k false)
  modify fun p => { p with watched := p.watched.eraseIdx k }

/-- `watch_file_descriptors`, with what `ares_fds` reports. -/
def watchFileDescriptors (fds : Fds) : D Unit := do
  if (← get).fds.nfds ≠ 0 then throw .assertion
  else do
    modify fun p => { p with fds := fds }
    forM (List.range fds.nfds) fun fd => do
      (if fd ∈ fds.rfds then watchFd fd else pure ())
      if fd ∈ fds.wfds then watchFd fd

/-- `unwatch_file_descriptors`. -/
def unwatchFileDescriptors : D Unit := do
  let fds := (← get).fds
  if fds.nfds = 0 then throw .assertion
  else do
    forM (List.range fds.nfds) fun fd => if fd ∈ fds.rfds then unwatchFd fd else pure ()
    modify fun p => { p with fds := {} }

/-! ### Setting up a query -/

/-- One turn of the loop over the settings. -/
def applySetting (v : Variant) (p : PrivDns) (setting : String) : PrivDns :=
  if setting = "trust" then { p with secure := true }
  else if v = .unbound ∧ setting = "validate" then { p with validate := true, secure := true }
  else p

/-- `server`: what follows `server=` in the last setting that starts so. -/
def server (settings : List String) : Option String :=
  (settings.filter fun s => "server=".toList.isPrefixOf s.toList).getLast?.map fun s =>
    String.ofList (s.toList.drop 7)

/-- The part of `setup` that creates the context of libunbound or the channel of c-ares. -/
def openLibrary (libs : Libs) (settings : List String) : Variant → D Bool
  | .unbound => do
      let forwards := match server settings with
        | some name => libs.ctxSetFwd name
        | none => libs.ctxResolvconf
      if libs.ctxCreate && forwards && (!(← get).validate || libs.ctxAddTaFile) then do
        emit (.watchAdd libs.ubFd)
        pure true
      else pure false
  | .ares => pure (libs.aresLibraryInit && libs.aresInitOptions)

/-- `setup`, with whether it returns the private data. -/
def setup (libs : Libs) (v : Variant) (settings : List String) : D Bool := do
  emit (.newPriv libs.newPriv)
  if libs.newPriv then do
    modify fun p => settings.foldl (applySetting v) p
    modify fun p => { p with
      srv := { p.srv with name := backendGetNodename p.request }, family := p.request.family }
    openLibrary libs settings v
  else pure false

/-- The watches of a new channel. -/
def watchChannel (libs : Libs) : Variant → D Unit
  | .unbound => pure ()
  | .ares => watchFileDescriptors libs.aresFds

/-- `query_forward`. -/
def queryForward (libs : Libs) (v : Variant) (settings : List String) : D Unit := do
  let ready ← setup libs v settings
  if ready ∧ (← get).srv.name ≠ none then do
    (if (← get).request.dnsSrvLookup then do
      modify fun p => { p with protocol := p.request.protocol }
      lookupSrv libs
    else do lookupHost (← get).srv)
    watchChannel libs v
  else emit .failed

/-- `query_reverse`; the address of a request is an array, so it is never NULL. -/
def queryReverse (libs : Libs) (v : Variant) (settings : List String) : D Unit := do
  if ← setup libs v settings then do
    modify fun p => { p with address := p.request.address }
    lookupAddress
    watchChannel libs v
  else emit .failed

/-- `query_dns`. -/
def queryDns (libs : Libs) (v : Variant) (settings : List String) : D Unit := do
  let ready ← setup libs v settings
  if ready ∧ (← get).srv.name ≠ none then do
    modify fun p => { p with cls := p.request.dnsClass, type := p.request.dnsType }
    let p ← get
    lookupDns p.srv p.srv.name p.type p.cls
    watchChannel libs v
  else emit .failed

/-- `backend->setup[query->request.type]`. -/
def query (libs : Libs) (v : Variant) (settings : List String) : D Unit := do
  match (← get).request.type with
  | .forward => queryForward libs v settings
  | .reverse => queryReverse libs v settings
  | .dns => queryDns libs v settings

/-! ### The build for Avahi -/

def AVAHI_PROTO_INET : Int := 0
def AVAHI_PROTO_INET6 : Int := 1

/-- `AvahiAddress`, with the bytes of its union.  It is zero at first. -/
structure AvahiAddress where
  proto : Int := 0
  data : List UInt8 := List.replicate 16 0
  deriving DecidableEq, Repr

/-- The `switch` of `query_reverse`, with the address for `lookup_address`. -/
def avahiAddress (family : Int) (address : List UInt8) : AvahiAddress :=
  if family = AF_INET then
    { proto := AVAHI_PROTO_INET, data := address.take 4 ++ List.replicate 12 0 }
  else if family = AF_INET6 then { proto := AVAHI_PROTO_INET6, data := address.take 16 }
  else {}

/-! ### Runs -/

/--
The library calls back for one of the lookups it owes an answer, given by its position.
-/
def complete (libs : Libs) (v : Variant) (completion : Nat × Answer) : D Unit := do
  match (← get).lookups[completion.1]? with
  | none => pure ()
  | some lookup => do
      modify fun p => { p with
        lookups := p.lookups.eraseIdx completion.1
        answers := completion.2 :: p.answers
        applying := some completion.2 }
      (match v with
        | .ares => aresdnsCallback libs lookup.srv completion.2
        | .unbound => ubdnsCallback libs lookup.srv completion.2)
      modify fun p => { p with applying := none }

/-- What the library does in one dispatch, and the descriptors it is then interested in. -/
structure Round where
  completions : List (Nat × Answer)
  fds : Fds := {}

/-- `dispatch`. -/
def dispatch (libs : Libs) (v : Variant) (round : Round) : D Unit :=
  match v with
  | .unbound => forM round.completions (complete libs .unbound)
  | .ares => do
      unwatchFileDescriptors
      forM round.completions (complete libs .ares)
      watchFileDescriptors round.fds
      check

/-- The setup of a query and any number of dispatches. -/
def run (libs : Libs) (v : Variant) (settings : List String) (rounds : List Round) : D Unit := do
  query libs v settings
  forM rounds (dispatch libs v)

/-- The same up to a point in the next dispatch, after some of its completions. -/
def partway (libs : Libs) (v : Variant) (settings : List String) (rounds : List Round)
    (completions : List (Nat × Answer)) : D Unit := do
  run libs v settings rounds
  (match v with
    | .unbound => pure ()
    | .ares => unwatchFileDescriptors)
  forM completions (complete libs v)

/-- The calls the core has seen after a run. -/
def callsOf (libs : Libs) (v : Variant) (settings : List String) (request : Request)
    (rounds : List Round) : List Call :=
  (Outcome.final (run libs v settings rounds) { request := request }).calls.map (·.2)

/-- The backend as an environment of the core: its setup, and the round after some others. -/
def env (libs : Libs) (v : Variant) (settings : List String) (request : Request)
    (rounds : List Round) (round : Round) : Env :=
  { setup := fun _ => callsOf libs v settings request []
    dispatch := fun _ => (callsOf libs v settings request (rounds ++ [round])).drop
      (callsOf libs v settings request rounds).length }

end Netresolve.Dns
