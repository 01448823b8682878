/-
What backends call: the output half of `lib/backend.c`.

The functions that may change the state of the query take the state change as an
argument, because `netresolve_query_set_state` in turn calls backends.  `runCall` is
one call and `runCalls` the body of a setup or dispatch function.

`pathsOf` is the pure part of `netresolve_backend_add_path`: the records it hands to
`add_path`, in order.
-/
import Netresolve.Core.Event

namespace Netresolve

/-! ### Paths -/

/-- `family_to_length`. -/
def familyToLength (family : Int) : Nat :=
  if family = AF_INET then 4 else if family = AF_INET6 then 16 else 0

/-- `check_reachability`: a datagram socket is connected for the two IP families only. -/
def checkReachability (env : Env) (path : Path) : Path :=
  if path.family = AF_INET ∨ path.family = AF_INET6 then
    { path with reachable := path.reachable || env.reachable path }
  else path

/-- `path_cmp`. -/
def pathCmp (sort : Bool) (p₁ p₂ : Path) : Int :=
  if !sort then 0
  else if p₁.reachable && !p₂.reachable then -1
  else if !p₁.reachable && p₂.reachable then 1
  else if p₁.family = AF_INET6 ∧ p₂.family = AF_INET then -1
  else if p₁.family = AF_INET ∧ p₂.family = AF_INET6 then 1
  else 0

/-- The loop, the `memmove` and the `memcpy` of `add_path`. -/
def insertPath (sort : Bool) (path : Sourced Path) :
    List (Sourced Path) → List (Sourced Path)
  | [] => [path]
  | p :: rest =>
      if pathCmp sort path.value p.value < 0 then path :: p :: rest
      else p :: insertPath sort path rest

/--
The bytes `netresolve_backend_add_path` stores: as many as the family has, or a string
of at most 1023 bytes for a family it does not know.
-/
def pathAddress (family : Int) (address : List UInt8) : List UInt8 :=
  if familyToLength family ≠ 0 then address.take (familyToLength family)
  else (address.takeWhile (· ≠ 0)).take 1023

/-- One record, or one for each match of the service name. -/
def servicePaths (services : List Service) (request : Request) (a : PathArgs) : List Path :=
  let path : Path :=
    { family := a.family
      address := pathAddress a.family a.address
      ifindex := a.ifindex
      socktype := if a.socktype ≠ 0 then a.socktype else request.socktype
      protocol := if a.protocol ≠ 0 then a.protocol else request.protocol
      port := a.port
      priority := a.priority
      weight := a.weight
      ttl := a.ttl }
  if request.servname.isSome ∧ (a.socktype = 0 ∨ a.protocol = 0 ∨ a.port = 0) then
    (serviceListQuery services request.servname path.socktype path.protocol 0).map fun m =>
      { path with socktype := m.socktype, protocol := m.protocol, port := m.port }
  else [path]

/-- The records `netresolve_backend_add_path` hands to `add_path`. -/
def pathsOf (services : List Service) (request : Request) (a : PathArgs) : List Path :=
  if request.family ≠ AF_UNSPEC ∧ request.family ≠ a.family then []
  else if a.family = AF_UNIX ∧ a.socktype = 0 then
    [SOCK_STREAM, SOCK_DGRAM].flatMap fun socktype =>
      servicePaths services request
        { a with ifindex := 0, socktype := socktype, protocol := 0, port := 0 }
  else servicePaths services request a

/-- The part of `add_path` that puts the record into the response. -/
def storePath (env : Env) (path : Path) : M Unit := do
  observe (.path (← get).query.cursor path)
  modifyQuery fun q => { q with response := { q.response with
    paths := insertPath env.sort ⟨checkReachability env path, q.cursor⟩ q.response.paths } }

/-- `add_path`. -/
def addPath (env : Env) (setState : QueryState → M Unit) (path : Path) : M Unit := do
  storePath env path
  if (← get).query.state = .waiting then setState .waitingMore

/-- `netresolve_backend_add_path`. -/
def backendAddPath (env : Env) (setState : QueryState → M Unit) (a : PathArgs) : M Unit := do
  forM (pathsOf env.services (← get).query.request a) (addPath env setState)

/-! ### Names, the DNS answer and security -/

/-- `netresolve_backend_set_canonical_name`. -/
def backendSetCanonicalName (name : String) : M Unit :=
  modifyQuery fun q => { q with response := { q.response with
    nodename := some ⟨name, q.cursor⟩ } }

/-- The service name `service_callback` settles on: that of the first match with a name. -/
def reverseServname (services : List Service) (request : Request) : Option String :=
  (serviceListQuery services none 0 request.protocol request.port).findSome? (·.name)

/-- `netresolve_backend_add_name_info`. -/
def backendAddNameInfo (env : Env) (nodename : Option String) : M Unit :=
  modifyQuery fun q =>
    if q.response.nodename.isSome then q
    else { q with response := { q.response with
      nodename := nodename.map (⟨·, q.cursor⟩)
      servname := if q.response.servname.isSome then q.response.servname
        else (reverseServname env.services q.request).map (⟨·, q.cursor⟩) } }

/-- `netresolve_backend_set_secure`. -/
def backendSetSecure : M Unit :=
  modifyQuery fun q => { q with response := { q.response with security := .secure } }

/-- `netresolve_backend_set_dns_answer`. -/
def backendSetDnsAnswer (answer : List UInt8) : M Unit :=
  modifyQuery fun q => { q with response := { q.response with dns := some ⟨answer, q.cursor⟩ } }

/-! ### The backend entry under the cursor -/

/-- `*query->backend`: NULL at the end of the list, undefined behind it. -/
def currentBackend : M (Option Backend) := do
  let s ← get
  if s.query.cursor ≤ s.backends.length then pure s.backends[s.query.cursor]?
  else throw .outOfBounds

/-- Changes the entry under the cursor. -/
def modifyBackend (f : Backend → Backend) : M Unit :=
  modify fun s => { s with backends := s.backends.modify s.query.cursor f }

/-- `netresolve_backend_new_priv` up to the result of `calloc`, which is given. -/
def allocPriv (allocated : Bool) : M Unit := do
  match ← currentBackend with
  | none => throw (.assertion .newPriv)
  | some backend =>
      if backend.data.isSome then throw (.assertion .newPriv)
      else do
        let s ← get
        let q := s.query.id
        let block := s.context.next
        if allocated then do
          modifyContext fun c => { c with next := c.next + 1 }
          modifyBackend fun b => { b with
            cleanup := true, data := some ⟨block, q, []⟩, history := .alloc q block :: b.history }
          modifyQuery fun q => { q with priv := some block }
        else
          modifyBackend fun b => { b with cleanup := true, history := .allocFailed q :: b.history }

/-- `netresolve_backend_new_priv`. -/
def backendNewPriv (setState : QueryState → M Unit) (allocated : Bool) : M Unit := do
  allocPriv allocated
  if allocated then pure () else setState .error

/-- `netresolve_backend_get_priv`. -/
def backendGetPriv (s : St) : Option Block :=
  (s.backends[s.query.cursor]?).bind (·.data)

/-- The block under the cursor if it is the query's own. -/
def ownBlock (s : St) : Option Block :=
  (backendGetPriv s).filter (·.query = s.query.id)

/-- A backend adds a watch and remembers it in its private data. -/
def callWatchAdd (env : Env) (fd : Nat) : M Unit := do
  let i := (← get).query.cursor
  let w ← watchAdd env (.backend fd) (.backend i)
  match ownBlock (← get) with
  | none => pure ()
  | some block => modifyBackend fun b => { b with
      data := some { block with watches := block.watches ++ [w] } }

/-- A backend removes one of the watches it remembers. -/
def callWatchRemove (env : Env) (k : Nat) (doClose : Bool) : M Unit := do
  match ownBlock (← get) with
  | none => pure ()
  | some block =>
      match block.watches[k]? with
      | none => pure ()
      | some w => do
          watchRemove env w doClose
          modifyBackend fun b => { b with
            data := some { block with watches := block.watches.eraseIdx k } }

/-! ### Running a backend -/

/-- One call made by a backend. -/
def runCall (env : Env) (setState : QueryState → M Unit) (call : Call) : M Unit := do
  observe (.report (← get).query.cursor call)
  match call with
  | .addPath a => backendAddPath env setState a
  | .setCanonicalName name => backendSetCanonicalName name
  | .addNameInfo nodename => backendAddNameInfo env nodename
  | .setDnsAnswer answer => backendSetDnsAnswer answer
  | .setSecure => backendSetSecure
  | .newPriv allocated => backendNewPriv setState allocated
  | .watchAdd fd => callWatchAdd env fd
  | .watchRemove k doClose => callWatchRemove env k doClose
  | .finished => setState .resolved
  | .failed => setState .error

/-- The calls of one setup or dispatch function, in order. -/
def runCalls (env : Env) (setState : QueryState → M Unit) (calls : List Call) : M Unit :=
  forM calls (runCall env setState)

end Netresolve
