/-
Backends by what they have to say.

The setup function of a backend that knows at once reports a failure and does nothing else, or writes
into the response and reports success.  A query that comes to a row of them has the answer of the
first that has one, and what follows in the list is not asked.  This is the meaning of a row of
backends, with no state machine in it.

Other backends add watches and say the rest when they are dispatched, in as many pieces as it takes.
`Conduct` is such a backend as the calls its functions make.
-/
import Netresolve.Core.Run

namespace Netresolve

/-- The calls that add to the response. -/
def Call.adds : Call → Bool
  | .addPath _ | .setCanonicalName _ | .addNameInfo _ | .setDnsAnswer _ | .setSecure => true
  | _ => false

/-- The calls of a setup function that has an answer, or has none. -/
def replyCalls : Option (List Call) → List Call
  | none => [.failed]
  | some writes => writes ++ [.finished]

/-- The first answer, with the position of the backend. -/
def firstReply : Nat → List (Option (List Call)) → Option (Nat × List Call)
  | _, [] => none
  | i, none :: rest => firstReply (i + 1) rest
  | i, some writes :: _ => some (i, writes)

/-- The response after a call of the backend at a position. -/
def Call.onto (env : Env) (request : Request) (i : Nat) (r : Response) : Call → Response
  | .addPath a =>
      { r with
        paths := (pathsOf env.services request a).foldl
          (fun paths path => insertPath env.sort ⟨checkReachability env path, i⟩ paths) r.paths }
  | .setCanonicalName name => { r with nodename := some ⟨name, i⟩ }
  | .addNameInfo nodename =>
      if r.nodename.isSome then r
      else { r with
        nodename := nodename.map (⟨·, i⟩)
        servname := if r.servname.isSome then r.servname
          else (reverseServname env.services request).map (⟨·, i⟩) }
  | .setDnsAnswer answer => { r with dns := some ⟨answer, i⟩ }
  | .setSecure => { r with security := .secure }
  | _ => r

/-- The response after the calls of an answer. -/
def written (env : Env) (request : Request) (i : Nat) (writes : List Call) (r : Response) :
    Response :=
  writes.foldl (Call.onto env request i) r

/-- The first backends of a list have these replies for requests of the type. -/
structure Immediate (env : Env) (type : RequestType) (bs : List Backend)
    (replies : List (Option (List Call))) : Prop where
  length : replies.length ≤ bs.length
  absent : ∀ (i : Nat) (b : Backend) reply, bs[i]? = some b → b.setup type = false →
    replies[i]? = some reply → reply = none
  calls : ∀ (i : Nat) (b : Backend) reply, bs[i]? = some b → b.setup type = true →
    replies[i]? = some reply → env.setup i = replyCalls reply
  adds : ∀ writes, some writes ∈ replies → ∀ call ∈ writes, call.adds = true

/-- The query has the answer of a backend, and the application is handed nothing else. -/
structure Answered (i n : Nat) (r : Response) (s : St) : Prop where
  response : s.query.response = r
  state : s.query.state = .resolved ∧ s.query.cursor = i ∨
    s.query.state = .done ∧ s.query.cursor = n ∧
      (s.query.callback = true → Obs.callback .done n r ∈ s.trace)
  called : ∀ state j r', Obs.callback state j r' ∈ s.trace →
    s.query.state = .done ∧ state = .done ∧ r' = r
  setups : ∀ j r', Obs.enter .setup j r' ∈ s.trace → j ≤ i

/-- The setup function and the dispatch function, by the private data and what is found there. -/
structure Conduct (P ε : Type) where
  setup : Request → P × List Call
  dispatch : P → ε → P × List Call

/-- What backends do not decide is decided alike. -/
structure Env.Like (env env' : Env) : Prop where
  services : env'.services = env.services
  sort : env'.sort = env.sort
  reachable : env'.reachable = env.reachable

end Netresolve
