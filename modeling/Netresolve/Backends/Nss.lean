/-
Modules of the name service switch: `query_forward` of `backends/nss.c`, with the functions of
`lib/backend.c` that apply what a module returns.

The functions of a module are code that is loaded at run time.  Here they are the fields of
`Module`, which return what they leave in the variables of their caller.  Which of them there are
depends on the module and on the settings.  Out-parameters of functions that are not called keep
the values they are declared with.
-/
import Netresolve.Core.Addrinfo
import Netresolve.Core.Compat

namespace Netresolve.Nss

open Addrinfo (Hints applyAddrinfo backendGetAddrinfoHints)
open Compat (Hostent)

/-! ### What a module returns -/

def NSS_STATUS_TRYAGAIN : Int := -2
def NSS_STATUS_UNAVAIL : Int := -1
def NSS_STATUS_NOTFOUND : Int := 0
def NSS_STATUS_SUCCESS : Int := 1

/-- `struct gaih_addrtuple`. -/
structure Addrtuple where
  name : Option String := none
  family : Int
  addr : List UInt8
  scopeid : Int
  deriving DecidableEq, Repr

/-- What `gethostbyname3_r` returns and stores. -/
structure Reply where
  status : Int
  he : Hostent
  ttl : Int
  canonname : Option String
  deriving DecidableEq, Repr

/-- The entry points of a module. -/
structure Module where
  getaddrinfo : Option (Option String → Option String → Hints → Int × List Addrinfo × Int) := none
  gethostbyname4R : Option (String → Int × List Addrtuple × Int) := none
  gethostbyname3R : Option (String → Int → Reply) := none
  gethostbyname2R : Option (String → Int → Int × Hostent) := none
  gethostbynameR : Option (String → Int × Hostent) := none

/-! ### Applying it -/

/-- `netresolve_backend_apply_addrtuple`. -/
def applyAddrtuple (status : Int) (result : List Addrtuple) (ttl : Int) : List Call :=
  if status = NSS_STATUS_SUCCESS then
    (result.map fun item => Call.addPath
      { family := item.family, address := item.addr, ifindex := item.scopeid, ttl }) ++ [.finished]
  else [.failed]

/-- `netresolve_backend_apply_hostent`, with the socket type and the other numbers zero. -/
def applyHostent (he : Hostent) (ttl : Int) : List Call :=
  (he.addrs.map fun addr => Call.addPath { family := he.addrtype, address := addr, ttl }) ++
    (he.name.map Call.setCanonicalName).toList

/-! ### The query -/

/-- `combine_statuses`. -/
def combineStatuses (s4 s6 : Int) : Int :=
  if s4 = NSS_STATUS_TRYAGAIN ∨ s6 = NSS_STATUS_TRYAGAIN then NSS_STATUS_TRYAGAIN
  else if s4 = NSS_STATUS_SUCCESS ∨ s6 = NSS_STATUS_SUCCESS then NSS_STATUS_SUCCESS
  else if s4 = NSS_STATUS_NOTFOUND ∧ s6 = NSS_STATUS_NOTFOUND then NSS_STATUS_NOTFOUND
  else NSS_STATUS_UNAVAIL

/-- The variables before one of the two calls; the host entry is not initialized. -/
def Reply.initial (uninitialized : Hostent) : Reply := ⟨NSS_STATUS_NOTFOUND, uninitialized, 0, none⟩

/-- The call for a family, if it is the one of the request or there is none in the request. -/
def callFor (uninitialized : Hostent) (f : Int → Reply) (requested family : Int) : Reply :=
  if requested = family ∨ requested = AF_UNSPEC then f family else Reply.initial uninitialized

/-- What `query_forward` makes of the two replies. -/
def applyReplies (reply4 reply6 : Reply) : List Call :=
  if combineStatuses reply4.status reply6.status = NSS_STATUS_SUCCESS then
    (if reply6.status = NSS_STATUS_SUCCESS ∧ reply6.canonname.isSome then
        (reply6.canonname.map Call.setCanonicalName).toList
      else if reply4.status = NSS_STATUS_SUCCESS ∧ reply4.canonname.isSome then
        (reply4.canonname.map Call.setCanonicalName).toList
      else []) ++
    -- the addresses of each family are applied with the ttl of the other one
    (if reply6.status = NSS_STATUS_SUCCESS then applyHostent reply6.he reply4.ttl else []) ++
    (if reply4.status = NSS_STATUS_SUCCESS then applyHostent reply4.he reply6.ttl else []) ++
    [.finished]
  else [.failed]

/-- The branch of `query_forward` for `gethostbyname3_r` and `gethostbyname2_r`. -/
def queryFamilies (uninitialized : Hostent) (f : Int → Reply) (family : Int) : List Call :=
  applyReplies (callFor uninitialized f family AF_INET) (callFor uninitialized f family AF_INET6)

/-- `gethostbyname2_r` leaves the ttl and the canonical name as they are. -/
def withoutTtl (f : Int → Int × Hostent) (family : Int) : Reply :=
  ⟨(f family).1, (f family).2, 0, none⟩

/-- `query_forward`, with the module if it could be loaded. -/
def queryForward (uninitialized : Hostent) (module : Option Module) (node : Option String)
    (request : Request) (defaultLoopback : Bool) : List Call :=
  match module with
  | none => [.failed]
  | some m =>
      match m.getaddrinfo, node, m.gethostbyname4R, m.gethostbyname3R, m.gethostbyname2R,
          m.gethostbynameR with
      | some getaddrinfo, node, _, _, _, _ =>
          let (status, result, ttl) :=
            getaddrinfo node request.servname (backendGetAddrinfoHints request defaultLoopback)
          applyAddrinfo status result ttl
      | none, none, _, _, _, _ => [.failed]
      | none, some node, four, three, two, one =>
          match (if request.family = AF_UNSPEC then four else none), three, two, one with
          | some gethostbyname4R, _, _, _ =>
              let (status, result, ttl) := gethostbyname4R node
              applyAddrtuple status result ttl
          | none, some gethostbyname3R, _, _ =>
              queryFamilies uninitialized (gethostbyname3R node) request.family
          | none, none, some gethostbyname2R, _ =>
              queryFamilies uninitialized (withoutTtl (gethostbyname2R node)) request.family
          | none, none, none, some gethostbynameR =>
              let (status, he) := gethostbynameR node
              if status = NSS_STATUS_SUCCESS then applyHostent he 0 ++ [.finished] else [.failed]
          | none, none, none, none => [.failed]

end Netresolve.Nss
