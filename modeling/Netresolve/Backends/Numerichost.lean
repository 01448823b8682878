/-
`backends/numerichost.c`: node names that are addresses.
-/
import Netresolve.Core.Parse
import Netresolve.Core.Types

namespace Netresolve.Numerichost

/-- `query_forward`, by the calls it makes into the library. -/
def queryForward (lits : Literals) (node : Option String) : List Call :=
  match node, parseAddress lits (node.map String.toList) with
  | some node, some a =>
      if 0 ≤ a.ifindex then
        [.addPath { family := a.family, address := a.address, ifindex := a.ifindex },
          .setCanonicalName node, .setSecure, .finished]
      else [.failed]
  | _, _ => [.failed]

end Netresolve.Numerichost
