import CloudPing.Handler.PingHandler
import CloudPing.Utils.CustomResolver
import CloudPing.Utils.IPNet

/-!
# The resolver of an HTTP target

The resolver of an HTTP target is documented as `ip:port`, or `[ip]:port` for IPv6.  Three
pieces of code read it.  Under a range the handler takes the whole text for an address, with
`net.ParseIP`; `NewCustomResolver` splits it into host and port; and the dialer gets what that
makes of it.

The first two agree on no text: what splits is never an address (`parseIP_joinHostPort`), so
under a range each documented form is refused, and what is let through loses its host.
-/

namespace CloudPing.Handler

open CloudPing.Utils CloudPing.Pinger Inet

/-- The port of a documented form. -/
def isPort (port : String) : Prop :=
  port ≠ "" ∧ port.toList.all Char.isDigit = true ∧ Nat.ofDigitChars 10 port.toList 0 ≤ 65535

/-- The documented form of a resolver, which names the address. -/
def Documented (resolver : String) (ip : IP) : Prop :=
  ∃ host port : String, resolver = String.ofList (joinHostPort host.toList port.toList) ∧
    parseIP host = some ip ∧ isPort port

end CloudPing.Handler
