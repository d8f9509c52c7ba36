import CloudPing.Inet.LiteralHost
import CloudPing.Utils.IPNet

/-!
# The address of a DNS server

A target names its server by a text, `addrport`.  The gate of the respond range asks `GetHost`
for the address, and `GetHost` asks `url.Parse` first: what parses is a URL, and its host is
taken, even if there is none.  `LookupDNS` takes `tls://` off, adds a port and asks
`netip.ParseAddrPort`.

So an address alone is a path to `GetHost` if it has dots, and a scheme if it begins with a
letter.  And a zone with an `@` is user information to it, and what follows the host.

The clients that `LookupDNS` uses for the HTTP transports connect to the host of the URL.  A
redirect and a proxy are left out.  The HTTP/3 client is outside; `HTTP3Host` says what it
takes of the authority.
-/

namespace CloudPing.Utils

open Inet

def getHostFromIP (ipstr : List Char) : Except String IP :=
  match parseIP (String.ofList ipstr) with
  | none => .error ("failed to parse IP from string: " ++ String.ofList ipstr)
  | some ip => .ok ip

def getHost (addrport : List Char) : Except String IP :=
  let addrport := match URL.parse addrport with
    | some urlObj => URL.stripBrackets urlObj.host
    | none => addrport
  match splitHostPort addrport with
  | .error _ => getHostFromIP addrport
  | .ok (host, _) => getHostFromIP host

example : (getHost "1.1.1.1".toList).toOption = none := by decide +kernel
example : (getHost "tls://1.1.1.1".toList).toOption =
    some [0, 0, 0, 0, 0, 0, 0, 0, 0, 0, 255, 255, 1, 1, 1, 1] := by decide +kernel

end CloudPing.Utils

namespace CloudPing.Dnsprobe

open Inet Utils

inductive Transport where
  | udp
  | tcp
  /-- DNS over TLS. -/
  | tls
  | http2
  | http3
  | other (s : String)
  deriving DecidableEq, Repr

def tlsURLPrefix : List Char := ['t', 'l', 's', ':', '/', '/']

def stripTLSURLPrefix (s : List Char) : List Char :=
  if tlsURLPrefix <+: s then s.drop tlsURLPrefix.length else s

def appendDNSPort (s : List Char) (transport : Transport) : List Char :=
  let port := if transport = .tls then ['8', '5', '3'] else ['5', '3']
  match splitHostPort s with
  | .error _ => joinHostPort s port
  | .ok _ => s

/-- The host of a URL that the client of a transport connects to. -/
def clientHost (http3Host : List Char → List Char) (transport : Transport) (host : List Char) :
    List Char :=
  if transport = .http3 then http3Host (URL.removeEmptyPort host)
  else URL.hostname (URL.removeEmptyPort host)

/-- The client has a request to send. -/
def requestable (transport : Transport) (u : URL) : Prop :=
  (u.scheme = ['h', 't', 't', 'p', 's'] ∨ transport = .http2 ∧ u.scheme = ['h', 't', 't', 'p']) ∧
    u.host ≠ []

instance (transport : Transport) (u : URL) : Decidable (requestable transport u) :=
  inferInstanceAs (Decidable (_ ∧ _))

/-- The address that `LookupDNS` dials, `none` where it returns an error before, or dials what
a name is resolved to. -/
def lookupDials (http3Host : List Char → List Char) (transport : Transport)
    (addrPort : List Char) : Option Addr :=
  match transport with
  | .udp | .tcp | .tls =>
    (parseAddrPort (appendDNSPort (stripTLSURLPrefix addrPort) transport)).map Prod.fst
  | .http2 | .http3 =>
    (URL.parse addrPort).bind fun u =>
      if requestable transport u then parseAddr (clientHost http3Host transport u.host) else none
  | .other _ => none

/-- What the HTTP/3 client takes of an authority: the host, if there is a port, and else all of
it, less the brackets around it. -/
structure HTTP3Host (http3Host : List Char → List Char) : Prop where
  hostPort : ∀ authority host port, splitHostPort authority = .ok (host, port) →
    http3Host authority = host
  noPort : ∀ authority err, splitHostPort authority = .error err →
    http3Host authority = URL.stripBrackets authority

/-! ## The documented forms -/

/-- The transports whose server `LookupDNS` parses itself. -/
def Transport.IsPlain (transport : Transport) : Prop :=
  transport = .udp ∨ transport = .tcp ∨ transport = .tls

/-- The text of an address without a zone. -/
def IsV4 (s : List Char) (a : Addr) : Prop := parseAddr s = some a ∧ ∃ ip hl, a = .v4 ip hl

def IsV6 (s : List Char) (a : Addr) : Prop := parseAddr s = some a ∧ ∃ ip hl, a = .v6 ip [] hl

def IsPort (s : List Char) : Prop := ∃ p, parsePort s = some p

/-- A server, for UDP and TCP. -/
inductive Endpoint : List Char → Addr → Prop where
  | ip {s a} : IsV4 s a → Endpoint s a
  | ipv6 {s a} : IsV6 s a → Endpoint s a
  | ipPort {s a port} : IsV4 s a → IsPort port → Endpoint (s ++ ':' :: port) a
  | ipv6Port {s a port} : IsV6 s a → IsPort port → Endpoint ('[' :: s ++ ']' :: ':' :: port) a

/-- The host part of a URL, with a port or without. -/
inductive LiteralHost : List Char → Addr → Prop where
  | ip {s a} : IsV4 s a → LiteralHost s a
  | ipPort {s a port} : IsV4 s a → IsPort port → LiteralHost (s ++ ':' :: port) a
  | ipv6 {s a} : IsV6 s a → LiteralHost ('[' :: s ++ [']']) a
  | ipv6Port {s a port} : IsV6 s a → IsPort port →
      LiteralHost ('[' :: s ++ ']' :: ':' :: port) a

/-- The user information of a URL, with the mark behind it. -/
def IsUserPart (s : List Char) : Prop :=
  s = [] ∨ ∃ userinfo, s = userinfo ++ ['@'] ∧ (∀ c ∈ userinfo, URL.IsAuthorityChar c) ∧
    (URL.parseUserinfo userinfo).isSome = true

/-- The comment at `AddrPort`: what a server is, for each transport. -/
inductive Documented : Transport → List Char → Addr → Prop where
  | plain {transport s a} : transport.IsPlain → Endpoint s a → Documented transport s a
  | tls {s a} : Endpoint s a → Documented .tls (tlsURLPrefix ++ s) a
  | https {transport userPart host a} (tail : URL.Tail) :
      transport = .http2 ∨ transport = .http3 → IsUserPart userPart → LiteralHost host a →
      Documented transport
        (['h', 't', 't', 'p', 's'] ++ ':' :: '/' :: '/' :: (userPart ++ host ++ tail.text)) a

/-! ## Agreement -/

/-- A documented server is found, and where the gate and `LookupDNS` accept the same text they
read the same address. -/
structure Agrees (http3Host : List Char → List Char) (transport : Transport)
    (addrPort : List Char) : Prop where
  documented : ∀ a, Documented transport addrPort a → getHost addrPort = .ok a.as16
  dialed : ∀ ip a, getHost addrPort = .ok ip →
    lookupDials http3Host transport addrPort = some a → a.as16 = ip

/-- What `GetHost` reads in another way. -/
inductive Misread (http3Host : List Char → List Char) : Transport → List Char → Prop where
  /-- An address with dots is a path. -/
  | path {transport s a} : transport.IsPlain → IsV4 s a → Misread http3Host transport s
  /-- An address that begins with a letter begins with a scheme. -/
  | scheme {transport s a c} : transport.IsPlain → IsV6 s a → s.head? = some c →
      c.isAlpha = true → Misread http3Host transport s
  /-- What stands behind the last colon is no port. -/
  | port {s a} : IsV6 s a → URL.endsInDigits s = false →
      Misread http3Host .tls (tlsURLPrefix ++ s)
  /-- The zone has an `@`, with another server behind it. -/
  | userinfo {transport s a u ip} : transport.IsPlain → parseAddr s = some a → a.zone ≠ [] →
      URL.parse (tlsURLPrefix ++ s) = some u → u.user.isSome = true →
      parseIP (String.ofList (hostOf (URL.stripBrackets u.host))) = some ip → ip ≠ a.as16 →
      Misread http3Host transport (tlsURLPrefix ++ s)
  /-- The client takes the last group of an address without brackets for a port. -/
  | bareHost {transport s u a a'} : transport = .http2 ∨ transport = .http3 →
      URL.parse s = some u → requestable transport u → IsV6 u.host a →
      parseAddr (clientHost http3Host transport u.host) = some a' → a'.as16 ≠ a.as16 →
      Misread http3Host transport s

end CloudPing.Dnsprobe
