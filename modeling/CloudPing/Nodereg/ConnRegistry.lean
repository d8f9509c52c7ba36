import CloudPing.Auth.Jwt
import CloudPing.Conc.Store

/-!
# The registry of agent connections

`ConnRegistry` keeps one entry per connection of an agent in a `SafeMap`, whose actor runs
one operation at a time.  Each operation here is what the actor runs, a function of the
stored map.

A search walks the map until an entry has all the attributes it looks for.  The order of
the walk is that of a Go map, which is not fixed, so a search may return any entry that
matches.
-/

namespace CloudPing.Nodereg

open Conc
open CloudPing.Auth

/-! ## Entries -/

def attributeKeyNodeName : String := "NodeName"
def attributeKeyPingCapability : String := "CapabilityPing"
def attributeKeyDNSProbeCapability : String := "CapabilityDNSProbe"
def attributeKeyHTTPProbeCapability : String := "CapabilityHTTPProbe"
def attributeKeyHttpEndpoint : String := "HttpEndpoint"
def attributeKeyRespondRange : String := "RespondRange"

abbrev ConnectionAttributes := Store String String

inductive AuthenticationType where
  | jwt
  | mtls
  deriving DecidableEq, Repr

structure ConnRegistryData where
  nodeName : Option String := none
  connectedAt : Time
  registeredAt : Option Time := none
  lastHeartbeat : Option Time := none
  attributes : ConnectionAttributes := ∅
  /-- The QUIC connection, as a number. -/
  quicConn : Option Nat := none
  claims : Option RegisteredClaims := none
  authentication : Option AuthenticationType := none

namespace ConnRegistryData

/-- `Attributes[key]`, empty if there is none. -/
def getAttribute (regData : ConnRegistryData) (key : String) : String :=
  (regData.attributes.lookup key).getD ""

/-- `Clone`, through JSON, which leaves the claims out. -/
def clone (regData : ConnRegistryData) : ConnRegistryData := { regData with claims := none }

/-- All the expected attributes are there. -/
def testAgainstAttributes (regData : ConnRegistryData) (expected : List (String × String)) :
    Bool :=
  expected.all fun (k, v) => regData.attributes.lookup k = some v

end ConnRegistryData

/-! ## Messages -/

structure RegisterPayload where
  nodeName : String
  token : Option String := none
  deriving DecidableEq, Repr

inductive EchoDirection where
  | c2s
  | s2c
  /-- Any other text. -/
  | other (s : String)
  deriving DecidableEq, Repr

structure EchoPayload where
  direction : EchoDirection
  correlationID : String
  serverTimestamp : UInt64
  timestamp : UInt64
  seqID : UInt64
  deriving DecidableEq, Repr

/-- The attributes are those of a JSON object, in no fixed order. -/
structure AttributesAnnouncementPayload where
  attributes : ConnectionAttributes := ∅
  withdrawals : List String := []

structure MessagePayload where
  register : Option RegisterPayload := none
  echo : Option EchoPayload := none
  attributesAnnouncement : Option AttributesAnnouncementPayload := none

/-! ## The registry -/

/-- The stored map. -/
abbrev ConnRegistry := Store String ConnRegistryData

namespace ConnRegistry

def openConnection (cr : ConnRegistry) (key : String) (quicConn : Option Nat) (now : Time) :
    ConnRegistry :=
  cr.insert key { connectedAt := now, quicConn := quicConn }

def closeConnection (cr : ConnRegistry) (key : String) : ConnRegistry := cr.erase key

/-- `Get` with an update of the entry, and `none` where the connection is not found. -/
def update (cr : ConnRegistry) (key : String) (op : ConnRegistryData → ConnRegistryData) :
    Option ConnRegistry :=
  (cr.lookup key).map fun entry => cr.insert key (op entry)

def register (cr : ConnRegistry) (key : String) (payload : RegisterPayload)
    (claims : Option RegisteredClaims) (now : Time) : Option ConnRegistry :=
  cr.update key fun entry =>
    { entry with
      nodeName := some payload.nodeName
      registeredAt := some now
      claims := if claims.isSome then claims else entry.claims
      authentication := some (if claims.isSome then .jwt else .mtls) }

def updateHeartbeat (cr : ConnRegistry) (key : String) (now : Time) : Option ConnRegistry :=
  cr.update key fun entry => { entry with lastHeartbeat := some now }

/-- The attributes after an announcement: withdrawals first, then the new values. -/
def announced (announcement : AttributesAnnouncementPayload) (attrs : ConnectionAttributes) :
    ConnectionAttributes :=
  announcement.attributes.entries.foldl (fun attrs e => attrs.insert e.1 e.2)
    (announcement.withdrawals.foldl (fun attrs k => attrs.erase k) attrs)

def setAttributes (cr : ConnRegistry) (connkey : String)
    (announcement : AttributesAnnouncementPayload) : Option ConnRegistry :=
  cr.update connkey fun entry =>
    { entry with attributes := announced announcement entry.attributes }

/-- `SearchByAttributes`, over the entries in the order of the walk. -/
def searchByAttributes (walk : List ConnRegistryData) (expected : List (String × String)) :
    Option ConnRegistryData :=
  (walk.find? fun entry => entry.testAgainstAttributes expected).map ConnRegistryData.clone

end ConnRegistry

end CloudPing.Nodereg
