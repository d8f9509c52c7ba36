import CloudPing.Web.TraceEvent

/-!
# Trace events in the bot

The bot reads the same JSON.  It decodes the data into an `ICMPTrackerEntry`, where a member
that is missing or `null` leaves the zero value, and makes a `PingEvent` of the entry.

The entry is that of the lookups.  Of its fields only those are decoded that
`convertPingEventToBotEvent` reads, and `RttMsFlt` stands in nanoseconds.
-/

namespace CloudPing.Tui

open Raw Web

variable {F : Type}

structure PingEvent (F : Type) where
  err : String := ""
  fromNode : String := ""
  toTarget : String := ""
  seq : Int := 0
  rttMs : Int := 0
  /-- `RttMsFlt`, in nanoseconds. -/
  rttNs : Option Int := none
  peer : String := ""
  peerRDNS : String := ""
  ipPacketSize : Int := 0
  timeout : Bool := false
  asn : String := ""
  isp : String := ""
  countryAlpha2 : String := ""
  city : String := ""
  exactLocation : Option (ExactLocation F) := none
  ttl : Int := 0
  originTTL : Int := 0
  lastHop : Bool := false

/-! ## Decoding -/

def basicIPInfo (raw : RawBasicIPInfo F) : BasicIPInfo F where
  asn := raw.asn.getD ""
  location := ""
  isp := raw.isp.getD ""
  country := none
  region := none
  city := raw.city
  exactLocation := raw.exact
  iso3166Alpha2 := raw.iso3166Alpha2

def icmpReply (raw : RawPingEventICMPReply F) : WrappedReply F where
  id := 0
  size := raw.size.getD 0
  seq := 0
  ttl := raw.ttl.getD 0
  peer := raw.peer.getD ""
  lastHop := raw.lastHop.getD false
  receivedAt := 0
  iNetFamily := 0
  icmpType := none
  icmpCode := none
  ipProto := 0
  setMTUTo := raw.setMTUTo
  peerRDNS := raw.peerRDNS.getD []
  peerASN := raw.peerASN
  peerISP := raw.peerISP
  peerExactLocation := raw.peerExactLocation
  peerIPInfo := raw.peerIPInfo.map basicIPInfo

/-- `json.Unmarshal` into an `ICMPTrackerEntry`. -/
def icmpEntry (data : RawPingEventData F) : WrappedEV F where
  seq := data.seq.getD 0
  ttl := data.ttl.getD 0
  originDstAddr := none
  rttNanoSecs := data.rttNanoSecs.getD []
  rttMilliSecs := data.rttMilliSecs.getD []
  sentAt := 0
  receivedAt := data.receivedAt.getD []
  timer := false
  raw := (data.raw.getD []).map icmpReply

/-! ## Converting -/

namespace PingEvent

/-- The event with what the first reply has. -/
def withReply (botEV : PingEvent F) (rawEntry : WrappedReply F) : PingEvent F :=
  let ipInfo := rawEntry.peerIPInfo
  let asn := (ipInfo.map (·.asn)).getD botEV.asn
  let isp := (ipInfo.map (·.isp)).getD botEV.isp
  let exactLocation := (ipInfo.bind (·.exactLocation)).orElse fun _ => botEV.exactLocation
  { botEV with
    peer := rawEntry.peer
    peerRDNS := rawEntry.peerRDNS.headD botEV.peerRDNS
    ipPacketSize := rawEntry.size
    ttl := rawEntry.ttl
    lastHop := rawEntry.lastHop
    city := (ipInfo.bind (·.city)).getD botEV.city
    countryAlpha2 := (ipInfo.bind (·.iso3166Alpha2)).getD botEV.countryAlpha2
    asn := if asn = "" then rawEntry.peerASN.getD asn else asn
    isp := if isp = "" then rawEntry.peerISP.getD isp else isp
    exactLocation := exactLocation.orElse fun _ => rawEntry.peerExactLocation }

/-- The event of an entry, which adds to what is known of its ends. -/
def withEntry (botEV : PingEvent F) (icmpEntry : WrappedEV F) : PingEvent F :=
  let botEV :=
    { botEV with
      seq := icmpEntry.seq
      rttMs := icmpEntry.rttMilliSecs.getLastD botEV.rttMs
      rttNs := icmpEntry.rttNanoSecs.getLast?
      timeout := icmpEntry.receivedAt.isEmpty
      originTTL := icmpEntry.ttl }
  match icmpEntry.raw with
  | [] => botEV
  | rawEntry :: _ => botEV.withReply rawEntry

end PingEvent

def convertPingEventToBotEvent (pingEV : RawPingEvent F) : Except String (PingEvent F) :=
  match pingEV.data with
  | none => .error "ping event data is nil"
  | some data =>
    let botEV : PingEvent F :=
      { fromNode := (pingEV.metadata.bind (·.lookup "from")).getD ""
        toTarget := (pingEV.metadata.bind (·.lookup "target")).getD "" }
    .ok (botEV.withEntry (icmpEntry data))

/-- What `GetEvents` sends for it. -/
def sentEvent : Except String (PingEvent F) → PingEvent F
  | .error err => { err := err }
  | .ok botEvent => botEvent

end CloudPing.Tui
