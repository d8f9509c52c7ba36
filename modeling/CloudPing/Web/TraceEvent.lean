import CloudPing.Handler.EventMerge
import CloudPing.Raw.Enrichment

/-!
# Trace events in the browser

The browser gets the events of a probe as JSON, one in each line, and makes a `TraceEvent` of
each.  Any member of an object may be missing or `null`, and is then read as the zero of its
type.  A number is an integer here, and a coordinate is of a type of its own.

The members are those of `RawPingEventData` that `fromRaw` reads, with the round trip times in
nanoseconds, which only the bot reads.  An agent writes them from the fields of an entry
(`RawPingEventData.marshal`).
-/

namespace CloudPing.Web

open Handler

variable {F : Type}

/-! ## The JSON of an event -/

structure RawBasicIPInfo (F : Type) where
  asn : Option String
  isp : Option String
  city : Option String
  exact : Option (Raw.ExactLocation F)
  iso3166Alpha2 : Option String

structure RawPingEventICMPReply (F : Type) where
  peer : Option String
  peerRDNS : Option (List String)
  peerASN : Option String
  peerISP : Option String
  peerExactLocation : Option (Raw.ExactLocation F)
  size : Option Int
  ttl : Option Int
  lastHop : Option Bool
  setMTUTo : Option Int
  peerIPInfo : Option (RawBasicIPInfo F)

structure RawPingEventData (F : Type) where
  rttMilliSecs : Option (List Int)
  rttNanoSecs : Option (List Int)
  raw : Option (List (RawPingEventICMPReply F))
  receivedAt : Option (List Time)
  seq : Option Int
  ttl : Option Int

abbrev RawPingEvent (F : Type) := PingEvent (RawPingEventData F)

/-- A slice, which is `null` if it is nil. -/
def slice {α : Type} (l : List α) : Option (List α) := if l.isEmpty then none else some l

def RawBasicIPInfo.marshal (ipInfo : Raw.BasicIPInfo F) : RawBasicIPInfo F where
  asn := some ipInfo.asn
  isp := some ipInfo.isp
  city := ipInfo.city
  exact := ipInfo.exactLocation
  iso3166Alpha2 := ipInfo.iso3166Alpha2

def RawPingEventICMPReply.marshal (reply : Raw.WrappedReply F) : RawPingEventICMPReply F where
  peer := some reply.peer
  peerRDNS := slice reply.peerRDNS
  peerASN := reply.peerASN
  peerISP := reply.peerISP
  peerExactLocation := reply.peerExactLocation
  size := some reply.size
  ttl := some reply.ttl
  lastHop := some reply.lastHop
  setMTUTo := reply.setMTUTo
  peerIPInfo := reply.peerIPInfo.map .marshal

/-- `json.Marshal`. -/
def RawPingEventData.marshal (itEnt : Raw.WrappedEV F) : RawPingEventData F where
  rttMilliSecs := slice itEnt.rttMilliSecs
  rttNanoSecs := slice itEnt.rttNanoSecs
  raw := some (itEnt.raw.map .marshal)
  receivedAt := some itEnt.receivedAt
  seq := some itEnt.seq
  ttl := some itEnt.ttl

@[simp] theorem getD_slice {α : Type} (l : List α) : (slice l).getD [] = l := by
  cases l <;> rfl

/-! ## Events -/

structure TraceEvent (F : Type) where
  err : String := ""
  seq : Int := 0
  rttMs : Int := 0
  peer : String := ""
  peerRDNS : String := ""
  ipPacketSize : Int := 0
  timeout : Bool := false
  asn : String := ""
  isp : String := ""
  countryAlpha2 : String := ""
  city : String := ""
  exactLocation : Option (Raw.ExactLocation F) := none
  ttl : Int := 0
  originTTL : Int := 0
  lastHop : Bool := false
  pmtu : Option Int := none

namespace TraceEvent

def fromError (err : String) : TraceEvent F := { err := err }

/-- The event with what the last reply has. -/
def withReply (ev : TraceEvent F) (rawReply : RawPingEventICMPReply F) : TraceEvent F :=
  let ipInfo := rawReply.peerIPInfo
  let asn := (ipInfo.bind (·.asn)).getD ""
  let isp := (ipInfo.bind (·.isp)).getD ""
  let exactLocation := ipInfo.bind (·.exact)
  { ev with
    peer := rawReply.peer.getD ""
    peerRDNS := (rawReply.peerRDNS.getD []).headD ""
    ipPacketSize := rawReply.size.getD 0
    ttl := rawReply.ttl.getD 0
    lastHop := rawReply.lastHop.getD false
    pmtu := rawReply.setMTUTo
    city := (ipInfo.bind (·.city)).getD ""
    countryAlpha2 := (ipInfo.bind (·.iso3166Alpha2)).getD ""
    asn := if asn = "" then rawReply.peerASN.getD asn else asn
    isp := if isp = "" then rawReply.peerISP.getD isp else isp
    exactLocation := exactLocation.orElse fun _ => rawReply.peerExactLocation }

/-- The event of the data. -/
def ofData (data : RawPingEventData F) : TraceEvent F :=
  let ev : TraceEvent F :=
    { seq := data.seq.getD 0
      rttMs := (data.rttMilliSecs.getD []).headD 0
      timeout := (data.receivedAt.getD []).isEmpty
      originTTL := data.ttl.getD 0 }
  match (data.raw.getD []).getLast? with
  | some rawReply => ev.withReply rawReply
  | none => ev

/-- The empty text is as good as no error. -/
def truthy (s : Option String) : Option String := s.filter (· ≠ "")

/-- `fromRaw`, where `none` is `null`. -/
def fromRaw (raw : RawPingEvent F) : Option (TraceEvent F) :=
  match truthy raw.err, truthy raw.error with
  | some err, _ => some (fromError err)
  | none, some err => some (fromError err)
  | none, none =>
    match truthy (raw.metadata.bind (·.lookup "target")) with
    | none => none
    | some _ =>
      match raw.data with
      | none => some (fromError "ping event data is nil")
      | some data => some (ofData data)

end TraceEvent

end CloudPing.Web
