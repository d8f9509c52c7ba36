import CloudPing.Httpprobe.SendRequest
import CloudPing.Pinger.TTLGenerator

/-!
# Ping requests

`SimplePingRequest` is what a client asks of the hub and the hub of an agent.  The hub
derives a request for one agent by copying the whole request of the client and replacing
the fields of the task at hand.
-/

namespace CloudPing.Pinger

/-- `dnsprobe.LookupParameter`. -/
structure LookupParameter where
  correlationID : String := ""
  addrPort : String
  target : String
  timeoutMs : Option Int64 := none
  transport : Option String := none
  queryType : String
  doTServerName : String := ""
  deriving DecidableEq, Repr

/-- The `HTTPProbe` of a request, with the address and the fields around those that
`sendRequest` reads. -/
structure HTTPTarget extends Httpprobe.HTTPProbe where
  url : String
  extraHeaders : Httpprobe.Header := []
  resolver : Option String := none
  correlationID : String := ""
  addCA : List String := []

/-- A target without a size limit gets the maximum, if there is one. -/
def HTTPTarget.clampBody (maximumBodyRead : Option Int64) (tgt : HTTPTarget) : HTTPTarget :=
  { tgt with sizeLimit := tgt.sizeLimit <|> maximumBodyRead.map Int64.toInt }

def l4ProtoICMP : String := "icmp"
def l4ProtoUDP : String := "udp"
def l4ProtoTCP : String := "tcp"

def l7ProtoDNS : String := "dns"
def l7ProtoHTTP : String := "http"

/-- The lists are nil in the source where they are empty here. -/
structure SimplePingRequest where
  froms : List String := []
  targets : List String := []
  intvMilliseconds : Int64
  pktTimeoutMilliseconds : Int64
  preferV4 : Option Bool := none
  preferV6 : Option Bool := none
  totalPkts : Option Int64 := none
  resolver : Option String := none
  ttl : Option TTLGenerator := none
  randomPayloadSize : Option Int64 := none
  resolveTimeoutMilliseconds : Option Int64 := none
  ipInfoProviderName : Option String := none
  l4PacketType : Option String := none
  l7PacketType : Option String := none
  dnsTargets : List LookupParameter := []
  httpTargets : List HTTPTarget := []
  udpDstPort : Option Int64 := none

namespace SimplePingRequest

def deriveAsPingRequest (pingReq : SimplePingRequest) (from_ target : String) :
    SimplePingRequest :=
  { pingReq with targets := [target], froms := [from_] }

def deriveAsDNSProbeRequest (pingReq : SimplePingRequest) (from_ : String)
    (dnsTarget : LookupParameter) : SimplePingRequest :=
  { pingReq with dnsTargets := [dnsTarget], froms := [from_] }

def deriveAdHTTPProbeRequest (pingReq : SimplePingRequest) (from_ : String)
    (maximumBodyRead : Option Int64) : SimplePingRequest :=
  { pingReq with
    froms := [from_]
    httpTargets := pingReq.httpTargets.map (HTTPTarget.clampBody maximumBodyRead) }

end SimplePingRequest

end CloudPing.Pinger
