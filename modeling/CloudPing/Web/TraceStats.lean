import CloudPing.Ecma.Number
import CloudPing.Ecma.OrderedMap
import CloudPing.Sorting.Sorter
import CloudPing.Web.TraceEvent

/-!
# The traceroute of the browser

`TraceStats` keeps a group of peers for each hop.  Nothing is changed in place: `WriteEvent` of
the statistics, of a hop and of a peer returns new ones with the event applied.

The numbers of an event are integers.  A difference of two numbers that are compared has the right
sign, and only the sum of the round trip times may be rounded.
-/

namespace CloudPing.Web

open Ecma Sorting

variable {F : Type}

structure PeerStats (F : Type) where
  peer : String := ""
  peerRDNS : String := ""
  asn : String := ""
  isp : String := ""
  city : String := ""
  countryAlpha2 : String := ""
  events : List (TraceEvent F) := []
  receivedCount : Int := 0
  lossCount : Int := 0
  minRTT : Int := -1
  maxRTT : Int := -1
  totalRTT : Int := 0
  pmtu : Option Int := none

structure HopGroup (F : Type) where
  ttl : Int := 0
  peers : OrderedMap String (PeerStats F) := .empty
  peerOrder : List String := []

structure TraceStats (F : Type) where
  hops : OrderedMap Int (HopGroup F) := .empty
  hopOrder : List Int := []

def PeerStats.writeEvent (S : Sorter) (stats : PeerStats F) (ev : TraceEvent F) : PeerStats F :=
  let newEvents := S.sortBy (fun a b => a.seq - b.seq) (stats.events ++ [ev])
  if ev.timeout then
    { stats with
      peer := if stats.peer ≠ "" then stats.peer else ev.peer
      events := newEvents
      lossCount := stats.lossCount + 1 }
  else
    { peer := if stats.peer ≠ "" then stats.peer else ev.peer
      peerRDNS := if ev.peerRDNS ≠ "" then ev.peerRDNS else stats.peerRDNS
      asn := if ev.asn ≠ "" then ev.asn else stats.asn
      isp := if ev.isp ≠ "" then ev.isp else stats.isp
      city := if ev.city ≠ "" then ev.city else stats.city
      countryAlpha2 := if ev.countryAlpha2 ≠ "" then ev.countryAlpha2 else stats.countryAlpha2
      events := newEvents
      receivedCount := stats.receivedCount + 1
      lossCount := stats.lossCount
      minRTT := if stats.minRTT = -1 ∨ ev.rttMs < stats.minRTT then ev.rttMs else stats.minRTT
      maxRTT := if stats.maxRTT = -1 ∨ ev.rttMs > stats.maxRTT then ev.rttMs else stats.maxRTT
      totalRTT := Number.add stats.totalRTT ev.rttMs
      pmtu := ev.pmtu.orElse fun _ => stats.pmtu }

namespace HopGroup

def peerKey (ev : TraceEvent F) : String := if ev.timeout || ev.peer = "" then "*" else ev.peer

/-- The sequence number of the last event of a peer that has one. -/
def maxSeq (peers : OrderedMap String (PeerStats F)) (key : String) : Option Int :=
  (peers.get key).bind fun peer => peer.events.getLast?.map TraceEvent.seq

/-- The comparison of two peers: the one with the latest packets comes first. -/
def comparePeers (peers : OrderedMap String (PeerStats F)) (a b : String) : Int :=
  match maxSeq peers a, maxSeq peers b with
  | none, _ => 1
  | some _, none => -1
  | some maxSeqA, some maxSeqB => maxSeqB - maxSeqA

def writeEvent (S : Sorter) (hop : HopGroup F) (ev : TraceEvent F) : HopGroup F :=
  let newPeer := ((hop.peers.get (peerKey ev)).getD {}).writeEvent S ev
  let newPeers := hop.peers.set (peerKey ev) newPeer
  { hop with peers := newPeers, peerOrder := S.sortBy (comparePeers newPeers) newPeers.keys }

end HopGroup

namespace TraceStats

def hopTTL (ev : TraceEvent F) : Int := if ev.originTTL ≤ 0 then 1 else ev.originTTL

def writeEvent (S : Sorter) (stats : TraceStats F) (ev : TraceEvent F) : TraceStats F :=
  let hopTTL := hopTTL ev
  let newHop := ((stats.hops.get hopTTL).getD { ttl := hopTTL }).writeEvent S ev
  let newHops := stats.hops.set hopTTL newHop
  let newHopOrder :=
    if (stats.hops.get hopTTL).isSome then stats.hopOrder
    else S.sortBy (fun a b => a - b) (stats.hopOrder ++ [hopTTL])
  if ev.lastHop then
    { hops := newHops.filter (· ≤ hopTTL), hopOrder := newHopOrder.filter (· ≤ hopTTL) }
  else { hops := newHops, hopOrder := newHopOrder }

end TraceStats

end CloudPing.Web
