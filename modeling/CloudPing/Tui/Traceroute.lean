import CloudPing.Conc.Store
import CloudPing.Sorting.Sorter
import CloudPing.Tui.PingEvent
import CloudPing.Word.Wrap

/-!
# The traceroute of the bot

`TraceStatsBuilder` keeps a group of peers for each hop.  `WriteEvent` adds an event to its peer
in its hop, and sorts the events of the peer, and the peers of the hop by their latest event.  An
event of the last hop deletes the hops behind it.

`sort.Slice` may exchange equal elements, so the sorter is any one.

The sum of the round trip times wraps around.  And behind a last hop `make` gets room for as many
hops as it has in front of it, or panics (`writeEvents`).
-/

namespace CloudPing.Tui

open Conc Sorting

variable {F : Type}

structure PeerStats (F : Type) where
  peer : String
  peerRDNS : String := ""
  asn : String := ""
  isp : String := ""
  city : String := ""
  countryAlpha2 : String := ""
  events : List (PingEvent F) := []
  receivedCount : Int := 0
  lossCount : Int := 0
  /-- Minus one if it is not set yet. -/
  minRTT : Int := -1
  maxRTT : Int := -1
  totalRTT : Int := 0

structure HopGroup (F : Type) where
  ttl : Int
  peers : Store String (PeerStats F) := ∅
  peerOrder : List String := []

structure TraceStats (F : Type) where
  hops : Store Int (HopGroup F) := ∅
  hopOrder : List Int := []

namespace PingEvent

def hopTTL (ev : PingEvent F) : Int := if ev.originTTL ≤ 0 then 1 else ev.originTTL

def peerKey (ev : PingEvent F) : String := if ev.timeout || ev.peer = "" then "*" else ev.peer

end PingEvent

namespace PeerStats

def avgRTT (ps : PeerStats F) : Int :=
  if ps.receivedCount = 0 then 0 else ps.totalRTT.tdiv ps.receivedCount

/-- With the data of an event that is no timeout. -/
def receive (peerStats : PeerStats F) (ev : PingEvent F) : PeerStats F :=
  { peerStats with
    receivedCount := peerStats.receivedCount + 1
    totalRTT := Word.add peerStats.totalRTT ev.rttMs
    minRTT :=
      if peerStats.minRTT = -1 ∨ ev.rttMs < peerStats.minRTT then ev.rttMs else peerStats.minRTT
    maxRTT :=
      if peerStats.maxRTT = -1 ∨ ev.rttMs > peerStats.maxRTT then ev.rttMs else peerStats.maxRTT
    peerRDNS := if ev.peerRDNS ≠ "" then ev.peerRDNS else peerStats.peerRDNS
    asn := if ev.asn ≠ "" then ev.asn else peerStats.asn
    isp := if ev.isp ≠ "" then ev.isp else peerStats.isp
    city := if ev.city ≠ "" then ev.city else peerStats.city
    countryAlpha2 := if ev.countryAlpha2 ≠ "" then ev.countryAlpha2 else peerStats.countryAlpha2 }

def addEvent (S : Sorter) (peerStats : PeerStats F) (ev : PingEvent F) : PeerStats F :=
  let events := S.sort (fun a b => decide (a.seq < b.seq)) (peerStats.events ++ [ev])
  if ev.timeout then { peerStats with events, lossCount := peerStats.lossCount + 1 }
  else { peerStats.receive ev with events }

end PeerStats

namespace HopGroup

/-- The sequence number of the last event of a peer that has one. -/
def maxSeq (peers : Store String (PeerStats F)) (key : String) : Option Int :=
  (peers.lookup key).bind fun peer => peer.events.getLast?.map PingEvent.seq

/-- The comparison of two peers: the one with the later packet comes first. -/
def later (peers : Store String (PeerStats F)) (i j : String) : Bool :=
  match maxSeq peers i, maxSeq peers j with
  | none, _ => false
  | some _, none => true
  | some maxSeqI, some maxSeqJ => maxSeqI > maxSeqJ

def addEvent (S : Sorter) (hop : HopGroup F) (ev : PingEvent F) : HopGroup F :=
  let peerKey := ev.peerKey
  let peerStats := (hop.peers.lookup peerKey).getD { peer := ev.peer }
  let peerOrder :=
    if (hop.peers.lookup peerKey).isSome then hop.peerOrder else hop.peerOrder ++ [peerKey]
  let peers := hop.peers.insert peerKey (peerStats.addEvent S ev)
  { hop with peers, peerOrder := S.sort (later peers) peerOrder }

end HopGroup

namespace TraceStats

/-- One round of the loop behind the last hop. -/
def keepHop (hopTTL : Int) (stats : TraceStats F) (ttl : Int) : TraceStats F :=
  if ttl ≤ hopTTL then { stats with hopOrder := stats.hopOrder ++ [ttl] }
  else { stats with hops := stats.hops.erase ttl }

/-- Without the hops that are higher. -/
def prune (stats : TraceStats F) (hopTTL : Int) : TraceStats F :=
  stats.hopOrder.foldl (keepHop hopTTL) { stats with hopOrder := [] }

def writeEvent (S : Sorter) (stats : TraceStats F) (ev : PingEvent F) : TraceStats F :=
  let hopTTL := ev.hopTTL
  let hop := (stats.hops.lookup hopTTL).getD { ttl := hopTTL }
  let hopOrder :=
    if (stats.hops.lookup hopTTL).isSome then stats.hopOrder
    else S.sort (fun a b => decide (a < b)) (stats.hopOrder ++ [hopTTL])
  let stats := { hops := stats.hops.insert hopTTL (hop.addEvent S ev), hopOrder : TraceStats F }
  if ev.lastHop then stats.prune hopTTL else stats

/-- Whether `make([]int, 0, hopTTL)` gives the slice. -/
def makesOrder (hasRoom : Nat → Bool) (ev : PingEvent F) : Bool :=
  !ev.lastHop || hasRoom ev.hopTTL.toNat

/-- All events are written, `none` for a panic of `make`. -/
def writeEvents (hasRoom : Nat → Bool) (S : Sorter) (evs : List (PingEvent F)) :
    Option (TraceStats F) :=
  evs.foldlM
    (fun stats ev => if makesOrder hasRoom ev then some (stats.writeEvent S ev) else none) {}

theorem foldlM_writeEvent {hasRoom : Nat → Bool} {S : Sorter} {evs : List (PingEvent F)}
    {stats stats' : TraceStats F}
    (h : evs.foldlM (fun stats ev =>
      if makesOrder hasRoom ev then some (stats.writeEvent S ev) else none) stats = some stats') :
    stats' = evs.foldl (writeEvent S) stats := by
  induction evs generalizing stats with
  | nil => exact (Option.some.inj h).symm
  | cons ev evs ih =>
    rw [List.foldlM_cons] at h
    obtain ⟨next, hnext, hrest⟩ := Option.bind_eq_some_iff.1 h
    split at hnext
    · cases hnext
      exact ih hrest
    · cases hnext

/-- What the panics leave is one event after the other. -/
theorem eq_foldl_of_writeEvents {hasRoom : Nat → Bool} {S : Sorter} {evs : List (PingEvent F)}
    {stats : TraceStats F} (h : writeEvents hasRoom S evs = some stats) :
    stats = evs.foldl (writeEvent S) {} :=
  foldlM_writeEvent h

end TraceStats

end CloudPing.Tui
