import CloudPing.Pinger.SimplePinger
import CloudPing.Raw.Enrichment
import CloudPing.Tcping.Tracker

/-!
# What a failed lookup costs a probe

The event goroutine of `SimplePinger.Ping` looks up the replies of an event, chooses the
path MTU and the TTL of the next packet by the result, and outputs the result.  After a
failed `ResolveIPInfo` the result is nil: the event has no data, an MTU that a reply asked
for is not seen, and the TTL moves forward.

The TCP pinger looks up the packet of a received event (`postProcessReceivedPkt`).  There a
failed lookup returns the packet next to the error.
-/

namespace CloudPing.Pinger

open Raw

variable {F : Type}

/-! ## ICMP and UDP -/

/-- What the event goroutine has when it outputs an event. -/
structure Handled (F : Type) where
  /-- The data of the `PingEvent`, `none` for a nil entry. -/
  data : Option (WrappedEV F)
  nextTTL : Int
  pmtu : Int
  ttl : TTLGenerator

/-- The entry after both passes; `none` stands for nil. -/
def resolved (ipInfoAdapter : Option (Nat → GetIPInfo F)) (resolver : Nat → LookupAddr)
    (ev : ICMPTrackerEntry) : Option (WrappedEV F) :=
  let wrappedEV := match ipInfoAdapter with
    | some calls => ((ev.wrap F).resolveIPInfo calls).toOption
    | none => some (ev.wrap F)
  wrappedEV.map (·.resolveRDNS resolver)

/-- From an event of the tracker to the send on the output channel. -/
def handleEvent (nexthopMTU : Int) (ipInfoAdapter : Option (Nat → GetIPInfo F))
    (resolver : Nat → LookupAddr) (ttl : TTLGenerator) (pmtu : Int) (ev : ICMPTrackerEntry) :
    Handled F :=
  let restart := ev.foundLastHop && ttl.isAuto
  let ttl := if restart then ttl.reset else ttl
  let pmtu := if restart then nexthopMTU else pmtu
  match resolved ipInfoAdapter resolver ev with
  | none => ⟨none, ttl.get, pmtu, ttl.forward⟩
  | some wrappedEV =>
    match wrappedEV.plain.getPMTU with
    | some setMTUTo =>
      if wrappedEV.ttl > 1 then
        ⟨some { wrappedEV with ttl := wrappedEV.ttl - 1 }, wrappedEV.ttl, setMTUTo, ttl⟩
      else ⟨some wrappedEV, ttl.get, setMTUTo, ttl⟩
    | none => ⟨some wrappedEV, ttl.get, pmtu, ttl.forward⟩

/-- The entry with the TTL of the node that asked for a smaller packet. -/
def decremented (ev : ICMPTrackerEntry) : ICMPTrackerEntry :=
  if ev.getPMTU.isSome ∧ ev.ttl > 1 then { ev with ttl := ev.ttl - 1 } else ev

/-- The path MTU, the TTL and the generator for the next packet, from the event alone. -/
def nextPacket (nexthopMTU : Int) (ttl : TTLGenerator) (pmtu : Int) (ev : ICMPTrackerEntry) :
    Int × Int × TTLGenerator :=
  let restart := ev.foundLastHop && ttl.isAuto
  let ttl := if restart then ttl.reset else ttl
  let pmtu := if restart then nexthopMTU else pmtu
  match ev.getPMTU with
  | some setMTUTo => (setMTUTo, if ev.ttl > 1 then ev.ttl else ttl.get, ttl)
  | none => (pmtu, ttl.get, ttl.forward)

/-- The measurement is in the output, and the next packet is that of the event. -/
structure Handled.Keeps (nexthopMTU : Int) (ttl : TTLGenerator) (pmtu : Int)
    (ev : ICMPTrackerEntry) (handled : Handled F) : Prop where
  data : ∃ wrappedEV, handled.data = some wrappedEV ∧ wrappedEV.plain = decremented ev
  next : (handled.pmtu, handled.nextTTL, handled.ttl) = nextPacket nexthopMTU ttl pmtu ev

variable {nexthopMTU pmtu : Int} {ttl : TTLGenerator} {ev : ICMPTrackerEntry}
  {ipInfoAdapter : Option (Nat → GetIPInfo F)} {resolver : Nat → LookupAddr}

theorem resolved_plain {wrappedEV : WrappedEV F}
    (h : resolved ipInfoAdapter resolver ev = some wrappedEV) : wrappedEV.plain = ev := by
  obtain ⟨wrappedEV, hw, rfl⟩ := Option.map_eq_some_iff.1 h
  rw [WrappedEV.plain_resolveRDNS]
  cases ipInfoAdapter with
  | none =>
    cases hw
    exact WrappedEV.plain_wrap ev
  | some calls =>
    have hw : ((ev.wrap F).resolveIPInfo calls).toOption = some wrappedEV := hw
    have hok : (ev.wrap F).resolveIPInfo calls = .ok wrappedEV := by
      cases hcase : (ev.wrap F).resolveIPInfo calls with
      | error err => rw [hcase] at hw; cases hw
      | ok w => rw [hcase] at hw; cases hw; rfl
    rw [WrappedEV.plain_resolveIPInfo hok, WrappedEV.plain_wrap]

/-- There is an entry left exactly if no lookup of IP information fails. -/
theorem resolved_isSome : (resolved ipInfoAdapter resolver ev).isSome = true ↔
    ∀ calls, ipInfoAdapter = some calls →
      ∀ i reply, ev.raw[i]? = some reply → (calls i reply.peer).isOk = true := by
  cases ipInfoAdapter with
  | none => exact iff_of_true rfl fun calls h => by cases h
  | some calls =>
    have hsome : (resolved (some calls) resolver ev).isSome =
        ((ev.wrap F).resolveIPInfo calls).isOk := by
      rw [resolved]
      cases (ev.wrap F).resolveIPInfo calls <;> rfl
    rw [hsome, WrappedEV.resolveIPInfo_isOk, WrappedEV.resolveReplies_isOk]
    constructor
    · intro h calls' heq i reply hi
      cases heq
      have hcall := h i ⟨reply, [], none, none, none, none, none⟩ (by
        show (ev.raw.map _)[i]? = _
        rw [List.getElem?_map, hi]
        rfl)
      rwa [Nat.zero_add] at hcall
    · intro h i reply hi
      have hraw : (ev.raw.map _)[i]? = some reply := hi
      rw [List.getElem?_map] at hraw
      obtain ⟨reply', hi', rfl⟩ := Option.map_eq_some_iff.1 hraw
      rw [Nat.zero_add]
      exact h calls rfl i reply' hi'

theorem handleEvent_keeps (h : (resolved ipInfoAdapter resolver ev).isSome = true) :
    (handleEvent nexthopMTU ipInfoAdapter resolver ttl pmtu ev).Keeps nexthopMTU ttl pmtu ev := by
  obtain ⟨wrappedEV, hw⟩ := Option.isSome_iff_exists.1 h
  have hplain := resolved_plain hw
  have httl : wrappedEV.ttl = ev.ttl := congrArg ICMPTrackerEntry.ttl hplain
  cases hpmtu : ev.getPMTU with
  | none =>
    simp only [handleEvent, hw, hplain, hpmtu]
    refine ⟨⟨wrappedEV, rfl, ?_⟩, ?_⟩
    · simp only [decremented, hpmtu, hplain, Option.isSome_none, Bool.false_eq_true, false_and,
        if_false]
    · simp only [nextPacket, hpmtu]
  | some setMTUTo =>
    simp only [handleEvent, hw, hplain, hpmtu, httl]
    by_cases hgt : ev.ttl > 1
    · rw [if_pos hgt]
      refine ⟨⟨_, rfl, ?_⟩, ?_⟩
      · rw [decremented, if_pos ⟨by rw [hpmtu]; rfl, hgt⟩]
        show { wrappedEV.plain with ttl := ev.ttl - 1 } = { ev with ttl := ev.ttl - 1 }
        rw [hplain]
      · simp only [nextPacket, hpmtu, if_pos hgt]
    · rw [if_neg hgt]
      refine ⟨⟨_, rfl, ?_⟩, ?_⟩
      · rw [decremented, if_neg fun hboth => hgt hboth.2]
        exact hplain
      · simp only [nextPacket, hpmtu, if_neg hgt]

theorem handleEvent_keeps_iff :
    (handleEvent nexthopMTU ipInfoAdapter resolver ttl pmtu ev).Keeps nexthopMTU ttl pmtu ev ↔
      (resolved ipInfoAdapter resolver ev).isSome = true := by
  refine ⟨fun h => ?_, handleEvent_keeps⟩
  obtain ⟨⟨wrappedEV, hdata, _⟩, _⟩ := h
  cases hw : resolved ipInfoAdapter resolver ev with
  | some _ => rfl
  | none =>
    simp only [handleEvent, hw] at hdata
    cases hdata

/-- The step of the event goroutine in the runs of a ping, which sees of the lookups only
whether there is an entry left. -/
theorem handle_eq (config : PingConfig) (s : PingRun) (ipInfoAdapter : Option (Nat → GetIPInfo F))
    (resolver : Nat → LookupAddr) (ev : ICMPTrackerEntry) :
    s.handle config ev (resolved ipInfoAdapter resolver ev).isSome =
      { s with
        ttl := (handleEvent config.nexthopMTU ipInfoAdapter resolver s.ttl s.pmtu ev).ttl
        pmtu := (handleEvent config.nexthopMTU ipInfoAdapter resolver s.ttl s.pmtu ev).pmtu
        ev := .outputting
          ((handleEvent config.nexthopMTU ipInfoAdapter resolver s.ttl s.pmtu ev).data.map (·.plain))
          (handleEvent config.nexthopMTU ipInfoAdapter resolver s.ttl s.pmtu ev).nextTTL } := by
  cases hw : resolved ipInfoAdapter resolver ev with
  | none => simp only [handleEvent, hw]; rfl
  | some wrappedEV =>
    have hplain := resolved_plain hw
    have httl : wrappedEV.ttl = ev.ttl := congrArg ICMPTrackerEntry.ttl hplain
    simp only [PingRun.handle, handleEvent, hw, hplain, httl, Option.isSome_some, if_true,
      Option.bind_some]
    cases ev.getPMTU with
    | none => simp only [Option.map_some, hplain]
    | some setMTUTo =>
      by_cases hgt : ev.ttl > 1
      · have hdecremented : WrappedEV.plain { wrappedEV with ttl := ev.ttl - 1 } =
            { ev with ttl := ev.ttl - 1 } := by
          show { wrappedEV.plain with ttl := ev.ttl - 1 } = { ev with ttl := ev.ttl - 1 }
          rw [hplain]
        simp only [if_pos hgt, Option.map_some, hdecremented]
      · simp only [if_neg hgt, Option.map_some, hplain]

/-! ## TCP -/

/-- A packet that was received, with all that is known of it before the lookups.  A nil
source address is the empty one. -/
structure ReceivedPkt extends Tcping.PacketInfo where
  payload : List UInt8
  ttl : Int
  size : Int
  tcpHeaderLen : Option Int
  mss : Option Int
  deriving DecidableEq

/-- A packet with the fields of the lookups. -/
structure WrappedPkt (F : Type) extends ReceivedPkt where
  peerRDNS : List String := []
  peerASN : Option String := none
  peerISP : Option String := none
  peerLocation : Option String := none
  peerExactLocation : Option (ExactLocation F) := none
  peerIPInfo : Option (BasicIPInfo F) := none

namespace WrappedPkt

/-- `ResolveRDNS`, with the outcome of `LookupAddr`. -/
def resolveRDNS (pktInfo : WrappedPkt F) (ptrAnswers : Except LookupError (List String)) :
    Option (WrappedPkt F) × Option LookupError :=
  if pktInfo.srcIP = [] then (none, none)
  else
    match ptrAnswers with
    | .error err => (some pktInfo, some err)
    | .ok ptrAnswers =>
      (some { pktInfo with peerRDNS := if ptrAnswers ≠ [] then ptrAnswers else pktInfo.peerRDNS },
        none)

/-- `ResolveIPInfo`, with the outcome of `GetIPInfo`. -/
def resolveIPInfo (pktInfo : WrappedPkt F) (ipInfo : Except String (Option (BasicIPInfo F))) :
    Option (WrappedPkt F) × Option String :=
  if pktInfo.srcIP = [] then (none, none)
  else
    match ipInfo with
    | .error err => (some pktInfo, some err)
    | .ok none => (some pktInfo, none)
    | .ok (some ipInfo) =>
      (some
        { pktInfo with
          peerIPInfo := some ipInfo
          peerASN := unlessEmpty ipInfo.asn pktInfo.peerASN
          peerLocation := unlessEmpty ipInfo.location pktInfo.peerLocation
          peerISP := unlessEmpty ipInfo.isp pktInfo.peerISP
          peerExactLocation := ipInfo.exactLocation.orElse fun _ => pktInfo.peerExactLocation },
        none)

end WrappedPkt

/-- What becomes of the packet of a received event, and the error that is logged. -/
def postProcessReceivedPkt (receivedPkt : Option (WrappedPkt F))
    (ptrAnswers : Except LookupError (List String))
    (ipInfo : Option (Except String (Option (BasicIPInfo F)))) :
    Option (WrappedPkt F) × Option String :=
  match receivedPkt with
  | none => (none, none)
  | some receivedPkt =>
    match receivedPkt.resolveRDNS ptrAnswers with
    | (receivedPkt, some (.other err)) => (receivedPkt, some err)
    | (none, _) => (none, none)
    | (some receivedPkt, _) =>
      match ipInfo with
      | some ipInfo => receivedPkt.resolveIPInfo ipInfo
      | none => (some receivedPkt, none)

/-- The event has the packet it had. -/
def KeepsPkt (receivedPkt : WrappedPkt F) (result : Option (WrappedPkt F)) : Prop :=
  ∃ pkt, result = some pkt ∧ pkt.toReceivedPkt = receivedPkt.toReceivedPkt

variable {receivedPkt : WrappedPkt F} {ptrAnswers : Except LookupError (List String)}
  {ipInfo : Option (Except String (Option (BasicIPInfo F)))}

theorem WrappedPkt.resolveRDNS_keeps (h : receivedPkt.srcIP ≠ []) :
    KeepsPkt receivedPkt (receivedPkt.resolveRDNS ptrAnswers).1 := by
  simp only [WrappedPkt.resolveRDNS, if_neg h]
  cases ptrAnswers with
  | error err => exact ⟨_, rfl, rfl⟩
  | ok ptrAnswers => exact ⟨_, rfl, rfl⟩

theorem WrappedPkt.resolveIPInfo_keeps {ipInfo : Except String (Option (BasicIPInfo F))}
    (h : receivedPkt.srcIP ≠ []) : KeepsPkt receivedPkt (receivedPkt.resolveIPInfo ipInfo).1 := by
  simp only [WrappedPkt.resolveIPInfo, if_neg h]
  match ipInfo with
  | .error _ => exact ⟨_, rfl, rfl⟩
  | .ok none => exact ⟨_, rfl, rfl⟩
  | .ok (some _) => exact ⟨_, rfl, rfl⟩

theorem postProcessReceivedPkt_keeps_iff :
    KeepsPkt receivedPkt (postProcessReceivedPkt (some receivedPkt) ptrAnswers ipInfo).1 ↔
      receivedPkt.srcIP ≠ [] := by
  constructor
  · rintro ⟨pkt, hpkt, _⟩ hnil
    simp only [postProcessReceivedPkt, WrappedPkt.resolveRDNS, if_pos hnil] at hpkt
    cases hpkt
  · intro h
    have hnames : KeepsPkt receivedPkt (receivedPkt.resolveRDNS ptrAnswers).1 :=
      WrappedPkt.resolveRDNS_keeps h
    obtain ⟨pkt, hpkt, hkept⟩ := hnames
    have hsrcIP : pkt.srcIP ≠ [] := by
      have heq : pkt.srcIP = receivedPkt.srcIP := congrArg (fun p => p.srcIP) hkept
      rwa [heq]
    cases hcase : receivedPkt.resolveRDNS ptrAnswers with
    | mk result err =>
      rw [hcase] at hpkt
      cases hpkt
      simp only [postProcessReceivedPkt, hcase]
      split
      next heq => cases heq; exact ⟨pkt, rfl, hkept⟩
      next heq => cases heq
      next heq =>
        cases heq
        split
        next ipInfo =>
          have hinfo : KeepsPkt pkt (pkt.resolveIPInfo ipInfo).1 :=
            WrappedPkt.resolveIPInfo_keeps hsrcIP
          obtain ⟨pkt', hpkt', hkept'⟩ := hinfo
          exact ⟨pkt', hpkt', hkept'.trans hkept⟩
        next => exact ⟨pkt, rfl, hkept⟩

/-! ## Both -/

/-- What `SimplePinger` measured survives the lookups exactly if no lookup of the IP
information of a reply fails, and a received event of `TCPSYNPinger` always keeps its
packet, if that has a source address. -/
theorem lookups_keep_iff (nexthopMTU pmtu : Int) (ttl : TTLGenerator) (ev : ICMPTrackerEntry)
    (ipInfoAdapter : Option (Nat → GetIPInfo F)) (resolver : Nat → LookupAddr)
    (receivedPkt : WrappedPkt F) (ptrAnswers : Except LookupError (List String))
    (ipInfo : Option (Except String (Option (BasicIPInfo F)))) :
    ((handleEvent nexthopMTU ipInfoAdapter resolver ttl pmtu ev).Keeps nexthopMTU ttl pmtu ev ↔
      ∀ calls, ipInfoAdapter = some calls →
        ∀ i reply, ev.raw[i]? = some reply → (calls i reply.peer).isOk = true) ∧
    (KeepsPkt receivedPkt (postProcessReceivedPkt (some receivedPkt) ptrAnswers ipInfo).1 ↔
      receivedPkt.srcIP ≠ []) :=
  ⟨handleEvent_keeps_iff.trans resolved_isSome, postProcessReceivedPkt_keeps_iff⟩

/-- A packet that is too big for a link after the first node, whose reply the adapter knows
nothing of: the output is nil, and the next packet is as big as before. -/
def tooBig : ICMPTrackerEntry where
  seq := 1
  ttl := 2
  originDstAddr := some ⟨[192, 0, 2, 9], ""⟩
  rttNanoSecs := [4000000]
  rttMilliSecs := [4]
  sentAt := 0
  receivedAt := [4000000]
  timer := false
  raw := [⟨7, 56, 1, 64, "192.0.2.1", none, false, 4000000, 4, some 3, some 4, 1, some 1400, none⟩]

theorem lost_on_lookup_error : ¬ ∀ (ipInfoAdapter : Option (Nat → GetIPInfo Nat))
    (resolver : Nat → LookupAddr),
    (handleEvent 1500 ipInfoAdapter resolver (.auto 1 3) 1500 tooBig).Keeps 1500 (.auto 1 3) 1500
      tooBig := by
  intro h
  obtain ⟨⟨wrappedEV, hdata, _⟩, _⟩ :=
    h (some fun _ _ => .error "i/o timeout") fun _ _ => .ok ["gw.example.net."]
  cases hdata

end CloudPing.Pinger
