import CloudPing.Raw.WireIdentity

/-!
# Packets fit the path

A packet out is as long as the smaller of the MTU of the next hop and the path MTU, where one
is known (`pathMTU`), or has no payload.  What is cut off is no more than has to be
(`LongestPrefix`).

`GetMaxPayloadLen` takes its maximum in `float64`, which holds every integer up to `2^53`.
The MTU of a link is a 32-bit number.
-/

namespace CloudPing.Raw

open Wire

/-- The longest prefix of a list among those with a property. -/
structure LongestPrefix {α : Type} (P : List α → Prop) (l p : List α) : Prop where
  isPrefix : p <+: l
  holds : P p
  longest : ∀ q, q <+: l → P q → q.length ≤ p.length

theorem longestPrefix_take {α : Type} {P : List α → Prop} {n : Nat}
    (h : ∀ p, P p ↔ p.length ≤ n) (l : List α) : LongestPrefix P l (l.take n) where
  isPrefix := List.take_prefix n l
  holds := (h _).2 (List.length_take_le n l)
  longest := by
    intro q hq hholds
    rw [List.length_take]
    exact Nat.le_min.2 ⟨(h q).1 hholds, hq.length_le⟩

/-! ## The path -/

/-- The smaller of the MTU of the next hop and a path MTU that is not negative. -/
def pathMTU (req : ICMPSendRequest) : Int :=
  match req.pmtu with
  | some m => if 0 ≤ m then min req.nexthopMTU m else req.nexthopMTU
  | none => req.nexthopMTU

def ipHeaderLen (ipVersion : Nat) : Int := if ipVersion = 4 then ipv4HeaderLen else ipv6HeaderLen

/-- The IP header and the header of the message in it. -/
def headerSizes (ipVersion : Nat) : Int := ipHeaderLen ipVersion + 8

/-- A payload for which the packet is no longer than the path allows. -/
def PayloadFits (ipVersion : Nat) (req : ICMPSendRequest) (payload : Bytes) : Prop :=
  headerSizes ipVersion + payload.length ≤ max (headerSizes ipVersion) (pathMTU req)

/-- A message that fits the path behind its IP header. -/
structure FitsPath (ipVersion : Nat) (req : ICMPSendRequest) (wb : Bytes) : Prop where
  headers : 8 ≤ wb.length
  totalLen : ipHeaderLen ipVersion + wb.length ≤ max (headerSizes ipVersion) (pathMTU req)
  payload : LongestPrefix (PayloadFits ipVersion req) req.data (wb.drop 8)

section Payload

variable {tr : ICMPTransceiver} {ipVersion : Nat} {req : ICMPSendRequest} {hdr payload wb : Bytes}

/-- The four cases of `GetMaxPayloadLen`. -/
theorem getMaxPayloadLen_eq (hv : ipVersion = 4 ∨ ipVersion = 6) :
    getMaxPayloadLen ipVersion (tr.ipProtoNum ipVersion) req.pmtu req.nexthopMTU =
      max 0 (pathMTU req - headerSizes ipVersion) := by
  have hmin : ∀ m : Int, (if 0 ≤ m ∧ m < req.nexthopMTU then m else req.nexthopMTU) =
      if 0 ≤ m then min req.nexthopMTU m else req.nexthopMTU := by
    intro m
    split_ifs <;> omega
  rcases hv with rfl | rfl <;> cases hu : tr.useUDP <;> cases hp : req.pmtu <;>
    simp [getMaxPayloadLen, ICMPTransceiver.ipProtoNum, hu, hp, pathMTU, headerSizes,
      ipHeaderLen, hmin, Int.sub_sub, headerSizeICMP, udpHeaderLen]

example : getMaxPayloadLen 4 ipProtocolUDP (some 1280) 1500 = 1252 := by decide

theorem payloadFits_iff : PayloadFits ipVersion req payload ↔
    payload.length ≤ (max 0 (pathMTU req - headerSizes ipVersion)).toNat := by
  rw [PayloadFits]
  omega

/-- What the transceiver sends of the data is the longest prefix that fits. -/
theorem payloadData_longest (hv : ipVersion = 4 ∨ ipVersion = 6) :
    LongestPrefix (PayloadFits ipVersion req) req.data (tr.payloadData ipVersion req) := by
  rw [ICMPTransceiver.payloadData, getMaxPayloadLen_eq hv]
  exact longestPrefix_take (fun _ => payloadFits_iff) req.data

/-- Behind a header of 8 bytes, whatever stands in it. -/
theorem fitsPath_append (hh : hdr.length = 8)
    (h : LongestPrefix (PayloadFits ipVersion req) req.data payload) :
    FitsPath ipVersion req (hdr ++ payload) where
  headers := by
    rw [List.length_append]
    omega
  totalLen := by
    have := h.holds
    rw [PayloadFits] at this
    rw [List.length_append]
    simp only [headerSizes] at this ⊢
    omega
  payload := by rwa [← hh, List.drop_left]

theorem fitsPath_udp {srcPort dstPort cksum : Int}
    (h : LongestPrefix (PayloadFits ipVersion req) req.data payload) :
    FitsPath ipVersion req (marshalUDP srcPort dstPort cksum payload) := by
  have happend : marshalUDP srcPort dstPort cksum payload =
      (put16 srcPort ++ (put16 dstPort ++ (put16 (udpHeaderLen + payload.length) ++
        put16 cksum))) ++ payload := by
    simp [marshalUDP]
  rw [happend]
  exact fitsPath_append (by simp [length_put16]) h

theorem fitsPath_echo {type code : UInt8} {cksum id seq : Int}
    (h : LongestPrefix (PayloadFits ipVersion req) req.data payload) :
    FitsPath ipVersion req ([type, code] ++ (put16 cksum ++ echoBody id seq payload)) := by
  have happend : [type, code] ++ (put16 cksum ++ echoBody id seq payload) =
      ([type, code] ++ (put16 cksum ++ (put16 id ++ put16 seq))) ++ payload := by
    simp [echoBody]
  rw [happend]
  exact fitsPath_append (by simp [length_put16]) h

end Payload

/-! ## The packets out -/

section Sent

variable (tr : ICMPTransceiver) (traceId : TraceId) (req : ICMPSendRequest) (cksum : Int)

/-- Over IPv4 a packet is written that fits the path, or the payload that fits the path is too
long for the length field of a UDP packet. -/
theorem sendPacket_fits :
    (tr.useUDP = true ∧ tr.sendPacket traceId req = .ok none ∧
        ∃ payload, LongestPrefix (PayloadFits 4 req) req.data payload ∧
          65535 < 8 + payload.length) ∨
      ∃ wb, tr.sendPacket traceId req = tr.write4 req wb ∧ FitsPath 4 req wb := by
  have hlongest : LongestPrefix (PayloadFits 4 req) req.data (tr.payloadData 4 req) :=
    payloadData_longest (Or.inl rfl)
  simp only [ICMPTransceiver.sendPacket]
  split_ifs with hu hlen
  · refine Or.inl ⟨hu, rfl, _, hlongest, ?_⟩
    simp only [udpHeaderLen] at hlen
    omega
  · exact Or.inr ⟨_, rfl, fitsPath_udp hlongest⟩
  · exact Or.inr ⟨_, rfl, fitsPath_echo hlongest⟩

/-- Over IPv6 a packet is written that fits the path, but to the UDP port 0 there is none. -/
theorem sendPacket6_fits :
    (tr.useUDP = true ∧ (tr.udpBasePort + req.seq) % 65536 = 0 ∧
        ∃ err, tr.sendPacket6 cksum traceId req = .error err) ∨
      ∃ wb, tr.sendPacket6 cksum traceId req = tr.write6 req wb ∧ FitsPath 6 req wb := by
  have hlongest : LongestPrefix (PayloadFits 6 req) req.data (tr.payloadData 6 req) :=
    payloadData_longest (Or.inr rfl)
  simp only [ICMPTransceiver.sendPacket6]
  split_ifs with hu hport
  · exact Or.inl ⟨hu, hport, _, rfl⟩
  · exact Or.inr ⟨_, rfl, fitsPath_udp hlongest⟩
  · exact Or.inr ⟨_, rfl, fitsPath_echo hlongest⟩

/-- What is handed to the kernel fits the path, and so does every packet it sends. -/
theorem sent_fits :
    ((tr.useUDP = true ∧ tr.sendPacket traceId req = .ok none ∧
        ∃ payload, LongestPrefix (PayloadFits 4 req) req.data payload ∧
          65535 < 8 + payload.length) ∨
      ∃ wb, tr.sendPacket traceId req = tr.write4 req wb ∧ FitsPath 4 req wb) ∧
    ((tr.useUDP = true ∧ (tr.udpBasePort + req.seq) % 65536 = 0 ∧
        ∃ err, tr.sendPacket6 cksum traceId req = .error err) ∨
      ∃ wb, tr.sendPacket6 cksum traceId req = tr.write6 req wb ∧ FitsPath 6 req wb) ∧
    (∀ pkt, tr.sendPacket traceId req = .ok (some pkt) → FitsPath 4 req pkt.payload) ∧
    ∀ pkt, tr.sendPacket6 cksum traceId req = .ok (some pkt) → FitsPath 6 req pkt.payload := by
  refine ⟨sendPacket_fits tr traceId req, sendPacket6_fits tr traceId req cksum, ?_, ?_⟩
  · intro pkt hpkt
    rcases sendPacket_fits tr traceId req with ⟨_, hnone, _⟩ | ⟨wb, hwb, hfits⟩
    · cases hnone.symm.trans hpkt
    · rw [(write4_eq_some (hwb.symm.trans hpkt)).2.1]
      exact hfits
  · intro pkt hpkt
    rcases sendPacket6_fits tr traceId req cksum with ⟨_, _, err, herr⟩ | ⟨wb, hwb, hfits⟩
    · cases herr.symm.trans hpkt
    · rw [(write6_eq_some (hwb.symm.trans hpkt)).2.1]
      exact hfits

end Sent

end CloudPing.Raw
