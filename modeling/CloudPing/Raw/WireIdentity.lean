import CloudPing.Raw.ICMP

/-!
# The identity of a packet on the wire

A reply is credited to the packet whose trace id and sequence number it carries.  Both
have 16 bits on the wire, and the code writes them without a check: what comes back is the
sequence number modulo 65536, or the sum of base port and sequence number modulo 65536
less the base port (`wireSeq`).  So a reply names the packet that caused it exactly when
the number fits its field (`inRange`).

`Answers4` and `Answers6` say which messages are about a packet: its echo reply, and the
ICMP errors that quote at least 8 bytes behind its IP header.  A router that quotes a
packet may have changed its hop limit, its checksum and its type of service, and it may
have put extensions behind the quote.
-/

namespace CloudPing.Raw

open Wire

/-! ## Messages about a packet -/

/-- The IPv4 header of the packet, as far as routers keep it. -/
structure Header4 (pkt : IPPacket) (h : Bytes) : Prop where
  length : h.length = 20
  version : byteAt h 0 = 69
  totalLen : get16 h 2 = 20 + pkt.payload.length
  whole : get16 h 6 % 16384 = 0
  protocol : byteAt h 9 = pkt.protocol

/-- The ICMPv4 messages about a packet. -/
inductive Answers4 (pkt : IPPacket) : Bytes → Prop where
  | echoReply {c : Bytes} (hp : pkt.protocol = ipProtocolICMPv4) (hc : c.length = 2) :
      Answers4 pkt ([0, 0] ++ (c ++ pkt.payload.drop 4))
  | error {type code : UInt8} {c h rest : Bytes} {k : Nat} (ht : type = 3 ∨ type = 11)
      (hc : c.length = 6) (hh : Header4 pkt h) (hk : 8 ≤ k) :
      Answers4 pkt ([type, code] ++ (c ++ (h ++ (pkt.payload.take k ++ rest))))

/-- The IPv6 header of the packet, as far as routers keep it. -/
structure Header6 (pkt : IPPacket) (h : Bytes) : Prop where
  length : h.length = 40
  payloadLen : get16 h 4 = pkt.payload.length
  nextHeader : byteAt h 6 = pkt.protocol

/-- The ICMPv6 messages about a packet. -/
inductive Answers6 (pkt : IPPacket) : Bytes → Prop where
  | echoReply {c : Bytes} (hp : pkt.protocol = ipProtocolICMPv6) (hc : c.length = 2) :
      Answers6 pkt ([129, 0] ++ (c ++ pkt.payload.drop 4))
  | error {type code : UInt8} {c h rest : Bytes} {k : Nat} (ht : type = 1 ∨ type = 2 ∨ type = 3)
      (hc : c.length = 6) (hh : Header6 pkt h) (hk : 8 ≤ k) :
      Answers6 pkt ([type, code] ++ (c ++ (h ++ (pkt.payload.take k ++ rest))))

/-! ## What a packet carries -/

/-- The sequence number that is read back. -/
def ICMPTransceiver.wireSeq (tr : ICMPTransceiver) (seq : Int) : Int :=
  if tr.useUDP then (tr.udpBasePort + seq) % 65536 - tr.udpBasePort else seq % 65536

/-- The number that is written fits its field. -/
def ICMPTransceiver.inRange (tr : ICMPTransceiver) (seq : Int) : Prop :=
  if tr.useUDP then 0 ≤ tr.udpBasePort + seq ∧ tr.udpBasePort + seq < 65536
  else 0 ≤ seq ∧ seq < 65536

instance (tr : ICMPTransceiver) (seq : Int) : Decidable (tr.inRange seq) :=
  inferInstanceAs (Decidable (if tr.useUDP then _ ∧ _ else _ ∧ _))

/-- The number is read back exactly when it fits. -/
theorem ICMPTransceiver.wireSeq_eq_iff (tr : ICMPTransceiver) (seq : Int) :
    tr.wireSeq seq = seq ↔ tr.inRange seq := by
  unfold wireSeq inRange
  split
  next => omega
  next => omega

/-- The payload of the packet carries the trace id and the sequence number. -/
structure Carries (tr : ICMPTransceiver) (echoType : Nat) (traceId : TraceId) (seq : Int)
    (p : Bytes) : Prop where
  length : 8 ≤ p.length
  small : p.length ≤ 65535
  udp : tr.useUDP = true → get16 p 0 = traceId.val ∧
    (get16 p 2 : Int) = (tr.udpBasePort + seq) % 65536 ∧ (get16 p 4 = 0 ∨ 8 ≤ get16 p 4)
  icmp : tr.useUDP = false → byteAt p 0 = echoType ∧ get16 p 4 = traceId.val ∧
    (get16 p 6 : Int) = seq % 65536

theorem get16_traceId (traceId : TraceId) (rest : Bytes) :
    get16 (put16 traceId.val ++ rest) 0 = traceId.val := by
  have h := get16_put16 traceId.val rest
  have hlt := traceId.isLt
  omega

theorem length_marshalUDP (srcPort dstPort cksum : Int) (data : Bytes) :
    (marshalUDP srcPort dstPort cksum data).length = 8 + data.length := by
  simp only [marshalUDP, List.length_append, length_put16]
  omega

theorem length_echo (type code : UInt8) (cksum id seq : Int) (data : Bytes) :
    ([type, code] ++ (put16 cksum ++ echoBody id seq data)).length = 8 + data.length := by
  simp only [echoBody, List.length_append, length_put16, List.length_cons, List.length_nil]
  omega

theorem length_marshalEcho4 (id seq : Int) (data : Bytes) :
    (marshalEcho4 id seq data).length = 8 + data.length := length_echo _ _ _ _ _ _

theorem length_marshalEcho6 (cksum id seq : Int) (data : Bytes) :
    (marshalEcho6 cksum id seq data).length = 8 + data.length := length_echo _ _ _ _ _ _

theorem marshalUDP_fields (traceId : TraceId) (dstPort cksum : Int) (data : Bytes) :
    let p := marshalUDP traceId.val dstPort cksum data
    get16 p 0 = traceId.val ∧ (get16 p 2 : Int) = dstPort % 65536 ∧
      (get16 p 4 : Int) = (8 + data.length : Int) % 65536 := by
  refine ⟨get16_traceId _ _, ?_, ?_⟩
  · rw [marshalUDP, get16_put16_skip]
    exact get16_put16 _ _
  · rw [marshalUDP, get16_put16_skip, get16_put16_skip]
    exact get16_put16 _ _

theorem echo_fields (type code : UInt8) (cksum : Int) (traceId : TraceId) (seq : Int)
    (data : Bytes) :
    let p := [type, code] ++ (put16 cksum ++ echoBody traceId.val seq data)
    byteAt p 0 = type.toNat ∧ get16 p 4 = traceId.val ∧ (get16 p 6 : Int) = seq % 65536 := by
  refine ⟨rfl, ?_, ?_⟩
  · exact get16_traceId traceId (put16 seq ++ data)
  · exact get16_put16 seq data

/-- A UDP packet carries both numbers as its ports. -/
theorem carries_udp {tr : ICMPTransceiver} (hu : tr.useUDP = true) {echoType : Nat}
    {traceId : TraceId} {seq cksum : Int} {data : Bytes} (hl : 8 + data.length ≤ 65535) :
    Carries tr echoType traceId seq (marshalUDP traceId.val (tr.udpBasePort + seq) cksum data) := by
  obtain ⟨hs, hd, hlen⟩ := marshalUDP_fields traceId (tr.udpBasePort + seq) cksum data
  have hp := length_marshalUDP traceId.val (tr.udpBasePort + seq) cksum data
  refine ⟨by omega, by omega, fun _ => ⟨hs, hd, Or.inr (by omega)⟩, fun hn => ?_⟩
  rw [hu] at hn
  cases hn

/-- An echo request carries both in its own fields. -/
theorem carries_echo {tr : ICMPTransceiver} (hu : tr.useUDP = false) (type : UInt8)
    {traceId : TraceId} {seq cksum : Int} {data : Bytes} (hl : 8 + data.length ≤ 65535) :
    Carries tr type.toNat traceId seq
      ([type, 0] ++ (put16 cksum ++ echoBody traceId.val seq data)) := by
  obtain ⟨ht, hi, hs⟩ := echo_fields type 0 cksum traceId seq data
  have hp := length_echo type 0 cksum traceId.val seq data
  refine ⟨by omega, by omega, fun hy => ?_, fun _ => ⟨ht, hi, hs⟩⟩
  rw [hu] at hy
  cases hy

section Sent

variable {tr : ICMPTransceiver} {traceId : TraceId} {req : ICMPSendRequest} {pkt : IPPacket}

theorem write4_eq_some {wb : Bytes} (h : tr.write4 req wb = .ok (some pkt)) :
    pkt.protocol = tr.ipProtoNum 4 ∧ pkt.payload = wb ∧ 20 + wb.length ≤ 65535 := by
  unfold ICMPTransceiver.write4 at h
  split at h
  next => cases h
  next =>
    split at h
    next => cases h
    next hl =>
      cases h
      refine ⟨rfl, rfl, ?_⟩
      simp only [ipv4HeaderLen] at hl
      omega

theorem write6_eq_some {wb : Bytes} (h : tr.write6 req wb = .ok (some pkt)) :
    pkt.protocol = tr.ipProtoNum 6 ∧ pkt.payload = wb ∧ wb.length ≤ 65535 := by
  unfold ICMPTransceiver.write6 at h
  split at h
  next => cases h
  next hl =>
    cases h
    exact ⟨rfl, rfl, by omega⟩

/-- What is written over IPv4. -/
theorem sendPacket_carries (h : tr.sendPacket traceId req = .ok (some pkt)) :
    pkt.protocol = tr.ipProtoNum 4 ∧ 20 + pkt.payload.length ≤ 65535 ∧
      Carries tr 8 traceId req.seq pkt.payload := by
  simp only [ICMPTransceiver.sendPacket] at h
  split at h
  next hu =>
    split at h
    next => cases h
    next =>
      obtain ⟨hp, hw, hl⟩ := write4_eq_some h
      rw [length_marshalUDP] at hl
      refine ⟨hp, ?_, hw ▸ carries_udp hu (by omega)⟩
      rw [hw, length_marshalUDP]
      exact hl
  next hu =>
    obtain ⟨hp, hw, hl⟩ := write4_eq_some h
    rw [length_marshalEcho4] at hl
    have hc : Carries tr 8 traceId req.seq
        (marshalEcho4 traceId.val req.seq (tr.payloadData 4 req)) :=
      carries_echo (by simpa using hu) 8 (by omega)
    refine ⟨hp, ?_, hw ▸ hc⟩
    rw [hw, length_marshalEcho4]
    exact hl

/-- What is written over IPv6. -/
theorem sendPacket6_carries {cksum : Int} (h : tr.sendPacket6 cksum traceId req = .ok (some pkt)) :
    pkt.protocol = tr.ipProtoNum 6 ∧ Carries tr 128 traceId req.seq pkt.payload := by
  simp only [ICMPTransceiver.sendPacket6] at h
  split at h
  next hu =>
    split at h
    next => cases h
    next =>
      obtain ⟨hp, hw, hl⟩ := write6_eq_some h
      rw [length_marshalUDP] at hl
      exact ⟨hp, hw ▸ carries_udp hu (by omega)⟩
  next hu =>
    obtain ⟨hp, hw, hl⟩ := write6_eq_some h
    rw [length_marshalEcho6] at hl
    have hc : Carries tr 128 traceId req.seq
        (marshalEcho6 cksum traceId.val req.seq (tr.payloadData 6 req)) :=
      carries_echo (by simpa using hu) 128 (by omega)
    exact ⟨hp, hw ▸ hc⟩

end Sent

/-! ## What is read back -/

section ReadBack

variable {tr : ICMPTransceiver} {traceId : TraceId} {seq : Int} {pkt : IPPacket} {raw : Bytes}

theorem decodeUDP_starts {s p : Bytes} (hs : Starts 8 s p) (hl : get16 p 4 = 0 ∨ 8 ≤ get16 p 4) :
    decodeUDP s = some ⟨get16 p 0, get16 p 2⟩ := by
  have hlen := hs.length
  have h4 := hs.get16 (i := 4) (by decide)
  rw [decodeUDP, if_neg (by omega), hs.get16 (by decide), hs.get16 (by decide)]

/-- A quoted IPv4 packet: the header, and what starts like the payload. -/
theorem decodeIPv4_quoted {h b : Bytes} (hh : Header4 pkt h) (hb : Starts 8 b pkt.payload) :
    decodeIPv4 (h ++ b) = some ⟨pkt.protocol, false, b.take pkt.payload.length⟩ := by
  have hlen := hh.length
  have hblen := hb.length
  have hl : get16 (h ++ b) 2 = 20 + pkt.payload.length := by
    rw [get16_append_left (by omega), hh.totalLen]
  have hv : byteAt (h ++ b) 0 = 69 := by
    rw [byteAt_append_left (by omega), hh.version]
  have hf : get16 (h ++ b) 6 % 16384 = 0 := by
    rw [get16_append_left (by omega), hh.whole]
  have hp : byteAt (h ++ b) 9 = pkt.protocol := by
    rw [byteAt_append_left (by omega), hh.protocol]
  have hd : ((h ++ b).take (20 + pkt.payload.length)).drop 20 = b.take pkt.payload.length := by
    rw [List.drop_take, Nat.add_sub_cancel_left, List.drop_left' hlen]
  have hne : 20 + pkt.payload.length ≠ 0 := by omega
  have hlong : (h ++ b).length = 20 + b.length := by rw [List.length_append, hlen]
  have hcut : ((h ++ b).take (20 + pkt.payload.length)).length =
      min (20 + pkt.payload.length) (20 + b.length) := by rw [List.length_take, hlong]
  simp only [decodeIPv4, hl, hv, hf, hp, if_neg hne, Nat.reduceMod, Nat.reduceMul, hd, hlong, hcut]
  rw [if_neg (by omega), if_neg (by omega)]
  rfl

/-- What `extractPacketInfoFromOriginIP4` makes of a quoted packet. -/
theorem extract4_quoted {h b : Bytes} (hc : Carries tr 8 traceId seq pkt.payload)
    (hp : pkt.protocol = tr.ipProtoNum 4) (hh : Header4 pkt h) (hb : Starts 8 b pkt.payload) :
    extractPacketInfoFromOriginIP4 (h ++ b) tr.udpBasePort =
      .ok { id := traceId.val, seq := tr.wireSeq seq, ipProto := pkt.protocol } := by
  have hs : Starts 8 (b.take pkt.payload.length) pkt.payload := hb.take hc.length
  have hlen := hs.length
  rw [extractPacketInfoFromOriginIP4, decodeIPv4_quoted hh hb]
  cases hu : tr.useUDP with
  | true =>
    obtain ⟨hid, hseq, hul⟩ := hc.udp hu
    have hpr : pkt.protocol = ipProtocolUDP := by rw [hp, ICMPTransceiver.ipProtoNum, if_pos hu]
    have hd := decodeUDP_starts hs hul
    simp [hpr, hd, ipProtocolUDP, ipProtocolICMPv4, ICMPTransceiver.wireSeq, hu, hid, hseq]
  | false =>
    obtain ⟨_, hid, hseq⟩ := hc.icmp hu
    have hpr : pkt.protocol = ipProtocolICMPv4 := by
      rw [hp, ICMPTransceiver.ipProtoNum, if_neg (by simp [hu]), if_pos rfl]
    have hd : ∃ ty cd rest, decodeICMPv4 (b.take pkt.payload.length) =
        some ⟨ty, cd, get16 pkt.payload 4, get16 pkt.payload 6, rest⟩ := by
      rw [decodeICMPv4, if_neg (by omega), hs.get16 (by decide), hs.get16 (by decide)]
      exact ⟨_, _, _, rfl⟩
    obtain ⟨ty, cd, rest, hd⟩ := hd
    simp [hpr, hd, ICMPTransceiver.wireSeq, hu, hid, hseq]

/-- A quoted IPv6 packet. -/
theorem decodeIPv6_quoted {h b : Bytes} (hh : Header6 pkt h) (hne : pkt.payload.length ≠ 0) :
    decodeIPv6 (h ++ b) = some ⟨pkt.protocol, b.take pkt.payload.length⟩ := by
  have hlen := hh.length
  have hl : get16 (h ++ b) 4 = pkt.payload.length := by
    rw [get16_append_left (by omega), hh.payloadLen]
  have hp : byteAt (h ++ b) 6 = pkt.protocol := by
    rw [byteAt_append_left (by omega), hh.nextHeader]
  have hd : (h ++ b).drop 40 = b := List.drop_left' hlen
  have hlong : (h ++ b).length = 40 + b.length := by rw [List.length_append, hlen]
  rw [decodeIPv6, hl, hp, hd, hlong, if_neg (by omega)]

/-- What `ExtractPacketInfoFromOriginIP6` makes of a quoted packet. -/
theorem extract6_quoted (mp : Multipart) {h b : Bytes} (hc : Carries tr 128 traceId seq pkt.payload)
    (hp : pkt.protocol = tr.ipProtoNum 6) (hh : Header6 pkt h) (hb : Starts 8 b pkt.payload) :
    extractPacketInfoFromOriginIP6 mp (h ++ b) tr.udpBasePort =
      .ok { id := traceId.val, seq := tr.wireSeq seq, ipProto := pkt.protocol } := by
  have hs : Starts 8 (b.take pkt.payload.length) pkt.payload := hb.take hc.length
  have hlen := hs.length
  have hplen := hc.length
  rw [extractPacketInfoFromOriginIP6, decodeIPv6_quoted hh (by omega)]
  cases hu : tr.useUDP with
  | true =>
    obtain ⟨hid, hseq, hul⟩ := hc.udp hu
    have hpr : pkt.protocol = ipProtocolUDP := by rw [hp, ICMPTransceiver.ipProtoNum, if_pos hu]
    have hd := decodeUDP_starts hs hul
    simp [hpr, hd, ipProtocolUDP, ipProtocolICMPv6, ICMPTransceiver.wireSeq, hu, hid, hseq]
  | false =>
    obtain ⟨hty, hid, hseq⟩ := hc.icmp hu
    have hpr : pkt.protocol = ipProtocolICMPv6 := by
      rw [hp, ICMPTransceiver.ipProtoNum, if_neg (by simp [hu]), if_neg (by decide)]
    have hd : ∃ cd, parseMessage6 mp (b.take pkt.payload.length) =
        .ok ⟨128, cd, .echo (get16 pkt.payload 4) (get16 pkt.payload 6)⟩ := by
      rw [parseMessage6, if_neg (by omega), hs.byte 0 (by decide), hty]
      simp only [parseBody6, get16_drop, hs.get16 (i := 4) (by decide),
        hs.get16 (i := 6) (by decide)]
      exact ⟨_, rfl⟩
    obtain ⟨cd, hd⟩ := hd
    simp [hpr, hd, ICMPTransceiver.wireSeq, hu, hid, hseq]

/-! ## Whose packet a message is for -/

/-- The identity that the IPv4 parser recovers from a message. -/
def ICMPTransceiver.recovered4 (tr : ICMPTransceiver) (raw : Bytes) : Option (Int × Int) :=
  (getIDSeqPMTUFromOriginIPPacket4 raw tr.udpBasePort).toOption.map fun p => (p.id, p.seq)

/-- The identity in the reply that `getPacket6` makes of a message. -/
def ICMPTransceiver.recovered6 (tr : ICMPTransceiver) (mp : Multipart) (traceId : TraceId)
    (rd : ICMPTransceiver.ReadInfo) (raw : Bytes) : Option (Int × Int) :=
  (tr.getPacket6 mp traceId rd raw).map fun r => (r.id, r.seq)

/-- An IPv6 destination unreachable that is not about a port: `getPacket6` drops it. -/
def Dropped6 (raw : Bytes) : Prop := byteAt raw 0 = 1 ∧ byteAt raw 1 ≠ 4

/-- Behind its first 8 bytes, an error is the quoted packet. -/
theorem error_fields (type code : UInt8) {c q : Bytes} (hc : c.length = 6) :
    let raw := [type, code] ++ (c ++ q)
    byteAt raw 0 = type.toNat ∧ byteAt raw 1 = code.toNat ∧ raw.length = 8 + q.length ∧
      raw.drop 8 = q := by
  refine ⟨rfl, rfl, ?_, ?_⟩
  · simp only [List.length_append, List.length_cons, List.length_nil]
    omega
  · rw [← List.append_assoc]
    refine List.drop_left' ?_
    rw [List.length_append, hc]
    rfl

/-- An echo reply is the echo request with another type and checksum. -/
theorem reply_fields (type : UInt8) {c p : Bytes} (hc : c.length = 2) (hp : 8 ≤ p.length) :
    let raw := [type, 0] ++ (c ++ p.drop 4)
    byteAt raw 0 = type.toNat ∧ 8 ≤ raw.length ∧ get16 raw 4 = get16 p 4 ∧
      get16 raw 6 = get16 p 6 := by
  have hl : ([type, 0] ++ c).length = 4 := by rw [List.length_append, hc]; rfl
  refine ⟨rfl, ?_, ?_, ?_⟩
  · simp only [List.length_append, List.length_cons, List.length_nil, List.length_drop]
    omega
  · rw [← List.append_assoc, get16_append_right (by omega), hl, get16_drop]
  · rw [← List.append_assoc, get16_append_right (by omega), hl, get16_drop]

/-- A packet that is an echo request was written without UDP. -/
theorem useUDP_of_protocol {v : Nat} (hp : pkt.protocol = tr.ipProtoNum v)
    (hn : pkt.protocol ≠ ipProtocolUDP) : tr.useUDP = false := by
  cases hu : tr.useUDP with
  | true => exact absurd (by rw [hp, ICMPTransceiver.ipProtoNum, if_pos hu]) hn
  | false => rfl

theorem decodeICMPv4_eq (h : 8 ≤ raw.length) :
    decodeICMPv4 raw =
      some ⟨byteAt raw 0, byteAt raw 1, get16 raw 4, get16 raw 6, raw.drop 8⟩ :=
  if_neg (by omega)

theorem parseMessage6_eq (mp : Multipart) (h : 8 ≤ raw.length) :
    parseMessage6 mp raw =
      .ok ⟨byteAt raw 0, byteAt raw 1, parseBody6 mp (byteAt raw 0) (raw.drop 4)⟩ :=
  if_neg (by omega)

/-- Every IPv4 message about a packet is read as one about the number that is read back. -/
theorem recovered4_answers (hc : Carries tr 8 traceId seq pkt.payload)
    (hp : pkt.protocol = tr.ipProtoNum 4) (ha : Answers4 pkt raw) :
    tr.recovered4 raw = some ((traceId.val : Int), tr.wireSeq seq) := by
  cases ha with
  | @echoReply c hpr hcl =>
    have hu : tr.useUDP = false := useUDP_of_protocol hp (by rw [hpr]; decide)
    obtain ⟨_, hid, hseq⟩ := hc.icmp hu
    obtain ⟨hty, hlen, h4, h6⟩ := reply_fields 0 hcl hc.length
    generalize [0, 0] ++ (c ++ pkt.payload.drop 4) = raw at *
    rw [ICMPTransceiver.recovered4, getIDSeqPMTUFromOriginIPPacket4, decodeICMPv4_eq hlen, h4, h6,
      hid]
    simp [hty, hseq, hu, ICMPTransceiver.wireSeq, Except.toOption]
  | @error type code c h rest k ht hcl hh hk =>
    have hs : Starts 8 (pkt.payload.take k ++ rest) pkt.payload := Starts.of_take hk hc.length rest
    obtain ⟨hty, hcd, hlen, hdrop⟩ :=
      error_fields type code (q := h ++ (pkt.payload.take k ++ rest)) hcl
    generalize [type, code] ++ (c ++ (h ++ (pkt.payload.take k ++ rest))) = raw at *
    have hne : byteAt raw 0 ≠ 0 := by
      rw [hty]
      rcases ht with rfl | rfl <;> decide
    have herr : byteAt raw 0 = 3 ∨ byteAt raw 0 = 11 := by
      rw [hty]
      exact ht.imp (by rintro rfl; rfl) (by rintro rfl; rfl)
    rw [ICMPTransceiver.recovered4, getIDSeqPMTUFromOriginIPPacket4, decodeICMPv4_eq (by omega)]
    simp only [if_neg hne, if_pos herr, hdrop, extract4_quoted hc hp hh hs]
    rfl

/-- The data of an ICMPv6 error starts with the header and the first bytes of the packet. -/
theorem multipart_quoted (mp : Multipart) {b h q p : Bytes} (hb : b.drop 4 = h ++ q)
    (hh : h.length = 40) (hs : Starts 8 q p) : ∃ q', mp.data b = h ++ q' ∧ Starts 8 q' p := by
  obtain ⟨n, hd, hn⟩ := mp.cuts b
  rw [hb] at hd hn
  by_cases hlt : n < 128
  · refine ⟨q, ?_, hs⟩
    rw [hd, List.take_of_length_le (hn hlt)]
  · refine ⟨q.take (n - 40), ?_, hs.take (by omega)⟩
    rw [hd, List.take_append, hh, List.take_of_length_le (by omega)]

/-- Every IPv6 message about a packet is read as one about the number that is read back,
unless it is dropped. -/
theorem recovered6_answers (mp : Multipart) (rd : ICMPTransceiver.ReadInfo)
    (hc : Carries tr 128 traceId seq pkt.payload) (hp : pkt.protocol = tr.ipProtoNum 6)
    (ha : Answers6 pkt raw) (hd : ¬ Dropped6 raw) :
    tr.recovered6 mp traceId rd raw = some ((traceId.val : Int), tr.wireSeq seq) := by
  cases ha with
  | @echoReply c hpr hcl =>
    have hu : tr.useUDP = false := useUDP_of_protocol hp (by rw [hpr]; decide)
    obtain ⟨_, hid, hseq⟩ := hc.icmp hu
    obtain ⟨hty, hlen, h4, h6⟩ := reply_fields 129 hcl hc.length
    generalize [129, 0] ++ (c ++ pkt.payload.drop 4) = raw at *
    rw [ICMPTransceiver.recovered6, ICMPTransceiver.getPacket6, parseMessage6_eq mp hlen, hty]
    simp [parseBody6, ICMPTransceiver.identify6, get16_drop, h4, h6, hid, hseq, hu,
      ICMPTransceiver.wireSeq]
  | @error type code c h rest k ht hcl hh hk =>
    have hs : Starts 8 (pkt.payload.take k ++ rest) pkt.payload := Starts.of_take hk hc.length rest
    obtain ⟨hty, hcd, hlen, hdrop⟩ :=
      error_fields type code (q := h ++ (pkt.payload.take k ++ rest)) hcl
    generalize [type, code] ++ (c ++ (h ++ (pkt.payload.take k ++ rest))) = raw at *
    have hb : (raw.drop 4).drop 4 = h ++ (pkt.payload.take k ++ rest) := by
      rw [List.drop_drop, hdrop]
    obtain ⟨q, hq, hsq⟩ := multipart_quoted mp hb hh.length hs
    rw [ICMPTransceiver.recovered6, ICMPTransceiver.getPacket6, parseMessage6_eq mp (by omega)]
    rcases ht with rfl | rfl | rfl
    · have hcode : byteAt raw 1 = 4 := by
        refine not_not.mp fun hne => hd ⟨hty, hne⟩
      simp [hty, hcode, parseBody6, ICMPTransceiver.identify6, hq, extract6_quoted mp hc hp hh hsq,
        Except.toOption]
    · simp [hty, parseBody6, ICMPTransceiver.identify6, hdrop, extract6_quoted mp hc hp hh hs,
        Except.toOption]
    · simp [hty, parseBody6, ICMPTransceiver.identify6, hq, extract6_quoted mp hc hp hh hsq,
        Except.toOption]

/-! ## Messages that come -/

/-- The IPv4 header that the program asks for. -/
def header4 (pkt : IPPacket) : Bytes :=
  [69, 0] ++ (put16 (20 + pkt.payload.length) ++
    ([0, 0, 64, 0, 0, UInt8.ofNat pkt.protocol] ++ List.replicate 10 0))

/-- The IPv6 header that the kernel makes. -/
def header6 (pkt : IPPacket) : Bytes :=
  [96, 0, 0, 0] ++ (put16 pkt.payload.length ++
    ([UInt8.ofNat pkt.protocol, 0] ++ List.replicate 32 0))

theorem ICMPTransceiver.ipProtoNum_lt (tr : ICMPTransceiver) (v : Nat) : tr.ipProtoNum v < 256 := by
  rw [ipProtoNum]
  split
  next => decide
  next => split <;> decide

theorem toNat_protocol (hp : pkt.protocol < 256) :
    (UInt8.ofNat pkt.protocol).toNat = pkt.protocol := by
  rw [UInt8.toNat_ofNat']
  omega

theorem header4_ok (hp : pkt.protocol < 256) (hl : 20 + pkt.payload.length ≤ 65535) :
    Header4 pkt (header4 pkt) := by
  have hread : (get16 (header4 pkt) 2 : Int) = (20 + pkt.payload.length : Int) % 65536 := by
    rw [header4, get16_append_right (Nat.le_refl 2)]
    exact get16_put16 _ _
  have hflags : byteAt (header4 pkt) 6 = 64 ∧ byteAt (header4 pkt) 7 = 0 := ⟨rfl, rfl⟩
  refine ⟨rfl, rfl, by omega, ?_, toNat_protocol hp⟩
  rw [get16, hflags.1, hflags.2]

theorem header6_ok (hp : pkt.protocol < 256) (hl : pkt.payload.length ≤ 65535) :
    Header6 pkt (header6 pkt) := by
  have hread : (get16 (header6 pkt) 4 : Int) = (pkt.payload.length : Int) % 65536 := by
    rw [header6, get16_append_right (Nat.le_refl 4)]
    exact get16_put16 _ _
  exact ⟨rfl, by omega, toNat_protocol hp⟩

/-- Time exceeded, from a hop that quotes 8 bytes. -/
def timeExceeded4 (pkt : IPPacket) : Bytes :=
  [11, 0] ++ (List.replicate 6 0 ++ (header4 pkt ++ (pkt.payload.take 8 ++ [])))

def timeExceeded6 (pkt : IPPacket) : Bytes :=
  [3, 0] ++ (List.replicate 6 0 ++ (header6 pkt ++ (pkt.payload.take 8 ++ [])))

theorem timeExceeded4_answers (hp : pkt.protocol < 256) (hl : 20 + pkt.payload.length ≤ 65535) :
    Answers4 pkt (timeExceeded4 pkt) :=
  .error (.inr rfl) rfl (header4_ok hp hl) (Nat.le_refl 8)

theorem timeExceeded6_answers (hp : pkt.protocol < 256) (hl : pkt.payload.length ≤ 65535) :
    Answers6 pkt (timeExceeded6 pkt) :=
  .error (.inr (.inr rfl)) rfl (header6_ok hp hl) (Nat.le_refl 8)

theorem timeExceeded6_not_dropped (pkt : IPPacket) : ¬ Dropped6 (timeExceeded6 pkt) := by
  rintro ⟨h, _⟩
  cases h

end ReadBack

/-! ## Replies are credited to the packet that caused them -/

/-- Every IPv4 message about the packet is read as one about this number. -/
def ICMPTransceiver.Credits4 (tr : ICMPTransceiver) (traceId : TraceId) (seq : Int)
    (pkt : IPPacket) : Prop :=
  ∀ raw, Answers4 pkt raw → tr.recovered4 raw = some ((traceId.val : Int), seq)

/-- Every IPv6 message about the packet that is not dropped is read as one about this
number. -/
def ICMPTransceiver.Credits6 (tr : ICMPTransceiver) (mp : Multipart) (traceId : TraceId)
    (seq : Int) (pkt : IPPacket) : Prop :=
  ∀ rd raw, Answers6 pkt raw → ¬ Dropped6 raw →
    tr.recovered6 mp traceId rd raw = some ((traceId.val : Int), seq)

theorem credits4_iff {tr : ICMPTransceiver} {traceId : TraceId} {req : ICMPSendRequest}
    {pkt : IPPacket} (h : tr.sendPacket traceId req = .ok (some pkt)) :
    tr.Credits4 traceId req.seq pkt ↔ tr.inRange req.seq := by
  obtain ⟨hp, hl, hc⟩ := sendPacket_carries h
  refine Iff.trans ⟨fun hcr => ?_, fun heq raw ha => ?_⟩ (tr.wireSeq_eq_iff req.seq)
  · have ha := timeExceeded4_answers (hp ▸ tr.ipProtoNum_lt 4) hl
    have hread := (recovered4_answers hc hp ha).symm.trans (hcr _ ha)
    exact congrArg Prod.snd (Option.some.inj hread)
  · rw [recovered4_answers hc hp ha, heq]

theorem credits6_iff {tr : ICMPTransceiver} {traceId : TraceId} {req : ICMPSendRequest}
    {pkt : IPPacket} (mp : Multipart) {cksum : Int}
    (h : tr.sendPacket6 cksum traceId req = .ok (some pkt)) :
    tr.Credits6 mp traceId req.seq pkt ↔ tr.inRange req.seq := by
  obtain ⟨hp, hc⟩ := sendPacket6_carries h
  refine Iff.trans ⟨fun hcr => ?_, fun heq rd raw ha hd => ?_⟩ (tr.wireSeq_eq_iff req.seq)
  · have ha := timeExceeded6_answers (hp ▸ tr.ipProtoNum_lt 6) hc.small
    have hd := timeExceeded6_not_dropped pkt
    have hread :=
      (recovered6_answers mp ⟨0, 0, "", none, 0⟩ hc hp ha hd).symm.trans (hcr _ _ ha hd)
    exact congrArg Prod.snd (Option.some.inj hread)
  · rw [recovered6_answers mp rd hc hp ha hd, heq]

/-- In both families and both modes, the replies to a packet that is written are credited
to it if and only if its sequence number fits its field. -/
theorem ICMPTransceiver.wire_identity (tr : ICMPTransceiver) (traceId : TraceId)
    (req : ICMPSendRequest) :
    (∀ pkt, tr.sendPacket traceId req = .ok (some pkt) →
      (tr.Credits4 traceId req.seq pkt ↔ tr.inRange req.seq)) ∧
    (∀ mp cksum pkt, tr.sendPacket6 cksum traceId req = .ok (some pkt) →
      (tr.Credits6 mp traceId req.seq pkt ↔ tr.inRange req.seq)) :=
  ⟨fun _ h => credits4_iff h, fun mp _ _ h => credits6_iff mp h⟩

/-- What the scanner asks for: no payload. -/
def scanRequest (dst : IP) (seq : Int) : ICMPSendRequest :=
  { dst := ⟨dst, ""⟩, seq := seq, ttl := 64, data := [], pmtu := none, nexthopMTU := 0 }

def loopback6 : IP := List.replicate 15 0 ++ [1]

/-- The 32102nd packet over UDP from the default base port is the last whose replies are
credited to it. -/
theorem ICMPTransceiver.wire_identity_last :
    let tr := newICMPTransceiver { useUDP := true }
    (∃ pkt, tr.sendPacket 7 (scanRequest [127, 0, 0, 1] 32102) = .ok (some pkt) ∧
      tr.Credits4 7 32102 pkt) ∧
    (∃ pkt, tr.sendPacket6 0 7 (scanRequest loopback6 32102) = .ok (some pkt) ∧
      tr.Credits6 .whole 7 32102 pkt) := by
  intro tr
  have hr : tr.inRange 32102 := by decide
  refine ⟨⟨_, rfl, ?_⟩, ⟨_, rfl, ?_⟩⟩
  · exact ((tr.wire_identity 7 (scanRequest [127, 0, 0, 1] 32102)).1 _ rfl).mpr hr
  · exact ((tr.wire_identity 7 (scanRequest loopback6 32102)).2 .whole 0 _ rfl).mpr hr

/-- The echo reply to packet 65537 of a scan is read as the one to packet 1.  Over UDP an
error about packet 32104 is read as about packet -33432. -/
theorem ICMPTransceiver.wire_identity_wraps :
    (let tr := newICMPTransceiver { useUDP := false }
      ∃ pkt raw, tr.sendPacket 7 (scanRequest [127, 0, 0, 1] 65537) = .ok (some pkt) ∧
        Answers4 pkt raw ∧ tr.recovered4 raw = some (7, 1)) ∧
    (let tr := newICMPTransceiver { useUDP := true }
      ∃ pkt raw, tr.sendPacket6 0 7 (scanRequest loopback6 32104) = .ok (some pkt) ∧
        Answers6 pkt raw ∧
          tr.recovered6 .whole 7 ⟨0, 0, "", none, 0⟩ raw = some (7, -33432)) := by
  let pkt6 : IPPacket := ⟨64, loopback6, 17, marshalUDP 7 65537 0 []⟩
  refine ⟨⟨_, _, rfl, .echoReply (c := [0, 0]) rfl rfl, rfl⟩,
    ⟨pkt6, timeExceeded6 pkt6, rfl, ?_, ?_⟩⟩
  · exact timeExceeded6_answers (by decide) (by decide)
  · decide +kernel

end CloudPing.Raw
