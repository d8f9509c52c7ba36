import CloudPing.Wire.BigEndian

/-!
# Whose packet a reply is for

The functions of `pkg/raw/parser.go`.  An echo reply carries the identifier and the
sequence number of its request.  An ICMP error quotes the first bytes of the packet that
caused it, and these are decoded: from an echo request the same two fields, from a UDP
packet its two ports.

Below the program are two libraries.  `gopacket` decodes the layers of IPv4 packets and of
quoted IPv6 packets, and `x/net/icmp` parses ICMPv6 messages.  Both are modelled as the
standards describe the formats.  How `x/net` separates the quoted packet from the
extensions behind it is a parameter (`Multipart`).
-/

namespace CloudPing.Raw

open Wire

def ipProtocolICMPv4 : Nat := 1
def ipProtocolUDP : Nat := 17
def ipProtocolICMPv6 : Nat := 58

structure PacketIdentifier where
  id : Int
  seq : Int
  pmtu : Option Int := none
  /-- The protocol of the packet that was sent, not of the reply. -/
  ipProto : Int
  lastHop : Bool := false
  icmpType : Option Int := none
  icmpCode : Option Int := none
  deriving DecidableEq, Repr

/-! ## Layers -/

structure IPv4Layer where
  protocol : Nat
  /-- A fragment: what follows is not decoded. -/
  fragment : Bool
  payload : Bytes

/-- The IPv4 header.  A packet that is longer than its total length is cut. -/
def decodeIPv4 (data : Bytes) : Option IPv4Layer :=
  let length := if get16 data 2 = 0 then data.length % 65536 else get16 data 2
  let ihl := byteAt data 0 % 16 * 4
  if data.length < 20 ∨ length < 20 ∨ ihl < 20 ∨ length < ihl then none
  else if (data.take length).length < ihl then none
  else
    some
      { protocol := byteAt data 9
        fragment := get16 data 6 % 16384 ≠ 0
        payload := (data.take length).drop ihl }

structure ICMPv4Layer where
  type : Nat
  code : Nat
  id : Nat
  seq : Nat
  payload : Bytes

def decodeICMPv4 (data : Bytes) : Option ICMPv4Layer :=
  if data.length < 8 then none
  else some ⟨byteAt data 0, byteAt data 1, get16 data 4, get16 data 6, data.drop 8⟩

structure UDPLayer where
  srcPort : Nat
  dstPort : Nat

def decodeUDP (data : Bytes) : Option UDPLayer :=
  if data.length < 8 ∨ (0 < get16 data 4 ∧ get16 data 4 < 8) then none
  else some ⟨get16 data 0, get16 data 2⟩

structure IPv6Layer where
  nextHeader : Nat
  payload : Bytes

def decodeIPv6 (data : Bytes) : Option IPv6Layer :=
  if data.length < 40 ∨ get16 data 4 = 0 then none
  else some ⟨byteAt data 6, (data.drop 40).take (get16 data 4)⟩

/-! ## ICMPv6 messages -/

/-- How the data of an ICMP error is separated from the extensions behind it.  At least
its first 128 bytes are data. -/
structure Multipart where
  data : Bytes → Bytes
  cuts : ∀ b, ∃ n, data b = (b.drop 4).take n ∧ (n < 128 → (b.drop 4).length ≤ n)

/-- Without extensions all of it is data. -/
def Multipart.whole : Multipart where
  data := fun b => b.drop 4
  cuts := fun b => ⟨(b.drop 4).length, (List.take_length).symm, fun _ => Nat.le_refl _⟩

inductive ICMP6Body where
  | echo (id seq : Nat)
  | dstUnreach (data : Bytes)
  | packetTooBig (mtu : Nat) (data : Bytes)
  | timeExceeded (data : Bytes)
  | other

structure ICMP6Message where
  type : Nat
  code : Nat
  body : ICMP6Body

/-- The body of a message of the given type. -/
def parseBody6 (mp : Multipart) (type : Nat) (b : Bytes) : ICMP6Body :=
  match type with
  | 1 => .dstUnreach (mp.data b)
  | 2 => .packetTooBig (get16 b 0 * 65536 + get16 b 2) (b.drop 4)
  | 3 => .timeExceeded (mp.data b)
  | 128 | 129 => .echo (get16 b 0) (get16 b 2)
  | _ => .other

/-- `icmp.ParseMessage` for ICMPv6. -/
def parseMessage6 (mp : Multipart) (b : Bytes) : Except String ICMP6Message :=
  if b.length < 4 ∨ (b.length < 8 ∧ byteAt b 0 ∈ [1, 2, 3, 128, 129]) then
    .error "message too short"
  else .ok ⟨byteAt b 0, byteAt b 1, parseBody6 mp (byteAt b 0) (b.drop 4)⟩

/-! ## The packet that was sent -/

def extractPacketInfoFromOriginIP4 (originIPPacketRaw : Bytes) (basePort : Int) :
    Except String PacketIdentifier :=
  match decodeIPv4 originIPPacketRaw with
  | none => .error "failed to extract origin ip layer"
  | some ip =>
    if ip.protocol = ipProtocolICMPv4 then
      match if ip.fragment then none else decodeICMPv4 ip.payload with
      | none => .error "failed to extract origin icmp layer"
      | some icmp => .ok { id := icmp.id, seq := icmp.seq, ipProto := ip.protocol }
    else if ip.protocol = ipProtocolUDP then
      match if ip.fragment then none else decodeUDP ip.payload with
      | none => .error "failed to extract origin udp layer"
      | some udp => .ok { id := udp.srcPort, seq := udp.dstPort - basePort, ipProto := ip.protocol }
    else .error ("unknown origin ip protocol: " ++ toString ip.protocol)

/-- The identifier in an ICMPv4 message, without its IP header. -/
def getIDSeqPMTUFromOriginIPPacket4 (rawICMPReply : Bytes) (baseDstPort : Int) :
    Except String PacketIdentifier :=
  match decodeICMPv4 rawICMPReply with
  | none => .error "failed to extract icmp layer"
  | some icmp =>
    if icmp.type = 0 then
      .ok
        { id := icmp.id
          seq := icmp.seq
          ipProto := ipProtocolICMPv4
          lastHop := true
          icmpType := some icmp.type
          icmpCode := some icmp.code }
    else if icmp.type = 3 ∨ icmp.type = 11 then
      match extractPacketInfoFromOriginIP4 icmp.payload baseDstPort with
      | .error err =>
        .error ("failed to extract origin packet info from icmp error message: " ++ err)
      | .ok subIdentifier =>
        .ok
          { subIdentifier with
            pmtu := if icmp.type = 3 ∧ icmp.code = 4 then some (get16 rawICMPReply 6) else none
            lastHop := icmp.type = 3 ∧ subIdentifier.ipProto = ipProtocolUDP ∧ icmp.code = 3
            icmpType := some icmp.type
            icmpCode := some icmp.code }
    else .error ("unknown icmp type: " ++ toString icmp.type)

def extractPacketInfoFromOriginIP6 (mp : Multipart) (originIPPacketRaw : Bytes)
    (baseDstPort : Int) : Except String PacketIdentifier :=
  match decodeIPv6 originIPPacketRaw with
  | none => .error "failed to extract ip6 layer"
  | some ip6 =>
    if ip6.nextHeader = ipProtocolICMPv6 then
      match parseMessage6 mp ip6.payload with
      | .error err => .error ("failed to parse origin icmp message: " ++ err)
      | .ok ⟨type, _, body⟩ =>
        -- the text has the name of the type, here its number
        if type ≠ 128 then .error ("unexpected origin icmpv6 type: " ++ toString type)
        else
          match body with
          | .echo id seq => .ok { id := id, seq := seq, ipProto := ip6.nextHeader }
          | _ => .error "failed to cast origin icmp message body to *icmp.Echo"
    else if ip6.nextHeader = ipProtocolUDP then
      match decodeUDP ip6.payload with
      | none => .error "failed to extract udp layer from origin ip6 packet"
      | some udp =>
        .ok { id := udp.srcPort, seq := udp.dstPort - baseDstPort, ipProto := ip6.nextHeader }
    else .error ("unknown ip6 next header: " ++ toString ip6.nextHeader)

end CloudPing.Raw
