import CloudPing.Raw.Parser
import CloudPing.Raw.Types

/-!
# The transceivers: packets out and replies in

`sendPacket` and `getPacket` of `ICMP4Transceiver`, `sendPacket6` and `getPacket6` of
`ICMP6Transceiver`.  A packet out is an ICMP echo request, which carries the trace id and
the sequence number, or a UDP packet, which carries the trace id as its source port and the
sequence number added to a base port as its destination port.  Each of these fields has 16
bits.

Over IPv6 the kernel makes the UDP header and fills in the checksums: the checksum is an
argument of `sendPacket6`.
-/

namespace CloudPing

namespace Raw

open Wire

def headerSizeICMP : Int := 8
def udpHeaderLen : Int := 8
def ipv4HeaderLen : Int := 20
def ipv6HeaderLen : Int := 40

/-- The payload that fits the smaller of the two MTUs. -/
def getMaxPayloadLen (ipVersion ipprotoNum : Nat) (pmtu : Option Int) (nexthopMTU : Int) : Int :=
  let minMTU :=
    match pmtu with
    | some m => if 0 ≤ m ∧ m < nexthopMTU then m else nexthopMTU
    | none => nexthopMTU
  match ipVersion with
  | 4 =>
    if ipprotoNum = ipProtocolICMPv4 then max 0 (minMTU - ipv4HeaderLen - headerSizeICMP)
    else if ipprotoNum = ipProtocolUDP then max 0 (minMTU - ipv4HeaderLen - udpHeaderLen)
    else 0
  | 6 =>
    if ipprotoNum = ipProtocolICMPv6 then max 0 (minMTU - ipv6HeaderLen - headerSizeICMP)
    else if ipprotoNum = ipProtocolUDP then max 0 (minMTU - ipv6HeaderLen - udpHeaderLen)
    else 0
  | _ => 0

/-- What a transceiver of either family is configured with. -/
structure ICMPTransceiverConfig where
  udpBasePort : Option Int := none
  useUDP : Bool

def defaultUDPBasePort : Int := 33433

structure ICMPTransceiver where
  useUDP : Bool
  udpBasePort : Int

/-- `NewICMP4Transceiver` and `NewICMP6Transceiver`. -/
def newICMPTransceiver (config : ICMPTransceiverConfig) : ICMPTransceiver where
  useUDP := config.useUDP
  udpBasePort := config.udpBasePort.getD defaultUDPBasePort

/-- A trace id: a random number, or the port of a UDP socket. -/
abbrev TraceId := Fin 65536

/-- A packet on the wire, with the fields of its IP header that the program sets. -/
structure IPPacket where
  ttl : Int
  dst : IP
  protocol : Nat
  payload : Bytes
  deriving DecidableEq, Repr

/-! ## Packets out -/

/-- The sum of the 16-bit words. -/
def sum16 : Bytes → Nat
  | a :: b :: rest => a.toNat * 256 + b.toNat + sum16 rest
  | [a] => a.toNat * 256
  | [] => 0

/-- The Internet checksum. -/
def checksum (b : Bytes) : Int :=
  let s := sum16 b / 65536 + sum16 b % 65536
  65535 - (s + s / 65536) % 65536

/-- An echo request or reply after its checksum. -/
def echoBody (id seq : Int) (data : Bytes) : Bytes := put16 id ++ (put16 seq ++ data)

/-- `icmp.Message.Marshal` of an ICMPv4 echo request. -/
def marshalEcho4 (id seq : Int) (data : Bytes) : Bytes :=
  [8, 0] ++ (put16 (checksum ([8, 0, 0, 0] ++ echoBody id seq data)) ++ echoBody id seq data)

/-- An ICMPv6 echo request, with the checksum of the kernel. -/
def marshalEcho6 (cksum id seq : Int) (data : Bytes) : Bytes :=
  [128, 0] ++ (put16 cksum ++ echoBody id seq data)

/-- A UDP packet. -/
def marshalUDP (srcPort dstPort cksum : Int) (data : Bytes) : Bytes :=
  put16 srcPort ++ (put16 dstPort ++ (put16 (udpHeaderLen + data.length) ++ (put16 cksum ++ data)))

namespace ICMPTransceiver

variable (tr : ICMPTransceiver)

/-- The protocol of the packets out, over IPv4 and over IPv6. -/
def ipProtoNum (ipVersion : Nat) : Nat :=
  if tr.useUDP then ipProtocolUDP else if ipVersion = 4 then ipProtocolICMPv4 else ipProtocolICMPv6

/-- The payload, cut to the MTU. -/
def payloadData (ipVersion : Nat) (req : ICMPSendRequest) : Bytes :=
  req.data.take
    (getMaxPayloadLen ipVersion (tr.ipProtoNum ipVersion) req.pmtu req.nexthopMTU).toNat

/-- `rawConn.WriteTo`: the kernel refuses what is longer than an IP packet can be, which
is no error here. -/
def write4 (req : ICMPSendRequest) (wb : Bytes) : Except String (Option IPPacket) :=
  match IP.to4 req.dst.ip with
  | none => .error "failed to write to connection: missing address"
  | some dst =>
    if 65535 < ipv4HeaderLen + wb.length then .ok none
    else .ok (some ⟨req.ttl, dst, tr.ipProtoNum 4, wb⟩)

/-- `none` where no packet is written and that is no error. -/
def sendPacket (traceId : TraceId) (req : ICMPSendRequest) : Except String (Option IPPacket) :=
  let data := tr.payloadData 4 req
  if tr.useUDP then
    let udpTotalLen := udpHeaderLen + data.length
    -- the length field is 16 bits wide
    if udpTotalLen ≠ udpTotalLen % 65536 then .ok none
    else tr.write4 req (marshalUDP traceId.val (tr.udpBasePort + req.seq) 0 data)
  else tr.write4 req (marshalEcho4 traceId.val req.seq data)

/-- `txIPv6PacketConn.WriteTo`. -/
def write6 (req : ICMPSendRequest) (wb : Bytes) : Except String (Option IPPacket) :=
  if 65535 < wb.length then .ok none
  else .ok (some ⟨req.ttl, req.dst.ip, tr.ipProtoNum 6, wb⟩)

/-- `none` where no packet is written and that is no error. -/
def sendPacket6 (cksum : Int) (traceId : TraceId) (req : ICMPSendRequest) :
    Except String (Option IPPacket) :=
  let data := tr.payloadData 6 req
  if tr.useUDP then
    -- the kernel sends nothing to port 0
    if (tr.udpBasePort + req.seq) % 65536 = 0 then
      .error "failed to write to connection: invalid argument"
    else tr.write6 req (marshalUDP traceId.val (tr.udpBasePort + req.seq) cksum data)
  else tr.write6 req (marshalEcho6 cksum traceId.val req.seq data)

/-! ## Replies in -/

/-- What a read from the raw socket yields next to the message: size, hop limit, sender. -/
structure ReadInfo where
  nBytes : Int
  ttl : Int
  peer : String
  peerRawIP : Option IPAddr
  receivedAt : Time

/-- `getPacket`: `none` for a message that is not for this transceiver. -/
def getPacket (traceId : TraceId) (rd : ReadInfo) (payload : Bytes) : Option ICMPReceiveReply :=
  match getIDSeqPMTUFromOriginIPPacket4 payload tr.udpBasePort with
  | .error _ => none
  | .ok pktIdentifier =>
    if pktIdentifier.id ≠ traceId.val then none
    else
      some
        { id := traceId.val
          size := rd.nBytes
          seq := pktIdentifier.seq
          ttl := rd.ttl
          peer := rd.peer
          peerRawIP := rd.peerRawIP
          lastHop := pktIdentifier.lastHop
          receivedAt := rd.receivedAt
          iNetFamily := 4
          icmpType := pktIdentifier.icmpType
          icmpCode := pktIdentifier.icmpCode
          ipProto := pktIdentifier.ipProto
          setMTUTo := pktIdentifier.pmtu
          shrinkICMPPayloadTo :=
            pktIdentifier.pmtu.map fun pmtu => max 0 (pmtu - ipv4HeaderLen - headerSizeICMP) }

/-- What an ICMPv6 message says of the packet it is about: identifier, whether it is from
the last hop, and the MTU it asks for. -/
def identify6 (mp : Multipart) (msg : ICMP6Message) : Option (PacketIdentifier × Option Int) :=
  let origin (data : Bytes) :=
    (extractPacketInfoFromOriginIP6 mp data tr.udpBasePort).toOption
  match msg.body with
  | .echo id seq =>
    if msg.type = 129 then
      some ({ id := id, seq := seq, ipProto := ipProtocolICMPv6, lastHop := true }, none)
    else none
  | .timeExceeded data => (origin data).map fun pkt => (pkt, none)
  | .dstUnreach data =>
    -- only port unreachable
    if msg.code = 4 then (origin data).map fun pkt => ({ pkt with lastHop := true }, none)
    else none
  | .packetTooBig mtu data => (origin data).map fun pkt => (pkt, some (mtu : Int))
  | .other => none

/-- `getPacket6`: `none` for a message that is not for this transceiver. -/
def getPacket6 (mp : Multipart) (traceId : TraceId) (rd : ReadInfo) (rb : Bytes) :
    Option ICMPReceiveReply :=
  match parseMessage6 mp rb with
  | .error _ => none
  | .ok msg =>
    match tr.identify6 mp msg with
    | none => none
    | some (pkt, mtu) =>
      if pkt.id ≠ traceId.val then none
      else
        some
          { id := pkt.id
            size := rd.nBytes + ipv6HeaderLen
            seq := pkt.seq
            ttl := rd.ttl
            peer := rd.peer
            peerRawIP := rd.peerRawIP
            lastHop := pkt.lastHop
            receivedAt := rd.receivedAt
            iNetFamily := 6
            -- the protocol number of the type, not the type
            icmpType := some ipProtocolICMPv6
            icmpCode := some msg.code
            ipProto := pkt.ipProto
            setMTUTo := mtu }

end ICMPTransceiver

end Raw

end CloudPing
