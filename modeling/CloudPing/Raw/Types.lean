import Mathlib.Data.List.Basic

/-!
# Packets as the tracker and the transceivers pass them

The request and reply records of `pkg/raw/types.go`.  Times are readings of one clock in
nanoseconds, and durations are differences of them.  A reply carries the fields the
transceivers fill in.  The fields an IP information provider adds later (reverse names,
provider, location) are not part of it.
-/

namespace CloudPing

/-- A clock reading in nanoseconds. -/
abbrev Time := Int

/-- A difference of clock readings in nanoseconds. -/
abbrev Duration := Int

/-- `Duration.Milliseconds`, which rounds toward zero. -/
def Duration.milliseconds (d : Duration) : Int := d.tdiv 1000000

/-- An IP address, 4 or 16 bytes. -/
abbrev IP := List UInt8

/-- `IP.To4`: the four bytes of an IPv4 address, mapped or not. -/
def IP.to4 (ip : IP) : Option IP :=
  if ip.length = 4 then some ip
  else if ip.length = 16 ∧ ip.take 12 = List.replicate 10 0 ++ [255, 255] then some (ip.drop 12)
  else none

/-- `IP.To16`. -/
def IP.to16 (ip : IP) : Option IP :=
  if ip.length = 4 then some (List.replicate 10 0 ++ [255, 255] ++ ip)
  else if ip.length = 16 then some ip
  else none

/-- `net.IPAddr`: an address with its zone. -/
structure IPAddr where
  ip : IP
  zone : String := ""
  deriving DecidableEq, Repr

namespace Raw

/-- A packet to send. -/
structure ICMPSendRequest where
  dst : IPAddr
  seq : Int
  ttl : Int
  data : List UInt8
  pmtu : Option Int
  nexthopMTU : Int
  deriving DecidableEq, Repr

/-- A reply a transceiver recognised as its own. -/
structure ICMPReceiveReply where
  id : Int
  size : Int
  /-- The sequence number recovered from the reply, `-1` if none. -/
  seq : Int
  ttl : Int
  /-- The sender of the reply. -/
  peer : String
  peerRawIP : Option IPAddr := none
  lastHop : Bool
  receivedAt : Time
  /-- 4 or 6: the types and codes of the two families differ. -/
  iNetFamily : Int
  icmpType : Option Int
  icmpCode : Option Int
  /-- The protocol of the packet that was sent, not of the reply. -/
  ipProto : Int
  setMTUTo : Option Int
  shrinkICMPPayloadTo : Option Int := none
  deriving DecidableEq, Repr

end Raw

end CloudPing
