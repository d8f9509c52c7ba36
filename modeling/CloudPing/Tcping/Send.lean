import CloudPing.Tcping.Tracker
import CloudPing.Utils.IPText

/-!
# What a failed `Send` leaves behind

`Send` looks up its source address, opens a listener for the port, builds the packet, marks it
sent and writes it.  Only then does it start the goroutine that closes the listener when the
timer fires or the reply comes.  An error on the way returns at once: behind `net.Listen` the
listener stays open, and behind `MarkSent` the entry and the goroutine that waits for the
timeout stay as well.

The two families differ in the listener's address and in how the packet is built and written.
`gopacket`, the route lookup and the sockets are what `World` answers.  The `OnSent` hook is
left out.
-/

namespace CloudPing.Tcping

open Conc Utils

/-! ## Packets -/

/-- `TCPSYNRequest` with what is written into the packet. -/
structure SYNRequest extends TCPSYNRequest where
  ttl : Option Int := none
  seq : UInt32 := 0
  ack : UInt32 := 0
  window : UInt16 := 0
  deriving DecidableEq, Repr

def defaultTTL : Int := 64

def tcpHdrLenNWords : UInt8 := 5

/-- `layers.TCP`. -/
structure TCPLayer where
  srcPort : UInt16
  dstPort : UInt16
  seq : UInt32
  ack : UInt32
  window : UInt16 := 0
  syn : Bool
  rst : Bool
  dataOffset : UInt8
  deriving DecidableEq, Repr

/-- The layer of the network that the checksum is computed with. -/
inductive NetworkLayer where
  | ipv4 (srcIP dstIP : IP) (ttl : UInt8) (dontFragment : Bool)
  | ipv6 (srcIP dstIP : IP) (hopLimit : UInt8)
  deriving DecidableEq, Repr

/-- `ipv4.Header`, for the protocol TCP. -/
structure IPv4Header where
  totalLen : Nat
  ttl : Int
  dst : IP
  dontFragment : Bool
  deriving DecidableEq, Repr

/-- `ipv6.ControlMessage`. -/
structure ControlMessage where
  src : IP
  deriving DecidableEq, Repr

/-- What the functions outside answer. -/
structure World where
  getSrcIP : IP → Except String IP
  /-- The port of a new listener, `none` where `net.Listen` fails and the program ends. -/
  listen : String → Option Int
  serializeLayers : NetworkLayer → TCPLayer → Except String (List UInt8)
  writeTo4 : IPv4Header → List UInt8 → Option String
  writeTo6 : List UInt8 → ControlMessage → IP → Option String

def toPort (port : Int) : UInt16 := UInt16.ofInt port

/-- `buildTCPHdr`. -/
def buildTCPHdr (w : World) (srcIP : IP) (srcPort : Int) (dstIP : IP) (dstPort ttl : Int)
    (syn rst : Bool) (seq ack : UInt32) (window : UInt16) :
    Except String (IPv4Header × List UInt8) :=
  let hdrLayer := NetworkLayer.ipv4 srcIP dstIP (UInt8.ofInt ttl) true
  let tcpLayer : TCPLayer :=
    ⟨toPort srcPort, toPort dstPort, seq, ack, window, syn, rst, tcpHdrLenNWords⟩
  match w.serializeLayers hdrLayer tcpLayer with
  | .error err => .error ("failed to serialize tcp layer: " ++ err)
  | .ok wb => .ok (⟨20 + wb.length, ttl, dstIP, true⟩, wb)

/-- `buildTCPHdr6`. -/
def buildTCPHdr6 (w : World) (srcIP : IP) (srcPort : Int) (dstIP : IP) (dstPort ttl : Int)
    (syn rst : Bool) (seq ack : UInt32) : Except String (ControlMessage × List UInt8) :=
  let hdrLayer := NetworkLayer.ipv6 srcIP dstIP (UInt8.ofInt ttl)
  let tcpLayer : TCPLayer :=
    ⟨toPort srcPort, toPort dstPort, seq, ack, 0, syn, rst, tcpHdrLenNWords⟩
  match w.serializeLayers hdrLayer tcpLayer with
  | .error err => .error ("failed to serialize tcp layer: " ++ err)
  | .ok wb => .ok (⟨srcIP⟩, wb)

/-! ## Resources -/

/-- What a call can leave behind. -/
structure Host where
  tk : Tracker
  /-- `serviceChan` is closed. -/
  trackerClosed : Bool
  /-- The ports of the open listeners. -/
  listeners : List Int
  /-- The goroutines of `MarkSent`, which range over `TimeoutC`, by their packets. -/
  timeoutLoops : List Int
  /-- The goroutines of `Send` with their timers, by their packets. -/
  waiters : List Int

namespace Host

def listen (host : Host) (port : Int) : Host := { host with listeners := port :: host.listeners }

/-- `MarkSent`: the number of the packet, and `none` for its panics. -/
def markSent (host : Host) (receipt : TCPSYNSentReceipt) : Option (Int × Host) :=
  match receipt.key with
  | none => none
  | some key =>
    if host.trackerClosed then some (receipt.seq, host)
    else
      match host.tk.markSent key receipt with
      | none => none
      | some tk =>
        some (host.tk.counter,
          { host with tk := tk, timeoutLoops := host.tk.counter :: host.timeoutLoops })

/-- The timer and the goroutine of the packet. -/
def wait (host : Host) (seq : Int) : Host := { host with waiters := seq :: host.waiters }

end Host

/-- Nothing of the call is left. -/
structure NoTrace (before after : Host) : Prop where
  store : after.tk.store = before.tk.store
  counter : after.tk.counter = before.tk.counter
  timeoutLoops : after.timeoutLoops = before.timeoutLoops
  waiters : after.waiters = before.waiters
  listeners : after.listeners = before.listeners

/-! ## `Send` -/

/-- What the two families have in common, `none` where the call does not return. -/
def sendWith {H : Type} (w : World) (address : String)
    (build : IP → Int → Int → Except String (H × List UInt8))
    (write : H → List UInt8 → Option String) (request : SYNRequest) (host : Host) :
    Option (Except String TCPSYNSentReceipt × Host) :=
  match w.getSrcIP request.dstIP with
  | .error err =>
    some (.error ("failed to determine src IP for " ++ ipString request.dstIP ++ ": " ++ err), host)
  | .ok srcIP =>
    match w.listen address with
    | none => none
    | some localPort =>
      let host := host.listen localPort
      let receipt : TCPSYNSentReceipt :=
        { seq := 0, srcIP := srcIP, srcPort := localPort, request := request.toTCPSYNRequest }
      match build srcIP localPort (request.ttl.getD defaultTTL) with
      | .error err => some (.error ("failed to build tcp syn: " ++ err), host)
      | .ok (hdr, wb) =>
        match host.markSent receipt with
        | none => none
        | some (seq, host) =>
          match write hdr wb with
          | some err => some (.error ("failed to write syn to raw connection: " ++ err), host)
          | none => some (.ok { receipt with seq := seq }, host.wait seq)

/-- `TCPSYNSender.Send`. -/
def TCPSYNSender.send (w : World) (request : SYNRequest) (host : Host) :
    Option (Except String TCPSYNSentReceipt × Host) :=
  sendWith w "0.0.0.0:0"
    (fun srcIP localPort ttl => buildTCPHdr w srcIP localPort request.dstIP request.dstPort ttl
      true false request.seq request.ack request.window)
    w.writeTo4 request host

/-- `TCPSYNSender6.Send`. -/
def TCPSYNSender6.send (w : World) (request : SYNRequest) (host : Host) :
    Option (Except String TCPSYNSentReceipt × Host) :=
  sendWith w "[::]:0"
    (fun srcIP localPort ttl => buildTCPHdr6 w srcIP localPort request.dstIP request.dstPort ttl
      true false 1000 0)
    (fun wcm wb => w.writeTo6 wb wcm request.dstIP) request host

/-! ## What an error leaves -/

section Errors

variable {H : Type} {w : World} {address err : String} {host host' : Host}
  {build : IP → Int → Int → Except String (H × List UInt8)}
  {write : H → List UInt8 → Option String} {request : SYNRequest}

/-- `MarkSent` opens no listener and closes none. -/
theorem listeners_markSent {receipt : TCPSYNSentReceipt} {seq : Int}
    (h : host.markSent receipt = some (seq, host')) : host'.listeners = host.listeners := by
  rw [Host.markSent] at h
  split at h
  next => cases h
  next =>
    split at h
    next =>
      cases h
      rfl
    next =>
      split at h
      next => cases h
      next =>
        cases h
        rfl

/-- A call that fails behind `net.Listen` leaves the listener open. -/
theorem listeners_of_error (h : sendWith w address build write request host =
    some (.error err, host')) {srcIP : IP} (hsrc : w.getSrcIP request.dstIP = .ok srcIP) :
    ∃ localPort, host'.listeners = localPort :: host.listeners := by
  simp only [sendWith, hsrc] at h
  split at h
  next => cases h
  next localPort _ =>
    refine ⟨localPort, ?_⟩
    split at h
    next =>
      cases h
      rfl
    next =>
      split at h
      next => cases h
      next hmark =>
        split at h
        next =>
          cases h
          exact listeners_markSent hmark
        next => cases h

/-- An error leaves no trace exactly if it is that of the route lookup. -/
theorem noTrace_iff (h : sendWith w address build write request host = some (.error err, host')) :
    NoTrace host host' ↔ ∃ e, w.getSrcIP request.dstIP = .error e := by
  cases hsrc : w.getSrcIP request.dstIP with
  | error e =>
    simp only [sendWith, hsrc] at h
    cases h
    exact iff_of_true ⟨rfl, rfl, rfl, rfl, rfl⟩ ⟨e, rfl⟩
  | ok srcIP =>
    obtain ⟨localPort, hopen⟩ := listeners_of_error h hsrc
    refine iff_of_false (fun hno => ?_) fun ⟨e, he⟩ => by cases he
    have hlen := congrArg List.length (hopen.symm.trans hno.listeners)
    rw [List.length_cons] at hlen
    omega

/-- After a failed write the entry, its number, the goroutine for its timeout and the listener
are there, and no timer that would end them. -/
theorem left_of_write_error {srcIP : IP} {localPort : Int} {hdr : H} {wb : List UInt8} {key : Key}
    {tk : Tracker} (hsrc : w.getSrcIP request.dstIP = .ok srcIP)
    (hlisten : w.listen address = some localPort)
    (hbuild : build srcIP localPort (request.ttl.getD defaultTTL) = .ok (hdr, wb))
    (hkey : buildKey srcIP localPort request.dstIP request.dstPort = some key)
    (hclosed : host.trackerClosed = false)
    (hmark : host.tk.markSent key
      { seq := 0, srcIP := srcIP, srcPort := localPort, request := request.toTCPSYNRequest } =
        some tk)
    (hwrite : write hdr wb = some err) :
    sendWith w address build write request host =
        some (.error ("failed to write syn to raw connection: " ++ err),
          { host.listen localPort with
            tk := tk, timeoutLoops := host.tk.counter :: host.timeoutLoops }) ∧
      tk.counter = host.tk.counter + 1 ∧ (tk.store.lookup key).isSome := by
  have hmarked : (host.listen localPort).markSent
      { seq := 0, srcIP := srcIP, srcPort := localPort, request := request.toTCPSYNRequest } =
        some (host.tk.counter, { host.listen localPort with
          tk := tk, timeoutLoops := host.tk.counter :: host.timeoutLoops }) := by
    simp only [Host.markSent, TCPSYNSentReceipt.key, hkey, Host.listen, hclosed, hmark]
    rfl
  refine ⟨by simp only [sendWith, hsrc, hlisten, hbuild, hmarked, hwrite], ?_⟩
  rw [Tracker.markSent] at hmark
  obtain ⟨_, hmark⟩ := Option.ite_none_right_eq_some.1 hmark
  cases hmark
  exact ⟨rfl, by rw [AList.lookup_insert]; rfl⟩

end Errors

/-- When `Send` of either family returns an error, the tracker, the goroutines and timers and
the listeners are as before exactly if the step that failed is the route lookup. -/
theorem send_error_noTrace_iff (w : World) (request : SYNRequest) (host host' : Host)
    (err : String)
    (h : TCPSYNSender.send w request host = some (.error err, host') ∨
      TCPSYNSender6.send w request host = some (.error err, host')) :
    NoTrace host host' ↔ ∃ e, w.getSrcIP request.dstIP = .error e := by
  rcases h with h | h
  · exact noTrace_iff h
  · exact noTrace_iff h

/-- A host with nothing open. -/
def idleHost : Host := ⟨NewTracker {}, false, [], [], []⟩

def sampleRequest : SYNRequest :=
  { dstIP := [1, 2, 3, 4], dstPort := 80, timeout := 1000000000, ttl := some 64 }

/-- The packet filter of the system refuses to send. -/
def refusingWorld : World where
  getSrcIP _ := .ok [10, 0, 0, 2]
  listen _ := some 40000
  serializeLayers _ _ := .ok (List.replicate 20 0)
  writeTo4 _ _ := some "sendto: operation not permitted"
  writeTo6 _ _ _ := some "sendto: operation not permitted"

/-- There is no route to the address. -/
def routelessWorld : World :=
  { refusingWorld with getSrcIP := fun _ => .error "no routes found for 1.2.3.4" }

theorem send_error_noTrace_routeless :
    NoTrace idleHost idleHost ↔ ∃ e, routelessWorld.getSrcIP sampleRequest.dstIP = .error e :=
  send_error_noTrace_iff routelessWorld sampleRequest idleHost idleHost
    ("failed to determine src IP for 1.2.3.4: no routes found for 1.2.3.4") (Or.inl rfl)

/-- A packet that could not be written leaves traces. -/
theorem failed_write_leaves_trace :
    ¬∀ (w : World) (request : SYNRequest) (host host' : Host) (err : String),
      TCPSYNSender.send w request host = some (.error err, host') → NoTrace host host' := by
  intro hall
  have hno := hall refusingWorld sampleRequest idleHost _ _ rfl
  cases hno.listeners

end CloudPing.Tcping
