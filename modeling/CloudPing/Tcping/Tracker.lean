import CloudPing.Conc.Store
import CloudPing.Raw.Types

/-!
# The TCP tracker's store

The tracker of `pkg/tcping` keeps one entry per SYN packet, under a key made of the
addresses and ports of its flow.  A reply has the flow of its SYN packet in reverse, so
that both yield the same key (`buildKey_reply`).  Whoever comes first, the reply or the
timeout, deletes the entry and yields the event.

`MarkSent`, `MarkReceived` and `handleTimeout` each hand a function to the goroutine of
`Run`.  This module has those functions.  Each yields `none` where the code panics: on a
port that is out of range, and on a key that is not of the length of the stored ones.

Clock readings, and what is only passed on to the output (TTL, size, window), are not
part of the model.
-/

namespace CloudPing

namespace Tcping

open Conc

/-- What the program reads of a TCP header. -/
structure TCP where
  srcPort : UInt16
  dstPort : UInt16
  syn : Bool
  ack : Bool
  deriving DecidableEq, Repr

/-- A packet from the raw socket. -/
structure PacketInfo where
  srcIP : IP
  dstIP : IP
  tcp : TCP
  deriving DecidableEq, Repr

structure FilterRequirements where
  syn : Option Bool := none
  ack : Option Bool := none
  srcPort : Option Int := none

/-- `FilterPackets` passes the packet. -/
def FilterRequirements.passes (requirements : FilterRequirements) (pktInfo : PacketInfo) : Bool :=
  requirements.syn.all (pktInfo.tcp.syn = ·) && requirements.ack.all (pktInfo.tcp.ack = ·) &&
    requirements.srcPort.all ((pktInfo.tcp.srcPort.toNat : Int) = ·)

structure TCPSYNRequest where
  dstIP : IP
  dstPort : Int
  timeout : Duration
  deriving DecidableEq, Repr

/-- What is known of a SYN packet that was sent. -/
structure TCPSYNSentReceipt where
  seq : Int
  srcIP : IP
  srcPort : Int
  request : TCPSYNRequest
  receivedPkt : Option PacketInfo := none
  deriving DecidableEq, Repr

inductive TrackerEventType where
  | timeout
  | received
  deriving DecidableEq, Repr

structure TrackerEvent where
  type : TrackerEventType
  details : TCPSYNSentReceipt
  deriving DecidableEq, Repr

/-! ## Keys -/

abbrev Key := List UInt8

/-- The two bytes of a port, most significant first. -/
def encodePort (port : Int) : Option (List UInt8) :=
  if port < 0 ∨ 65535 < port then none
  else some [UInt8.ofNat (port.toNat / 256), UInt8.ofNat port.toNat]

/-- The key of a flow.  The family of the source decides that of both addresses. -/
def buildKey (srcIP : IP) (srcPort : Int) (dstIP : IP) (dstPort : Int) : Option Key := do
  let src ← encodePort srcPort
  let dst ← encodePort dstPort
  match IP.to4 srcIP with
  | none => some ((IP.to16 srcIP).getD [] ++ src ++ (IP.to16 dstIP).getD [] ++ dst)
  | some srcIP => some (srcIP ++ src ++ (IP.to4 dstIP).getD [] ++ dst)

def TCPSYNSentReceipt.key (receipt : TCPSYNSentReceipt) : Option Key :=
  buildKey receipt.srcIP receipt.srcPort receipt.request.dstIP receipt.request.dstPort

/-- The key of the flow a reply belongs to: its addresses and ports in reverse. -/
def PacketInfo.key (receivedPkt : PacketInfo) : Option Key :=
  buildKey receivedPkt.dstIP receivedPkt.tcp.dstPort.toNat receivedPkt.srcIP
    receivedPkt.tcp.srcPort.toNat

theorem encodePort_isSome {port : Int} : (encodePort port).isSome ↔ 0 ≤ port ∧ port ≤ 65535 := by
  unfold encodePort
  split
  next h => simp only [Option.isSome_none, Bool.false_eq_true, false_iff]; omega
  next h => simp only [Option.isSome_some, true_iff]; omega

/-- Only a port that is out of range makes `buildKey` panic. -/
theorem buildKey_isSome {srcIP dstIP : IP} {srcPort dstPort : Int} :
    (buildKey srcIP srcPort dstIP dstPort).isSome ↔
      (0 ≤ srcPort ∧ srcPort ≤ 65535) ∧ 0 ≤ dstPort ∧ dstPort ≤ 65535 := by
  rw [← encodePort_isSome, ← encodePort_isSome]
  unfold buildKey
  cases encodePort srcPort with
  | none => simp
  | some src =>
    cases encodePort dstPort with
    | none => simp
    | some dst => cases IP.to4 srcIP <;> simp

/-- A packet that was received has a key. -/
theorem PacketInfo.key_isSome (receivedPkt : PacketInfo) : receivedPkt.key.isSome := by
  have h₁ := receivedPkt.tcp.dstPort.toNat_lt
  have h₂ := receivedPkt.tcp.srcPort.toNat_lt
  exact buildKey_isSome.2 ⟨by omega, by omega⟩

/-- A reply to a SYN packet has its key. -/
theorem buildKey_reply {receipt : TCPSYNSentReceipt} {receivedPkt : PacketInfo}
    (hd : receivedPkt.dstIP = receipt.srcIP) (hs : receivedPkt.srcIP = receipt.request.dstIP)
    (hdp : (receivedPkt.tcp.dstPort.toNat : Int) = receipt.srcPort)
    (hsp : (receivedPkt.tcp.srcPort.toNat : Int) = receipt.request.dstPort) :
    receivedPkt.key = receipt.key := by
  rw [PacketInfo.key, TCPSYNSentReceipt.key, hd, hs, hdp, hsp]

/-! ## The functions of the service requests -/

structure Tracker where
  store : Store Key TCPSYNSentReceipt
  counter : Int

structure TrackerConfig where
  initialSeq : Option Int := none

def NewTracker (config : TrackerConfig) : Tracker := ⟨∅, config.initialSeq.getD 0⟩

namespace Tracker

/-- The tree can compare the key with the stored ones: they are of one length. -/
def comparable (tk : Tracker) (key : Key) : Bool := tk.store.keys.all (·.length = key.length)

/-- The function of `MarkSent`. -/
def markSent (tk : Tracker) (key : Key) (sentReceipt : TCPSYNSentReceipt) : Option Tracker :=
  if tk.comparable key then
    some
      { store := tk.store.insert key { sentReceipt with seq := tk.counter }
        counter := tk.counter + 1 }
  else none

/-- `store.Delete`: the entry of the key and the tracker without it. -/
def delete (tk : Tracker) (key : Key) : Option (Option TCPSYNSentReceipt × Tracker) :=
  if tk.comparable key then some (tk.store.lookup key, { tk with store := tk.store.erase key })
  else none

/-- The function of `handleTimeout` up to its send on `EventC`. -/
def handleTimeout (tk : Tracker) (key : Key) : Option (Option TrackerEvent × Tracker) :=
  (tk.delete key).map fun (ent, tk) => (ent.map fun value => ⟨.timeout, value⟩, tk)

/-- The function of `MarkReceived` up to its send on `EventC`. -/
def markReceived (tk : Tracker) (key : Key) (receivedPkt : PacketInfo) :
    Option (Option TrackerEvent × Tracker) :=
  (tk.delete key).map fun (ent, tk) =>
    (ent.map fun value => ⟨.received, { value with receivedPkt := some receivedPkt }⟩, tk)

/-- All stored keys are of one length. -/
def Uniform (tk : Tracker) : Prop := ∀ k ∈ tk.store, ∀ k' ∈ tk.store, k.length = k'.length

variable {tk tk' : Tracker} {key : Key}

theorem comparable_iff : tk.comparable key = true ↔ ∀ k ∈ tk.store, k.length = key.length := by
  simp only [comparable, List.all_eq_true, decide_eq_true_eq]
  rfl

theorem Uniform.new (config : TrackerConfig) : Uniform (NewTracker config) := by
  intro k hk
  cases hk

/-- A stored key is comparable. -/
theorem Uniform.comparable (h : tk.Uniform) (hk : key ∈ tk.store) : tk.comparable key = true :=
  comparable_iff.2 fun k hk' => h k hk' key hk

theorem uniform_of_markSent {sentReceipt : TCPSYNSentReceipt}
    (hm : tk.markSent key sentReceipt = some tk') : tk'.Uniform := by
  obtain ⟨hc, hm⟩ := Option.ite_none_right_eq_some.1 hm
  cases hm
  have hlen : ∀ k ∈ tk.store.insert key { sentReceipt with seq := tk.counter },
      k.length = key.length := by
    intro k hk
    rcases (AList.mem_insert tk.store).1 hk with rfl | hk
    · rfl
    · exact comparable_iff.1 hc k hk
  exact fun k hk k' hk' => (hlen k hk).trans (hlen k' hk').symm

/-- The entry that is deleted is the one of the key. -/
theorem delete_eq_some {ent : Option TCPSYNSentReceipt} (h : tk.delete key = some (ent, tk')) :
    tk.store.lookup key = ent ∧ tk' = { tk with store := tk.store.erase key } := by
  obtain ⟨_, h⟩ := Option.ite_none_right_eq_some.1 h
  cases h
  exact ⟨rfl, rfl⟩

theorem Uniform.delete {ent : Option TCPSYNSentReceipt} (h : tk.Uniform)
    (hd : tk.delete key = some (ent, tk')) : tk'.Uniform := by
  obtain ⟨-, rfl⟩ := delete_eq_some hd
  have hsub : ∀ k ∈ tk.store.erase key, k ∈ tk.store := fun k hk => (AList.mem_erase.1 hk).2
  exact fun k hk k' hk' => h k (hsub k hk) k' (hsub k' hk')

/-- A stored entry is found, and deleted. -/
theorem delete_of_lookup {value : TCPSYNSentReceipt} (h : tk.Uniform)
    (hl : tk.store.lookup key = some value) :
    tk.delete key = some (some value, { tk with store := tk.store.erase key }) := by
  rw [delete, if_pos (h.comparable (Store.mem_of_lookup hl)), hl]

/-- The event of `handleTimeout` is made of the entry that it deletes. -/
theorem handleTimeout_deleted {ev : Option TrackerEvent}
    (h : tk.handleTimeout key = some (ev, tk')) :
    ∃ ent, tk.delete key = some (ent, tk') ∧ ent.map (⟨.timeout, ·⟩) = ev := by
  obtain ⟨⟨ent, tk₁⟩, hd, he⟩ := Option.map_eq_some_iff.1 h
  cases he
  exact ⟨ent, hd, rfl⟩

theorem markReceived_deleted {receivedPkt : PacketInfo} {ev : Option TrackerEvent}
    (h : tk.markReceived key receivedPkt = some (ev, tk')) :
    ∃ ent, tk.delete key = some (ent, tk') ∧
      ent.map (fun value => ⟨.received, { value with receivedPkt := some receivedPkt }⟩) = ev := by
  obtain ⟨⟨ent, tk₁⟩, hd, he⟩ := Option.map_eq_some_iff.1 h
  cases he
  exact ⟨ent, hd, rfl⟩

/-- `handleTimeout` yields an event only for a stored entry. -/
theorem handleTimeout_eq_some {ev : Option TrackerEvent}
    (h : tk.handleTimeout key = some (ev, tk')) :
    (∃ ent, tk.delete key = some (ent, tk')) ∧
      (ev.isSome = true → (tk.store.lookup key).isSome = true) := by
  obtain ⟨ent, hd, rfl⟩ := handleTimeout_deleted h
  refine ⟨⟨ent, hd⟩, fun hev => ?_⟩
  rwa [(delete_eq_some hd).1, ← Option.isSome_map]

/-- `MarkReceived` yields an event only for a stored entry. -/
theorem markReceived_eq_some {receivedPkt : PacketInfo} {ev : Option TrackerEvent}
    (h : tk.markReceived key receivedPkt = some (ev, tk')) :
    (∃ ent, tk.delete key = some (ent, tk')) ∧
      (ev.isSome = true → (tk.store.lookup key).isSome = true) := by
  obtain ⟨ent, hd, rfl⟩ := markReceived_deleted h
  refine ⟨⟨ent, hd⟩, fun hev => ?_⟩
  rwa [(delete_eq_some hd).1, ← Option.isSome_map]

end Tracker

end Tcping

end CloudPing
