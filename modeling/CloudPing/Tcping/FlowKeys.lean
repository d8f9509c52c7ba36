import CloudPing.Tcping.Tracker
import CloudPing.Utils.Offset
import Mathlib.Data.List.Basic

/-!
# Keys of flows

`buildKey` writes the addresses and ports of a flow one behind the other, without anything between
them.  In a flow of one family both addresses are written in as many bytes, and so the fields are
read back from the key (`key_eq_iff`).  Keys of one family are equally long, and keys of different
families are not.

`TrackEntry.Less` compares keys that are equally long as sequences of bytes (`totallyOrdered`).
-/

namespace CloudPing.Tcping

open Utils

/-! ## Flows -/

inductive Family where
  | ipv4
  | ipv6

/-- The bytes of an address in a key. -/
def Family.size : Family → Nat
  | .ipv4 => 4
  | .ipv6 => 16

/-- An address of IPv4 has four bytes, or sixteen that map one. -/
def Family.Has : Family → IP → Prop
  | .ipv4, ip => (IP.to4 ip).isSome = true
  | .ipv6, ip => ip.length = 16 ∧ IP.to4 ip = none

structure FourTuple where
  srcIP : IP
  srcPort : Int
  dstIP : IP
  dstPort : Int

namespace FourTuple

/-- Both addresses are of the family, and the ports are in range. -/
structure Proper (t : FourTuple) (family : Family) : Prop where
  src : family.Has t.srcIP
  dst : family.Has t.dstIP
  srcPort : 0 ≤ t.srcPort ∧ t.srcPort ≤ 65535
  dstPort : 0 ≤ t.dstPort ∧ t.dstPort ≤ 65535

/-- The addresses in the form of their family. -/
def normalised (t : FourTuple) : FourTuple :=
  { t with srcIP := normal t.srcIP, dstIP := normal t.dstIP }

def reverse (t : FourTuple) : FourTuple := ⟨t.dstIP, t.dstPort, t.srcIP, t.srcPort⟩

def key (t : FourTuple) : Option Key := buildKey t.srcIP t.srcPort t.dstIP t.dstPort

end FourTuple

/-- The flow of a packet that was sent. -/
def TCPSYNSentReceipt.flow (receipt : TCPSYNSentReceipt) : FourTuple :=
  ⟨receipt.srcIP, receipt.srcPort, receipt.request.dstIP, receipt.request.dstPort⟩

/-- The flow of a packet that was received. -/
def PacketInfo.flow (receivedPkt : PacketInfo) : FourTuple :=
  ⟨receivedPkt.srcIP, receivedPkt.tcp.srcPort.toNat, receivedPkt.dstIP,
    receivedPkt.tcp.dstPort.toNat⟩

/-! ## Entries -/

structure TrackEntry where
  key : Key
  value : Option TCPSYNSentReceipt := none

/-- `none` for the panic on keys of different lengths. -/
def TrackEntry.less (tent otherEntry : TrackEntry) : Option Bool :=
  if tent.key.length ≠ otherEntry.key.length then none
  else some (decide (tent.key < otherEntry.key))

/-- `less` is a strict total order of the entries with such keys, and does not panic on them. -/
structure TotallyOrdered (K : Key → Prop) : Prop where
  isSome : ∀ a b : TrackEntry, K a.key → K b.key → (a.less b).isSome = true
  irrefl : ∀ a : TrackEntry, K a.key → a.less a = some false
  trans : ∀ a b c : TrackEntry, K a.key → K b.key → K c.key →
    a.less b = some true → b.less c = some true → a.less c = some true
  total : ∀ a b : TrackEntry, K a.key → K b.key →
    a.less b = some true ∨ a.key = b.key ∨ b.less a = some true

/-! ## The parts of a key -/

variable {family family' : Family} {ip : IP} {t t' : FourTuple}

theorem Family.Has.length_normal (h : family.Has ip) : (normal ip).length = family.size := by
  cases family with
  | ipv4 =>
    obtain ⟨ip4, h4⟩ := Option.isSome_iff_exists.1 h
    rw [normal_of_to4 h4]
    exact length_of_to4 h4
  | ipv6 =>
    rw [normal, h.2]
    exact h.1

/-- The two bytes of a port in range. -/
def portBytes (port : Int) : List UInt8 :=
  [UInt8.ofNat (port.toNat / 256), UInt8.ofNat port.toNat]

theorem encodePort_eq {port : Int} (h : 0 ≤ port ∧ port ≤ 65535) :
    encodePort port = some (portBytes port) := by
  rw [encodePort, if_neg (by omega), portBytes]

/-- A port is read back from its bytes. -/
theorem portBytes_inj {port port' : Int} (h : 0 ≤ port ∧ port ≤ 65535)
    (h' : 0 ≤ port' ∧ port' ≤ 65535) (heq : portBytes port = portBytes port') : port = port' := by
  obtain ⟨hhigh, hlow⟩ := List.cons.inj heq
  have hhigh := congrArg UInt8.toNat hhigh
  have hlow := congrArg UInt8.toNat (List.cons.inj hlow).1
  simp only [UInt8.toNat_ofNat'] at hhigh hlow
  omega

/-- What a key is made of. -/
theorem FourTuple.Proper.key_eq (h : t.Proper family) :
    t.key = some (normal t.srcIP ++ portBytes t.srcPort ++ normal t.dstIP ++
      portBytes t.dstPort) := by
  rw [key, buildKey, encodePort_eq h.srcPort, encodePort_eq h.dstPort]
  cases family with
  | ipv4 =>
    obtain ⟨src4, hsrc⟩ := Option.isSome_iff_exists.1 h.src
    obtain ⟨dst4, hdst⟩ := Option.isSome_iff_exists.1 h.dst
    simp [hsrc, hdst, normal]
  | ipv6 =>
    obtain ⟨hsrc, hsrc4⟩ := h.src
    obtain ⟨hdst, hdst4⟩ := h.dst
    simp [hsrc4, hdst4, normal, IP.to16, hsrc, hdst]

theorem FourTuple.Proper.length_key (h : t.Proper family) {key : Key} (hkey : t.key = some key) :
    key.length = 2 * family.size + 4 := by
  rw [h.key_eq, Option.some.injEq] at hkey
  rw [← hkey]
  simp only [List.length_append, h.src.length_normal, h.dst.length_normal, portBytes,
    List.length_cons, List.length_nil]
  omega

/-! ## Keys that are equal -/

/-- The fields are read back from the key. -/
theorem key_eq_iff (h : t.Proper family) (h' : t'.Proper family') :
    t.key = t'.key ↔ t.normalised = t'.normalised := by
  constructor
  · intro heq
    have hlen := h.length_key h.key_eq
    rw [h'.length_key (heq ▸ h.key_eq)] at hlen
    have hsize : family.size = family'.size := by omega
    rw [h.key_eq, h'.key_eq, Option.some.injEq] at heq
    simp only [List.append_assoc] at heq
    obtain ⟨hsrc, heq⟩ := List.append_inj heq
      (by rw [h.src.length_normal, h'.src.length_normal, hsize])
    obtain ⟨hsrcPort, heq⟩ := List.append_inj heq rfl
    obtain ⟨hdst, hdstPort⟩ := List.append_inj heq
      (by rw [h.dst.length_normal, h'.dst.length_normal, hsize])
    rw [FourTuple.normalised, FourTuple.normalised, hsrc, hdst,
      portBytes_inj h.srcPort h'.srcPort hsrcPort, portBytes_inj h.dstPort h'.dstPort hdstPort]
  · intro heq
    rw [FourTuple.normalised, FourTuple.normalised, FourTuple.mk.injEq] at heq
    obtain ⟨hsrc, hsrcPort, hdst, hdstPort⟩ := heq
    rw [h.key_eq, h'.key_eq, hsrc, hsrcPort, hdst, hdstPort]

/-! ## The order of keys -/

/-- Keys that are equally long. -/
theorem totallyOrdered {K : Key → Prop} {n : Nat} (h : ∀ key, K key → key.length = n) :
    TotallyOrdered K := by
  have hless : ∀ a b : TrackEntry, K a.key → K b.key →
      a.less b = some (decide (a.key < b.key)) := by
    intro a b ha hb
    rw [TrackEntry.less, if_neg (not_not.2 ((h _ ha).trans (h _ hb).symm))]
  have hlt : ∀ a b : TrackEntry, K a.key → K b.key → (a.less b = some true ↔ a.key < b.key) := by
    intro a b ha hb
    rw [hless a b ha hb, Option.some.injEq, decide_eq_true_iff]
  refine ⟨fun a b ha hb => ?_, fun a ha => ?_, fun a b c ha hb hc hab hbc => ?_,
    fun a b ha hb => ?_⟩
  · rw [hless a b ha hb]
    rfl
  · rw [hless a a ha ha, decide_eq_false (List.lt_irrefl a.key)]
  · exact (hlt a c ha hc).2 (List.lt_trans ((hlt a b ha hb).1 hab) ((hlt b c hb hc).1 hbc))
  · rw [hlt a b ha hb, hlt b a hb ha]
    by_cases hab : a.key < b.key
    · exact .inl hab
    · by_cases hba : b.key < a.key
      · exact .inr (.inr hba)
      · exact .inr (.inl (List.le_antisymm (List.not_lt.1 hba) (List.not_lt.1 hab)))

/-! ## Packets and their replies -/

theorem PacketInfo.key_reverse (receivedPkt : PacketInfo) :
    receivedPkt.key = receivedPkt.flow.reverse.key := rfl

theorem FourTuple.Proper.reverse (h : t.Proper family) : t.reverse.Proper family :=
  ⟨h.dst, h.src, h.dstPort, h.srcPort⟩

/-- Keys say what flow they are of, the keys of a family are ordered, and a packet has the key of a
sent one exactly if its flow is the reverse. -/
theorem flowKeys_exact :
    (∀ t t' : FourTuple, ∀ family family', t.Proper family → t'.Proper family' →
      (t.key = t'.key ↔ t.normalised = t'.normalised)) ∧
    (∀ family : Family, ∃ n, (∀ t : FourTuple, t.Proper family →
        ∃ key, t.key = some key ∧ key.length = n) ∧
      TotallyOrdered fun key => ∃ t : FourTuple, t.Proper family ∧ t.key = some key) ∧
    ∀ (receipt : TCPSYNSentReceipt) (receivedPkt : PacketInfo) (family family' : Family),
      receipt.flow.Proper family → receivedPkt.flow.Proper family' →
        (receivedPkt.key = receipt.key ↔
          receivedPkt.flow.normalised = receipt.flow.normalised.reverse) := by
  refine ⟨fun t t' family family' h h' => key_eq_iff h h',
    fun family => ⟨2 * family.size + 4, fun t h => ⟨_, h.key_eq, h.length_key h.key_eq⟩, ?_⟩, ?_⟩
  · refine totallyOrdered (n := 2 * family.size + 4) fun key hkey => ?_
    obtain ⟨t, h, hkey⟩ := hkey
    exact h.length_key hkey
  · intro receipt receivedPkt family family' h h'
    rw [receivedPkt.key_reverse]
    refine (key_eq_iff h'.reverse h).trans ⟨fun heq => ?_, fun heq => ?_⟩
    · exact congrArg FourTuple.reverse heq
    · exact congrArg FourTuple.reverse heq

/-- A packet to `8.8.8.8`, whose source address is in sixteen bytes. -/
def dnsReceipt : TCPSYNSentReceipt where
  seq := 0
  srcIP := [0, 0, 0, 0, 0, 0, 0, 0, 0, 0, 255, 255, 10, 0, 0, 1]
  srcPort := 40000
  request := ⟨[8, 8, 8, 8], 53, 0⟩

def dnsReply : PacketInfo := ⟨[8, 8, 8, 8], [10, 0, 0, 1], ⟨53, 40000, true, true⟩⟩

theorem flowKeys_dnsReply : dnsReply.key = dnsReceipt.key :=
  (flowKeys_exact.2.2 dnsReceipt dnsReply .ipv4 .ipv4 ⟨rfl, rfl, by decide, by decide⟩
    ⟨rfl, rfl, by decide, by decide⟩).2 rfl

end CloudPing.Tcping
