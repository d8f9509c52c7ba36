import CloudPing.Handler.ClampBounds
import CloudPing.Pinger.PacketCount
import CloudPing.Pinger.ScanAccounting
import CloudPing.Pinger.SYNCount

/-!
# How many packets a clamped request costs

The hub clamps the number of packets of a request from above (`clampTotalPkts`).  An agent
that serves a derived request stops when that number is reached, by an equality test.  So a
number below one passes the clamp and is never reached.  For a number from one on the bound
is that of the pinger: `paced` for the ICMP and UDP pinger, `inTime` for the TCP pinger.  A
target that is a network goes to the block scanner, which does not look at the number and
sends one packet to each address.
-/

namespace CloudPing.Pinger

open Conc Raw

/-! ## The pingers -/

namespace PingRun

variable {config : PingConfig} {s t : PingRun} {a : PingAction}

/-- One while a packet is marked sent and not yet handed to the transceiver. -/
def onHand (s : PingRun) : Nat :=
  match s.snd with
  | .sending _ => 1
  | _ => 0

/-- Every packet is marked sent before it is handed to the transceiver. -/
theorem wire_move (h : s.wire.length + s.onHand ≤ s.trk.sent.length) (hm : Move config s a t) :
    t.wire.length + t.onHand ≤ t.trk.sent.length := by
  cases hm with
  | tracker hi hst =>
    rw [(ICMPTrackerRun.step_move hst).sent_of_own hi]
    exact h
  | tookEvent he ht =>
    rw [(ICMPTrackerRun.take_move ht).1.sent_eq (by simp)]
    exact h
  | markedReceived hs hr =>
    rw [(ICMPTrackerRun.markReceived_move hr).sent_eq (by simp)]
    exact Nat.le_trans (Nat.add_le_add_left (Nat.zero_le _) _) h
  | markedSent hs hr =>
    obtain ⟨_, it, _, rfl⟩ := ICMPTrackerRun.serve_map_ok hr
    simp only [onHand, List.length_append, List.length_singleton]
    omega
  | forgot hs hr =>
    rw [(ICMPTrackerRun.forgetAllAndClose_move hr).sent_eq (by simp)]
    exact Nat.le_trans (Nat.add_le_add_left (Nat.zero_le _) _) h
  | wrote hs hi =>
    simp only [onHand, hs, List.length_append, List.length_singleton] at h ⊢
    exact h
  | stopped | finished | handled | outputted | asked | unfinished | paused | signalled | crashed
  | replied | ioStopped => exact h
  | left | tookErr | tookRunErr | tookReply | tookSignal | closedCh =>
    exact Nat.le_trans (Nat.add_le_add_left (Nat.zero_le _) _) h

theorem wire_le {ok : Policy PingRun PingAction} (h : (system config).Reachable ok s) :
    s.wire.length ≤ s.trk.sent.length := by
  have hinv : s.wire.length + s.onHand ≤ s.trk.sent.length :=
    h.invariant (Nat.le_refl 0) fun _ _ _ hs _ hst => wire_move hs (step_move hst)
  omega

end PingRun

namespace ScanRun

variable {config : ScanConfig} {s t : ScanRun} {a : ScanAction}

/-- One while the main loop is at work on an address. -/
def atWork (s : ScanRun) : Nat :=
  match s.main with
  | .markingSent _ _ | .adding _ | .sending _ => 1
  | _ => 0

/-- The packets sent and the addresses to come are the addresses of the network. -/
theorem scanned_move {n : Nat} (h : s.numPktsSent + s.atWork + s.addresses.length ≤ n)
    (hm : Move s a t) : t.numPktsSent + t.atWork + t.addresses.length ≤ n := by
  cases hm with
  | rejected hm | sentErr hm | launched hm | woke hm | settledAll hm | gaveUp hm | closed hm =>
    simp only [atWork, hm] at h ⊢
    exact h
  | ended hm =>
    simp only [atWork]
    omega
  | tookAddress hm hd =>
    simp only [atWork, hm, hd, List.length_cons] at h ⊢
    omega
  | markedSent hm | added hm =>
    simp only [atWork, hm] at h ⊢
    exact h
  | passed hm hi =>
    simp only [atWork, hm] at h ⊢
    omega
  | _ => exact h

/-- A scan sends no more packets than its network has addresses. -/
theorem scanned_le {ok : Policy ScanRun ScanAction} (h : (system config).Reachable ok s) :
    s.numPktsSent ≤ config.addresses.length := by
  have hinv : s.numPktsSent + s.atWork + s.addresses.length ≤ config.addresses.length :=
    h.invariant (by simp [start, system, atWork]) fun _ _ _ hs _ hst => scanned_move hs (step_move hst)
  omega

end ScanRun

/-! ## What a request costs -/

/-- The pinger that an agent brings up for the target of a request.  The number of packets
reaches the agent as the decimal text of a query parameter. -/
inductive TargetPing (request : SimplePingRequest) where
  | icmp (config : PingConfig)
      (h : config.totalPkts = request.totalPkts.map Int64.toInt)
  | tcp (config : SYNConfig) (h : config.totalPkts = request.totalPkts.map Int64.toInt)
  | scan (config : ScanConfig)

namespace TargetPing

variable {request : SimplePingRequest}

/-- Some run, under a policy for each pinger, sends that many packets. -/
def Sends (icmpOk : Policy PingRun PingAction) (tcpOk : Policy SYNRun SYNAction) (k : Nat) :
    TargetPing request → Prop
  | .icmp config _ => ∃ s, (PingRun.system config).Reachable icmpOk s ∧ s.wire.length = k
  | .tcp config _ =>
    ∃ x, (SYNRun.counted config).Reachable (fun x a => tcpOk x.1 a) x ∧ x.2 = k
  | .scan config =>
    ∃ s, (ScanRun.system config).Reachable Policy.any s ∧ s.numPktsSent = k

/-- A network has no more addresses than the number says. -/
def Fits (n : Nat) : TargetPing request → Prop
  | .scan config => config.addresses.length ≤ n
  | .icmp _ _ | .tcp _ _ => True

/-- The pingers keep a number of packets from one on. -/
theorem sends_le {n c k : Nat} (hn : 1 ≤ n) (hc : n ≤ c)
    (ht : request.totalPkts.map Int64.toInt = some (n : Int)) {p : TargetPing request}
    (hfits : p.Fits c) (h : p.Sends (PingRun.paced n) SYNRun.inTime k) : k ≤ c := by
  cases p with
  | icmp config hconfig =>
    obtain ⟨s, hr, rfl⟩ := h
    have hcount := PingRun.paced_of hr hn (hconfig.trans ht)
    exact Nat.le_trans (PingRun.wire_le hr) (Nat.le_trans hcount.sentLe hc)
  | tcp config hconfig =>
    obtain ⟨x, hr, rfl⟩ := h
    exact Nat.le_trans (SYNRun.written_le hn (hconfig.trans ht) hr) hc
  | scan config =>
    obtain ⟨s, hr, hk⟩ := h
    have hle := ScanRun.scanned_le hr
    have hlen : config.addresses.length ≤ c := hfits
    omega

/-- A TCP ping of 192.0.2.1 that has the number of packets of the request. -/
def sampleTCP (request : SimplePingRequest) : SYNConfig where
  dstIP := [192, 0, 2, 1]
  dstPort := 80
  timeout := 0
  totalPkts := request.totalPkts.map Int64.toInt
  tickBuffer := 1
  throttled := false

end TargetPing

end CloudPing.Pinger

namespace CloudPing.Handler

open Conc
open CloudPing.Nodereg CloudPing.Pinger CloudPing.Utils

namespace PingTaskHandler

/-! ## What the clamp lets through -/

theorem clampTotalPkts_of_lt {n c : Int64} (hn : n.toInt < 1) (hc : 1 ≤ c.toInt) :
    clampTotalPkts (some n) (some c) = some n := by
  rw [clampTotalPkts, if_neg]
  rw [gt_iff_lt, Int64.lt_iff_toInt_lt]
  omega

/-- A number from one on, or none, is clamped to one between one and the clamp. -/
theorem clampTotalPkts_of_le {totalPkts : Option Int64} {c : Int64} (hc : 1 ≤ c.toInt)
    (hcount : ∀ n, totalPkts = some n → 1 ≤ n.toInt) :
    ∃ m, clampTotalPkts totalPkts (some c) = some m ∧ 1 ≤ m.toInt ∧ m.toInt ≤ c.toInt := by
  cases totalPkts with
  | none => exact ⟨c, rfl, hc, Int.le_refl _⟩
  | some n =>
    rw [clampTotalPkts]
    split
    next => exact ⟨c, rfl, hc, Int.le_refl _⟩
    next hle =>
      rw [gt_iff_lt, Int64.lt_iff_toInt_lt] at hle
      exact ⟨n, rfl, hcount n rfl, Int.not_lt.1 hle⟩

/-! ## The promise -/

/-- The number of packets that a request asks for. -/
def pktCount (request : SimplePingRequest) : Nat :=
  (request.totalPkts.map fun n => n.toInt.toNat).getD 0

/-- Of every started request, the pingers that are paced and in time send no more packets
than the clamp, exactly if the client asked for a number from one on, or for none. -/
theorem packets_within_clamp (handler : PingTaskHandler) (net : Net) (remoteAddr : String)
    (walks : Nat → Nat → Option (List ConnRegistryData)) (form : SimplePingRequest) (c : Int64)
    (hclamp : handler.pktCountClamp = some c) (hc : 1 ≤ c.toInt)
    (started : SimpleRemotePinger × List (String × String))
    (hstarted : started ∈ (handler.serveHTTP net remoteAddr walks (.ok form)).started) :
    (∀ (p : TargetPing started.1.request) (k : Nat), p.Fits c.toInt.toNat →
        p.Sends (PingRun.paced (pktCount started.1.request)) SYNRun.inTime k →
          (k : Int) ≤ c.toInt) ↔
      ∀ n, form.totalPkts = some n → 1 ≤ n.toInt := by
  have htotal : started.1.request.totalPkts = clampTotalPkts form.totalPkts (some c) := by
    rw [(numbers_of_started hstarted).2.2, ← hclamp]
    rfl
  constructor
  · intro h n hn
    by_contra hlt
    have hkept := clampTotalPkts_of_lt (Int.not_le.1 hlt) hc
    have hlast : ∀ m, (TargetPing.sampleTCP started.1.request).totalPkts = some m → m < 1 := by
      intro m hm
      rw [TargetPing.sampleTCP, htotal, hn, hkept] at hm
      cases hm
      omega
    obtain ⟨key, hkey⟩ : ∃ key, ((TargetPing.sampleTCP started.1.request).receipt
        [192, 0, 2, 9] 40000).key = some key := ⟨_, rfl⟩
    have hle := h (.tcp (TargetPing.sampleTCP started.1.request) rfl) (c.toInt.toNat + 1) trivial
      (SYNRun.writes_any Nat.one_pos hlast hkey _)
    omega
  · intro hcount p k hfits hk
    obtain ⟨m, hm, hpos, hle⟩ := clampTotalPkts_of_le hc hcount
    have hcnt : pktCount started.1.request = m.toInt.toNat := by
      rw [pktCount, htotal, hm]
      rfl
    rw [hcnt] at hk
    have hmap : started.1.request.totalPkts.map Int64.toInt = some (m.toInt.toNat : Int) := by
      rw [htotal, hm, Option.map_some, Int.toNat_of_nonneg (by omega)]
    have hle' := TargetPing.sends_le (c := c.toInt.toNat) (by omega) (by omega) hmap hfits hk
    omega

/-- A hub that allows two packets. -/
def countingHandler : PingTaskHandler where
  pktCountClamp := some 2

/-- A client that asks for no number of packets gets two. -/
theorem packets_within_clamp_default :
    ∃ started ∈ (countingHandler.serveHTTP deafNet "192.0.2.9" (fun _ _ => some [pingAgent])
        (.ok (pingForm 1000 3000))).started,
      ∀ (p : TargetPing started.1.request) (k : Nat), p.Fits 2 →
        p.Sends (PingRun.paced (pktCount started.1.request)) SYNRun.inTime k → (k : Int) ≤ 2 := by
  have hne : (countingHandler.serveHTTP deafNet "192.0.2.9" (fun _ _ => some [pingAgent])
      (.ok (pingForm 1000 3000))).started.any (fun _ => true) = true := by decide +kernel
  obtain ⟨started, hstarted, _⟩ := List.any_eq_true.1 hne
  have hiff := packets_within_clamp countingHandler deafNet "192.0.2.9"
    (fun _ _ => some [pingAgent]) (pingForm 1000 3000) 2 rfl (by decide) started hstarted
  exact ⟨started, hstarted, hiff.2 fun n hn => by cases hn⟩

/-- A client that asks for no packet gets more than two. -/
theorem zero_count_exceeds :
    ∃ started ∈ (countingHandler.serveHTTP deafNet "192.0.2.9" (fun _ _ => some [pingAgent])
        (.ok { pingForm 1000 3000 with totalPkts := some 0 })).started,
      ∃ p : TargetPing started.1.request, p.Sends Policy.any Policy.any 3 := by
  have hany : ((countingHandler.serveHTTP deafNet "192.0.2.9" (fun _ _ => some [pingAgent])
      (.ok { pingForm 1000 3000 with totalPkts := some 0 })).started.any fun started =>
        started.1.request.totalPkts = some 0) = true := by decide +kernel
  obtain ⟨started, hstarted, hzero⟩ := List.any_eq_true.1 hany
  have hlast : ∀ m, (TargetPing.sampleTCP started.1.request).totalPkts = some m → m < 1 := by
    intro m hm
    rw [TargetPing.sampleTCP, of_decide_eq_true hzero] at hm
    cases hm
    decide
  obtain ⟨key, hkey⟩ : ∃ key, ((TargetPing.sampleTCP started.1.request).receipt
      [192, 0, 2, 9] 40000).key = some key := ⟨_, rfl⟩
  obtain ⟨x, hr, hx⟩ := SYNRun.writes_any Nat.one_pos hlast hkey 3
  exact ⟨started, hstarted, .tcp (TargetPing.sampleTCP started.1.request) rfl, x, hr.any, hx⟩

end PingTaskHandler

end CloudPing.Handler
