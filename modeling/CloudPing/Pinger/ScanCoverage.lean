import Mathlib.Data.List.Forall2
import CloudPing.Pinger.ScanProgress
import CloudPing.Utils.MemberAddrs

/-!
# What a block scan covers

The main loop takes the addresses in the order they come and gives the next number to each,
so the packet with number `k` goes to the address at place `k - 1` (`ScanConfig.target`).
The tracker keeps the destination with the number, and every result on `ch` names the
destination of its packet, whatever the order of replies and timeouts.

With one event for each packet, a scan that ends on its own has reported every address, and
none of them twice (`scan_complete`).
-/

namespace CloudPing.Pinger

open Conc Raw Utils

/-- Where the packet with a sequence number goes. -/
def ScanConfig.target (config : ScanConfig) (seq : Int) : Option IPAddr :=
  config.addresses[(seq - 1).toNat]?.map fun ip => ⟨ip, ""⟩

/-- The first sequence numbers. -/
def firstSeqs (n : Nat) : List Int := (List.range n).map fun i : Nat => (i : Int) + 1

theorem firstSeqs_succ (n : Nat) : firstSeqs (n + 1) = firstSeqs n ++ [(n : Int) + 1] := by
  rw [firstSeqs, List.range_succ, List.map_append]
  rfl

/-- An address that the main loop has taken and has still to mark sent. -/
def ScanPC.picked : ScanPC → List IP
  | .markingSent dst _ => [dst]
  | _ => []

/-- The network has still to be checked, or was found bad. -/
def ScanPC.checking : ScanPC → Bool
  | .setup | .rejecting _ => true
  | _ => false

namespace ScanRun

variable {config : ScanConfig} {s t : ScanRun} {a : ScanAction}

/-- The network was refused with an error. -/
structure Refused (s : ScanRun) : Prop where
  sent : s.trk.sent = []
  drain : s.drain = .returned
  ended : s.main.ended = true
  output : ∃ err, s.output = [.error err]

/-- A result names the destination of its packet. -/
def Reports (config : ScanConfig) (seq : Int) (res : Except String IPProbeEvent) : Prop :=
  ∃ rtt, res = .ok ⟨rtt, config.target seq⟩

/-- The packets go out in the order of the addresses, and the results name them. -/
structure Covers (config : ScanConfig) (s : ScanRun) : Prop where
  destined : s.trk.Destined config.target
  numbered : s.trk.sent = firstSeqs s.trk.sent.length
  counted : s.main.between = true → s.numPktsSent = s.trk.sent.length
  marked : ∀ req, s.main = .adding req ∨ s.main = .sending req →
    s.numPktsSent + 1 = s.trk.sent.length
  remaining : s.main.ended = false →
    config.addresses = config.addresses.take s.trk.sent.length ++ (s.main.picked ++ s.addresses)
  within : s.trk.sent.length ≤ config.addresses.length
  unstarted : s.main.checking = true → s.trk.sent = [] ∧ s.drain = .returned ∧ s.output = [] ∧
    s.forwarded = []
  held : ∀ ev, s.drain = .forwarding ev → ev.originDstAddr = config.target ev.seq
  known : ∀ q ∈ s.forwarded ++ s.drain.holding, q ∈ s.trk.sent
  results : s.Refused ∨ List.Forall₂ (Reports config) s.forwarded s.output

namespace Covers

theorem start (config : ScanConfig) : Covers config (start config) where
  destined := .new _
  numbered := rfl
  counted := fun _ => rfl
  marked := by rintro req (h | h) <;> cases h
  remaining := fun _ => rfl
  within := Nat.zero_le _
  unstarted := fun _ => ⟨rfl, rfl, rfl, rfl⟩
  held := by intro ev h; cases h
  known := by intro q h; cases h
  results := Or.inr .nil

/-- A step of the tracker that marks nothing sent. -/
theorem trackerMove (h : Covers config s) (hs : s.Orderly) {b : TrackerAction} {trk : ICMPTrackerRun}
    (hm : ICMPTrackerRun.Move s.trk b trk) (hb : ∀ q ttl dst now, b ≠ .markSent q ttl dst now) :
    Covers config { s with trk := trk } := by
  have hsent := hm.sent_eq hb
  refine
    { h with
      destined := h.destined.move hs.accounted hm fun q ttl d now he => absurd he (hb q ttl d now)
      numbered := by rw [hsent]; exact h.numbered
      counted := by rw [hsent]; exact h.counted
      marked := by rw [hsent]; exact h.marked
      remaining := by rw [hsent]; exact h.remaining
      within := by rw [hsent]; exact h.within
      unstarted := by rw [hsent]; exact h.unstarted
      known := by rw [hsent]; exact h.known
      results := h.results.imp (fun hr => { hr with sent := hsent.trans hr.sent }) id }

/-- A main loop in its deferred calls, with a network that may have been refused. -/
theorem finish (h : Covers config s) (main : ScanPC) (hend : main.ended = true) :
    Covers config { s with main := main } := by
  have hb : main.between = false := by cases main <;> first | rfl | cases hend
  have hc : main.checking = false := by cases main <;> first | rfl | cases hend
  refine
    { h with
      counted := by rw [hb]; exact fun he => by cases he
      marked := by rintro req (rfl | rfl) <;> cases hend
      remaining := by rw [hend]; exact fun he => by cases he
      unstarted := by rw [hc]; exact fun he => by cases he
      results := h.results.imp (fun hr => { hr with ended := hend }) id }

/-- While the main loop goes on the network was not refused. -/
theorem reported (h : Covers config s) (hm : s.main.ended = false) :
    List.Forall₂ (Reports config) s.forwarded s.output := by
  refine h.results.resolve_left fun hr => ?_
  rw [hr.ended] at hm
  cases hm

/-- While the drain goroutine runs the network was not refused. -/
theorem reported_of_drain (h : Covers config s) (hd : s.drain ≠ .returned) :
    List.Forall₂ (Reports config) s.forwarded s.output :=
  h.results.resolve_left fun hr => hd hr.drain

/-- The address at hand is the one after those that were marked sent. -/
theorem picked_target (h : Covers config s) {dst : IP} {nextTTL : Int}
    (hm : s.main = .markingSent dst nextTTL) :
    config.target (s.numPktsSent + 1) = some ⟨dst, ""⟩ ∧
      s.trk.sent.length < config.addresses.length := by
  have hrem := h.remaining (by rw [hm]; rfl)
  have hcnt : s.numPktsSent = s.trk.sent.length := h.counted (by rw [hm]; rfl)
  rw [hm] at hrem
  have htake : (config.addresses.take s.trk.sent.length).length = s.trk.sent.length :=
    List.length_take_of_le h.within
  have hget : config.addresses[s.trk.sent.length]? = some dst := by
    rw [hrem, List.getElem?_append_right (Nat.le_of_eq htake), htake, Nat.sub_self]
    rfl
  refine ⟨?_, (List.getElem?_eq_some_iff.1 hget).1⟩
  have hidx : (s.numPktsSent + 1 - 1).toNat = s.trk.sent.length := by omega
  rw [ScanConfig.target, hidx, hget]
  rfl

theorem move (h : Covers config s) (hs : s.Orderly) (hm : Move s a t) : Covers config t := by
  cases hm with
  | tracker hi hst =>
    refine h.trackerMove hs (ICMPTrackerRun.step_move hst) ?_
    rintro q ttl dst now rfl
    cases hi
  | rejected hm =>
    have hun := h.unstarted (by rw [hm]; rfl)
    refine
      { h with
        counted := fun _ => h.counted (by rw [hm]; rfl)
        marked := by rintro req (he | he) <;> cases he
        remaining := fun _ => ?_
        unstarted := fun _ => hun
        results := Or.inr (h.reported (by rw [hm]; rfl)) }
    have hrem := h.remaining (by rw [hm]; rfl)
    rw [hm] at hrem
    exact hrem
  | @sentErr err hm hc =>
    obtain ⟨hsent, hdr, hout, hfwd⟩ := h.unstarted (by rw [hm]; rfl)
    refine
      { h with
        counted := by intro he; cases he
        marked := by rintro req (he | he) <;> cases he
        remaining := by intro he; cases he
        unstarted := by intro he; cases he
        results := Or.inl ⟨hsent, hdr, rfl, err, ?_⟩ }
    show s.output ++ [Except.error err] = [Except.error err]
    rw [hout]
    rfl
  | launched hm =>
    have hun := h.unstarted (by rw [hm]; rfl)
    have hrem := h.remaining (by rw [hm]; rfl)
    rw [hm] at hrem
    exact
      { h with
        counted := fun _ => h.counted (by rw [hm]; rfl)
        marked := by rintro req (he | he) <;> cases he
        remaining := fun _ => hrem
        unstarted := by intro he; cases he
        held := by intro ev he; cases he
        known := by rw [hun.2.2.2]; exact fun q hq => by cases hq
        results := Or.inr (h.reported (by rw [hm]; rfl)) }
  | ended hm => exact h.finish .waiting rfl
  | tookAddress hm hd =>
    have hrem := h.remaining (by rw [hm]; rfl)
    rw [hm, hd] at hrem
    exact
      { h with
        counted := fun _ => h.counted (by rw [hm]; rfl)
        marked := by rintro req (he | he) <;> cases he
        remaining := fun _ => hrem
        unstarted := by intro he; cases he
        results := Or.inr (h.reported (by rw [hm]; rfl)) }
  | @markedSent dst nextTTL now trk hm hr =>
    obtain ⟨htarget, hlt⟩ := h.picked_target hm
    have hrem := h.remaining (by rw [hm]; rfl)
    have hcnt : s.numPktsSent = s.trk.sent.length := h.counted (by rw [hm]; rfl)
    rw [hm] at hrem
    have hdest := h.destined.move hs.accounted (ICMPTrackerRun.markSent_move hr)
      (by rintro q ttl d now' ⟨⟩; exact htarget.symm)
    obtain ⟨_, it, _, rfl⟩ := ICMPTrackerRun.serve_map_ok hr
    have hlen : (s.trk.sent ++ [s.numPktsSent + 1]).length = s.trk.sent.length + 1 :=
      List.length_append
    refine
      { h with
        destined := hdest
        numbered := ?_
        counted := by intro he; cases he
        marked := fun req _ => ?_
        remaining := fun _ => ?_
        within := ?_
        unstarted := by intro he; cases he
        known := fun q hq => List.mem_append_left _ (h.known q hq)
        results := Or.inr (h.reported (by rw [hm]; rfl)) }
    · show s.trk.sent ++ [s.numPktsSent + 1] = firstSeqs (s.trk.sent ++ [s.numPktsSent + 1]).length
      rw [hlen, firstSeqs_succ, ← h.numbered, hcnt]
    · show s.numPktsSent + 1 = ((s.trk.sent ++ [s.numPktsSent + 1]).length : Int)
      rw [hlen, hcnt]
      rfl
    · show config.addresses =
        config.addresses.take (s.trk.sent ++ [s.numPktsSent + 1]).length ++ ([] ++ s.addresses)
      have htake : (config.addresses.take s.trk.sent.length).length = s.trk.sent.length :=
        List.length_take_of_le h.within
      have hget : config.addresses[s.trk.sent.length]? = some dst := by
        rw [hrem, List.getElem?_append_right (Nat.le_of_eq htake), htake, Nat.sub_self]
        rfl
      rw [hlen, List.take_add_one, hget]
      simpa [ScanPC.picked] using hrem
    · show (s.trk.sent ++ [s.numPktsSent + 1]).length ≤ config.addresses.length
      rw [hlen]
      exact hlt
  | added hm =>
    have hmk := h.marked _ (Or.inl hm)
    have hrem := h.remaining (by rw [hm]; rfl)
    rw [hm] at hrem
    exact
      { h with
        counted := by intro he; cases he
        marked := fun _ _ => hmk
        remaining := fun _ => hrem
        unstarted := by intro he; cases he
        results := Or.inr (h.reported (by rw [hm]; rfl)) }
  | passed hm hi =>
    have hmk := h.marked _ (Or.inr hm)
    have hrem := h.remaining (by rw [hm]; rfl)
    rw [hm] at hrem
    exact
      { h with
        counted := fun _ => hmk
        marked := by rintro req (he | he) <;> cases he
        remaining := fun _ => hrem
        unstarted := by intro he; cases he
        results := Or.inr (h.reported (by rw [hm]; rfl)) }
  | woke hm =>
    have hrem := h.remaining (by rw [hm]; rfl)
    rw [hm] at hrem
    exact
      { h with
        counted := fun _ => h.counted (by rw [hm]; rfl)
        marked := by rintro req (he | he) <;> cases he
        remaining := fun _ => hrem
        unstarted := by intro he; cases he
        results := Or.inr (h.reported (by rw [hm]; rfl)) }
  | settledAll hm | gaveUp hm => exact h.finish .closing rfl
  | closed hm =>
    have hfin := h.finish .closed rfl
    exact { hfin with results := hfin.results.imp (fun hr => { hr with }) id }
  | @drainTook src ev trk hd ht =>
    obtain ⟨hmv, htaken⟩ := ICMPTrackerRun.take_move ht
    have hcov := h.trackerMove hs hmv (by simp)
    have hcons := hs.conserved.move hmv
    have hacc := hs.accounted.move (a := .take src) trivial hmv
    have hev : ev ∈ trk.taken := by
      rw [htaken]
      exact List.mem_append_right _ (List.mem_singleton.2 rfl)
    refine
      { hcov with
        unstarted := fun hc => ?_
        held := ?_
        known := fun q hq => ?_
        results := Or.inr (h.reported_of_drain (by simp [hd])) }
    · rw [(h.unstarted hc).2.1] at hd
      cases hd
    · rintro ev ⟨⟩
      exact hcov.destined.taken hcons hev
    · rcases List.mem_append.1 hq with hq | hq
      · exact hcov.known q (List.mem_append_left _ hq)
      · rw [List.mem_singleton.1 hq]
        exact hacc.ackedSent _ (hacc.eventsAcked _ (hcons.mem_iff.2 (List.mem_append_left _ hev)))
  | drainLeft hd =>
    exact
      { h with
        unstarted := fun hc => ⟨(h.unstarted hc).1, rfl, (h.unstarted hc).2.2⟩
        held := by intro ev he; cases he
        known := fun q hq => h.known q (List.mem_append_left _ (by simpa [DrainPC.holding] using hq))
        results := h.results.imp (fun hr => { hr with drain := rfl }) id }
  | @forwarded ev hd hc =>
    have hrep := h.reported_of_drain (by simp [hd])
    refine
      { h with
        unstarted := fun hc => ?_
        held := by intro ev he; cases he
        known := fun q hq => h.known q (by simpa [hd, DrainPC.holding] using hq)
        results := Or.inr ?_ }
    · rw [(h.unstarted hc).2.1] at hd
      cases hd
    · refine List.rel_append hrep (.cons ⟨(newProbeEvent ev).rtt, ?_⟩ .nil)
      rw [← h.held ev hd]
      rfl
  | settled hd hn =>
    refine
      { h with
        unstarted := fun hc => ?_
        held := by intro ev he; cases he
        known := fun q hq => h.known q (by simpa [hd, DrainPC.holding] using hq)
        results := Or.inr (h.reported_of_drain (by simp [hd])) }
    rw [(h.unstarted hc).2.1] at hd
    cases hd
  | markedReceived hr hm =>
    have hcov := h.trackerMove hs (ICMPTrackerRun.markReceived_move hm) (by simp)
    exact { hcov with results := hcov.results.imp (fun hr => { hr with }) id }
  | zero | rxLeft | tookErr | tookReply | replied | ioStopped | sendPanicked | donePanicked =>
    exact { h with results := h.results.imp (fun hr => { hr with }) id }

end Covers

/-! ## The end of the main loop -/

/-- The main loop ends after the context, or with no address left. -/
theorem ended_why (h : s.Staffed) (hst : s.step a = some t) (hm : s.main.ended = false)
    (hchk : s.main.checking = false) (ht : t.main.ended = true) :
    s.trk.ctxDone = true ∨ s.main = .select ∧ s.addresses = [] := by
  rcases step_owner hst with ⟨b, trk, _, _, _, rfl⟩ | hst | hst | hst
  · rw [show s.main.ended = true from ht] at hm
    cases hm
  · cases a with
    | ctxDone =>
      rw [stepMain] at hst
      split at hst
      next => exact .inl (Option.ite_none_right_eq_some.1 hst).1
      next => exact .inl (Option.ite_none_right_eq_some.1 hst).1
      next => cases hst
    | addressesDone =>
      obtain ⟨⟨hsel, hd⟩, _⟩ := Option.ite_none_right_eq_some.1 hst
      rcases hd with hnil | hc
      · exact .inr ⟨hsel, hnil⟩
      · exact .inl hc
    | markSent now =>
      rw [stepMain] at hst
      split at hst
      next =>
        obtain ⟨r, hr, rfl⟩ := Option.map_eq_some_iff.1 hst
        cases r with
        | error e =>
          have hns := ICMPTrackerRun.not_serving_of_markSent hr
          cases hc : s.trk.ctxDone with
          | true => exact .inl rfl
          | false => exact absurd (h.trk.serving hc) hns
        | ok trk => cases ht
      next => cases hst
    | sendErr =>
      rw [stepMain] at hst
      split at hst
      next hr => rw [hr] at hchk; cases hchk
      next => cases hst
    | _ =>
      unfold stepMain at hst
      grind [ScanPC.ended, Option.map_eq_some_iff]
  · rw [(stepDrain_frame hst).2.2, hm] at ht
    cases ht
  · rw [(stepReceiver_frame hst).2, hm] at ht
    cases ht

theorem covers {ok : Policy ScanRun ScanAction} (h : (system config).Reachable ok s) :
    Covers config s :=
  h.invariant_with (fun _ hr => orderly hr) (Covers.start config)
    fun _ _ _ hs hc _ hst => hc.move hs (step_move hst)

/-- A refused network stays so. -/
theorem Refused.move (h : s.Refused) (hm : Move s a t) : t.Refused := by
  have hend := h.ended
  have hdr := h.drain
  cases hm with
  | tracker hi hst =>
    refine { h with sent := ?_ }
    rw [(ICMPTrackerRun.step_move hst).sent_of_own hi, h.sent]
  | rejected hm | sentErr hm | launched hm | tookAddress hm | markedSent hm | added hm | passed hm
  | woke hm =>
    rw [hm] at hend
    cases hend
  | ended hm =>
    revert hm hend
    cases s.main <;> simp [ScanPC.canEnd, ScanPC.ended]
  | settledAll | gaveUp | closed => exact { h with ended := rfl }
  | drainTook hd | forwarded hd | settled hd | donePanicked hd =>
    rw [hdr] at hd
    cases hd
  | drainLeft => exact { h with drain := rfl }
  | markedReceived hr hm =>
    refine { h with sent := ?_ }
    rw [(ICMPTrackerRun.markReceived_move hm).sent_eq (by simp), h.sent]
  | zero | rxLeft | tookErr | tookReply | replied | ioStopped | sendPanicked => exact { h with }

/-- Packets are marked sent by the main loop only. -/
theorem sent_of_move (hm : Move s a t) (hne : ∀ dst nextTTL, s.main ≠ .markingSent dst nextTTL) :
    t.trk.sent = s.trk.sent := by
  cases hm with
  | tracker hi hst => exact (ICMPTrackerRun.step_move hst).sent_of_own hi
  | markedSent hm => exact absurd hm (hne _ _)
  | drainTook hd ht => exact (ICMPTrackerRun.take_frame ht).1
  | markedReceived hr hm => exact (ICMPTrackerRun.markReceived_move hm).sent_eq (by simp)
  | _ => rfl

/-- While the network is checked, the main loop ends by refusing it. -/
theorem Covers.refused (h : Covers config s) (hm : Move s a t) (hchk : s.main.checking = true)
    (ht : t.main.ended = true) : t.Refused := by
  obtain ⟨hsent, hdr, hout, _⟩ := h.unstarted hchk
  cases hm with
  | @sentErr err => exact ⟨hsent, hdr, rfl, err, by rw [hout]; rfl⟩
  | rejected | launched | tookAddress | markedSent | added | passed | woke => cases ht
  | ended hm =>
    revert hm hchk
    cases s.main <;> simp [ScanPC.canEnd, ScanPC.checking]
  | settledAll hm | gaveUp hm | closed hm =>
    rw [hm] at hchk
    cases hchk
  | _ =>
    have ht' : s.main.ended = true := ht
    revert ht' hchk
    cases s.main <;> simp [ScanPC.ended, ScanPC.checking]

/-- The main loop ended before the context did, with every address of a good network marked
sent. -/
def Swept (config : ScanConfig) (s : ScanRun) : Prop :=
  s.main.ended = true →
    s.trk.ctxDone = true ∨ s.Refused ∨ s.trk.sent.length = config.addresses.length

theorem Swept.step (h : s.Swept config) (hc : s.Covers config) (hstaff : s.Staffed)
    (hst : s.step a = some t) : t.Swept config := by
  intro ht
  have hmv := step_move hst
  cases hend : s.main.ended with
  | true =>
    rcases h hend with hdone | href | hlen
    · exact .inl (Staffed.ctxDone_step hst hdone)
    · exact .inr (.inl (href.move hmv))
    · have hsent := sent_of_move hmv (by rintro dst nextTTL hm; rw [hm] at hend; cases hend)
      exact .inr (.inr (by rw [hsent, hlen]))
  | false =>
    cases hchk : s.main.checking with
    | true => exact .inr (.inl (hc.refused hmv hchk ht))
    | false =>
      rcases ended_why hstaff hst hend hchk ht with hdone | ⟨hsel, hnil⟩
      · exact .inl (Staffed.ctxDone_step hst hdone)
      · -- no address is left, so the ones before are all
        have hrem := hc.remaining hend
        have hsent := sent_of_move hmv (by simp [hsel])
        rw [hsel, hnil] at hrem
        have hlen := congrArg List.length hrem
        simp only [ScanPC.picked, List.append_nil, List.length_take_of_le hc.within] at hlen
        exact .inr (.inr (by rw [hsent, hlen]))

theorem swept {ok : Policy ScanRun ScanAction} (h : (system config).Reachable ok s) :
    s.Swept config :=
  h.invariant_with (J := fun s => s.Covers config ∧ s.Staffed)
    (fun _ hr => ⟨covers hr, staffed hr⟩) (by intro he; cases he)
    fun _ _ _ hs hsw _ hst => hsw.step hs.1 hs.2 hst

/-! ## The results -/

/-- What the results name is what the packets were sent to. -/
theorem peers_of_reports {seqs : List Int} {out : List (Except String IPProbeEvent)}
    (h : List.Forall₂ (Reports config) seqs out) :
    ∃ evs : List IPProbeEvent, out = evs.map .ok ∧
      evs.map IPProbeEvent.peer = seqs.map config.target := by
  induction h with
  | nil => exact ⟨[], rfl, rfl⟩
  | cons hr _ ih =>
    obtain ⟨rtt, rfl⟩ := hr
    obtain ⟨evs, rfl, hpeers⟩ := ih
    exact ⟨⟨rtt, config.target _⟩ :: evs, rfl, by rw [List.map_cons, List.map_cons, hpeers]⟩

/-- The packets of a full scan go to the addresses, one by one. -/
theorem target_firstSeqs (config : ScanConfig) :
    (firstSeqs config.addresses.length).map config.target =
      config.addresses.map fun ip => some ⟨ip, ""⟩ := by
  rw [firstSeqs, List.map_map]
  refine List.ext_getElem (by simp) fun i hi _ => ?_
  have hlt : i < config.addresses.length := by simpa using hi
  simp [ScanConfig.target, hlt]

/-- In every run the packets marked sent are the first ones, in the order of the addresses,
and a good network gives only results that name the destination of a packet sent. -/
theorem scan_in_order (config : ScanConfig) {s : ScanRun}
    (h : (system config).Reachable Policy.any s) :
    (∃ n ≤ config.addresses.length, s.trk.sent = firstSeqs n) ∧
      (∀ q ∈ s.forwarded, q ∈ s.trk.sent) ∧
        (s.Refused ∨ ∃ evs : List IPProbeEvent, s.output = evs.map .ok ∧
          evs.map IPProbeEvent.peer = s.forwarded.map config.target) := by
  have hc := covers h
  exact ⟨⟨_, hc.within, hc.numbered⟩, fun q hq => hc.known q (List.mem_append_left _ hq),
    hc.results.imp id peers_of_reports⟩

/-- One of the two addresses answers, the other times out. -/
def pairActions : List ScanAction :=
  [.launch] ++ scanOne ++ answerOne 1 ++ scanOne ++ drainOne (.delivery 0) ++
    [.addressesDone, .tracker (.timerFires 2), .tracker (.handleTimeout 2), .tracker .emit] ++
    drainOne .buffer ++ [.wgZero, .waitDone, .close]

theorem scan_in_order_pair : ∃ s, (system sampleScan).Reachable Policy.any s ∧
    s.forwarded.length = 2 ∧ (∃ n ≤ sampleScan.addresses.length, s.trk.sent = firstSeqs n) ∧
      (∀ q ∈ s.forwarded, q ∈ s.trk.sent) ∧
        (s.Refused ∨ ∃ evs : List IPProbeEvent, s.output = evs.map .ok ∧
          evs.map IPProbeEvent.peer = s.forwarded.map sampleScan.target) := by
  obtain ⟨s, hs, hlen⟩ := System.exists_of_replay (system sampleScan) .any
    (fun s => s.forwarded.length = 2) pairActions (by decide +kernel)
  exact ⟨s, hs, of_decide_eq_true hlen, scan_in_order sampleScan hs⟩

/-- The events output of a scan that ended before its context are those of all packets. -/
theorem forwarded_perm (h : (system config).Reachable onePerPacket s) (hm : s.main = .closed)
    (hlive : s.trk.ctxDone = false) (href : ¬ s.Refused) :
    s.forwarded.Perm (firstSeqs config.addresses.length) := by
  have hset := settled h
  have hc := covers h
  have hlen : s.trk.sent.length = config.addresses.length := by
    rcases swept h (by rw [hm]; rfl) with hdone | hr | hlen
    · rw [hlive] at hdone
      cases hdone
    · exact absurd hr href
    · exact hlen
  have hsub : s.forwarded.Subperm s.trk.sent := List.subperm_of_subset hset.distinct hset.known
  have hall : s.trk.sent.length ≤ s.forwarded.length := by
    by_cases hnil : s.trk.sent = []
    · rw [hnil]
      exact Nat.zero_le _
    · have hzero := (hset.still (Or.inl hm)).resolve_left ((staffed h).draining hlive hnil)
      have hb := hset.balance
      rw [hzero, hm] at hb
      simp only [ScanPC.addingOne] at hb
      omega
  rw [← hlen, ← hc.numbered]
  exact hsub.perm_of_length_le hall

/-- A scan with one event for each packet that ends before its context reports every address
once. -/
theorem scan_complete (h : (system config).Reachable onePerPacket s) (hm : s.main = .closed)
    (hlive : s.trk.ctxDone = false) (href : ¬ s.Refused) :
    ∃ evs : List IPProbeEvent, s.output = evs.map .ok ∧
      (evs.map IPProbeEvent.peer).Perm (config.addresses.map fun ip => some ⟨ip, ""⟩) := by
  obtain ⟨evs, hout, hpeers⟩ := peers_of_reports ((covers h).results.resolve_left href)
  refine ⟨evs, hout, ?_⟩
  rw [hpeers, ← target_firstSeqs]
  exact (forwarded_perm h hm hlive href).map config.target

/-! ## The scan of a subnet -/

/-- A result for an address. -/
def isFor (a : IP) : Except String IPProbeEvent → Bool
  | .ok ev => ev.peer.any fun peer => normal peer.ip = normal a
  | .error _ => false

/-- The results are those of the members of a subnet, one for each. -/
structure ReportsSubnet (n : IPNet) (hostBits : Nat) (out : List (Except String IPProbeEvent)) :
    Prop where
  length : out.length = 2 ^ hostBits
  members : ∀ res ∈ out, ∃ rtt b, res = .ok ⟨rtt, some ⟨b, ""⟩⟩ ∧ n.contains b = true
  once : ∀ a, n.contains a = true → out.countP (isFor a) = 1

theorem reportsSubnet_of_perm {n : IPNet} {hostBits bytes : Nat} {addrs : List IP}
    (he : EmitsMembers n hostBits bytes addrs) {evs : List IPProbeEvent}
    (hp : (evs.map IPProbeEvent.peer).Perm (addrs.map fun ip => some ⟨ip, ""⟩)) :
    ReportsSubnet n hostBits (evs.map .ok) where
  length := by
    have hlen := hp.length_eq
    rw [List.length_map, List.length_map, he.length] at hlen
    rw [List.length_map, hlen]
  members := by
    intro res hres
    obtain ⟨ev, hev, rfl⟩ := List.mem_map.1 hres
    have hpeer : ev.peer ∈ addrs.map fun ip => some (⟨ip, ""⟩ : IPAddr) :=
      hp.mem_iff.1 (List.mem_map_of_mem hev)
    obtain ⟨b, hb, hbe⟩ := List.mem_map.1 hpeer
    obtain ⟨rtt, peer⟩ := ev
    cases hbe
    exact ⟨rtt, b, rfl, (he.members b).2 ⟨b, hb, rfl⟩⟩
  once := by
    intro a ha
    let p : Option IPAddr → Bool := fun peer => peer.any fun x => normal x.ip = normal a
    calc (evs.map Except.ok).countP (isFor a)
        = (evs.map IPProbeEvent.peer).countP p := by
          rw [List.countP_map, List.countP_map]
          rfl
      _ = (addrs.map fun ip => some (⟨ip, ""⟩ : IPAddr)).countP p := hp.countP_eq p
      _ = (addrs.map normal).count (normal a) := by
          rw [List.count, List.countP_map, List.countP_map]
          refine List.countP_congr fun ip _ => ?_
          simp [p]
      _ = 1 := by
          obtain ⟨b, hb, hbe⟩ := (he.members a).1 ha
          exact List.count_eq_one_of_mem he.nodup (hbe ▸ List.mem_map_of_mem hb)

/-- A scan of a subnet with one event for each packet that ends before its context reports
every member of the subnet once and nothing else. -/
theorem scan_reports_subnet (n : IPNet) (ones bits : Nat) (hn : n.Subnet ones bits)
    (hb : bits - ones ≤ 32) (m : MemberRun) (hm : (getMemberAddresses32 n).Reachable live m)
    (hpc : m.pc = .closed) (config : ScanConfig) (haddr : config.addresses = m.received)
    (s : ScanRun) (h : (system config).Reachable onePerPacket s) (hmain : s.main = .closed)
    (hlive : s.trk.ctxDone = false) : s.Refused ∨ ReportsSubnet n (bits - ones) s.output := by
  by_cases href : s.Refused
  · exact .inl href
  · obtain ⟨l, first, len, base, he⟩ := exists_enumerates hn hb
    have hem := he.emits
    obtain ⟨evs, hout, hp⟩ := scan_complete h hmain hlive href
    rw [haddr, (hem.received m hm).2 hpc] at hp
    exact .inr (hout ▸ reportsSubnet_of_perm hem hp)

/-- The network of the two addresses of the sample. -/
def pair : IPNet := ⟨[192, 0, 2, 0], cidrMask 31 32⟩

theorem scan_reports_pair : ∃ s, (system sampleScan).Reachable onePerPacket s ∧
    s.output.length = 2 ∧ ReportsSubnet pair 1 s.output := by
  obtain ⟨m, hm, hmp⟩ := System.exists_of_replay (getMemberAddresses32 pair) live
    (fun m => m.pc = .closed ∧ m.received = sampleScan.addresses)
    [.setup, .poll, .send, .poll, .send, .poll] (by decide +kernel)
  obtain ⟨s, hs, hsp⟩ := System.exists_of_replay (system sampleScan) onePerPacket
    (fun s => s.main = .closed ∧ s.trk.ctxDone = false ∧ s.trk.sent = [1, 2])
    pairActions (by decide +kernel)
  obtain ⟨hpc, hrec⟩ := of_decide_eq_true hmp
  obtain ⟨hmain, hlive, hsent⟩ := of_decide_eq_true hsp
  have hrep := scan_reports_subnet pair 31 32 ⟨by decide, Or.inl rfl, by decide⟩ (by decide) m hm
    hpc sampleScan hrec.symm s hs hmain hlive
  have hnot : ¬ s.Refused := fun href => by rw [href.sent] at hsent; cases hsent
  exact ⟨s, hs, (hrep.resolve_left hnot).length, hrep.resolve_left hnot⟩

end ScanRun

end CloudPing.Pinger
