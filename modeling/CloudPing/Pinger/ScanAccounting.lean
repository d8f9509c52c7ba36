import Mathlib.Data.Finset.Card
import CloudPing.Pinger.BlockScanner

/-!
# The books of a block scan

The in-flight counter is to be the number of packets marked sent whose event has not been
output.  Three things break it.  A packet that is answered twice is taken out of the group
twice.  The main loop marks a packet sent before it adds it to the group, and its event can
be output and taken out of the group in between.  And after a cancellation the main loop
closes `ch` while the drain goroutine may still take an event and send it.

`onePerPacket` excludes the three, and under it the books balance in every state.
-/

namespace CloudPing.Pinger

open Conc Raw

/-- One while a packet is marked sent and not yet added to the group. -/
def ScanPC.addingOne : ScanPC → Nat
  | .adding _ => 1
  | _ => 0

/-- No packet has the next sequence number yet. -/
def ScanPC.between : ScanPC → Bool
  | .setup | .rejecting _ | .select | .markingSent _ _ | .sleeping => true
  | _ => false

/-- The main loop is in its deferred calls. -/
def ScanPC.ended : ScanPC → Bool
  | .waiting | .closing | .closed => true
  | _ => false

/-- One while an event is output and not yet taken out of the group. -/
def DrainPC.settlingOne : DrainPC → Nat
  | .settling _ => 1
  | _ => 0

/-- The event the drain goroutine has taken and not output. -/
def DrainPC.holding : DrainPC → List Int
  | .forwarding ev => [ev.seq]
  | _ => []

namespace ScanRun

variable {config : ScanConfig} {s t : ScanRun} {a : ScanAction}

/-! ## In every run -/

/-- The sequence numbers marked sent are those up to the current one, and the tracker's
books are in order. -/
structure Orderly (s : ScanRun) : Prop where
  sentNodup : s.trk.sent.Nodup
  sentLe : ∀ q ∈ s.trk.sent, q ≤ s.numPktsSent + 1
  sentLt : s.main.between = true → ∀ q ∈ s.trk.sent, q ≤ s.numPktsSent
  adding : ∀ req, s.main = .adding req → req.seq ∈ s.trk.sent
  accounted : s.trk.Accounted
  conserved : s.trk.Conserved
  lifecycle : s.trk.Lifecycle
  idle : s.main = .setup → s.rx = .returned ∧ s.drain = .returned
  closedMain : s.chClosed = true → s.main = .closed

namespace Orderly

theorem start (config : ScanConfig) : Orderly (start config) where
  sentNodup := List.nodup_nil
  sentLe := by intro q hq; cases hq
  sentLt := by intro _ q hq; cases hq
  adding := by intro req h; cases h
  accounted := .new _
  conserved := .new _
  lifecycle := .new _
  idle := fun _ => ⟨rfl, rfl⟩
  closedMain := by intro h; cases h

/-- The sequence number of the next packet is fresh. -/
theorem fresh (h : s.Orderly) {dst : IP} {nextTTL : Int} (hm : s.main = .markingSent dst nextTTL) :
    s.numPktsSent + 1 ∉ s.trk.sent := by
  intro hq
  have hle := h.sentLt (by rw [hm]; rfl) _ hq
  omega

/-- A step of the tracker that marks nothing sent. -/
theorem trackerMove (h : s.Orderly) {b : TrackerAction} {trk : ICMPTrackerRun}
    (hm : ICMPTrackerRun.Move s.trk b trk) (hb : ∀ q ttl dst now, b ≠ .markSent q ttl dst now)
    (hd : ICMPTrackerRun.distinct s.trk b) : Orderly { s with trk := trk } := by
  have hs := hm.sent_eq hb
  exact
    { h with
      sentNodup := by rw [hs]; exact h.sentNodup
      sentLe := by rw [hs]; exact h.sentLe
      sentLt := by rw [hs]; exact h.sentLt
      adding := by rw [hs]; exact h.adding
      accounted := h.accounted.move hd hm
      conserved := h.conserved.move hm
      lifecycle := h.lifecycle.move hm }

/-- A step of the main loop that uses no new number. -/
theorem mainMove (h : s.Orderly) (main : ScanPC) (hne : main ≠ .setup)
    (hc : s.chClosed = true → main = .closed) (hb : main.between = true → s.main.between = true)
    (ha : ∀ req, main ≠ .adding req) : Orderly { s with main := main } :=
  { h with
    sentLt := fun hm => h.sentLt (hb hm)
    adding := fun req he => absurd he (ha req)
    idle := fun he => absurd he hne
    closedMain := hc }

/-- `ch` is open until the main loop is done. -/
theorem notClosed (h : s.Orderly) (hm : s.main ≠ .closed) {main : ScanPC} (hc : s.chClosed = true) :
    main = .closed := absurd (h.closedMain hc) hm

theorem move (h : s.Orderly) (hm : Move s a t) : t.Orderly := by
  cases hm with
  | tracker hi hst =>
    refine h.trackerMove (ICMPTrackerRun.step_move hst) ?_ (ICMPTrackerRun.distinct_of_own hi _)
    rintro q ttl dst now rfl
    cases hi
  | rejected hm =>
    exact h.mainMove _ (by simp) (h.notClosed (by simp [hm])) (fun _ => by rw [hm]; rfl) (by simp)
  | sentErr hm hc =>
    exact { h.mainMove .waiting (by simp) (by simp [hc]) (by intro hb; cases hb) (by simp) with }
  | launched hm =>
    exact
      { h.mainMove .select (by simp) (h.notClosed (by simp [hm])) (fun _ => by rw [hm]; rfl)
          (by simp) with
        idle := by intro he; cases he }
  | ended hm =>
    refine h.mainMove _ (by simp) (h.notClosed ?_) (by intro hb; cases hb) (by simp)
    intro he
    rw [he] at hm
    cases hm
  | tookAddress hm hd =>
    exact { h.mainMove (.markingSent _ _) (by simp) (h.notClosed (by simp [hm]))
      (fun _ => by rw [hm]; rfl) (by simp) with }
  | @markedSent dst nextTTL now trk hm hr =>
    have hmv := ICMPTrackerRun.markSent_move hr
    have hd : ICMPTrackerRun.distinct s.trk
        (.markSent (s.numPktsSent + 1) nextTTL (some ⟨dst, ""⟩) now) := h.fresh hm
    have hacc := h.accounted.move hd hmv
    obtain ⟨_, it, _, rfl⟩ := ICMPTrackerRun.serve_map_ok hr
    refine
      { sentNodup := ?_
        sentLe := ?_
        sentLt := by intro hb; cases hb
        adding := ?_
        accounted := hacc
        conserved := h.conserved.move hmv
        lifecycle := h.lifecycle.move hmv
        idle := by intro he; cases he
        closedMain := h.notClosed (by simp [hm]) }
    · exact h.sentNodup.append (List.nodup_singleton _) (List.disjoint_singleton.2 (h.fresh hm))
    · intro q hq
      rcases List.mem_append.1 hq with hq | hq
      · exact h.sentLe q hq
      · exact Int.le_of_eq (List.mem_singleton.1 hq)
    · rintro req ⟨⟩
      exact List.mem_append_right _ (List.mem_singleton.2 rfl)
  | added hm =>
    exact { h.mainMove (.sending _) (by simp) (h.notClosed (by simp [hm]))
      (by intro hb; cases hb) (by simp) with }
  | passed hm hi =>
    refine
      { h with
        sentLe := fun q hq => ?_
        sentLt := fun _ q hq => h.sentLe q hq
        adding := by intro req he; cases he
        idle := by intro he; cases he
        closedMain := h.notClosed (by simp [hm]) }
    have hle := h.sentLe q hq
    show q ≤ s.numPktsSent + 1 + 1
    omega
  | woke hm =>
    exact h.mainMove _ (by simp) (h.notClosed (by simp [hm])) (fun _ => by rw [hm]; rfl) (by simp)
  | settledAll hm | gaveUp hm =>
    exact h.mainMove _ (by simp) (h.notClosed (by simp [hm])) (by intro hb; cases hb) (by simp)
  | closed hm =>
    exact
      { h with
        sentLt := by intro hb; cases hb
        adding := by intro req he; cases he
        idle := by intro he; cases he
        closedMain := fun _ => rfl }
  | drainTook hd ht =>
    have hmv := (ICMPTrackerRun.take_move ht).1
    refine { h.trackerMove hmv (by simp) trivial with idle := fun he => ?_ }
    rw [(h.idle he).2] at hd
    cases hd
  | markedReceived hr hm =>
    have hmv := ICMPTrackerRun.markReceived_move hm
    refine { h.trackerMove hmv (by simp) trivial with idle := fun he => ?_ }
    rw [(h.idle he).1] at hr
    cases hr
  | drainLeft => exact { h with idle := fun he => ⟨(h.idle he).1, rfl⟩ }
  | forwarded hd | settled hd =>
    refine { h with idle := fun he => ?_ }
    rw [(h.idle he).2] at hd
    cases hd
  | rxLeft | tookErr => exact { h with idle := fun he => ⟨rfl, (h.idle he).2⟩ }
  | tookReply hr =>
    refine { h with idle := fun he => ?_ }
    rw [(h.idle he).1] at hr
    cases hr
  | zero | replied | ioStopped | sendPanicked | donePanicked => exact { h with }

end Orderly

theorem orderly {ok : Policy ScanRun ScanAction} (h : (system config).Reachable ok s) : s.Orderly :=
  h.invariant (Orderly.start config) fun _ _ _ hs _ hst => hs.move (step_move hst)

/-! ## The condition -/

/-- The receiving goroutine is about to record a second reply of one packet. -/
def repeatsReply (s : ScanRun) (now sinceNs sinceMs : Time) : Bool :=
  match s.rx with
  | .markingReceived rx => s.trk.repeats (.markReceived rx.seq rx now sinceNs sinceMs)
  | _ => false

/-- The drain goroutine is about to take a packet out of the group that is not yet in it. -/
def ahead (s : ScanRun) : Bool :=
  match s.main, s.drain with
  | .adding req, .settling seq => req.seq = seq
  | _, _ => false

/-- While the drain goroutine runs no packet gets a second reply; no packet is taken out of
the group before it is added; `ch` is closed only when the drain goroutine has returned or
the group is empty. -/
def onePerPacket : Policy ScanRun ScanAction := fun s a =>
  match a with
  | .markReceived now sinceNs sinceMs =>
    s.drain = .returned ∨ s.repeatsReply now sinceNs sinceMs = false
  | .settle => s.ahead = false
  | .close => s.drain = .returned ∨ s.inFlight = 0
  | _ => True

instance : ∀ s a, Decidable (onePerPacket s a) := fun s a =>
  match a with
  | .markReceived _ _ _ => inferInstanceAs (Decidable (_ ∨ _))
  | .settle => inferInstanceAs (Decidable (s.ahead = false))
  | .close => inferInstanceAs (Decidable (_ ∨ _))
  | .tracker _ | .reject _ | .sendErr | .launch | .ctxDone | .address | .addressesDone | .markSent _
  | .add | .send _ | .wake | .wgZero | .waitDone | .waitCtxDone | .drainTake _ | .drainClosed
  | .forward | .drainCtxDone | .rxCtxDone | .takeReply | .outCClosed | .takeErr | .reply _
  | .ioCtxDone | .ioStop _ => isTrue trivial

/-- The drain goroutine runs or is still to be started. -/
def Draining (s : ScanRun) : Prop := s.drain ≠ .returned ∨ s.main = .setup

/-- The books: the events output are those of distinct packets, and the counter is the
number of packets without one. -/
structure Settled (s : ScanRun) : Prop where
  firsts : s.Draining → s.trk.events.map ICMPTrackerEntry.seq = s.trk.acked
  flow : s.Draining → s.trk.taken.map ICMPTrackerEntry.seq = s.forwarded ++ s.drain.holding
  distinct : s.forwarded.Nodup
  known : ∀ q ∈ s.forwarded, q ∈ s.trk.sent
  notAhead : ∀ req, s.main = .adding req → req.seq ∈ s.forwarded → s.drain = .settling req.seq
  balance : s.inFlight + s.forwarded.length + s.main.addingOne =
    s.trk.sent.length + s.drain.settlingOne
  still : s.main = .closed ∨ s.done = true → s.drain = .returned ∨ s.inFlight = 0
  finished : s.done = true → s.main.ended = true
  alive : s.panicked = false

namespace Settled

theorem start (config : ScanConfig) : Settled (start config) where
  firsts := fun _ => rfl
  flow := fun _ => rfl
  distinct := List.nodup_nil
  known := by intro q hq; cases hq
  notAhead := by intro req h; cases h
  balance := rfl
  still := by rintro (h | h) <;> cases h
  finished := by intro h; cases h
  alive := rfl

/-- The events taken are of distinct packets, and these were marked sent. -/
theorem taken_fresh (h : Settled s) (hs : s.Orderly) (hd : s.Draining) :
    (s.trk.taken.map ICMPTrackerEntry.seq).Nodup ∧
      ∀ q ∈ s.trk.taken.map ICMPTrackerEntry.seq, q ∈ s.trk.sent := by
  have hp := List.Perm.map ICMPTrackerEntry.seq hs.conserved
  rw [h.firsts hd, List.map_append] at hp
  refine ⟨(hp.nodup_iff.1 hs.accounted.ackedNodup).of_append_left, fun q hq => ?_⟩
  exact hs.accounted.ackedSent q (hp.mem_iff.2 (List.mem_append_left _ hq))

/-- The event the drain goroutine holds is of a packet it has not settled. -/
theorem holding_fresh (h : Settled s) (hs : s.Orderly) {ev : ICMPTrackerEntry}
    (hd : s.drain = .forwarding ev) :
    (s.forwarded ++ [ev.seq]).Nodup ∧ ∀ q ∈ s.forwarded ++ [ev.seq], q ∈ s.trk.sent := by
  have hdr : s.Draining := Or.inl (by simp [hd])
  have hf := h.flow hdr
  rw [hd] at hf
  have ht := h.taken_fresh hs hdr
  rw [hf] at ht
  exact ht

/-- So at least that packet is in flight, unless it is the one being added. -/
theorem inFlight_pos (h : Settled s) (hs : s.Orderly) {ev : ICMPTrackerEntry}
    (hd : s.drain = .forwarding ev) (hm : s.main.addingOne = 0) : 0 < s.inFlight := by
  obtain ⟨hnd, hsub⟩ := h.holding_fresh hs hd
  have hle := (List.subperm_of_subset hnd hsub).length_le
  have hb := h.balance
  rw [hd, hm] at hb
  simp only [DrainPC.settlingOne, List.length_append, List.length_singleton] at hb hle
  omega

/-- When the drain goroutine calls `Done` and keeps behind the main loop, the packet being
added has no event yet. -/
theorem notAdding (h : Settled s) (hok : s.ahead = false) {req : ICMPSendRequest}
    (hm : s.main = .adding req) : req.seq ∉ s.forwarded := by
  intro hq
  have hse := h.notAhead req hm hq
  rw [ahead, hm, hse] at hok
  exact of_decide_eq_false hok rfl

/-- `Done` is called for a packet of the group. -/
theorem settle_pos (h : Settled s) (hs : s.Orderly) {seq : Int} (hd : s.drain = .settling seq)
    (hok : s.ahead = false) : 0 < s.inFlight := by
  have hle : s.forwarded.length + s.main.addingOne ≤ s.trk.sent.length := by
    cases hm : s.main with
    | adding req =>
      have hnd : (s.forwarded ++ [req.seq]).Nodup :=
        h.distinct.append (List.nodup_singleton _)
          (List.disjoint_singleton.2 (h.notAdding hok hm))
      have hsub : ∀ q ∈ s.forwarded ++ [req.seq], q ∈ s.trk.sent := by
        intro q hq
        rcases List.mem_append.1 hq with hq | hq
        · exact h.known q hq
        · rw [List.mem_singleton.1 hq]
          exact hs.adding req hm
      have hlen := (List.subperm_of_subset hnd hsub).length_le
      rwa [List.length_append] at hlen
    | _ => exact (List.subperm_of_subset h.distinct h.known).length_le
  have hb := h.balance
  rw [hd] at hb
  simp only [DrainPC.settlingOne] at hb
  omega

/-- A step of the tracker that marks nothing sent, hands over no event and repeats no
reply. -/
theorem trackerMove (h : Settled s) (hs : s.Orderly) {b : TrackerAction} {trk : ICMPTrackerRun}
    (hm : ICMPTrackerRun.Move s.trk b trk) (hb : ∀ q ttl dst now, b ≠ .markSent q ttl dst now)
    (hb' : ∀ src, b ≠ .take src) (hrep : s.Draining → s.trk.repeats b = false) :
    Settled { s with trk := trk } := by
  have hsent := hm.sent_eq hb
  exact
    { h with
      firsts := fun hd => (hm.effect hs.accounted).firsts (hrep hd) (h.firsts hd)
      flow := by rw [hm.taken_eq hb']; exact h.flow
      known := by rw [hsent]; exact h.known
      balance := by rw [hsent]; exact h.balance }

/-- A step of the main loop that neither adds a packet nor marks one sent. -/
theorem mainMove (h : Settled s) (main : ScanPC) (hne : main ≠ .setup) (hz : main.addingOne = 0)
    (hz' : s.main.addingOne = 0) (hst : main = .closed → s.drain = .returned ∨ s.inFlight = 0)
    (hov : s.done = true → main.ended = true) : Settled { s with main := main } := by
  have hdr : Draining { s with main := main } → s.Draining := fun hd =>
    Or.inl (hd.resolve_right hne)
  refine
    { h with
      firsts := fun hd => h.firsts (hdr hd)
      flow := fun hd => h.flow (hdr hd)
      notAhead := ?_
      balance := by rw [hz, ← hz']; exact h.balance
      still := fun hc => hc.elim hst fun hd => h.still (Or.inr hd)
      finished := hov }
  rintro req rfl
  cases hz

/-- The main loop is still going. -/
theorem notDone (h : Settled s) (hm : s.main.ended = false) : s.done = false := by
  cases hd : s.done with
  | false => rfl
  | true =>
    have he := h.finished hd
    rw [hm] at he
    cases he

theorem move (h : Settled s) (hs : s.Orderly) (hok : onePerPacket s a) (hm : Move s a t) :
    Settled t := by
  cases hm with
  | @tracker b trk hi hst =>
    refine h.trackerMove hs (ICMPTrackerRun.step_move hst) ?_ ?_ ?_
    · rintro q ttl dst now rfl
      cases hi
    · rintro src rfl
      cases hi
    · intro _
      cases b with
      | markReceived => cases hi
      | _ => rfl
  | rejected hm | woke hm | tookAddress hm =>
    have hnd := h.notDone (by rw [hm]; rfl)
    exact { h.mainMove _ (by simp) rfl (by rw [hm]; rfl) (by simp)
      (by simp [hnd]) with }
  | sentErr hm hc =>
    exact { h.mainMove .waiting (by simp) rfl (by rw [hm]; rfl) (by simp) (fun _ => rfl) with }
  | launched hm =>
    have hnd := h.notDone (by rw [hm]; rfl)
    have hd := (hs.idle hm).2
    have hb := h.balance
    rw [hm, hd] at hb
    refine
      { h with
        firsts := fun _ => h.firsts (Or.inr hm)
        flow := fun _ => ?_
        notAhead := by intro req he; cases he
        balance := hb
        still := by simp [hnd]
        finished := by simp [hnd] }
    have hf := h.flow (Or.inr hm)
    rwa [hd] at hf
  | ended hm =>
    refine h.mainMove _ (by simp) rfl ?_ (by simp) (fun _ => rfl)
    revert hm
    cases s.main <;> simp [ScanPC.canEnd, ScanPC.addingOne]
  | @markedSent dst nextTTL now trk hm hr =>
    have hnd := h.notDone (by rw [hm]; rfl)
    have hfresh := hs.fresh hm
    obtain ⟨_, it, _, rfl⟩ := ICMPTrackerRun.serve_map_ok hr
    have hdr : s.drain ≠ .returned → s.Draining := Or.inl
    refine
      { h with
        firsts := fun hd => h.firsts (hdr (hd.resolve_right (by simp)))
        flow := fun hd => h.flow (hdr (hd.resolve_right (by simp)))
        known := fun q hq => List.mem_append_left _ (h.known q hq)
        notAhead := ?_
        balance := ?_
        still := by simp [hnd]
        finished := by simp [hnd] }
    · rintro req ⟨⟩ hq
      exact absurd (h.known _ hq) hfresh
    · have hb := h.balance
      rw [hm] at hb
      simp only [ScanPC.addingOne, List.length_append, List.length_singleton] at hb ⊢
      omega
  | added hm =>
    have hnd := h.notDone (by rw [hm]; rfl)
    refine
      { h with
        firsts := fun hd => h.firsts (Or.inl (hd.resolve_right (by simp)))
        flow := fun hd => h.flow (Or.inl (hd.resolve_right (by simp)))
        notAhead := by intro req he; cases he
        balance := ?_
        still := by simp [hnd]
        finished := by simp [hnd] }
    have hb := h.balance
    rw [hm] at hb
    simp only [ScanPC.addingOne] at hb ⊢
    omega
  | passed hm hi =>
    have hnd := h.notDone (by rw [hm]; rfl)
    exact { h.mainMove .sleeping (by simp) rfl (by rw [hm]; rfl) (by simp)
      (by simp [hnd]) with }
  | zero hm hz => exact { h with still := fun _ => Or.inr hz, finished := fun _ => by rw [hm]; rfl }
  | settledAll hm hd =>
    exact h.mainMove _ (by simp) rfl (by rw [hm]; rfl) (by simp) (fun _ => rfl)
  | gaveUp hm hc =>
    exact h.mainMove _ (by simp) rfl (by rw [hm]; rfl) (by simp) (fun _ => rfl)
  | closed hm =>
    exact { h.mainMove .closed (by simp) rfl (by rw [hm]; rfl) (fun _ => hok)
      (fun _ => rfl) with }
  | @drainTook src ev trk hd ht =>
    obtain ⟨hsent, hacked, hevents, _⟩ := ICMPTrackerRun.take_frame ht
    have htaken := (ICMPTrackerRun.take_move ht).2
    have hdr : s.Draining := Or.inl (by simp [hd])
    refine
      { h with
        firsts := fun _ => ?_
        flow := fun _ => ?_
        known := by rw [hsent]; exact h.known
        notAhead := fun req hm hq => by rw [h.notAhead req hm hq] at hd; cases hd
        balance := ?_
        still := fun hc => Or.inr ?_ }
    · rw [hevents, hacked]
      exact h.firsts hdr
    · have hf := h.flow hdr
      rw [hd] at hf
      rw [htaken, List.map_append, hf]
      simp [DrainPC.holding]
    · have hb := h.balance
      rw [hd] at hb
      rw [hsent]
      exact hb
    · exact (h.still hc).resolve_left (by simp [hd])
  | drainLeft hd =>
    have hne : s.main ≠ .setup := by
      intro hm
      have hret := (hs.idle hm).2
      rcases hd with hd | ⟨ev, hd⟩
      · rw [hret] at hd; cases hd
      · rw [hret] at hd; cases hd
    have hno : ¬ Draining { s with drain := .returned } := fun hdr =>
      hdr.elim (fun hr => hr rfl) hne
    have hb := h.balance
    refine
      { h with
        firsts := fun hdr => absurd hdr hno
        flow := fun hdr => absurd hdr hno
        notAhead := fun req hm hq => ?_
        balance := ?_
        still := fun _ => Or.inl rfl }
    · have hse := h.notAhead req hm hq
      rcases hd with hd | ⟨ev, hd⟩
      · rw [hd] at hse; cases hse
      · rw [hd] at hse; cases hse
    · rcases hd with hd | ⟨ev, hd⟩
      · rw [hd] at hb; exact hb
      · rw [hd] at hb; exact hb
  | @forwarded ev hd hc =>
    obtain ⟨hnd, hsub⟩ := h.holding_fresh hs hd
    have hdr : s.Draining := Or.inl (by simp [hd])
    refine
      { h with
        firsts := fun _ => h.firsts hdr
        flow := fun _ => ?_
        distinct := hnd
        known := hsub
        notAhead := ?_
        balance := ?_
        still := fun hp => Or.inr ((h.still hp).resolve_left (by simp [hd])) }
    · have hf := h.flow hdr
      rw [hd] at hf
      rw [hf]
      exact (List.append_nil _).symm
    · intro req hm hq
      rcases List.mem_append.1 hq with hq | hq
      · rw [h.notAhead req hm hq] at hd
        cases hd
      · exact congrArg DrainPC.settling (List.mem_singleton.1 hq).symm
    · have hb := h.balance
      rw [hd] at hb
      simp only [DrainPC.settlingOne, List.length_append, List.length_singleton] at hb ⊢
      omega
  | @settled seq n hd hn =>
    have hdr : s.Draining := Or.inl (by simp [hd])
    refine
      { h with
        firsts := fun _ => h.firsts hdr
        flow := fun _ => ?_
        notAhead := fun req hm hq => absurd hq (h.notAdding hok hm)
        balance := ?_
        still := fun hp => ?_ }
    · have hf := h.flow hdr
      rw [hd] at hf
      exact hf
    · have hb := h.balance
      rw [hd, hn] at hb
      simp only [DrainPC.settlingOne] at hb ⊢
      omega
    · -- the group was not empty, so nobody stopped waiting
      rcases h.still hp with hr | hz
      · rw [hd] at hr; cases hr
      · rw [hn] at hz; cases hz
  | @markedReceived rx now sinceNs sinceMs trk hr hm =>
    have hrep : s.Draining → s.trk.repeats (.markReceived rx.seq rx now sinceNs sinceMs) = false := by
      rintro (hd | hset)
      · have hno := hok.resolve_left hd
        simpa only [repeatsReply, hr] using hno
      · rw [(hs.idle hset).1] at hr
        cases hr
    exact { h.trackerMove hs (ICMPTrackerRun.markReceived_move hm) (by simp) (by simp) hrep with }
  | sendPanicked hc hsend =>
    have hm := hs.closedMain hc
    rcases hsend with ⟨err, he⟩ | ⟨_, ev, hd⟩
    · rw [hm] at he
      cases he
    · have hpos := h.inFlight_pos hs hd (by rw [hm]; rfl)
      rcases h.still (Or.inl hm) with hr | hz
      · rw [hd] at hr; cases hr
      · rw [hz] at hpos; cases hpos
  | donePanicked hd hz =>
    have hpos := h.settle_pos hs hd hok
    rw [hz] at hpos
    cases hpos
  | rxLeft | tookErr | tookReply | replied | ioStopped => exact { h with }

end Settled

theorem settled (h : (system config).Reachable onePerPacket s) : s.Settled :=
  h.invariant_with (fun _ hr => orderly hr) (Settled.start config)
    fun _ _ _ hs hb hok hst => hb.move hs hok (step_move hst)

/-! ## The promise -/

/-- The counter of the group is the number of packets marked sent without an event on
`ch`.  Marking and adding are two steps, and so are output and `Done`.  Neither the group
nor `ch` has panicked. -/
structure Balanced (s : ScanRun) : Prop where
  counter : s.inFlight + s.main.addingOne =
    (s.trk.sent.toFinset \ s.forwarded.toFinset).card + s.drain.settlingOne
  alive : s.panicked = false

theorem Settled.balanced (h : Settled s) (hs : s.Orderly) : s.Balanced := by
  have hsub : s.forwarded.toFinset ⊆ s.trk.sent.toFinset := by
    intro q hq
    exact List.mem_toFinset.2 (h.known q (List.mem_toFinset.1 hq))
  have hle := (List.subperm_of_subset h.distinct h.known).length_le
  refine ⟨?_, h.alive⟩
  rw [Finset.card_sdiff_of_subset hsub, List.toFinset_card_of_nodup h.distinct,
    List.toFinset_card_of_nodup hs.sentNodup]
  have hb := h.balance
  omega

/-- The books of a block scan, in every run with one event for each packet. -/
theorem scan_balanced (config : ScanConfig) {s : ScanRun}
    (h : (system config).Reachable onePerPacket s) : s.Balanced :=
  (settled h).balanced (orderly h)

/-- A scan of two addresses. -/
def sampleScan : ScanConfig where
  tracker := ⟨3000000000, 2⟩
  addresses := [[192, 0, 2, 0], [192, 0, 2, 1]]
  ttl := .range [64] ⟨0, Nat.zero_lt_one⟩

/-- The main loop sends the next packet. -/
def scanOne : List ScanAction := [.address, .markSent 0, .add, .send none, .wake]

/-- A reply arrives and is recorded. -/
def answerOne (seq : Int) : List ScanAction :=
  [.reply (ICMPTrackerRun.sampleReply seq), .takeReply, .markReceived 3 3 3]

/-- The drain goroutine outputs an event and takes its packet out of the group. -/
def drainOne (src : EventSource) : List ScanAction := [.drainTake src, .forward, .settle]

/-- One address answers, the other times out, and the scan ends. -/
theorem scan_balanced_two : ∃ s, (system sampleScan).Reachable onePerPacket s ∧
    s.chClosed = true ∧ s.forwarded = [1, 2] ∧ s.Balanced := by
  obtain ⟨s, hr, hp⟩ := System.exists_of_replay (system sampleScan) onePerPacket
    (fun s => s.chClosed = true ∧ s.forwarded = [1, 2])
    (([.launch] : List ScanAction) ++ scanOne ++ scanOne ++ answerOne 1 ++
      drainOne (.delivery 0) ++
      ([.tracker (.timerFires 2), .tracker (.handleTimeout 2), .tracker .emit] :
        List ScanAction) ++
      drainOne .buffer ++ ([.addressesDone, .wgZero, .waitDone, .close] : List ScanAction))
    (by decide +kernel)
  obtain ⟨hc, hf⟩ := of_decide_eq_true hp
  exact ⟨s, hr, hc, hf, scan_balanced sampleScan hr⟩

/-- The first address answers twice, and the second `Done` finds the group empty. -/
theorem scan_unbalanced :
    ¬ ∀ s, (system sampleScan).Reachable Policy.any s → s.Balanced := by
  intro h
  obtain ⟨s, hr, hp⟩ := System.exists_of_replay (system sampleScan) Policy.any
    (fun s => s.panicked)
    (([.launch] : List ScanAction) ++ scanOne ++ answerOne 1 ++ answerOne 1 ++ drainOne (.delivery 0) ++
      drainOne (.delivery 0)) (by decide +kernel)
  have ha := (h s hr).alive
  rw [hp] at ha
  cases ha

end ScanRun

end CloudPing.Pinger
