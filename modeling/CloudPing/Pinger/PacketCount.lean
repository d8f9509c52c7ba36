import CloudPing.Pinger.SimplePinger

/-!
# How many packets a ping sends

Each event makes the event goroutine put one control signal on its channel, and each
control signal is one packet.  The sequence number of a signal is one more than the number
of events handled, so the numbers only grow and no packet number is marked sent twice:
that is `Orderly`, and it holds in every run.

The count itself does not hold in every run.  The event goroutine stops when no packet is
outstanding and exactly `TotalPkts` are acknowledged.  It relies on there being a single
packet, signal or event on its way at any time.  A second reply to one packet puts a
second event on its way, and from then on two packets circulate: the test can fail at
`TotalPkts` and nothing stops the sending.  `paced` is the condition under which this does
not happen, and `Paced` the invariant.
-/

namespace CloudPing.Pinger

open Conc Raw

/-- The control signal the sending goroutine has taken and not yet marked sent. -/
def SenderPC.marking : SenderPC → List SendControl
  | .markingSent ctrl => [ctrl]
  | _ => []

/-- One while the event goroutine is at work on an event. -/
def EventPC.busy : EventPC → Nat
  | .select | .returned => 0
  | _ => 1

/-- The event was counted in `numPktsSent` and its control signal has still to be sent. -/
def EventPC.counted : EventPC → Bool
  | .askingUnAcked _ | .askingAckedSeq _ | .pausing _ | .signalling _ => true
  | _ => false

/-- The event goroutine has decided to go on. -/
def EventPC.goesOn : EventPC → Bool
  | .pausing _ | .signalling _ => true
  | _ => false

namespace PingRun

/-- The control signals not yet marked sent. -/
def queued (s : PingRun) : List SendControl := s.snd.marking ++ s.ctrlSignals.buf

/-- All sequence numbers handed out, in order. -/
def seqs (s : PingRun) : List Int := s.trk.sent ++ s.queued.map SendControl.seq

/-- No sequence number handed out is larger. -/
def bound (s : PingRun) : Int := if s.ev.counted then s.numPktsSent else s.numPktsSent + 1

/-! ## Sequence numbers -/

variable {config : PingConfig} {s t : PingRun} {a : PingAction} {N : Nat}

/-- How a step moves the sequence numbers handed out: the event goroutine hands out the
next one, or none is handed out and the bound does not fall. -/
inductive Handed (s t : PingRun) : Prop where
  | none (hs : t.seqs.Sublist s.seqs) (hb : s.bound ≤ t.bound)
  | next (hs : t.seqs = s.seqs ++ [s.bound + 1]) (hb : t.bound = s.bound + 1)

theorem Move.handed (hm : Move config s a t) : Handed s t := by
  cases hm with
  | @tracker b trk hi hst =>
    have hs : trk.sent = s.trk.sent := (ICMPTrackerRun.step_move hst).sent_of_own hi
    exact .none (by simp [seqs, queued, hs]) (Int.le_refl _)
  | @tookEvent src ev trk he ht =>
    have hs : trk.sent = s.trk.sent := (ICMPTrackerRun.take_move ht).1.sent_eq (by simp)
    exact .none (by simp [seqs, queued, hs]) (by simp [bound, he, EventPC.counted])
  | @markedReceived rx now sinceNs sinceMs trk hs hr =>
    have hse : trk.sent = s.trk.sent :=
      (ICMPTrackerRun.markReceived_move hr).sent_eq (by simp)
    exact .none (by simp [seqs, queued, hs, hse, SenderPC.marking]) (Int.le_refl _)
  | @markedSent ctrl now trk hs hr =>
    -- the number leaves the queue and joins those marked sent
    obtain ⟨_, it, _, rfl⟩ := ICMPTrackerRun.serve_map_ok hr
    exact .none (by simp [seqs, queued, hs, SenderPC.marking]) (Int.le_refl _)
  | @forgot trk hs hr =>
    have hse : trk.sent = s.trk.sent :=
      (ICMPTrackerRun.forgetAllAndClose_move hr).sent_eq (by simp)
    exact .none (by simp [seqs, queued, hs, hse, SenderPC.marking]) (Int.le_refl _)
  | @signalled nextTTL c he hc =>
    obtain ⟨_, _, _, hb, _⟩ := Chan.send_eq_sent hc
    refine .next ?_ ?_
    · simp [seqs, queued, hb, bound, he, EventPC.counted]
    · simp [bound, he, EventPC.counted]
  | stopped he hw hc =>
    obtain ⟨_, _, hb, _⟩ := Chan.close_eq_some hc
    exact .none (by simp [seqs, queued, hb]) (by simp [bound, he, EventPC.counted])
  | finished he hn ht hc =>
    obtain ⟨_, _, hb, _⟩ := Chan.close_eq_some hc
    refine .none (by simp [seqs, queued, hb]) ?_
    simp only [bound, he, EventPC.counted, if_true, Bool.false_eq_true, if_false]
    omega
  | outputted he =>
    refine .none (.refl _) ?_
    by_cases hn : config.totalPkts.isSome <;> simp [bound, he, EventPC.counted, hn]
  | @asked nextTTL n he hn =>
    refine .none (.refl _) ?_
    by_cases hz : n = 0 <;> simp [bound, he, EventPC.counted, hz]
  | handled he | unfinished he | paused he =>
    exact .none (.refl _) (by simp [bound, he, EventPC.counted])
  | tookSignal hs hc =>
    obtain ⟨hb, _, _⟩ := Chan.recv_eq_some hc
    exact .none (by simp [seqs, queued, hs, hb, SenderPC.marking]) (Int.le_refl _)
  | left => exact .none (by simp [seqs, queued, SenderPC.marking]) (Int.le_refl _)
  | tookErr hs | tookRunErr hs | tookReply hs | wrote hs | closedCh hs =>
    exact .none (by simp [seqs, queued, hs, SenderPC.marking]) (Int.le_refl _)
  | crashed | replied | ioStopped => exact .none (.refl _) (Int.le_refl _)

/-- The sequence numbers handed out ascend, and the tracker's books are in order. -/
structure Orderly (s : PingRun) : Prop where
  ascending : s.seqs.Pairwise (· < ·)
  bounded : ∀ q ∈ s.seqs, q ≤ s.bound
  accounted : s.trk.Accounted
  conserved : s.trk.Conserved
  lifecycle : s.trk.Lifecycle

namespace Orderly

theorem start (config : PingConfig) : Orderly (start config) where
  ascending := List.pairwise_singleton _ _
  bounded := by
    intro q hq
    have he : q = 1 := List.mem_singleton.1 hq
    rw [he]
    exact Int.le_refl 1
  accounted := .new _
  conserved := .new _
  lifecycle := .new _

/-- The control signal about to be marked sent has a fresh sequence number. -/
theorem fresh (h : s.Orderly) {ctrl : SendControl} (hs : s.snd = .markingSent ctrl) :
    ctrl.seq ∉ s.trk.sent := by
  intro hm
  have hlt := (List.pairwise_append.1 h.ascending).2.2 ctrl.seq hm ctrl.seq
    (by simp [queued, hs, SenderPC.marking])
  exact Int.lt_irrefl _ hlt

/-- What a step does to the tracker is a step of the tracker, with a fresh number where it
marks one sent. -/
theorem trackerMove (h : s.Orderly) (hm : Move config s a t) :
    t.trk = s.trk ∨ ∃ b, ICMPTrackerRun.Move s.trk b t.trk ∧ ICMPTrackerRun.distinct s.trk b := by
  cases hm with
  | tracker hi hst =>
    exact Or.inr ⟨_, ICMPTrackerRun.step_move hst, ICMPTrackerRun.distinct_of_own hi _⟩
  | tookEvent he ht => exact Or.inr ⟨_, (ICMPTrackerRun.take_move ht).1, trivial⟩
  | markedReceived hs hr => exact Or.inr ⟨_, ICMPTrackerRun.markReceived_move hr, trivial⟩
  | markedSent hs hr => exact Or.inr ⟨_, ICMPTrackerRun.markSent_move hr, h.fresh hs⟩
  | forgot hs hr => exact Or.inr ⟨_, ICMPTrackerRun.forgetAllAndClose_move hr, trivial⟩
  | closedCh hs hc => exact Or.inr ⟨_, .closed hc, trivial⟩
  | _ => exact Or.inl rfl

theorem move (h : s.Orderly) (hm : Move config s a t) : t.Orderly := by
  have hbooks : t.trk.Accounted ∧ t.trk.Conserved ∧ t.trk.Lifecycle := by
    rcases h.trackerMove hm with he | ⟨b, hb, hd⟩
    · rw [he]
      exact ⟨h.accounted, h.conserved, h.lifecycle⟩
    · exact ⟨h.accounted.move hd hb, h.conserved.move hb, h.lifecycle.move hb⟩
  obtain ⟨hacc, hcons, hlife⟩ := hbooks
  cases hm.handed with
  | none hs hb =>
    refine ⟨h.ascending.sublist hs, fun q hq => ?_, hacc, hcons, hlife⟩
    exact Int.le_trans (h.bounded q (hs.subset hq)) hb
  | next hs hb =>
    refine ⟨?_, fun q hq => ?_, hacc, hcons, hlife⟩
    · rw [hs]
      refine List.pairwise_append.2 ⟨h.ascending, List.pairwise_singleton _ _, ?_⟩
      intro q hq q' hq'
      rw [List.mem_singleton.1 hq']
      exact Int.lt_add_one_of_le (h.bounded q hq)
    · rw [hs] at hq
      rw [hb]
      rcases List.mem_append.1 hq with hq | hq
      · have hle := h.bounded q hq
        omega
      · exact Int.le_of_eq (List.mem_singleton.1 hq)

end Orderly

theorem orderly {ok : Policy PingRun PingAction} (h : (system config).Reachable ok s) : s.Orderly :=
  h.invariant (Orderly.start config) fun _ _ _ hs _ hst => hs.move (step_move hst)

/-! ## The condition -/

/-- The sending goroutine is about to record a second reply of one packet. -/
def repeatsReply (s : PingRun) (now sinceNs sinceMs : Time) : Bool :=
  match s.snd with
  | .markingReceived rx => s.trk.repeats (.markReceived rx.seq rx now sinceNs sinceMs)
  | _ => false

/-- Until `n` packets are acknowledged, no packet gets a second reply while the event
goroutine runs, and `transceiver.Run` reports nothing unless the context ended. -/
def paced (n : Nat) : Policy PingRun PingAction := fun s a =>
  match a with
  | .takeRunErr => s.trk.ctxDone = true ∨ n ≤ s.trk.it.ackedSeq
  | .markReceived now sinceNs sinceMs =>
    n ≤ s.trk.it.ackedSeq ∨ s.ev = .returned ∨ s.repeatsReply now sinceNs sinceMs = false
  | _ => True

instance (n : Nat) : ∀ s a, Decidable (paced n s a) := fun _ a =>
  match a with
  | .takeRunErr => inferInstanceAs (Decidable (_ ∨ _))
  | .markReceived _ _ _ => inferInstanceAs (Decidable (_ ∨ _ ∨ _))
  | .tracker _ | .evCtxDone | .evClosed | .evTake _ | .resolve _ | .output | .getUnAcked
  | .getAckedSeq | .pause | .signal | .sndCtxDone | .takeReply | .outCClosed | .takeErr
  | .takeSignal | .signalsClosed | .markSent _ | .send _ | .forgetAllAndClose | .closeCloseCh
  | .reply _ | .ioCtxDone | .ioStop _ => isTrue trivial

/-- The event goroutine handles events, and the tracker answers it. -/
def Live (s : PingRun) : Prop := s.trk.actor ≠ .returned ∧ s.ev ≠ .returned

/-- The packet count invariant.  Before `n` packets are acknowledged there is at most one
of these: a queued control signal, an outstanding packet, an event on its way, an event
being handled (`single`).  From then on there is nothing to send, and an event is left to
make the event goroutine return (`last`). -/
structure Paced (n : Nat) (s : PingRun) : Prop where
  sentLe : s.trk.sent.length ≤ n
  room : s.trk.actor ≠ .returned → s.trk.sent.length + s.queued.length ≤ n
  single : s.Live → s.trk.acked.length < n →
    s.queued.length + s.trk.sent.length + s.trk.events.length + s.ev.busy ≤
      1 + s.trk.acked.length + s.trk.taken.length
  last : s.Live → n ≤ s.trk.acked.length →
    s.ev.goesOn = false ∧ s.trk.taken.length < s.trk.events.length + s.ev.busy
  ended : s.trk.it.closed = true ∨ s.snd = .forgetting ∨ s.ev = .returned →
    s.trk.ctxDone = true ∨ n ≤ s.trk.acked.length

namespace Paced

theorem start (hn : 1 ≤ N) : Paced N (start config) where
  sentLe := Nat.zero_le N
  room := fun _ => hn
  single := fun _ _ => Nat.le_refl 1
  last := fun _ ha => absurd (Nat.le_trans hn ha) (Nat.not_succ_le_zero 0)
  ended := by rintro (h | h | h) <;> cases h

/-- A step that leaves the tracker alone and queues nothing. -/
theorem frame (h : Paced N s) (htrk : t.trk = s.trk) (hq : t.queued.length ≤ s.queued.length)
    (hev : t.ev ≠ .returned → s.ev ≠ .returned ∧ t.ev.busy = s.ev.busy ∧
      (t.ev.goesOn = true → s.trk.actor ≠ .returned → s.trk.acked.length < N))
    (hend : t.snd = .forgetting ∨ t.ev = .returned →
      s.trk.ctxDone = true ∨ N ≤ s.trk.acked.length) : Paced N t := by
  have hact : t.trk.actor ≠ .returned → s.trk.actor ≠ .returned := by rw [htrk]; exact id
  refine ⟨by rw [htrk]; exact h.sentLe, fun ha => ?_, fun hl ha => ?_, fun hl ha => ?_,
    fun hc => ?_⟩
  · have hr := h.room (hact ha)
    rw [htrk]
    omega
  · obtain ⟨hne, hbusy, _⟩ := hev hl.2
    rw [htrk] at ha ⊢
    have hs := h.single ⟨hact hl.1, hne⟩ ha
    omega
  · obtain ⟨hne, hbusy, hgo⟩ := hev hl.2
    rw [htrk] at ha ⊢
    obtain ⟨_, hlt⟩ := h.last ⟨hact hl.1, hne⟩ ha
    refine ⟨?_, by omega⟩
    cases hg : t.ev.goesOn with
    | false => rfl
    | true => exact absurd (hgo hg (hact hl.1)) (by omega)
  · rw [htrk] at hc ⊢
    rcases hc with hc | hc
    · exact h.ended (Or.inl hc)
    · exact hend hc

theorem goesOn_of_idle {pc : EventPC} (h : pc.busy = 0) : pc.goesOn = false := by
  cases pc <;> first | rfl | cases h

/-- A step of the tracker that marks nothing sent and hands over no event.  The last of
`N` acknowledgements finds nothing else on its way, by `single`, and its event is the one
`last` asks for. -/
theorem count (h : Paced N s) (hs : s.Orderly) (ht : t.Orderly) {b : TrackerAction}
    (hm : ICMPTrackerRun.Move s.trk b t.trk) (hb : ∀ q ttl dst now, b ≠ .markSent q ttl dst now)
    (hb' : ∀ src, b ≠ .take src) (hev : t.ev = s.ev) (hq : t.queued = s.queued)
    (hrep : s.trk.repeats b = true → N ≤ s.trk.acked.length ∨ s.ev = .returned)
    (hend : t.trk.it.closed = true ∨ t.snd = .forgetting →
      s.trk.ctxDone = true ∨ N ≤ s.trk.acked.length) : Paced N t := by
  have hact : t.trk.actor ≠ .returned → s.trk.actor ≠ .returned := fun ha hr =>
    ha (hm.actor_returned hr)
  have hlive : t.Live → s.Live := fun hl => ⟨hact hl.1, hev ▸ hl.2⟩
  have htaken := hs.conserved.length
  have hacked := ht.accounted.acked_le
  -- the end of the run is what it was, or later
  have hended : s.trk.acked.length ≤ t.trk.acked.length →
      t.trk.it.closed = true ∨ t.snd = .forgetting ∨ t.ev = .returned →
      t.trk.ctxDone = true ∨ N ≤ t.trk.acked.length := by
    intro hle hc
    have hctx : s.trk.ctxDone = true ∨ N ≤ s.trk.acked.length := by
      rcases hc with hc | hc | hc
      · exact hend (Or.inl hc)
      · exact hend (Or.inr hc)
      · exact h.ended (Or.inr (Or.inr (hev ▸ hc)))
    exact hctx.imp hm.ctxDone fun hn => Nat.le_trans hn hle
  cases hm.effect hs.accounted with
  | quiet hse ha he hta =>
    refine ⟨hse ▸ h.sentLe, fun hr => ?_, fun hl hn => ?_, fun hl hn => ?_,
      hended (by rw [ha])⟩
    · rw [hse, hq]
      exact h.room (hact hr)
    · rw [hse, ha, he, hta, hev, hq]
      exact h.single (hlive hl) (ha ▸ hn)
    · rw [he, hta, hev]
      exact h.last (hlive hl) (ha ▸ hn)
  | sent hb'' => exact absurd hb'' (hb _ _ _ _)
  | took hb'' => exact absurd hb'' (hb' _)
  | first _ hse ha he hta =>
    have ha' : t.trk.acked.length = s.trk.acked.length + 1 := by rw [ha, List.length_append]; rfl
    have he' : t.trk.events.length = s.trk.events.length + 1 := by rw [he, List.length_append]; rfl
    rw [hse] at hacked
    refine ⟨hse ▸ h.sentLe, fun hr => ?_, fun hl hn => ?_, fun hl hn => ?_,
      hended (by omega)⟩
    · rw [hse, hq]
      exact h.room (hact hr)
    · have hsi := h.single (hlive hl) (by omega)
      rw [hse, hta, hev, hq]
      omega
    · rw [hta, hev]
      by_cases hN : N ≤ s.trk.acked.length
      · obtain ⟨hgo, hlt⟩ := h.last (hlive hl) hN
        exact ⟨hgo, by omega⟩
      · have hsi := h.single (hlive hl) (by omega)
        have hidle : s.ev.busy = 0 := by omega
        exact ⟨goesOn_of_idle hidle, by omega⟩
  | again _ hr' hse ha he hta =>
    have he' : t.trk.events.length = s.trk.events.length + 1 := by rw [he, List.length_append]; rfl
    refine ⟨hse ▸ h.sentLe, fun hr => ?_, fun hl hn => ?_, fun hl hn => ?_,
      hended (by rw [ha])⟩
    · rw [hse, hq]
      exact h.room (hact hr)
    · rw [ha] at hn
      rcases hrep hr' with hdone | hdone
      · omega
      · exact absurd hdone (hlive hl).2
    · obtain ⟨hgo, hlt⟩ := h.last (hlive hl) (ha ▸ hn)
      rw [hta, hev]
      exact ⟨hgo, by omega⟩

/-- While the event goroutine asks the tracker and `N` packets are acknowledged, it gets
the answers that make it return. -/
theorem answers (h : Paced N s) (hs : s.Orderly) (ha : s.trk.actor = .select)
    (hn : N ≤ s.trk.acked.length) :
    s.trk.it.getUnAcked = 0 ∧ s.trk.it.getAckedSeq = N := by
  have hb := hs.accounted.balance
  rw [ha] at hb
  simp only [ActorPC.inFn] at hb
  have hlen := hs.accounted.ackedLength
  have hle := h.sentLe
  refine ⟨by omega, ?_⟩
  show s.trk.it.ackedSeq = N
  omega

/-- While the event goroutine goes on, not all packets are acknowledged. -/
theorem acked_lt (h : Paced N s) (hact : s.trk.actor ≠ .returned) (hne : s.ev ≠ .returned)
    (hgo : s.ev.goesOn = true) : s.trk.acked.length < N := by
  by_contra hN
  rw [(h.last ⟨hact, hne⟩ (Nat.le_of_not_lt hN)).1] at hgo
  cases hgo

/-- A step of the other goroutines that queues nothing. -/
theorem stay (h : Paced N s) (htrk : t.trk = s.trk) (hq : t.queued.length ≤ s.queued.length)
    (hev : t.ev = s.ev) (hsnd : t.snd = .forgetting → s.snd = .forgetting) : Paced N t := by
  refine h.frame htrk hq (fun hne => ?_) ?_
  · rw [hev] at hne ⊢
    exact ⟨hne, rfl, fun hg ha => h.acked_lt ha hne hg⟩
  · rintro (hc | hc)
    · exact h.ended (Or.inr (Or.inl (hsnd hc)))
    · exact h.ended (Or.inr (Or.inr (hev ▸ hc)))

/-- A step of the event goroutine that does not return. -/
theorem goOn (h : Paced N s) (htrk : t.trk = s.trk) (hq : t.queued = s.queued)
    (hsnd : t.snd = s.snd) (hr : t.ev ≠ .returned) (hne : s.ev ≠ .returned)
    (hbusy : t.ev.busy = s.ev.busy)
    (hgo : t.ev.goesOn = true → s.trk.actor ≠ .returned → s.trk.acked.length < N) : Paced N t := by
  refine h.frame htrk (by rw [hq]) (fun _ => ⟨hne, hbusy, hgo⟩) ?_
  rintro (hc | hc)
  · exact h.ended (Or.inr (Or.inl (hsnd ▸ hc)))
  · exact absurd hc hr

/-- The event goroutine returns, and for a reason that ends the run. -/
theorem finish (h : Paced N s) {c : Chan SendControl} (hc : s.ctrlSignals.close = some c)
    (hend : s.trk.ctxDone = true ∨ N ≤ s.trk.acked.length) :
    Paced N { s with ev := .returned, ctrlSignals := c } := by
  obtain ⟨_, _, hb, _⟩ := Chan.close_eq_some hc
  exact h.frame rfl (by simp [queued, hb]) (fun hne => absurd rfl hne) fun _ => hend

theorem move (h : Paced N s) (hs : s.Orderly) (hN : 1 ≤ N) (ht : config.totalPkts = some (N : Int))
    (hok : paced N s a) (hm : Move config s a t) : Paced N t := by
  have hot := hs.move hm
  have hlen := hs.accounted.ackedLength
  cases hm with
  | @tracker b trk hi hst =>
    have hmv := ICMPTrackerRun.step_move hst
    refine h.count hs hot hmv ?_ ?_ rfl rfl ?_ ?_
    · rintro q ttl dst now rfl
      cases hi
    · rintro src rfl
      cases hi
    · intro hr
      cases b with
      | markReceived => cases hi
      | _ => cases hr
    · have hcl : trk.it.closed = s.trk.it.closed :=
        hmv.it_closed (by rintro rfl; cases hi)
      rw [show ({ s with trk := trk } : PingRun).trk.it.closed = s.trk.it.closed from hcl]
      exact fun hc => h.ended (hc.imp id Or.inl)
  | stopped he hw hc =>
    refine h.finish hc ?_
    rcases hw with hw | hw
    · exact Or.inl hw
    · have hret := hs.lifecycle.closedIff.1 (Chan.drained_iff.1 hw).2
      rcases hs.lifecycle.returned hret with hctx | hcl
      · exact Or.inl hctx
      · exact h.ended (Or.inl hcl)
  | @finished nextTTL n c he hn htp hc =>
    refine h.finish hc (Or.inr ?_)
    have hnN : n = N := by
      rw [ht] at htp
      exact_mod_cast (Option.some.inj htp).symm
    rcases ICMPTrackerRun.getAckedSeq_eq_some hn with ⟨_, hn⟩ | ⟨_, hn⟩
    · rw [hlen, ← hnN, hn]
      exact Nat.le_refl _
    · omega
  | @tookEvent src ev trk he hta =>
    obtain ⟨hmv, htaken⟩ := ICMPTrackerRun.take_move hta
    obtain ⟨hse, ha, hev, hcl⟩ := ICMPTrackerRun.take_frame hta
    have hact : trk.actor ≠ .returned → s.trk.actor ≠ .returned := fun hr hr' =>
      hr (hmv.actor_returned hr')
    have hlive : trk.actor ≠ .returned → s.Live := fun hr => ⟨hact hr, by simp [he]⟩
    have hidle : s.ev.busy = 0 := by rw [he]; rfl
    refine ⟨?_, fun hr => ?_, fun hl hlt => ?_, fun hl hle => ⟨rfl, ?_⟩, fun hc => ?_⟩
    · show trk.sent.length ≤ N
      rw [hse]
      exact h.sentLe
    · show trk.sent.length + s.queued.length ≤ N
      rw [hse]
      exact h.room (hact hr)
    · have hsi := h.single (hlive hl.1) (ha ▸ hlt)
      show s.queued.length + trk.sent.length + trk.events.length + 1 ≤
        1 + trk.acked.length + trk.taken.length
      rw [hse, ha, hev, htaken, List.length_append, List.length_singleton]
      omega
    · have hla := (h.last (hlive hl.1) (ha ▸ hle)).2
      show trk.taken.length < trk.events.length + 1
      rw [hev, htaken, List.length_append, List.length_singleton]
      omega
    · show trk.ctxDone = true ∨ N ≤ trk.acked.length
      rw [ha]
      refine (h.ended ?_).imp hmv.ctxDone id
      rcases hc with hc | hc | hc
      · exact Or.inl (hcl ▸ hc)
      · exact Or.inr (Or.inl hc)
      · cases hc
  | handled he =>
    exact h.goOn rfl rfl rfl (by simp) (by simp [he]) (by simp [he, EventPC.busy])
      (fun hg => by cases hg)
  | outputted he =>
    -- `TotalPkts` is set, so the tracker is asked
    rw [ht]
    exact h.goOn rfl rfl rfl (by simp) (by simp [he]) (by simp [he, EventPC.busy])
      (fun hg => by cases hg)
  | @asked nextTTL n he hn =>
    refine h.goOn rfl rfl rfl ?_ (by simp [he]) ?_ ?_
    · show (if n = 0 then EventPC.askingAckedSeq nextTTL else .pausing nextTTL) ≠ .returned
      split <;> simp
    · show (if n = 0 then EventPC.askingAckedSeq nextTTL else .pausing nextTTL).busy = _
      rw [he]
      split <;> rfl
    · intro hg hact
      by_contra hlt
      rcases ICMPTrackerRun.getUnAcked_eq_some hn with ⟨hsel, hn⟩ | ⟨hret, _⟩
      · have hz := (h.answers hs hsel (Nat.le_of_not_lt hlt)).1
        rw [hn, hz] at hg
        cases hg
      · exact hact hret
  | @unfinished nextTTL n he hn htp =>
    refine h.goOn rfl rfl rfl (by simp) (by simp [he]) (by simp [he, EventPC.busy]) ?_
    intro _ hact
    by_contra hlt
    rcases ICMPTrackerRun.getAckedSeq_eq_some hn with ⟨hsel, hn⟩ | ⟨hret, _⟩
    · have hz := (h.answers hs hsel (Nat.le_of_not_lt hlt)).2
      exact htp (by rw [ht, hn, hz])
    · exact hact hret
  | paused he =>
    refine h.goOn rfl rfl rfl (by simp) (by simp [he]) (by simp [he, EventPC.busy]) ?_
    exact fun _ hact => h.acked_lt hact (by simp [he]) (by rw [he]; rfl)
  | @signalled nextTTL c he hc =>
    obtain ⟨_, _, _, hb, _⟩ := Chan.send_eq_sent hc
    have hq : queued { s with ctrlSignals := c, ev := .select } =
        s.queued ++ [⟨s.numPktsSent + 1, nextTTL, true⟩] := by simp [queued, hb]
    have hgo : s.trk.actor ≠ .returned → s.trk.acked.length < N := fun hact =>
      h.acked_lt hact (by simp [he]) (by rw [he]; rfl)
    have hbusy : s.ev.busy = 1 := by rw [he]; rfl
    have htaken := hs.conserved.length
    refine ⟨h.sentLe, fun hact => ?_, fun hl hlt => ?_, fun hl hle => ?_, fun hcl => ?_⟩
    · have hsi := h.single ⟨hact, by simp [he]⟩ (hgo hact)
      have hlt := hgo hact
      rw [hq, List.length_append, List.length_singleton]
      show s.trk.sent.length + (s.queued.length + 1) ≤ N
      omega
    · have hsi := h.single ⟨hl.1, by simp [he]⟩ hlt
      rw [hq, List.length_append, List.length_singleton]
      show s.queued.length + 1 + s.trk.sent.length + s.trk.events.length + 0 ≤
        1 + s.trk.acked.length + s.trk.taken.length
      omega
    · exact absurd (hgo hl.1) (Nat.not_lt_of_le hle)
    · refine h.ended ?_
      rcases hcl with hcl | hcl | hcl
      · exact Or.inl hcl
      · exact Or.inr (Or.inl hcl)
      · cases hcl
  | crashed | replied | ioStopped => exact h.stay rfl (Nat.le_refl _) rfl id
  | left => exact h.stay rfl (by simp [queued, SenderPC.marking]) rfl (by simp)
  | tookErr hs' | tookReply hs' | wrote hs' =>
    exact h.stay rfl (by simp [queued, hs', SenderPC.marking]) rfl (by simp)
  | tookRunErr hs' =>
    refine h.frame rfl (by simp [queued, hs', SenderPC.marking]) (fun hne => ?_) ?_
    · exact ⟨hne, rfl, fun hg ha => h.acked_lt ha hne hg⟩
    · rw [hlen]
      exact fun _ => hok
  | tookSignal hs' hc =>
    obtain ⟨hb, _, _⟩ := Chan.recv_eq_some hc
    exact h.stay rfl (by simp [queued, hs', hb, SenderPC.marking]) rfl (by simp)
  | @markedReceived rx now sinceNs sinceMs trk hs' hr =>
    have hmv := ICMPTrackerRun.markReceived_move hr
    refine h.count hs hot hmv (by simp) (by simp) rfl (by simp [queued, hs', SenderPC.marking]) ?_ ?_
    · intro hrep
      rcases hok with hok | hok | hok
      · exact Or.inl (hlen ▸ hok)
      · exact Or.inr hok
      · simp only [repeatsReply, hs', hrep] at hok
        cases hok
    · rw [show trk.it.closed = s.trk.it.closed from hmv.it_closed (by simp)]
      rintro (hc | hc)
      · exact h.ended (Or.inl hc)
      · cases hc
  | @markedSent ctrl now trk hs' hr =>
    obtain ⟨ha, it, hit, rfl⟩ := ICMPTrackerRun.serve_map_ok hr
    obtain ⟨hcl, rfl⟩ := ICMPTracker.markSent_ok hit
    have hact : s.trk.actor ≠ .returned := by simp [ha]
    have hq : s.queued.length = 1 + s.ctrlSignals.buf.length := by
      simp [queued, hs', SenderPC.marking, Nat.add_comm]
    refine ⟨?_, fun _ => ?_, fun hl hlt => ?_, fun hl hle => h.last hl hle, fun hc => ?_⟩
    · have hr := h.room hact
      show (s.trk.sent ++ [ctrl.seq]).length ≤ N
      rw [List.length_append, List.length_singleton]
      omega
    · have hr := h.room hact
      show (s.trk.sent ++ [ctrl.seq]).length + s.ctrlSignals.buf.length ≤ N
      rw [List.length_append, List.length_singleton]
      omega
    · have hsi := h.single hl hlt
      show s.ctrlSignals.buf.length + (s.trk.sent ++ [ctrl.seq]).length + s.trk.events.length +
        s.ev.busy ≤ 1 + s.trk.acked.length + s.trk.taken.length
      rw [List.length_append, List.length_singleton]
      omega
    · refine h.ended ?_
      rcases hc with hc | hc | hc
      · exact Or.inl hc
      · cases hc
      · exact Or.inr (Or.inr hc)
  | forgot hs' hr =>
    have hmv := ICMPTrackerRun.forgetAllAndClose_move hr
    exact h.count hs hot hmv (by simp) (by simp) rfl (by simp [queued, hs', SenderPC.marking])
      (fun hrep => by cases hrep) (fun _ => h.ended (Or.inr (Or.inl hs')))
  | closedCh hs' hc =>
    have hmv : ICMPTrackerRun.Move s.trk .closeCloseCh _ := .closed hc
    refine h.count hs hot hmv (by simp) (by simp) rfl (by simp [queued, hs', SenderPC.marking])
      (fun hrep => by cases hrep) ?_
    rintro (hcl | hcl)
    · exact h.ended (Or.inl hcl)
    · cases hcl

end Paced

theorem paced_of (h : (system config).Reachable (paced N) s) (hN : 1 ≤ N)
    (ht : config.totalPkts = some (N : Int)) : Paced N s :=
  h.invariant_with (fun _ hr => orderly hr) (Paced.start hN)
    fun _ _ _ hs hp hok hst => hp.move hs hN ht hok (step_move hst)

/-! ## The promise -/

/-- The event goroutine is in its select and nothing there is ready but an event. -/
def Waiting (s : PingRun) : Prop :=
  s.ev = .select ∧ s.trk.ctxDone = false ∧ s.trk.recvEvC.drained = false

/-- A ping of `n` packets. -/
structure CountsTo (n : Nat) (s : PingRun) : Prop where
  /-- At most `n` packets are marked sent. -/
  atMost : s.trk.sent.length ≤ n
  /-- While the context is live, the event goroutine returns only when `n` packets were
  sent and acknowledged. -/
  complete : s.ev = .returned → s.trk.ctxDone = false →
    s.trk.sent.length = n ∧ s.trk.it.ackedSeq = n
  /-- It does not wait on when `n` packets are acknowledged and no event is left. -/
  stops : ¬ (n ≤ s.trk.it.ackedSeq ∧ s.trk.it.getUnAcked = 0 ∧ s.trk.undelivered = [] ∧ s.Waiting)

theorem Paced.countsTo (h : Paced N s) (hs : s.Orderly) : s.CountsTo N := by
  have hlen := hs.accounted.ackedLength
  have hle := hs.accounted.acked_le
  have hsent := h.sentLe
  refine ⟨hsent, fun hr hctx => ?_, ?_⟩
  · rcases h.ended (Or.inr (Or.inr hr)) with hc | hn
    · rw [hctx] at hc
      cases hc
    · omega
  · rintro ⟨hn, _, hund, he, hctx, hdr⟩
    by_cases hact : s.trk.actor = .returned
    · -- the channel is closed and empty, so the receive returns
      have hclosed := hs.lifecycle.closedIff.2 hact
      have hbuf : s.trk.recvEvC.buf = [] := (List.append_eq_nil_iff.1 hund).2
      rw [Chan.drained_iff.2 ⟨hbuf, hclosed⟩] at hdr
      cases hdr
    · have hla := (h.last ⟨hact, by simp [he]⟩ (hlen ▸ hn)).2
      have hcons := hs.conserved.length
      rw [hund] at hcons
      rw [he] at hla
      simp only [EventPC.busy, List.length_nil] at hla hcons
      omega

/-- The packet count, in every run that is `paced`. -/
theorem packet_count (config : PingConfig) (n : Nat) (hn : 1 ≤ n)
    (ht : config.totalPkts = some (n : Int)) {s : PingRun}
    (h : (system config).Reachable (paced n) s) : s.CountsTo n :=
  (paced_of h hn ht).countsTo (orderly h)

/-- A ping of two packets. -/
def sampleConfig : PingConfig where
  tracker := ⟨3000000000, 2⟩
  totalPkts := some 2
  ttl := .range [64] ⟨0, Nat.zero_lt_one⟩
  dst := ⟨[192, 0, 2, 1], ""⟩
  payload := []
  nexthopMTU := 1500
  ipInfo := false

/-- The sending goroutine sends the next packet. -/
def sendOne : List PingAction := [.takeSignal, .markSent 0, .send none]

/-- A reply arrives and is recorded. -/
def recvOne (seq : Int) : List PingAction :=
  [.reply (ICMPTrackerRun.sampleReply seq), .takeReply, .markReceived 3 3 3]

/-- The event goroutine takes an event and goes on. -/
def goAround (src : EventSource) (asks : List PingAction) : List PingAction :=
  [.evTake src, .resolve true, .output] ++ asks ++ [.pause, .signal]

/-- One packet is answered, the other times out, and the ping is complete. -/
theorem packet_count_two : ∃ s, (system sampleConfig).Reachable (paced 2) s ∧
    s.ev = .returned ∧ s.trk.sent = [1, 2] ∧ s.CountsTo 2 := by
  obtain ⟨s, hr, hp⟩ := System.exists_of_replay (system sampleConfig) (paced 2)
    (fun s => s.ev = .returned ∧ s.trk.sent = [1, 2])
    (sendOne ++ recvOne 1 ++ goAround (.delivery 0) [.getUnAcked, .getAckedSeq] ++ sendOne ++
      ([.tracker (.timerFires 2), .tracker (.handleTimeout 2), .tracker .emit, .evTake .buffer,
        .resolve true, .output, .getUnAcked, .getAckedSeq] : List PingAction))
    (by decide +kernel)
  obtain ⟨he, hs⟩ := of_decide_eq_true hp
  exact ⟨s, hr, he, hs, packet_count sampleConfig 2 (by decide) rfl hr⟩

/-- The first packet is answered twice while the second is on its way, and a third is
sent. -/
theorem packet_count_exceeded :
    ¬ ∀ s, (system sampleConfig).Reachable Policy.any s → s.CountsTo 2 := by
  intro h
  obtain ⟨s, hr, hp⟩ := System.exists_of_replay (system sampleConfig) Policy.any
    (fun s => s.trk.sent = [1, 2, 3])
    (sendOne ++ recvOne 1 ++ recvOne 1 ++
      goAround (.delivery 0) [.getUnAcked, .getAckedSeq] ++ sendOne ++
      goAround (.delivery 0) [.getUnAcked] ++ sendOne) (by decide +kernel)
  have hle := (h s hr).atMost
  rw [of_decide_eq_true hp] at hle
  exact absurd hle (by decide)

end PingRun

end CloudPing.Pinger
