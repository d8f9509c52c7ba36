import CloudPing.Pinger.PacketCount

/-!
# The crossed wait of sender and transceiver

The sending goroutine is the only reader of `outC` and the only writer of `inC`, and both
channels are unbuffered.  When the transceiver loop has a reply to pass on `outC` while
the sending goroutine has a packet to pass on `inC`, each waits for the other.  The wait
has no way out: neither of them selects on the context there (`Crossed.forever`).

The window is open from the moment the sending goroutine takes a control signal until it
has handed over the packet.  `apart` closes it from both sides.
-/

namespace CloudPing.Pinger

open Conc Raw

/-- The sending goroutine has taken a control signal and not handed over its packet. -/
def SenderPC.handing : SenderPC → Bool
  | .markingSent _ | .sending _ => true
  | _ => false

/-- The loop of the transceiver holds a reply. -/
def replying : TransceiverPC → Bool
  | .replying _ => true
  | _ => false

namespace PingRun

/-- The transceiver waits to pass a reply while the sending goroutine waits to pass a
packet. -/
def Crossed (s : PingRun) : Prop := replying s.io.pc = true ∧ ∃ ctrl, s.snd = .sending ctrl

/-- No control signal is taken while the transceiver holds a reply, and no reply arrives
while a packet is being handed over. -/
def apart : Policy PingRun PingAction := fun s a =>
  match a with
  | .takeSignal => replying s.io.pc = false
  | .reply _ => s.snd.handing = false
  | _ => True

instance : ∀ s a, Decidable (apart s a) := fun s a =>
  match a with
  | .takeSignal => inferInstanceAs (Decidable (replying s.io.pc = false))
  | .reply _ => inferInstanceAs (Decidable (s.snd.handing = false))
  | .tracker _ | .evCtxDone | .evClosed | .evTake _ | .resolve _ | .output | .getUnAcked
  | .getAckedSeq | .pause | .signal | .sndCtxDone | .takeReply | .outCClosed | .takeErr
  | .takeRunErr | .signalsClosed | .markReceived .. | .markSent _ | .send _ | .forgetAllAndClose
  | .closeCloseCh | .ioCtxDone | .ioStop _ => isTrue trivial

variable {config : PingConfig} {s t : PingRun} {a : PingAction}

/-- Once they wait for each other, they always do. -/
theorem Crossed.forever (h : s.Crossed) (hr : (system config).Reach Policy.any s t) :
    t.Crossed := by
  refine hr.induct h fun s a t hs _ hst => ?_
  obtain ⟨hio, ctrl, hsnd⟩ := hs
  have hsel : s.io.pc ≠ .select := by intro he; rw [he] at hio; cases hio
  cases step_move hst with
  | left he => rw [hsnd] at he; cases he
  | tookErr he | tookRunErr he | tookReply he | tookSignal he | markedReceived he | markedSent he
  | forgot he | closedCh he => rw [hsnd] at he; cases he
  | wrote _ hi => exact absurd (TransceiverLoop.write_pc hi).1 hsel
  | replied hi => exact absurd (TransceiverLoop.reply_pc hi).1 hsel
  | ioStopped hi => exact absurd (TransceiverLoop.stop_pc hi).1 hsel
  | _ => exact ⟨hio, ctrl, hsnd⟩

/-- The two are never both in their window. -/
theorem not_handing (h : (system config).Reachable apart s) :
    replying s.io.pc = true → s.snd.handing = false := by
  refine h.invariant (I := fun s => replying s.io.pc = true → s.snd.handing = false)
    (fun hr => by cases hr) fun s a t hs hok hst => ?_
  cases step_move hst with
  | replied hi => exact fun _ => hok
  | tookSignal he hc =>
    intro hr
    rw [show replying s.io.pc = false from hok] at hr
    cases hr
  | markedSent he hr =>
    intro hio
    have hh := hs hio
    rw [he] at hh
    cases hh
  | ioStopped hi =>
    intro hr
    rw [(TransceiverLoop.stop_pc hi).2] at hr
    cases hr
  | left | tookErr | tookRunErr | tookReply | markedReceived | wrote | forgot | closedCh =>
    exact fun _ => rfl
  | _ => exact hs

/-- The sending goroutine and the transceiver do not wait for each other, in every run in
which replies keep out of the handing over of a packet. -/
theorem not_crossed (config : PingConfig) {s : PingRun} (h : (system config).Reachable apart s) :
    ¬ s.Crossed := by
  rintro ⟨hio, ctrl, hsnd⟩
  have hh := not_handing h hio
  rw [hsnd] at hh
  cases hh

/-- Two packets go out, and the replies arrive between the sends. -/
theorem not_crossed_two : ∃ s, (system sampleConfig).Reachable apart s ∧
    s.snd = .sending ⟨2, 64, true⟩ ∧ s.trk.acked = [1] ∧ ¬ s.Crossed := by
  obtain ⟨s, hr, hp⟩ := System.exists_of_replay (system sampleConfig) apart
    (fun s => s.snd = .sending ⟨2, 64, true⟩ ∧ s.trk.acked = [1])
    (sendOne ++ recvOne 1 ++ goAround (.delivery 0) [.getUnAcked, .getAckedSeq] ++
      ([.takeSignal, .markSent 0] : List PingAction)) (by decide +kernel)
  obtain ⟨hs, ha⟩ := of_decide_eq_true hp
  exact ⟨s, hr, hs, ha, not_crossed sampleConfig hr⟩

/-- The first packet times out, and its reply arrives while the second is handed over. -/
theorem crossed_late : ¬ ∀ s, (system sampleConfig).Reachable Policy.any s →
    s.trk.ctxDone = false → ¬ s.Crossed := by
  intro h
  obtain ⟨s, hr, hp⟩ := System.exists_of_replay (system sampleConfig) Policy.any
    (fun s => s.trk.ctxDone = false ∧ replying s.io.pc = true ∧ s.snd = .sending ⟨2, 64, true⟩)
    (sendOne ++
      ([.tracker (.timerFires 1), .tracker (.handleTimeout 1), .tracker .emit] :
        List PingAction) ++
      goAround .buffer [.getUnAcked, .getAckedSeq] ++
      ([.takeSignal, .markSent 0, .reply (ICMPTrackerRun.sampleReply 1)] : List PingAction))
    (by decide +kernel)
  obtain ⟨hctx, hio, hs⟩ := of_decide_eq_true hp
  exact h s hr hctx ⟨hio, _, hs⟩

end PingRun

end CloudPing.Pinger
