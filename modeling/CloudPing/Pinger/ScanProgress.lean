import CloudPing.Pinger.ScanAccounting
import CloudPing.Raw.TrackerTimers

/-!
# A block scan goes on

While the context is live and the scan is not over, somebody can move.  The drain goroutine
depends on nobody, the tracker on the drain goroutine alone, the receiving goroutine on the
tracker, the transceiver on the receiving goroutine, and the main loop on the tracker and
the transceiver.  Where the main loop waits for the group, a packet of the group has an
event on its way or a timer.

Two things break it.  The transceiver can stop, on an error of its socket or of a write,
while there are packets to come: nobody receives on `inC` any more, and the main loop waits
there until the context ends (`Abandoned.forever`).  And a `Done` of the empty group panics.
`steady` excludes the two.
-/

namespace CloudPing.Pinger

open Conc Raw

/-- The main loop is in the loop over the addresses. -/
def ScanPC.running : ScanPC → Bool
  | .select | .markingSent _ _ | .adding _ | .sending _ | .sleeping => true
  | .setup | .rejecting _ | .waiting | .closing | .closed => false

/-- A step that needs neither the network nor the user: a goroutine moves by itself or with
another one, or a timer fires. -/
def ScanAction.inner : ScanAction → Bool
  | .tracker (.timerFires _) | .tracker (.handleTimeout _) | .tracker .emit
  | .tracker (.deliver _) => true
  | .tracker _ | .reject _ | .reply _ | .ioCtxDone | .ioStop _ => false
  | .send err => err.isNone
  | _ => true

namespace ScanRun

variable {config : ScanConfig} {s t : ScanRun} {a : ScanAction}

/-- Somebody can move, and nobody has to help from outside. -/
def CanMove (s : ScanRun) : Prop := ∃ a, a.inner = true ∧ (s.step a).isSome = true

/-- The scan is over, or somebody can move. -/
def Progress (s : ScanRun) : Prop := s.main = .closed ∨ s.CanMove

/-- The main loop is at its send on `inC` and the transceiver has returned. -/
def Abandoned (s : ScanRun) : Prop := (∃ req, s.main = .sending req) ∧ s.io.pc = .returned

/-- While the context is live the scan goes on. -/
def GoesOn (s : ScanRun) : Prop := s.trk.ctxDone = false → s.Progress ∧ ¬ s.Abandoned

/-- The main loop has a packet to pass, or addresses to make one of. -/
def unsent (s : ScanRun) : Bool :=
  match s.main with
  | .select | .sleeping => !s.addresses.isEmpty
  | .markingSent _ _ | .adding _ | .sending _ => true
  | .setup | .rejecting _ | .waiting | .closing | .closed => false

/-- While the context is live, the transceiver stops only when no packet is to come, and
until the scan is over `Done` is called only for a group that is not empty. -/
def steady : Policy ScanRun ScanAction := fun s a =>
  match a with
  | .ioStop _ => s.trk.ctxDone = true ∨ s.unsent = false
  | .send err => s.trk.ctxDone = true ∨ err = none ∨ s.addresses = []
  | .settle => s.trk.ctxDone = true ∨ s.main = .closed ∨ 0 < s.inFlight
  | _ => True

instance : ∀ s a, Decidable (steady s a) := fun _ a =>
  match a with
  | .ioStop _ => inferInstanceAs (Decidable (_ ∨ _))
  | .send _ => inferInstanceAs (Decidable (_ ∨ _ ∨ _))
  | .settle => inferInstanceAs (Decidable (_ ∨ _ ∨ _))
  | .tracker _ | .reject _ | .sendErr | .launch | .ctxDone | .address | .addressesDone | .markSent _
  | .add | .wake | .wgZero | .waitDone | .waitCtxDone | .close | .drainTake _ | .drainClosed
  | .forward | .drainCtxDone | .rxCtxDone | .takeReply | .outCClosed | .takeErr | .markReceived ..
  | .reply _ | .ioCtxDone => isTrue trivial

/-! ## Why a goroutine leaves -/

/-- A step belongs to the tracker, the main loop, the drain goroutine, or the receiving
goroutine and the transceiver. -/
theorem step_owner (h : s.step a = some t) :
    (∃ b trk, a = .tracker b ∧ b.own = true ∧ s.trk.step b = some trk ∧
        t = { s with trk := trk }) ∨
      s.stepMain a = some t ∨ s.stepDrain a = some t ∨ s.stepReceiver a = some t := by
  unfold step at h
  split at h
  next => cases h
  next =>
    split at h
    next b =>
      obtain ⟨hi, h⟩ := Option.ite_none_right_eq_some.1 h
      obtain ⟨trk, ht, rfl⟩ := Option.map_eq_some_iff.1 h
      exact .inl ⟨b, trk, rfl, hi, ht, rfl⟩
    all_goals
      first
      | exact .inr (.inl h)
      | exact .inr (.inr (.inl h))
      | exact .inr (.inr (.inr h))

theorem stepMain_rx (h : s.stepMain a = some t) : t.rx = s.rx ∨ t.rx = .select := by
  unfold stepMain at h
  grind [sendCh, Option.map_eq_some_iff]

theorem stepMain_drain (h : s.stepMain a = some t) : t.drain = s.drain ∨ t.drain = .receiving := by
  unfold stepMain at h
  grind [sendCh, Option.map_eq_some_iff]

theorem stepMain_io (h : s.stepMain a = some t) :
    t.io = s.io ∨ t.io = .start ∨ ∃ err, a = .send err ∧ s.io.write err = some t.io := by
  unfold stepMain at h
  grind [sendCh, Option.map_eq_some_iff]

theorem stepDrain_frame (h : s.stepDrain a = some t) : t.rx = s.rx ∧ t.io = s.io ∧ t.main = s.main := by
  unfold stepDrain at h
  grind [sendCh, Option.map_eq_some_iff]

theorem stepReceiver_frame (h : s.stepReceiver a = some t) : t.drain = s.drain ∧ t.main = s.main := by
  unfold stepReceiver at h
  grind [Option.map_eq_some_iff]

/-- The drain goroutine leaves after the context or the tracker. -/
theorem drain_left (h : s.step a = some t) (hd : t.drain = .returned) :
    s.drain = .returned ∨ (a = .drainCtxDone ∧ s.trk.ctxDone = true) ∨
      s.trk.recvEvC.closed = true := by
  rcases step_owner h with ⟨b, trk, _, _, _, rfl⟩ | h | h | h
  · exact .inl hd
  · rcases stepMain_drain h with he | he
    · exact .inl (he ▸ hd)
    · rw [he] at hd; cases hd
  · unfold stepDrain at h
    grind [sendCh, Option.map_eq_some_iff, Chan.drained]
  · exact .inl ((stepReceiver_frame h).1 ▸ hd)

/-- The receiving goroutine leaves after the context or the transceiver, or on an error of
the tracker. -/
theorem rx_left (h : s.step a = some t) (hr : t.rx = .returned) :
    s.rx = .returned ∨ (a = .rxCtxDone ∧ s.trk.ctxDone = true) ∨ s.io.pc = .returned ∨
      (∃ err c, s.io.errC.recv = some (err, c)) ∨
        ((∃ rx, s.rx = .markingReceived rx) ∧ ¬ s.trk.Serving) := by
  rcases step_owner h with ⟨b, trk, _, _, _, rfl⟩ | h | h | h
  · exact .inl hr
  · rcases stepMain_rx h with he | he
    · exact .inl (he ▸ hr)
    · rw [he] at hr; cases hr
  · exact .inl ((stepDrain_frame h).1 ▸ hr)
  · unfold stepReceiver at h
    split at h
    next => exact .inr (.inl ⟨rfl, (Option.ite_none_right_eq_some.1 h).1.2⟩)
    next =>
      obtain ⟨_, h⟩ := Option.ite_none_right_eq_some.1 h
      obtain ⟨⟨rx, io⟩, _, rfl⟩ := Option.map_eq_some_iff.1 h
      cases hr
    next => exact .inr (.inr (.inl (Option.ite_none_right_eq_some.1 h).1.2))
    next =>
      obtain ⟨_, h⟩ := Option.ite_none_right_eq_some.1 h
      obtain ⟨⟨err, c⟩, hc, _⟩ := Option.map_eq_some_iff.1 h
      exact .inr (.inr (.inr (.inl ⟨err, c, hc⟩)))
    next =>
      split at h
      next hs =>
        obtain ⟨r, hm, rfl⟩ := Option.map_eq_some_iff.1 h
        cases r with
        | error e =>
          exact .inr (.inr (.inr (.inr ⟨⟨_, hs⟩, ICMPTrackerRun.not_serving_of_markReceived hm⟩)))
        | ok trk => cases hr
      next => cases h
    next => obtain ⟨io, _, rfl⟩ := Option.map_eq_some_iff.1 h; exact .inl hr
    next =>
      obtain ⟨_, h⟩ := Option.ite_none_right_eq_some.1 h
      obtain ⟨io, _, rfl⟩ := Option.map_eq_some_iff.1 h
      exact .inl hr
    next => obtain ⟨io, _, rfl⟩ := Option.map_eq_some_iff.1 h; exact .inl hr
    next => cases h

/-- The transceiver leaves after the context or on an error. -/
theorem io_left (h : s.step a = some t) (hp : t.io.pc = .returned) :
    s.io.pc = .returned ∨ s.trk.ctxDone = true ∨ (∃ err, a = .ioStop err) ∨
      ∃ err, a = .send (some err) := by
  rcases step_owner h with ⟨b, trk, _, _, _, rfl⟩ | h | h | h
  · exact .inl hp
  · rcases stepMain_io h with he | he | ⟨err, rfl, hw⟩
    · exact .inl (he ▸ hp)
    · rw [he] at hp; cases hp
    · cases err with
      | some err => exact .inr (.inr (.inr ⟨err, rfl⟩))
      | none =>
        exact .inl (TransceiverLoop.write_none hw ▸ hp)
  · exact .inl ((stepDrain_frame h).2.1 ▸ hp)
  · unfold stepReceiver at h
    split at h
    next => obtain ⟨_, h⟩ := Option.ite_none_right_eq_some.1 h; cases h; exact .inl hp
    next =>
      obtain ⟨_, h⟩ := Option.ite_none_right_eq_some.1 h
      obtain ⟨⟨rx, io⟩, hi, rfl⟩ := Option.map_eq_some_iff.1 h
      rw [show io.pc = .select from (TransceiverLoop.pass_pc hi).2] at hp
      cases hp
    next => exact .inl (Option.ite_none_right_eq_some.1 h).1.2
    next =>
      obtain ⟨_, h⟩ := Option.ite_none_right_eq_some.1 h
      obtain ⟨⟨err, c⟩, _, rfl⟩ := Option.map_eq_some_iff.1 h
      exact .inl hp
    next =>
      split at h
      next => obtain ⟨r, _, rfl⟩ := Option.map_eq_some_iff.1 h; cases r <;> exact .inl hp
      next => cases h
    next rx _ =>
      obtain ⟨io, hi, rfl⟩ := Option.map_eq_some_iff.1 h
      rw [show io.pc = .replying rx from (TransceiverLoop.reply_pc hi).2] at hp
      cases hp
    next => exact .inr (.inl (Option.ite_none_right_eq_some.1 h).1)
    next err _ => exact .inr (.inr (.inl ⟨err, rfl⟩))
    next => cases h

/-- The main loop leaves its send on `inC` with the transceiver or after the context. -/
theorem sending_left (h : s.step a = some t) {req : ICMPSendRequest} (hm : s.main = .sending req) :
    t.main = s.main ∨ s.trk.ctxDone = true ∨ s.io.pc = .select := by
  rcases step_owner h with ⟨b, trk, _, _, _, rfl⟩ | h | h | h
  · exact .inl rfl
  · cases a with
    | ctxDone =>
      rw [stepMain, hm] at h
      exact .inr (.inl (Option.ite_none_right_eq_some.1 h).1)
    | send err =>
      rw [stepMain, hm] at h
      obtain ⟨io, hw, _⟩ := Option.map_eq_some_iff.1 h
      exact .inr (.inr (TransceiverLoop.write_pc hw).1)
    | _ => simp [stepMain, hm] at h
  · exact .inl (stepDrain_frame h).2.2
  · exact .inl (stepReceiver_frame h).2

/-! ## In every run -/

/-- Who has left has a reason, and the group is counted right while nobody panics. -/
structure Staffed (s : ScanRun) : Prop where
  trk : s.trk.Running
  intact : s.io.Intact
  rx : s.rx = .returned → s.trk.ctxDone = true ∨ s.io.pc = .returned
  drain : s.drain = .returned → s.trk.ctxDone = true ∨ s.main.running = false ∧ s.trk.sent = []
  flow : s.Draining → s.trk.taken.length = s.forwarded.length + s.drain.holding.length
  balance : s.inFlight + s.forwarded.length + s.main.addingOne =
    s.trk.sent.length + s.drain.settlingOne

namespace Staffed

theorem start (config : ScanConfig) : Staffed (start config) where
  trk := .new _
  intact := .of_returned rfl
  rx := fun _ => .inr rfl
  drain := fun _ => .inr ⟨rfl, rfl⟩
  flow := fun _ => rfl
  balance := rfl

/-- The tracker stays open: nobody closes it. -/
theorem trk_step (h : s.Staffed) (hs : s.Orderly) (hst : s.step a = some t) : t.trk.Running := by
  cases step_move hst with
  | tracker hi hm => exact h.trk.step hs.accounted hs.lifecycle hm (by rintro rfl; cases hi)
  | markedSent _ hr =>
    exact h.trk.move hs.accounted hs.lifecycle (ICMPTrackerRun.markSent_move hr) (by simp) (by simp)
  | markedReceived _ hr =>
    exact h.trk.move hs.accounted hs.lifecycle (ICMPTrackerRun.markReceived_move hr) (by simp)
      (by simp)
  | drainTook _ ht =>
    exact h.trk.move hs.accounted hs.lifecycle (ICMPTrackerRun.take_move ht).1 (by simp) (by simp)
  | _ => exact h.trk

/-- The context stays done. -/
theorem ctxDone_step (hst : s.step a = some t) (hc : s.trk.ctxDone = true) :
    t.trk.ctxDone = true := by
  cases step_move hst with
  | tracker hi hm => exact (ICMPTrackerRun.step_move hm).ctxDone hc
  | markedSent _ hr => exact (ICMPTrackerRun.markSent_move hr).ctxDone hc
  | markedReceived _ hr => exact (ICMPTrackerRun.markReceived_move hr).ctxDone hc
  | drainTook _ ht => exact (ICMPTrackerRun.take_move ht).1.ctxDone hc
  | _ => exact hc

theorem intact_step (h : s.Staffed) (hst : s.step a = some t) : t.io.Intact := by
  cases step_move hst with
  | launched => exact .start
  | passed _ hi => exact h.intact.write hi
  | tookErr hi => exact .of_returned (h.intact.returned_of_recv hi)
  | tookReply _ hi => exact h.intact.pass hi
  | replied hi => exact h.intact.reply hi
  | ioStopped hi => exact .stop hi
  | _ => exact h.intact

/-- A transceiver that has returned stays so, unless it has still to be started. -/
theorem io_returned (hst : s.step a = some t) (hp : s.io.pc = .returned) :
    t.io.pc = .returned ∨ s.main = .setup ∧ t.rx = .select := by
  cases step_move hst with
  | launched hm => exact .inr ⟨hm, rfl⟩
  | passed _ hi => rw [(TransceiverLoop.write_pc hi).1] at hp; cases hp
  | tookReply _ hi => rw [(TransceiverLoop.pass_pc hi).1] at hp; cases hp
  | replied hi => rw [(TransceiverLoop.reply_pc hi).1] at hp; cases hp
  | ioStopped hi => exact .inl (TransceiverLoop.stop_pc hi).2
  | _ => exact .inl hp

theorem rx_step (h : s.Staffed) (hst : s.step a = some t) (hr : t.rx = .returned) :
    t.trk.ctxDone = true ∨ t.io.pc = .returned := by
  have hgone : s.trk.ctxDone = true ∨ s.io.pc = .returned := by
    rcases rx_left hst hr with hr | ⟨_, hc⟩ | hp | ⟨err, c, he⟩ | ⟨_, hno⟩
    · exact h.rx hr
    · exact .inl hc
    · exact .inr hp
    · exact .inr (h.intact.returned_of_recv he)
    · cases hc : s.trk.ctxDone with
      | true => exact .inl rfl
      | false => exact absurd (h.trk.serving hc) hno
  rcases hgone with hc | hp
  · exact .inl (ctxDone_step hst hc)
  · rcases io_returned hst hp with hp | ⟨_, hsel⟩
    · exact .inr hp
    · rw [hsel] at hr; cases hr

theorem drain_step (h : s.Staffed) (hs : s.Orderly) (hst : s.step a = some t)
    (hd : t.drain = .returned) :
    t.trk.ctxDone = true ∨ t.main.running = false ∧ t.trk.sent = [] := by
  have hgone : s.trk.ctxDone = true ∨ s.main.running = false ∧ s.trk.sent = [] := by
    rcases drain_left hst hd with hd | ⟨_, hc⟩ | hcl
    · exact h.drain hd
    · exact .inl hc
    · exact .inl (h.trk.returned (hs.lifecycle.closedIff.1 hcl))
  rcases hgone with hc | ⟨hrun, hsent⟩
  · exact .inl (ctxDone_step hst hc)
  · right
    cases step_move hst with
    | rejected | sentErr | ended | settledAll | gaveUp | closed => exact ⟨rfl, hsent⟩
    | launched | drainTook | forwarded | settled => cases hd
    | tookAddress hm | markedSent hm | added hm | passed hm | woke hm => rw [hm] at hrun; cases hrun
    | tracker hi hm =>
      refine ⟨hrun, ?_⟩
      rw [(ICMPTrackerRun.step_move hm).sent_of_own hi]
      exact hsent
    | markedReceived _ hr =>
      refine ⟨hrun, ?_⟩
      rw [(ICMPTrackerRun.markReceived_move hr).sent_eq (by simp)]
      exact hsent
    | _ => exact ⟨hrun, hsent⟩

theorem flow_step (h : s.Staffed) (hs : s.Orderly) (hst : s.step a = some t) (hd : t.Draining) :
    t.trk.taken.length = t.forwarded.length + t.drain.holding.length := by
  cases step_move hst with
  | tracker hi hm =>
    rw [(ICMPTrackerRun.step_move hm).taken_eq fun src he => by subst he; cases hi]
    exact h.flow hd
  | markedSent _ hr =>
    rw [(ICMPTrackerRun.markSent_move hr).taken_eq (by simp)]
    exact h.flow (.inl (hd.resolve_right (by simp)))
  | markedReceived _ hr =>
    rw [(ICMPTrackerRun.markReceived_move hr).taken_eq (by simp)]
    exact h.flow hd
  | launched hm =>
    have hf := h.flow (.inr hm)
    rw [(hs.idle hm).2] at hf
    exact hf
  | drainTook hdr ht =>
    have hf := h.flow (.inl (by simp [hdr]))
    rw [hdr] at hf
    rw [(ICMPTrackerRun.take_move ht).2, List.length_append, hf]
    rfl
  | forwarded hdr =>
    have hf := h.flow (.inl (by simp [hdr]))
    rw [hdr] at hf
    rw [hf, List.length_append]
    rfl
  | settled hdr =>
    have hf := h.flow (.inl (by simp [hdr]))
    rw [hdr] at hf
    exact hf
  | drainLeft hdr =>
    have hret := (hs.idle (hd.resolve_left (by simp))).2
    rcases hdr with hdr | ⟨ev, hdr⟩
    · rw [hret] at hdr; cases hdr
    · rw [hret] at hdr; cases hdr
  | rejected | sentErr | ended | tookAddress | added | passed | woke | settledAll | gaveUp | closed =>
    exact h.flow (.inl (hd.resolve_right (by simp)))
  | _ => exact h.flow hd

theorem balance_step (h : s.Staffed) (hs : s.Orderly) (hst : s.step a = some t) :
    t.inFlight + t.forwarded.length + t.main.addingOne =
      t.trk.sent.length + t.drain.settlingOne := by
  have hb := h.balance
  cases step_move hst with
  | tracker hi hm =>
    rw [(ICMPTrackerRun.step_move hm).sent_of_own hi]
    exact hb
  | markedReceived _ hr =>
    rw [(ICMPTrackerRun.markReceived_move hr).sent_eq (by simp)]
    exact hb
  | markedSent hm hr =>
    obtain ⟨_, it, _, rfl⟩ := ICMPTrackerRun.serve_map_ok hr
    rw [hm] at hb
    simp only [ScanPC.addingOne, List.length_append, List.length_singleton] at hb ⊢
    omega
  | drainTook hd ht =>
    rw [(ICMPTrackerRun.take_frame ht).1]
    rw [hd] at hb
    exact hb
  | rejected hm | sentErr hm | tookAddress hm | passed hm | woke hm | settledAll hm | gaveUp hm
  | closed hm =>
    rw [hm] at hb
    exact hb
  | launched hm =>
    rw [hm, (hs.idle hm).2] at hb
    exact hb
  | ended hm =>
    cases hmain : s.main <;> rw [hmain] at hm hb <;> first | exact hb | cases hm
  | added hm =>
    rw [hm] at hb
    simp only [ScanPC.addingOne] at hb ⊢
    omega
  | drainLeft hd =>
    rcases hd with hd | ⟨ev, hd⟩
    · rw [hd] at hb; exact hb
    · rw [hd] at hb; exact hb
  | forwarded hd =>
    rw [hd] at hb
    simp only [DrainPC.settlingOne, List.length_append, List.length_singleton] at hb ⊢
    omega
  | settled hd hn =>
    rw [hd, hn] at hb
    simp only [DrainPC.settlingOne] at hb ⊢
    omega
  | _ => exact hb

theorem keep (h : s.Staffed) (hs : s.Orderly) (hst : s.step a = some t) : t.Staffed where
  trk := h.trk_step hs hst
  intact := h.intact_step hst
  rx := h.rx_step hst
  drain := h.drain_step hs hst
  flow := h.flow_step hs hst
  balance := h.balance_step hs hst

end Staffed

theorem staffed {ok : Policy ScanRun ScanAction} (h : (system config).Reachable ok s) : s.Staffed :=
  h.invariant_with (fun _ hr => orderly hr) (Staffed.start config)
    fun _ _ _ hs h _ hst => h.keep hs hst

/-! ## Who can move -/

/-- Nobody has panicked. -/
def Alive (s : ScanRun) : Prop := s.panicked = false ∧ s.trk.panicked = false

theorem alive_of_step (h : s.step a = some t) : s.Alive := by
  unfold step at h
  split at h
  next => cases h
  next hp => simpa [Alive] using hp

/-- The drain goroutine moves, unless it waits for an event. -/
theorem canMove_of_drain (hal : s.Alive) (hd : s.drain ≠ .returned) (hd' : s.drain ≠ .receiving) :
    s.CanMove := by
  cases hdr : s.drain with
  | forwarding ev => exact ⟨.forward, rfl, by simp [step, stepDrain, hal.1, hal.2, hdr]⟩
  | settling seq =>
    refine ⟨.settle, rfl, ?_⟩
    cases hn : s.inFlight <;> simp [step, stepDrain, hal.1, hal.2, hdr, hn]
  | receiving => exact absurd hdr hd'
  | returned => exact absurd hdr hd

/-- An event in the buffer, or of a sender that can be met, is received. -/
theorem canMove_of_take (hal : s.Alive) (hd : s.drain = .receiving) (src : EventSource)
    (ht : (s.trk.take src).isSome = true) : s.CanMove := by
  obtain ⟨⟨ev, trk⟩, ht⟩ := Option.isSome_iff_exists.1 ht
  exact ⟨.drainTake src, rfl, by simp [step, stepDrain, hal.1, hal.2, hd, ht]⟩

namespace Staffed

/-- While the tracker has packets to look after, the drain goroutine has not returned. -/
theorem draining (h : s.Staffed) (hlive : s.trk.ctxDone = false) (hsent : s.trk.sent ≠ []) :
    s.drain ≠ .returned := by
  intro hd
  rcases h.drain hd with hc | ⟨_, hnil⟩
  · rw [hlive] at hc; cases hc
  · exact hsent hnil

/-- The tracker waits to send an event, and the drain goroutine is on its way to it. -/
theorem canMove_of_emitting (h : s.Staffed) (hs : s.Orderly) (hal : s.Alive)
    (hlive : s.trk.ctxDone = false) {q : Int} {ev : ICMPTrackerEntry}
    (ha : s.trk.actor = .emitting q ev) : s.CanMove := by
  obtain ⟨ent, hl, _⟩ := hs.accounted.emitting q ev ha
  have hsent := (hs.accounted.stored q ent hl).2.1
  have hd := h.draining hlive (List.ne_nil_of_mem hsent)
  by_cases hrec : s.drain = .receiving
  · cases hbuf : s.trk.recvEvC.buf with
    | nil =>
      have hopen := hs.lifecycle.open_of (by rw [ha]; simp)
      have hmeet := Chan.canMeet_iff.2 ⟨hbuf, hopen⟩
      exact canMove_of_take hal hrec .actor (by simp [ICMPTrackerRun.take, ha, hmeet])
    | cons x xs =>
      obtain ⟨c, hc, _⟩ := Chan.recv_of_buf hbuf
      exact canMove_of_take hal hrec .buffer (by simp [ICMPTrackerRun.take, hc])
  · exact canMove_of_drain hal hd hrec

/-- A call of the tracker is served, or the tracker waits for the drain goroutine. -/
theorem canMove_of_call (h : s.Staffed) (hs : s.Orderly) (hal : s.Alive)
    (hlive : s.trk.ctxDone = false) (hcall : s.trk.actor = .select → s.CanMove) : s.CanMove := by
  cases ha : s.trk.actor with
  | select => exact hcall ha
  | emitting q ev => exact h.canMove_of_emitting hs hal hlive ha
  | returned => exact absurd ha (h.trk.serving hlive).1

/-- The receiving goroutine gets back to its select, or the transceiver has returned. -/
theorem canMove_of_replying (h : s.Staffed) (hs : s.Orderly) (hal : s.Alive)
    (hlive : s.trk.ctxDone = false) {rx : ICMPReceiveReply} (hp : s.io.pc = .replying rx) :
    s.CanMove := by
  cases hr : s.rx with
  | select =>
    exact ⟨.takeReply, rfl, by simp [step, stepReceiver, hal.1, hal.2, hr, TransceiverLoop.pass, hp]⟩
  | markingReceived rx' =>
    refine h.canMove_of_call hs hal hlive fun ha => ⟨.markReceived 0 0 0, rfl, ?_⟩
    simp [step, stepReceiver, hal.1, hal.2, hr, ICMPTrackerRun.markReceived, ICMPTrackerRun.serve, ha]
  | returned =>
    rcases h.rx hr with hc | hret
    · rw [hlive] at hc; cases hc
    · rw [hp] at hret; cases hret

/-- An event that is not taken is taken, or the tracker is about to send it. -/
theorem canMove_of_undelivered (h : s.Staffed) (hs : s.Orderly) (hal : s.Alive)
    (hlive : s.trk.ctxDone = false) (hd : s.drain = .receiving) (hne : s.trk.undelivered ≠ []) :
    s.CanMove := by
  cases hbuf : s.trk.recvEvC.buf with
  | cons x xs =>
    obtain ⟨c, hc, _⟩ := Chan.recv_of_buf hbuf
    exact canMove_of_take hal hd .buffer (by simp [ICMPTrackerRun.take, hc])
  | nil =>
    cases hdel : s.trk.deliveries with
    | cons ev evs =>
      have hopen := hs.lifecycle.open_of (h.trk.serving hlive).1
      have hmeet := Chan.canMeet_iff.2 ⟨hbuf, hopen⟩
      exact canMove_of_take hal hd (.delivery 0)
        (by simp [ICMPTrackerRun.take, hdel, hmeet])
    | nil =>
      cases ha : s.trk.actor with
      | emitting q ev => exact h.canMove_of_emitting hs hal hlive ha
      | _ => exact absurd (by simp [ICMPTrackerRun.undelivered, hdel, hbuf, ha, ActorPC.pending]) hne

/-- An outstanding packet has a timer, or its timeout is handled. -/
theorem canMove_of_outstanding (h : s.Staffed) (hs : s.Orderly) (hal : s.Alive)
    (hlive : s.trk.ctxDone = false) (hpos : 0 < s.trk.it.getUnAcked) : s.CanMove := by
  have hex : ∃ q ent, s.trk.it.store.lookup q = some ent ∧ ent.outstanding = true := by
    by_contra hno
    have hz : s.trk.it.getUnAcked = 0 := Store.count_eq_zero_iff.2 fun q ent hl => by
      rw [← Bool.not_eq_true]
      exact fun ho => hno ⟨q, ent, hl, ho⟩
    omega
  obtain ⟨q, ent, hl, ho⟩ := hex
  refine h.canMove_of_call hs hal hlive fun ha => ?_
  have hsrv := h.trk.serving hlive
  rcases h.trk.timed hsrv q ent hl ho with hq | hq | ⟨ev, he⟩
  · refine ⟨.tracker (.timerFires q), rfl, ?_⟩
    simp [step, hal.1, hal.2, TrackerAction.own, ICMPTrackerRun.step, hq]
  · refine ⟨.tracker (.handleTimeout q), rfl, ?_⟩
    simp [step, hal.1, hal.2, TrackerAction.own, ICMPTrackerRun.step, hq,
      ICMPTrackerRun.handleTimeout, ICMPTrackerRun.serve, ha]
  · rw [ha] at he
    cases he

/-- A packet of the group has an event on its way or a timer. -/
theorem canMove_of_waiting (h : s.Staffed) (hs : s.Orderly) (hal : s.Alive)
    (hlive : s.trk.ctxDone = false) (hm : s.main = .waiting) : s.CanMove := by
  rcases Nat.eq_zero_or_pos s.inFlight with hz | hpos
  · exact ⟨.wgZero, rfl, by simp [step, stepMain, hal.1, hal.2, hz, hm]⟩
  have hb := h.balance
  rw [hm] at hb
  cases hd : s.drain with
  | receiving =>
    have hf := h.flow (.inl (by simp [hd]))
    rw [hd] at hb hf
    by_cases hund : s.trk.undelivered = []
    · -- every event was taken and taken out of the group, so some packet has none
      have hcons := hs.conserved.length
      rw [hund] at hcons
      have hacc := hs.accounted.balance
      have hlen := hs.accounted.ackedLength
      have hprod := h.trk.produced
      refine h.canMove_of_outstanding hs hal hlive ?_
      simp only [ScanPC.addingOne, DrainPC.settlingOne, DrainPC.holding, List.length_nil] at *
      omega
    · exact h.canMove_of_undelivered hs hal hlive hd hund
  | returned =>
    rcases h.drain hd with hc | ⟨_, hnil⟩
    · rw [hlive] at hc; cases hc
    · rw [hd, hnil] at hb
      simp only [ScanPC.addingOne, DrainPC.settlingOne, List.length_nil] at hb
      omega
  | _ => exact canMove_of_drain hal (by simp [hd]) (by simp [hd])

/-- While the context is live, somebody can move. -/
theorem progress (h : s.Staffed) (hs : s.Orderly) (hal : s.Alive) (hlive : s.trk.ctxDone = false)
    (hab : ¬ s.Abandoned) : s.Progress := by
  cases hm : s.main with
  | setup => exact .inr ⟨.launch, rfl, by simp [step, stepMain, hal.1, hal.2, hm]⟩
  | rejecting err => exact .inr ⟨.sendErr, rfl, by simp [step, stepMain, hal.1, hal.2, hm]⟩
  | select =>
    cases ha : s.addresses with
    | nil => exact .inr ⟨.addressesDone, rfl, by simp [step, stepMain, hal.1, hal.2, hm, ha]⟩
    | cons dst rest => exact .inr ⟨.address, rfl, by simp [step, stepMain, hal.1, hal.2, hm, ha]⟩
  | markingSent dst nextTTL =>
    refine .inr (h.canMove_of_call hs hal hlive fun ha => ⟨.markSent 0, rfl, ?_⟩)
    simp [step, stepMain, hal.1, hal.2, hm, ICMPTrackerRun.markSent, ICMPTrackerRun.serve, ha]
  | adding req => exact .inr ⟨.add, rfl, by simp [step, stepMain, hal.1, hal.2, hm]⟩
  | sending req =>
    cases hp : s.io.pc with
    | select =>
      exact .inr ⟨.send none, rfl,
        by simp [step, stepMain, hal.1, hal.2, hm, TransceiverLoop.write, hp]⟩
    | replying rx => exact .inr (h.canMove_of_replying hs hal hlive hp)
    | returned => exact absurd ⟨⟨req, hm⟩, hp⟩ hab
  | sleeping => exact .inr ⟨.wake, rfl, by simp [step, stepMain, hal.1, hal.2, hm]⟩
  | waiting => exact .inr (h.canMove_of_waiting hs hal hlive hm)
  | closing => exact .inr ⟨.close, rfl, by simp [step, stepMain, hal.1, hal.2, hm]⟩
  | closed => exact .inl hm

end Staffed

/-! ## The condition is enough -/

/-- A step leaves no packet to come where none was. -/
theorem unsent_step (hst : s.step a = some t) (hu : s.unsent = false) :
    t.unsent = false ∨ t.io = .start := by
  cases step_move hst with
  | launched => exact .inr rfl
  | rejected | sentErr | ended | settledAll | gaveUp | closed => exact .inl rfl
  | tookAddress hm hd => simp [unsent, hm, hd] at hu
  | markedSent hm | added hm | passed hm => simp [unsent, hm] at hu
  | woke hm =>
    rw [unsent, hm] at hu
    exact .inl hu
  | _ => exact .inl hu

/-- The transceiver is there while there are packets to come, and the group is not empty at
a `Done`. -/
structure Steady (s : ScanRun) : Prop where
  io : s.io.pc = .returned → s.trk.ctxDone = true ∨ s.unsent = false
  alive : s.panicked = true → s.trk.ctxDone = true ∨ s.main = .closed

namespace Steady

theorem start : Steady (start config) where
  io := fun _ => .inr rfl
  alive := by intro h; cases h

theorem io_step (h : s.Steady) (hok : steady s a) (hst : s.step a = some t)
    (hp : t.io.pc = .returned) : t.trk.ctxDone = true ∨ t.unsent = false := by
  have hkeep : s.trk.ctxDone = true ∨ s.unsent = false → t.trk.ctxDone = true ∨ t.unsent = false := by
    rintro (hc | hu)
    · exact .inl (Staffed.ctxDone_step hst hc)
    · rcases unsent_step hst hu with hu | hio
      · exact .inr hu
      · rw [hio] at hp; cases hp
  rcases io_left hst hp with hp | hc | ⟨err, rfl⟩ | ⟨err, rfl⟩
  · exact hkeep (h.io hp)
  · exact hkeep (.inl hc)
  · exact hkeep hok
  · rcases hok with hc | he | ha
    · exact hkeep (.inl hc)
    · cases he
    · have hm : s.stepMain (.send (some err)) = some t := by
        rw [step.eq_def] at hst
        exact (Option.ite_none_left_eq_some.1 hst).2
      simp only [stepMain] at hm
      split at hm
      next =>
        obtain ⟨io, _, rfl⟩ := Option.map_eq_some_iff.1 hm
        exact .inr (by simp [unsent, ha])
      next => cases hm

theorem alive_step (hs : s.Orderly) (hok : steady s a) (hst : s.step a = some t)
    (hp : t.panicked = true) : t.trk.ctxDone = true ∨ t.main = .closed := by
  have hal := (alive_of_step hst).1
  cases step_move hst with
  | sendPanicked hc => exact .inr (hs.closedMain hc)
  | donePanicked hd hz =>
    rcases hok with hc | hcl | hpos
    · exact .inl hc
    · exact .inr hcl
    · omega
  | _ => rw [hal] at hp; cases hp

theorem keep (h : s.Steady) (hs : s.Orderly) (hok : steady s a) (hst : s.step a = some t) :
    t.Steady where
  io := h.io_step hok hst
  alive := alive_step hs hok hst

end Steady

theorem steady_of (h : (system config).Reachable steady s) : s.Steady :=
  h.invariant_with (fun _ hr => orderly hr) Steady.start
    fun _ _ _ hs h hok hst => h.keep hs hok hst

/-! ## The promise -/

/-- A main loop at `inC` whose transceiver has returned stays there while the context is
live. -/
theorem Abandoned.forever (h : s.Abandoned) (hr : (system config).Reach Policy.any s t)
    (hc : t.trk.ctxDone = false) : t.Abandoned := by
  refine hr.induct (I := fun s => s.trk.ctxDone = false → s.Abandoned) (fun _ => h)
    (fun s a t hs _ hst hc => ?_) hc
  have hlive : s.trk.ctxDone = false := by
    rw [← Bool.not_eq_true]
    intro hd
    rw [Staffed.ctxDone_step hst hd] at hc
    cases hc
  obtain ⟨⟨req, hm⟩, hp⟩ := hs hlive
  refine ⟨⟨req, ?_⟩, ?_⟩
  · rcases sending_left hst hm with he | hd | hsel
    · exact he.trans hm
    · rw [hlive] at hd; cases hd
    · rw [hp] at hsel; cases hsel
  · rcases Staffed.io_returned hst hp with hp | ⟨hset, _⟩
    · exact hp
    · rw [hm] at hset; cases hset

/-- A block scan goes on, in every run that is `steady`. -/
theorem scan_goes_on (config : ScanConfig) {s : ScanRun}
    (h : (system config).Reachable steady s) : s.GoesOn := by
  intro hlive
  have hs := orderly h
  have hst := steady_of h
  have hstaff := staffed h
  have hab : ¬ s.Abandoned := by
    rintro ⟨⟨req, hm⟩, hp⟩
    rcases hst.io hp with hc | hu
    · rw [hlive] at hc; cases hc
    · simp [unsent, hm] at hu
  refine ⟨?_, hab⟩
  by_cases hm : s.main = .closed
  · exact .inl hm
  · refine hstaff.progress hs ⟨?_, ?_⟩ hlive hab
    · rw [← Bool.not_eq_true]
      intro hp
      rcases hst.alive hp with hc | hcl
      · rw [hlive] at hc; cases hc
      · exact hm hcl
    · rw [← Bool.not_eq_true]
      intro hp
      rw [hstaff.trk.alive hp] at hlive
      cases hlive

/-- The transceiver fails when both packets are out, the first is answered, and the scan
waits for the second. -/
theorem scan_goes_on_failed : ∃ s, (system sampleScan).Reachable steady s ∧
    s.io.pc = .returned ∧ s.main = .waiting ∧ s.forwarded = [1] ∧ s.GoesOn := by
  obtain ⟨s, hr, hp⟩ := System.exists_of_replay (system sampleScan) steady
    (fun s => s.io.pc = .returned ∧ s.main = .waiting ∧ s.forwarded = [1])
    (([.launch] : List ScanAction) ++ scanOne ++ scanOne ++ answerOne 1 ++
      drainOne (.delivery 0) ++
      ([.ioStop (some "read: connection refused"), .takeErr, .addressesDone] :
        List ScanAction)) (by decide +kernel)
  obtain ⟨hio, hm, hf⟩ := of_decide_eq_true hp
  exact ⟨s, hr, hio, hm, hf, scan_goes_on sampleScan hr⟩

/-- At its send on `inC` with everybody else at rest, the main loop waits for the end of the
context. -/
theorem stalled {req : ICMPSendRequest} (hm : s.main = .sending req) (hio : s.io.pc = .returned)
    (hrx : s.rx = .returned) (hd : s.drain = .receiving) (hlive : s.trk.ctxDone = false)
    (hq : s.trk.recvEvC.buf = [] ∧ s.trk.recvEvC.closed = false ∧ s.trk.deliveries = [])
    (ha : s.trk.actor = .select) (htimers : s.trk.armed = [] ∧ s.trk.expired = []) :
    ¬ s.Progress := by
  obtain ⟨hbuf, hcl, hdel⟩ := hq
  obtain ⟨harm, hexp⟩ := htimers
  rintro (hc | ⟨a, hi, hs⟩)
  · rw [hm] at hc; cases hc
  · cases a with
    | tracker b =>
      cases b <;> simp [ScanAction.inner] at hi <;>
        simp [step, TrackerAction.own, ICMPTrackerRun.step, ICMPTrackerRun.emit,
          ICMPTrackerRun.deliver, harm, hexp, ha, hdel] at hs
    | drainTake src =>
      have hr : s.trk.recvEvC.recv = none := by
        unfold Chan.recv
        split
        next => rfl
        next hb => rw [hbuf] at hb; cases hb
      cases src <;> simp [step, stepDrain, hd, ICMPTrackerRun.take, hr, ha, hdel] at hs
    | send err => simp [step, stepMain, hm, hio, TransceiverLoop.write] at hs
    | _ =>
      simp [ScanAction.inner] at hi <;>
        simp [step, stepMain, stepDrain, stepReceiver, hm, hd, hrx, hlive, Chan.drained, hcl] at hs

/-- The transceiver fails while the main loop adds its first packet, and when that one has
timed out nobody can move. -/
theorem scan_stalled : ¬ ∀ s, (system sampleScan).Reachable Policy.any s → s.GoesOn := by
  intro h
  obtain ⟨s, hr, hp⟩ := System.exists_of_replay (system sampleScan) Policy.any
    (fun s => s.main = .sending ((start sampleScan).request [192, 0, 2, 0] 64) ∧
      s.io.pc = .returned ∧ s.rx = .returned ∧ s.drain = .receiving ∧ s.trk.ctxDone = false ∧
      (s.trk.recvEvC.buf = [] ∧ s.trk.recvEvC.closed = false ∧ s.trk.deliveries = []) ∧
      s.trk.actor = .select ∧ s.trk.armed = [] ∧ s.trk.expired = [])
    [.launch, .address, .markSent 0, .add, .ioStop (some "read: connection refused"), .takeErr,
      .tracker (.timerFires 1), .tracker (.handleTimeout 1), .drainTake .actor, .forward,
      .settle] (by decide +kernel)
  obtain ⟨hm, hio, hrx, hd, hlive, hq, ha, htimers⟩ := of_decide_eq_true hp
  exact stalled hm hio hrx hd hlive hq ha htimers (h s hr hlive).1

end ScanRun

end CloudPing.Pinger
