import CloudPing.Conc.Chan
import CloudPing.Raw.Types

/-!
# The loop of a transceiver

`GetIO` of `ICMP4Transceiver` and of `ICMP6Transceiver` start the same loop.  It selects
between the end of the context, an error of the socket, a reply to pass on `outC` and a
packet to take from `inC`.  Both channels are unbuffered, so each passes a value only when
the loop and its partner meet: a system that holds both takes that step.  A write that
fails ends the loop.  When the loop returns it closes `errC` and `outC`.
-/

namespace CloudPing.Raw

open Conc

/-- Where the loop of `GetIO` is. -/
inductive TransceiverPC where
  | select
  /-- At the send on `outC`. -/
  | replying (rx : ICMPReceiveReply)
  | returned
  deriving DecidableEq, Repr

/-- The loop of `GetIO` and its error channel. -/
structure TransceiverLoop where
  pc : TransceiverPC
  errC : Chan String

namespace TransceiverLoop

def start : TransceiverLoop := ⟨.select, .make 2⟩

def leave (io : TransceiverLoop) : Option TransceiverLoop :=
  io.errC.close.map fun c => ⟨.returned, c⟩

/-- `errCh <- err`, and the return. -/
def fail (io : TransceiverLoop) (err : String) : Option TransceiverLoop :=
  match io.errC.send err with
  | .sent c => leave { io with errC := c }
  | _ => none

/-- The loop takes the other ways out of its select. -/
def stop (io : TransceiverLoop) (err : Option String) : Option TransceiverLoop :=
  match io.pc, err with
  | .select, none => io.leave
  | .select, some e => io.fail e
  | _, _ => none

/-- A reply from the socket. -/
def reply (io : TransceiverLoop) (rx : ICMPReceiveReply) : Option TransceiverLoop :=
  match io.pc with
  | .select => some { io with pc := .replying rx }
  | _ => none

/-- The send on `outC` meets a receive. -/
def pass (io : TransceiverLoop) : Option (ICMPReceiveReply × TransceiverLoop) :=
  match io.pc with
  | .replying rx => some (rx, { io with pc := .select })
  | _ => none

/-- The receive on `inC` meets a send, and the packet is written, with an error or not. -/
def write (io : TransceiverLoop) (err : Option String) : Option TransceiverLoop :=
  match io.pc, err with
  | .select, none => some io
  | .select, some e => io.fail e
  | _, _ => none

/-! ## What each operation can do -/

variable {io io' : TransceiverLoop}

theorem leave_pc (h : io.leave = some io') : io'.pc = .returned := by
  obtain ⟨c, _, rfl⟩ := Option.map_eq_some_iff.1 h
  rfl

theorem fail_pc {err : String} (h : io.fail err = some io') : io'.pc = .returned := by
  unfold fail at h
  split at h
  next => exact leave_pc h
  next => cases h

theorem stop_pc {err : Option String} (h : io.stop err = some io') :
    io.pc = .select ∧ io'.pc = .returned := by
  unfold stop at h
  split at h
  next hp => exact ⟨hp, leave_pc h⟩
  next hp => exact ⟨hp, fail_pc h⟩
  next => cases h

theorem reply_pc {rx : ICMPReceiveReply} (h : io.reply rx = some io') :
    io.pc = .select ∧ io'.pc = .replying rx := by
  unfold reply at h
  split at h
  next hp => cases h; exact ⟨hp, rfl⟩
  next => cases h

theorem pass_pc {rx : ICMPReceiveReply} (h : io.pass = some (rx, io')) :
    io.pc = .replying rx ∧ io'.pc = .select := by
  unfold pass at h
  split at h
  next hp => cases h; exact ⟨hp, rfl⟩
  next => cases h

theorem write_pc {err : Option String} (h : io.write err = some io') :
    io.pc = .select ∧ (io' = io ∧ err = none ∨ io'.pc = .returned) := by
  unfold write at h
  split at h
  next hp => cases h; exact ⟨hp, Or.inl ⟨rfl, rfl⟩⟩
  next hp => exact ⟨hp, Or.inr (fail_pc h)⟩
  next => cases h

/-- A write that succeeds leaves the loop in its select. -/
theorem write_none (h : io.write none = some io') : io' = io := by
  unfold write at h
  split at h
  next => cases h; rfl
  next he => cases he
  next => cases h

/-! ## The error channel -/

/-- A loop that has not returned has put nothing on its error channel and not closed it. -/
def Intact (io : TransceiverLoop) : Prop :=
  io.pc ≠ .returned → io.errC.buf = [] ∧ io.errC.closed = false

namespace Intact

theorem start : start.Intact := fun _ => ⟨rfl, rfl⟩

theorem of_returned (h : io.pc = .returned) : io.Intact := fun hne => absurd h hne

theorem reply {rx : ICMPReceiveReply} (hio : io.Intact) (h : io.reply rx = some io') :
    io'.Intact := by
  unfold TransceiverLoop.reply at h
  split at h
  next hp => cases h; exact fun _ => hio (by rw [hp]; simp)
  next => cases h

theorem pass {rx : ICMPReceiveReply} (hio : io.Intact) (h : io.pass = some (rx, io')) :
    io'.Intact := by
  unfold TransceiverLoop.pass at h
  split at h
  next hp => cases h; exact fun _ => hio (by rw [hp]; simp)
  next => cases h

theorem write {err : Option String} (hio : io.Intact) (h : io.write err = some io') :
    io'.Intact := by
  rcases (write_pc h).2 with ⟨rfl, _⟩ | hr
  · exact hio
  · exact .of_returned hr

theorem stop {err : Option String} (h : io.stop err = some io') : io'.Intact :=
  .of_returned (stop_pc h).2

/-- An error is received from a loop that has returned. -/
theorem returned_of_recv (hio : io.Intact) {err : String} {c : Chan String}
    (h : io.errC.recv = some (err, c)) : io.pc = .returned := by
  by_contra hne
  have hb := (Chan.recv_eq_some h).1
  rw [(hio hne).1] at hb
  cases hb

/-- A loop in its select can take the end of the context. -/
theorem stops (hio : io.Intact) (h : io.pc = .select) :
    ∃ io', io.stop none = some io' ∧ io'.pc = .returned := by
  have hc := (hio (by rw [h]; simp)).2
  have hs : io.stop none = io.leave := by simp only [TransceiverLoop.stop, h]
  rw [hs, leave, Chan.close, hc]
  exact ⟨_, rfl, rfl⟩

end Intact

end TransceiverLoop

end CloudPing.Raw
