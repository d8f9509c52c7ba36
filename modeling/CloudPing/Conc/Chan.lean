import Mathlib.Data.List.Basic

/-!
# Go channels

The state of one channel: its capacity, the values it buffers, oldest first, and whether
it was closed.  A send on a closed channel panics and a send on a full one blocks.  A
receive takes the oldest value, and on a closed channel with an empty buffer it returns at
once with no value.

An unbuffered channel is one of capacity zero.  Neither `send` nor `recv` ever succeeds on
it.  A value passes when a sender and a receiver meet, which is one step of the system that
holds both: see `Chan.canMeet`.
-/

namespace Conc

/-- The state of a channel of `α`. -/
structure Chan (α : Type*) where
  /-- The capacity. -/
  cap : Nat
  /-- The buffered values, oldest first. -/
  buf : List α
  /-- Whether the channel was closed. -/
  closed : Bool
  /-- The buffer stays within the capacity. -/
  fits : buf.length ≤ cap

/-- What a send does: it buffers the value, waits, or panics. -/
inductive SendResult (α : Type*) where
  | sent (c : Chan α)
  | blocks
  | panics

namespace Chan

variable {α : Type*}

/-- `make(chan α, cap)`. -/
def make (cap : Nat) : Chan α := ⟨cap, [], false, by simp⟩

/-- `c <- x`, without a receiver to meet. -/
def send (c : Chan α) (x : α) : SendResult α :=
  if c.closed then .panics
  else if h : c.buf.length < c.cap then
    .sent { c with buf := c.buf ++ [x], fits := by rw [List.length_append]; exact h }
  else .blocks

/-- `<-c` from the buffer: the oldest value and the channel without it. -/
def recv (c : Chan α) : Option (α × Chan α) :=
  match h : c.buf with
  | [] => none
  | x :: xs => some (x, { c with buf := xs, fits := by have := c.fits; simp [h] at this; omega })

/-- `close(c)`, and `none` for the panic of a second close. -/
def close (c : Chan α) : Option (Chan α) :=
  if c.closed then none else some { c with closed := true }

/-- A receiver may take a value directly from a sender that waits: nothing is buffered
before it and the channel is open. -/
def canMeet (c : Chan α) : Bool := c.buf.isEmpty && !c.closed

/-- A receive returns without a value. -/
def drained (c : Chan α) : Bool := c.buf.isEmpty && c.closed

/-! ## What each operation can do -/

theorem send_eq_sent {c d : Chan α} {x : α} (h : c.send x = .sent d) :
    c.closed = false ∧ c.buf.length < c.cap ∧ d.cap = c.cap ∧ d.buf = c.buf ++ [x] ∧
      d.closed = false := by
  unfold send at h
  split at h
  · cases h
  · next hc =>
    split at h
    · next hl =>
      cases h
      simp only [Bool.not_eq_true] at hc
      exact ⟨hc, hl, rfl, rfl, hc⟩
    · cases h

theorem send_eq_panics {c : Chan α} {x : α} : c.send x = .panics ↔ c.closed = true := by
  unfold send
  constructor
  · intro h
    split at h
    · assumption
    · split at h <;> cases h
  · intro h
    rw [if_pos h]

theorem recv_eq_some {c d : Chan α} {x : α} (h : c.recv = some (x, d)) :
    c.buf = x :: d.buf ∧ d.cap = c.cap ∧ d.closed = c.closed := by
  unfold recv at h
  split at h
  · cases h
  · next y ys hb =>
    cases h
    exact ⟨hb, rfl, rfl⟩

theorem recv_of_buf {c : Chan α} {x : α} {xs : List α} (h : c.buf = x :: xs) :
    ∃ d, c.recv = some (x, d) ∧ d.buf = xs ∧ d.cap = c.cap ∧ d.closed = c.closed := by
  unfold recv
  split
  · next hb => rw [h] at hb; cases hb
  · next y ys hb =>
    rw [h] at hb
    cases hb
    exact ⟨_, rfl, rfl, rfl, rfl⟩

/-- A receive from the buffer leaves room in it. -/
theorem length_lt_of_recv {c d : Chan α} {x : α} (h : c.recv = some (x, d)) :
    d.buf.length < d.cap := by
  obtain ⟨hbuf, hcap, _⟩ := recv_eq_some h
  have hfits := c.fits
  rw [hbuf, List.length_cons] at hfits
  rw [hcap]
  exact hfits

theorem send_of_room {c : Chan α} {x : α} (hc : c.closed = false) (hl : c.buf.length < c.cap) :
    ∃ d, c.send x = .sent d ∧ d.buf = c.buf ++ [x] ∧ d.cap = c.cap ∧ d.closed = false := by
  unfold send
  rw [if_neg (by simp [hc]), dif_pos hl]
  exact ⟨_, rfl, rfl, rfl, hc⟩

theorem close_eq_some {c d : Chan α} (h : c.close = some d) :
    c.closed = false ∧ d.cap = c.cap ∧ d.buf = c.buf ∧ d.closed = true := by
  unfold close at h
  split at h
  · cases h
  · next hc =>
    cases h
    exact ⟨by simpa using hc, rfl, rfl, rfl⟩

theorem canMeet_iff {c : Chan α} : c.canMeet = true ↔ c.buf = [] ∧ c.closed = false := by
  simp [canMeet]

theorem drained_iff {c : Chan α} : c.drained = true ↔ c.buf = [] ∧ c.closed = true := by
  simp [drained]

end Chan

end Conc
