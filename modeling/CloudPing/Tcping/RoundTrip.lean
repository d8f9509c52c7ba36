import CloudPing.Conc.System
import CloudPing.Tcping.Tracker

/-!
# The round trip time of a SYN packet

`Send` marks the packet sent, writes it, and only then puts a reading of the clock into
`SentAt` and starts the timer.  `MarkReceived` reads the clock once the tracker listens to it,
and the function it hands to the tracker subtracts `SentAt`.

The reply can be served between the write and the assignment.  Then the time that is
subtracted is the zero `time.Time`, and the difference is the largest `time.Duration`
(`rtt_of_reply_first`).  Where the assignment comes first, and the clock still shows the time
of the write, the round trip time is right (`Timed`).

Times are nanoseconds since the zero `time.Time`.
-/

namespace CloudPing.Tcping

open Conc

def minDuration : Duration := -9223372036854775808

def maxDuration : Duration := 9223372036854775807

/-- `Time.Sub`, which stops at the least and the largest duration. -/
def timeSub (t u : Time) : Duration := max minDuration (min maxDuration (t - u))

/-- Where `Send` is. -/
inductive SYNPC where
  | marked
  | written
  /-- `SentAt` is assigned. -/
  | recorded
  /-- The timer runs, and `Send` has returned. -/
  | armed
  | unsent
  deriving DecidableEq, Repr

/-- A packet that was marked sent. -/
structure SYN where
  key : Key
  pc : SYNPC
  /-- When the packet was written. -/
  writtenAt : Time
  sentAt : Time
  deriving DecidableEq, Repr

def SYN.Recorded (syn : SYN) : Prop := syn.pc = .recorded ∨ syn.pc = .armed

instance (syn : SYN) : Decidable syn.Recorded := inferInstanceAs (Decidable (_ ∨ _))

/-- The event of a reply. -/
structure RTTEvent where
  seq : Int
  receivedAt : Time
  rtt : Duration
  deriving DecidableEq, Repr

structure RTTRun where
  tk : Tracker
  /-- The packets that were marked sent, by their numbers. -/
  syns : Store Int SYN
  /-- The packet that the tracker waits to be handed, and when it was received. -/
  serving : Option (PacketInfo × Time)
  events : List RTTEvent
  panicked : Bool

inductive RTTAction where
  | markSent (receipt : TCPSYNSentReceipt)
  | write (seq : Int) (now : Time) (err : Option String)
  | recordSentAt (seq : Int) (now : Time)
  | startTimer (seq : Int)
  | handleTimeout (seq : Int)
  /-- `MarkReceived` up to its reading of the clock. -/
  | markReceived (receivedPkt : PacketInfo) (now : Time)
  /-- The function of `MarkReceived`. -/
  | serve
  deriving DecidableEq, Repr

namespace RTTRun

def start (config : TrackerConfig) : RTTRun := ⟨NewTracker config, ∅, none, [], false⟩

def panic (s : RTTRun) : RTTRun := { s with panicked := true }

def setSYN (s : RTTRun) (seq : Int) (syn : SYN) : RTTRun :=
  { s with syns := s.syns.insert seq syn }

/-- A step of `Send` after `MarkSent`. -/
def onSYN (s : RTTRun) (seq : Int) (f : SYN → Option SYN) : Option RTTRun :=
  (s.syns.lookup seq).bind fun syn => (f syn).map (s.setSYN seq)

/-- `MarkSent`. -/
def markSent (s : RTTRun) (receipt : TCPSYNSentReceipt) : RTTRun :=
  match receipt.key with
  | none => s.panic
  | some key =>
    match s.tk.markSent key receipt with
    | none => s.panic
    | some tk => { s with tk := tk }.setSYN s.tk.counter ⟨key, .marked, 0, 0⟩

/-- `handleTimeout`, without its event. -/
def handleTimeout (s : RTTRun) (syn : SYN) : RTTRun :=
  match s.tk.delete syn.key with
  | none => s.panic
  | some (_, tk) => { s with tk := tk }

/-- The function of `MarkReceived`: the entry has a pointer to the receipt. -/
def serve (s : RTTRun) (receivedPkt : PacketInfo) (receivedAt : Time) : RTTRun :=
  match receivedPkt.key.bind s.tk.delete with
  | none => s.panic
  | some (none, tk) => { s with tk := tk, serving := none }
  | some (some value, tk) =>
    let sentAt := ((s.syns.lookup value.seq).map SYN.sentAt).getD 0
    { s with
      tk := tk
      serving := none
      events := s.events ++ [⟨value.seq, receivedAt, timeSub receivedAt sentAt⟩] }

def step (s : RTTRun) (a : RTTAction) : Option RTTRun :=
  if s.panicked then none
  else
    match a with
    | .markSent receipt => if s.serving = none then some (s.markSent receipt) else none
    | .write seq now err =>
      s.onSYN seq fun syn =>
        if syn.pc = .marked then
          some (match err with
            | none => { syn with pc := .written, writtenAt := now }
            | some _ => { syn with pc := .unsent })
        else none
    | .recordSentAt seq now =>
      s.onSYN seq fun syn =>
        if syn.pc = .written then some { syn with pc := .recorded, sentAt := now } else none
    | .startTimer seq =>
      s.onSYN seq fun syn => if syn.pc = .recorded then some { syn with pc := .armed } else none
    | .handleTimeout seq =>
      (s.syns.lookup seq).bind fun syn =>
        if syn.pc = .armed ∧ s.serving = none then some (s.handleTimeout syn) else none
    | .markReceived receivedPkt now =>
      if s.serving = none then some { s with serving := some (receivedPkt, now) } else none
    | .serve =>
      match s.serving with
      | none => none
      | some (receivedPkt, receivedAt) => some (s.serve receivedPkt receivedAt)

/-- All orders of the steps of any number of calls of `Send`, and of replies. -/
def system (config : TrackerConfig) : System RTTRun RTTAction := ⟨start config, step⟩

/-! ## Round trip times -/

/-- The round trip time of each event is the time of its reply less the time of its packet. -/
def Timed (s : RTTRun) : Prop :=
  ∀ e ∈ s.events, ∃ syn, s.syns.lookup e.seq = some syn ∧ syn.Recorded ∧
    e.rtt = timeSub e.receivedAt syn.writtenAt

/-- The packet whose reply the tracker is to be handed. -/
def served (s : RTTRun) : Option SYN := do
  let (receivedPkt, _) ← s.serving
  let key ← receivedPkt.key
  let value ← s.tk.store.lookup key
  s.syns.lookup value.seq

/-- The clock still shows the time of the write when `SentAt` is assigned, and no reply is
served whose packet has no `SentAt` yet. -/
def recordedFirst : Policy RTTRun RTTAction := fun s a =>
  match a with
  | .recordSentAt seq now => ∀ syn ∈ s.syns.lookup seq, now = syn.writtenAt
  | .serve => ∀ syn ∈ s.served, syn.Recorded
  | _ => True

instance (s : RTTRun) (a : RTTAction) : Decidable (recordedFirst s a) := by
  unfold recordedFirst
  split <;> infer_instance

variable {config : TrackerConfig} {s t : RTTRun} {a : RTTAction} {seq : Int} {syn syn' : SYN}

structure Inv (s : RTTRun) : Prop where
  /-- Numbers from the counter on are free. -/
  fresh : ∀ seq syn, s.syns.lookup seq = some syn → seq < s.tk.counter
  stored : ∀ key value, s.tk.store.lookup key = some value →
    ∃ syn, s.syns.lookup value.seq = some syn
  /-- What is assigned is the time of the write. -/
  assigned : ∀ seq syn, s.syns.lookup seq = some syn → syn.Recorded → syn.sentAt = syn.writtenAt
  timed : s.Timed

theorem Inv.start (config : TrackerConfig) : (start config).Inv := by
  refine ⟨fun seq syn h => ?_, fun key value h => ?_, fun seq syn h => ?_, fun e he => ?_⟩
  · cases h
  · cases h
  · cases h
  · cases he

theorem Inv.panic (h : s.Inv) : s.panic.Inv := ⟨h.fresh, h.stored, h.assigned, h.timed⟩

theorem lookup_setSYN (s : RTTRun) (seq seq' : Int) (syn : SYN) :
    (s.setSYN seq syn).syns.lookup seq' =
      if seq' = seq then some syn else s.syns.lookup seq' :=
  Store.lookup_insert_eq _ _ _ _

/-- One packet moves on, and keeps the time it was written at once `SentAt` is assigned. -/
theorem Inv.setSYN (h : s.Inv) (hl : s.syns.lookup seq = some syn)
    (hassigned : syn'.Recorded → syn'.sentAt = syn'.writtenAt)
    (hkeep : syn.Recorded → syn'.Recorded ∧ syn'.writtenAt = syn.writtenAt) :
    (s.setSYN seq syn').Inv := by
  refine ⟨fun seq' syn₁ h₁ => ?_, fun key value hv => ?_, fun seq' syn₁ h₁ => ?_,
    fun e he => ?_⟩
  · rw [lookup_setSYN] at h₁
    split at h₁
    next heq => exact heq ▸ h.fresh seq syn hl
    next => exact h.fresh seq' syn₁ h₁
  · rw [lookup_setSYN]
    split
    next => exact ⟨syn', rfl⟩
    next => exact h.stored key value hv
  · rw [lookup_setSYN] at h₁
    split at h₁
    next =>
      cases h₁
      exact hassigned
    next => exact h.assigned seq' syn₁ h₁
  · obtain ⟨syn₀, h₀, hrecorded, hrtt⟩ := h.timed e he
    rw [lookup_setSYN]
    split
    next heq =>
      rw [heq] at h₀
      cases hl.symm.trans h₀
      obtain ⟨hrecorded', hwritten⟩ := hkeep hrecorded
      exact ⟨syn', rfl, hrecorded', hwritten ▸ hrtt⟩
    next => exact ⟨syn₀, h₀, hrecorded, hrtt⟩

theorem onSYN_eq_some {f : SYN → Option SYN} (h : s.onSYN seq f = some t) :
    ∃ syn syn', s.syns.lookup seq = some syn ∧ f syn = some syn' ∧ t = s.setSYN seq syn' := by
  obtain ⟨syn, hl, h⟩ := Option.bind_eq_some_iff.1 h
  obtain ⟨syn', hf, rfl⟩ := Option.map_eq_some_iff.1 h
  exact ⟨syn, syn', hl, hf, rfl⟩

theorem not_recorded (hpc : syn.pc ≠ .recorded ∧ syn.pc ≠ .armed) : ¬syn.Recorded :=
  fun hr => hr.elim hpc.1 hpc.2

theorem Inv.markSent (h : s.Inv) (receipt : TCPSYNSentReceipt) : (s.markSent receipt).Inv := by
  rw [RTTRun.markSent]
  split
  next => exact h.panic
  next key _ =>
    split
    next => exact h.panic
    next tk hmark =>
      obtain ⟨_, hmark⟩ := Option.ite_none_right_eq_some.1 hmark
      cases hmark
      have hfree : ∀ seq' syn₁, s.syns.lookup seq' = some syn₁ → seq' ≠ s.tk.counter :=
        fun seq' syn₁ h₁ => Int.ne_of_lt (h.fresh seq' syn₁ h₁)
      refine ⟨fun seq' syn₁ h₁ => ?_, fun key' value hv => ?_, fun seq' syn₁ h₁ => ?_,
        fun e he => ?_⟩
      · rw [lookup_setSYN] at h₁
        split at h₁
        next heq => exact heq ▸ Int.lt_succ _
        next => exact Int.lt_trans (h.fresh seq' syn₁ h₁) (Int.lt_succ _)
      · rw [lookup_setSYN]
        rcases Store.lookup_insert_eq_some hv with ⟨_, rfl⟩ | ⟨_, hv⟩
        · exact ⟨_, if_pos rfl⟩
        · obtain ⟨syn₁, h₁⟩ := h.stored key' value hv
          exact ⟨syn₁, (if_neg (hfree _ _ h₁)).trans h₁⟩
      · rw [lookup_setSYN] at h₁
        split at h₁
        next =>
          cases h₁
          exact fun _ => rfl
        next => exact h.assigned seq' syn₁ h₁
      · obtain ⟨syn₀, h₀, hrest⟩ := h.timed e he
        exact ⟨syn₀, (lookup_setSYN _ _ _ _).trans ((if_neg (hfree _ _ h₀)).trans h₀), hrest⟩

/-- An entry is deleted. -/
theorem Inv.delete {key : Key} {ent : Option TCPSYNSentReceipt} {tk : Tracker} (h : s.Inv)
    (hd : s.tk.delete key = some (ent, tk)) (serving : Option (PacketInfo × Time)) :
    { s with tk := tk, serving := serving }.Inv := by
  obtain ⟨_, rfl⟩ := Tracker.delete_eq_some hd
  exact ⟨h.fresh, fun key' value hv => h.stored key' value (Store.lookup_erase_eq_some hv).2,
    h.assigned, h.timed⟩

/-- A reply whose packet has its `SentAt` is timed right. -/
theorem Inv.serve {receivedPkt : PacketInfo} {receivedAt : Time} (h : s.Inv)
    (hserving : s.serving = some (receivedPkt, receivedAt))
    (hok : ∀ syn ∈ s.served, syn.Recorded) : (s.serve receivedPkt receivedAt).Inv := by
  rw [RTTRun.serve]
  split
  next => exact h.panic
  next tk hd =>
    obtain ⟨key, _, hd⟩ := Option.bind_eq_some_iff.1 hd
    exact h.delete hd none
  next value tk hd =>
    obtain ⟨key, hkey, hd⟩ := Option.bind_eq_some_iff.1 hd
    obtain ⟨hvalue, _⟩ := Tracker.delete_eq_some hd
    obtain ⟨syn, hl⟩ := h.stored key value hvalue
    have hrecorded : syn.Recorded := hok syn (by
      simp only [served, hserving, hkey, hvalue, hl, Option.bind_eq_bind, Option.bind_some]
      rfl)
    have hdel := h.delete hd none
    refine ⟨hdel.fresh, hdel.stored, hdel.assigned, fun e he => ?_⟩
    rcases List.mem_append.1 he with he | he
    · exact h.timed e he
    · cases List.mem_singleton.1 he
      refine ⟨syn, hl, hrecorded, ?_⟩
      simp only [hl, Option.map_some, Option.getD_some, h.assigned _ _ hl hrecorded]

theorem Inv.step (h : s.Inv) (hok : recordedFirst s a) (hst : s.step a = some t) : t.Inv := by
  obtain ⟨_, hst⟩ := Option.ite_none_left_eq_some.1 hst
  cases a with
  | markSent receipt =>
    obtain ⟨_, hst⟩ := Option.ite_none_right_eq_some.1 hst
    cases hst
    exact h.markSent receipt
  | write seq now err =>
    obtain ⟨syn, syn', hl, hf, rfl⟩ := onSYN_eq_some hst
    obtain ⟨hpc, hf⟩ := Option.ite_none_right_eq_some.1 hf
    cases hf
    have hnot : ¬syn.Recorded := not_recorded (by rw [hpc]; decide)
    cases err with
    | none =>
      exact h.setSYN hl (fun hr => absurd hr (not_recorded (by simp))) fun hr => absurd hr hnot
    | some err =>
      exact h.setSYN hl (fun hr => absurd hr (not_recorded (by simp))) fun hr => absurd hr hnot
  | recordSentAt seq now =>
    obtain ⟨syn, syn', hl, hf, rfl⟩ := onSYN_eq_some hst
    obtain ⟨hpc, hf⟩ := Option.ite_none_right_eq_some.1 hf
    cases hf
    have hnot : ¬syn.Recorded := not_recorded (by rw [hpc]; decide)
    exact h.setSYN hl (fun _ => hok syn hl) fun hr => absurd hr hnot
  | startTimer seq =>
    obtain ⟨syn, syn', hl, hf, rfl⟩ := onSYN_eq_some hst
    obtain ⟨hpc, hf⟩ := Option.ite_none_right_eq_some.1 hf
    cases hf
    exact h.setSYN hl (fun _ => h.assigned seq syn hl (.inl hpc)) fun _ => ⟨.inr rfl, rfl⟩
  | handleTimeout seq =>
    obtain ⟨syn, hl, hst⟩ := Option.bind_eq_some_iff.1 hst
    obtain ⟨_, hst⟩ := Option.ite_none_right_eq_some.1 hst
    cases hst
    rw [RTTRun.handleTimeout]
    split
    next => exact h.panic
    next ent tk hd => exact h.delete hd s.serving
  | markReceived receivedPkt now =>
    obtain ⟨_, hst⟩ := Option.ite_none_right_eq_some.1 hst
    cases hst
    exact ⟨h.fresh, h.stored, h.assigned, h.timed⟩
  | serve =>
    simp only at hst
    split at hst
    next => cases hst
    next receivedPkt receivedAt hserving =>
      cases hst
      exact h.serve hserving hok

/-- In every run in which `SentAt` is assigned before the reply is served, at the time of the
write, the round trip times are right. -/
theorem timed_of_recordedFirst (config : TrackerConfig) (s : RTTRun)
    (h : (system config).Reachable recordedFirst s) : s.Timed :=
  (h.invariant (Inv.start config) fun _ _ _ hi hok hst => hi.step hok hst).timed

/-- A packet from port 40000, and its reply. -/
def sampleReceipt : TCPSYNSentReceipt :=
  ⟨0, [192, 0, 2, 1], 40000, ⟨[192, 0, 2, 2], 443, 1000000000⟩, none⟩

def sampleReply : PacketInfo := ⟨[192, 0, 2, 2], [192, 0, 2, 1], ⟨443, 40000, true, true⟩⟩

/-- The reply comes back after 20 ms. -/
theorem timed_of_slow_reply :
    ∃ s, (system {}).Reachable recordedFirst s ∧ (s.events.map RTTEvent.rtt = [20000000]) ∧
      s.Timed := by
  obtain ⟨s, hr, hp⟩ := System.exists_of_replay (system {}) recordedFirst
    (fun s => s.events.map RTTEvent.rtt = [20000000])
    [.markSent sampleReceipt, .write 0 63870000000000000000 none,
      .recordSentAt 0 63870000000000000000, .startTimer 0,
      .markReceived sampleReply 63870000000020000000, .serve]
    (by decide +kernel)
  exact ⟨s, hr, of_decide_eq_true hp, timed_of_recordedFirst {} s hr⟩

/-- A reply that is served before `SentAt` is assigned has the largest duration. -/
theorem rtt_of_reply_first :
    ¬∀ s, (system {}).Reachable .any s → ∀ e ∈ s.events, ∀ syn ∈ s.syns.lookup e.seq,
      e.rtt = timeSub e.receivedAt syn.writtenAt := by
  intro hall
  obtain ⟨s, hr, hp⟩ := System.exists_of_replay (system {}) Policy.any
    (fun s => s.events.any fun e => e.rtt = maxDuration ∧
      (s.syns.lookup e.seq).any fun syn => timeSub e.receivedAt syn.writtenAt = 400000)
    [.markSent sampleReceipt, .write 0 63870000000000000000 none,
      .markReceived sampleReply 63870000000000400000, .serve]
    (by decide +kernel)
  obtain ⟨e, he, hp⟩ := List.any_eq_true.1 hp
  obtain ⟨hrtt, hsyn⟩ := of_decide_eq_true hp
  obtain ⟨syn, hl, hsub⟩ := (Option.any_eq_true _ _).1 hsyn
  have heq := hall s hr e he syn hl
  rw [hrtt, of_decide_eq_true hsub] at heq
  cases heq

end RTTRun

end CloudPing.Tcping
