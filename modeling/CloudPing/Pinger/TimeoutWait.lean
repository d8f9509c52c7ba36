import CloudPing.Pinger.PacketCount

/-!
# The tracker and the event goroutine

The tracker sends a timeout event from inside the function it serves, and the event
goroutine is the only one that receives.  While `RecvEvC` is full the tracker waits for the
event goroutine.  If this one calls the tracker, neither ever moves again
(`unanswered_forever`).  The same wait closes over a third goroutine when the event goroutine
is at a control signal and the reader of `ctrlSignals` calls the tracker.

`clear` is the exact condition.  It is about four steps: the timeout that makes the tracker
wait, the reply event that takes the last free place of the buffer from it, the event that
is taken past it, and the reply that takes the sending goroutine into a call.
-/

namespace CloudPing.Raw

open Conc

namespace ICMPTrackerRun

/-- The tracker is at the send of a timeout event. -/
def atRecvEvC (s : ICMPTrackerRun) : Bool :=
  match s.actor with
  | .emitting _ _ => true
  | .select | .returned => false

/-- There is no room in the buffer of `RecvEvC`. -/
def full (s : ICMPTrackerRun) : Bool := s.recvEvC.buf.length = s.recvEvC.cap

/-- One more event fills the buffer. -/
def lastPlace (s : ICMPTrackerRun) : Bool := s.recvEvC.buf.length + 1 = s.recvEvC.cap

/-- A timeout of the packet has an event to send. -/
def timesOut (s : ICMPTrackerRun) (seq : Int) : Bool :=
  s.actor = .select && !s.it.closed && (s.it.store.lookup seq).any ICMPTrackerEntry.outstanding

/-- The tracker waits with its event until somebody receives. -/
def jammed (s : ICMPTrackerRun) : Bool := s.atRecvEvC && s.full

end ICMPTrackerRun

end CloudPing.Raw

namespace CloudPing.Pinger

open Conc Raw

/-! ## Who waits for whom -/

/-- The event goroutine is in a call of the tracker. -/
def EventPC.asking : EventPC → Bool
  | .askingUnAcked _ | .askingAckedSeq _ => true
  | _ => false

/-- The event goroutine is at the send on `ctrlSignals`. -/
def EventPC.atSignal : EventPC → Bool
  | .signalling _ => true
  | _ => false

/-- The event goroutine calls the tracker before it does anything else that can wait.  It
does so only where the packets are `counted`. -/
def EventPC.asks (counted : Bool) : EventPC → Bool
  | .handling _ | .outputting _ _ => counted
  | .askingUnAcked _ | .askingAckedSeq _ => true
  | .select | .pausing _ | .signalling _ | .returned => false

/-- The event goroutine sends a control signal before it does anything else that can wait. -/
def EventPC.signals (counted : Bool) : EventPC → Bool
  | .handling _ | .outputting _ _ => !counted
  | .pausing _ | .signalling _ => true
  | .select | .askingUnAcked _ | .askingAckedSeq _ | .returned => false

/-- How many steps the event goroutine takes before it can wait. -/
def EventPC.ahead : EventPC → Nat
  | .handling _ => 3
  | .outputting _ _ => 2
  | .pausing _ => 1
  | _ => 0

/-- The sending goroutine is in a call of the tracker. -/
def SenderPC.calling : SenderPC → Bool
  | .markingReceived _ | .markingSent _ => true
  | _ => false

namespace PingRun

/-- There is no room on `ctrlSignals`. -/
def signalsFull (s : PingRun) : Bool := s.ctrlSignals.buf.length = s.ctrlSignals.cap

/-- A control signal waits for the sending goroutine, and that one for the tracker. -/
def blockedSignals (s : PingRun) : Bool := s.signalsFull && s.snd.calling

/-- The tracker waits for the event goroutine, and the event goroutine for the tracker or
for the sending goroutine, which waits for the tracker. -/
def Deadlocked (s : PingRun) : Prop :=
  s.trk.jammed = true ∧
    (s.ev.asking = true ∨ s.ev.atSignal = true ∧ s.blockedSignals = true)

/-- No such wait while the context is live. -/
def Flowing (s : PingRun) : Prop := s.trk.ctxDone = false → ¬ s.Deadlocked

variable (config : PingConfig)

/-- The event goroutine is on its way to a call of the tracker, or to a control signal that
nobody takes before the tracker serves a call. -/
def held (s : PingRun) : Bool :=
  s.ev.asks config.totalPkts.isSome ||
    (s.ev.signals config.totalPkts.isSome && s.blockedSignals)

/-- The event goroutine would be held up with an event in its hands. -/
def wouldHold (s : PingRun) : Bool := config.totalPkts.isSome || s.blockedSignals

/-- While the context is live: no timeout has an event to send to a full buffer while the
event goroutine is held up, no reply event takes the last place while the tracker waits and
the event goroutine is held up, none is taken past a tracker that waits on an unbuffered
channel, and no reply makes the sending goroutine call a tracker that waits while a control
signal waits for it. -/
def clear : Policy PingRun PingAction := fun s a =>
  match a with
  | .tracker (.handleTimeout seq) =>
    s.trk.ctxDone = true ∨ s.trk.timesOut seq = false ∨ s.trk.full = false ∨
      s.held config = false
  | .tracker (.deliver _) =>
    s.trk.ctxDone = true ∨ s.trk.atRecvEvC = false ∨ s.trk.lastPlace = false ∨
      s.held config = false
  | .evTake (.delivery _) =>
    s.trk.ctxDone = true ∨ s.trk.jammed = false ∨ s.wouldHold config = false
  | .takeReply =>
    s.trk.ctxDone = true ∨ s.trk.jammed = false ∨
      s.ev.signals config.totalPkts.isSome = false ∨ s.signalsFull = false
  | _ => True

instance : ∀ s a, Decidable (clear config s a) := fun _ a =>
  match a with
  | .tracker (.handleTimeout _) => inferInstanceAs (Decidable (_ ∨ _ ∨ _ ∨ _))
  | .tracker (.deliver _) => inferInstanceAs (Decidable (_ ∨ _ ∨ _ ∨ _))
  | .evTake (.delivery _) => inferInstanceAs (Decidable (_ ∨ _ ∨ _))
  | .takeReply => inferInstanceAs (Decidable (_ ∨ _ ∨ _ ∨ _))
  | .tracker .cancel | .tracker (.markSent ..) | .tracker (.markReceived ..)
  | .tracker (.timerFires _) | .tracker (.cleanupEntry _) | .tracker .emit | .tracker (.take _)
  | .tracker .forgetAllAndClose | .tracker .closeCloseCh | .tracker .exit | .evTake .buffer
  | .evTake .actor | .evCtxDone | .evClosed | .resolve _ | .output | .getUnAcked | .getAckedSeq
  | .pause | .signal | .sndCtxDone | .outCClosed | .takeErr | .takeRunErr | .takeSignal
  | .signalsClosed | .markReceived .. | .markSent _ | .send _ | .forgetAllAndClose
  | .closeCloseCh | .reply _ | .ioCtxDone | .ioStop _ => isTrue trivial

end PingRun

/-! ## How the tracker comes to wait -/

namespace Tracked

open ICMPTrackerRun

variable {s t : ICMPTrackerRun}

theorem live_of_move {b : TrackerAction} (hm : Move s b t) (hc : t.ctxDone = false) :
    s.ctxDone = false := by
  rw [← Bool.not_eq_true]
  intro hd
  rw [hm.ctxDone hd] at hc
  cases hc

theorem not_jammed_of_actor (h : t.atRecvEvC = false) : t.jammed = false := by
  rw [jammed, h, Bool.false_and]

theorem not_jammed_of_select (h : t.actor = .select) : t.jammed = false :=
  not_jammed_of_actor (by rw [atRecvEvC, h])

theorem actor_of_jammed (h : t.jammed = true) : ∃ seq ev, t.actor = .emitting seq ev := by
  cases ha : t.actor with
  | emitting seq ev => exact ⟨seq, ev, rfl⟩
  | _ => rw [not_jammed_of_actor (by rw [atRecvEvC, ha])] at h; cases h

/-- A tracker that waits has waited before, or a timeout has made it wait, or its place in
the buffer has gone. -/
theorem jammed_of_move {b : TrackerAction} (hm : Move s b t) (hj : t.jammed = true) :
    s.jammed = true ∨ (∃ seq, b = .handleTimeout seq ∧ s.timesOut seq = true ∧ s.full = true) ∨
      ∃ i, b = .deliver i ∧ s.atRecvEvC = true ∧ s.lastPlace = true := by
  have hno : ∀ {P : Prop}, t.actor = .select → P := fun ha => by
    rw [not_jammed_of_select ha] at hj
    cases hj
  cases hm with
  | refused | cancelled | fired | lapsed | unclean | metDelivery | closed | panicked =>
    exact .inl hj
  | sent ha | answered ha | stale _ ha | cleaned _ ha | forgot ha => exact hno ha
  | emitted | metActor => exact hno rfl
  | exited => rw [not_jammed_of_actor rfl] at hj; cases hj
  | timedOut h ha hc hl ho =>
    refine .inr (.inl ⟨_, rfl, ?_, ?_⟩)
    · simp [timesOut, ha, hc, hl, ho]
    · exact (Bool.and_eq_true_iff.1 hj).2
  | @delivered i ev c hi hc =>
    obtain ⟨_, _, hcap, hbuf, _⟩ := Chan.send_eq_sent hc
    obtain ⟨hact, hfull⟩ := Bool.and_eq_true_iff.1 hj
    refine .inr (.inr ⟨i, rfl, hact, ?_⟩)
    have hlen : c.buf.length = c.cap := of_decide_eq_true hfull
    rw [hbuf, hcap, List.length_append] at hlen
    exact decide_eq_true hlen
  | took hc =>
    have hlen := of_decide_eq_true (Bool.and_eq_true_iff.1 hj).2
    exact absurd hlen (Nat.ne_of_lt (Chan.length_lt_of_recv hc))

/-- Only an event taken past the tracker leaves it waiting. -/
theorem jammed_of_take {src : EventSource} {ev : ICMPTrackerEntry} (h : s.take src = some (ev, t))
    (hj : t.jammed = true) : s.jammed = true ∧ ∃ i, src = .delivery i := by
  cases src with
  | buffer =>
    obtain ⟨⟨ev', c⟩, hc, heq⟩ := Option.map_eq_some_iff.1 h
    cases heq
    have hlen := of_decide_eq_true (Bool.and_eq_true_iff.1 hj).2
    exact absurd hlen (Nat.ne_of_lt (Chan.length_lt_of_recv hc))
  | actor =>
    simp only [take] at h
    split at h
    next => cases h; rw [not_jammed_of_select rfl] at hj; cases hj
    next => cases h
  | delivery i =>
    simp only [take] at h
    split at h
    next => cases h; exact ⟨hj, i, rfl⟩
    next => cases h

/-- Only a receive ends the wait. -/
theorem jammed_keep (h : s.jammed = true) {b : TrackerAction} (hm : Move s b t)
    (hb : ∀ src, b ≠ .take src) : t.jammed = true := by
  obtain ⟨seq, ev, ha⟩ := actor_of_jammed h
  have hlen : s.recvEvC.buf.length = s.recvEvC.cap :=
    of_decide_eq_true (Bool.and_eq_true_iff.1 h).2
  have hno : ∀ {P : Prop}, s.actor = .select → P := fun hs => by
    rw [ha] at hs
    cases hs
  cases hm with
  | sent hs | answered hs | timedOut _ hs | stale _ hs | cleaned _ hs | forgot hs | exited hs =>
    exact hno hs
  | emitted _ hc | delivered _ hc =>
    have hroom := (Chan.send_eq_sent hc).2.1
    omega
  | took | metActor | metDelivery => exact absurd rfl (hb _)
  | _ => exact h

/-- A timeout with an event to send makes the tracker wait at a full buffer. -/
theorem jammed_of_timeout {seq : Int} (h : s.step (.handleTimeout seq) = some t)
    (ht : s.timesOut seq = true) (hf : s.full = true) :
    t.jammed = true ∧ t.ctxDone = s.ctxDone ∧ t.panicked = false := by
  simp only [timesOut, Bool.and_eq_true, Bool.not_eq_true', decide_eq_true_eq] at ht
  obtain ⟨⟨ha, hc⟩, hl⟩ := ht
  obtain ⟨ent, hl, ho⟩ := (Option.any_eq_true _ _).1 hl
  have ho : ent.receivedAt.isEmpty = true := ho
  unfold step at h
  split at h
  next => cases h
  next hp =>
    simp [handleTimeout, serve, ha, ICMPTracker.handleTimeout, hc, hl, ho, Except.map, after] at h
    obtain ⟨_, rfl⟩ := h
    exact ⟨hf, rfl, by simpa using hp⟩

/-- A reply event in the last place makes the tracker wait. -/
theorem jammed_of_deliver {i : Nat} (hopen : s.recvEvC.closed = false)
    (h : s.step (.deliver i) = some t) (ha : s.atRecvEvC = true) (hl : s.lastPlace = true) :
    t.jammed = true ∧ t.ctxDone = s.ctxDone ∧ t.panicked = false := by
  have hl : s.recvEvC.buf.length + 1 = s.recvEvC.cap := of_decide_eq_true hl
  unfold step at h
  split at h
  next => cases h
  next hp =>
    simp only [deliver] at h
    split at h
    next ev hi =>
      obtain ⟨c, hc, hbuf, hcap, _⟩ := Chan.send_of_room (x := ev) hopen (by omega)
      rw [hc] at h
      cases h
      refine ⟨?_, rfl, by simpa using hp⟩
      refine Bool.and_eq_true_iff.2 ⟨ha, decide_eq_true ?_⟩
      show c.buf.length = c.cap
      rw [hbuf, hcap, List.length_append]
      exact hl
    next => cases h

end Tracked

namespace PingRun

open Tracked

variable {config : PingConfig} {s t : PingRun} {a : PingAction}

/-- A call of the event goroutine to a tracker that waits is never answered. -/
theorem unanswered_forever (hj : s.trk.jammed = true) (he : s.ev.asking = true)
    (hr : (system config).Reach Policy.any s t) : t.trk.jammed = true ∧ t.ev.asking = true := by
  refine hr.induct (I := fun s => s.trk.jammed = true ∧ s.ev.asking = true) ⟨hj, he⟩
    fun s a t ⟨hj, he⟩ _ hst => ?_
  obtain ⟨seq, ev, ha⟩ := actor_of_jammed hj
  cases step_move hst with
  | tracker hi hm =>
    exact ⟨jammed_keep hj (ICMPTrackerRun.step_move hm) (by rintro _ rfl; cases hi), he⟩
  | markedReceived _ hm =>
    exact ⟨jammed_keep hj (ICMPTrackerRun.markReceived_move hm) (by simp), he⟩
  | markedSent _ hm => exact ⟨jammed_keep hj (ICMPTrackerRun.markSent_move hm) (by simp), he⟩
  | forgot _ hm => exact ⟨jammed_keep hj (ICMPTrackerRun.forgetAllAndClose_move hm) (by simp), he⟩
  | closedCh _ hc => exact ⟨jammed_keep hj (.closed hc) (by simp), he⟩
  | stopped hev | tookEvent hev | handled hev | outputted hev | paused hev | signalled hev =>
    rw [hev] at he
    cases he
  | asked _ hn =>
    rcases ICMPTrackerRun.getUnAcked_eq_some hn with ⟨hs, _⟩ | ⟨hs, _⟩ <;>
      (rw [ha] at hs; cases hs)
  | finished _ hn | unfinished _ hn =>
    rcases ICMPTrackerRun.getAckedSeq_eq_some hn with ⟨hs, _⟩ | ⟨hs, _⟩ <;>
      (rw [ha] at hs; cases hs)
  | _ => exact ⟨hj, he⟩

/-! ## The condition is enough -/

/-- The wait has come or will come. -/
def Doomed (config : PingConfig) (s : PingRun) : Prop :=
  s.trk.jammed = true ∧ s.held config = true

/-- While the context is live, no wait is coming. -/
def Open (config : PingConfig) (s : PingRun) : Prop := s.trk.ctxDone = false → ¬ Doomed config s

theorem held_iff : s.held config = true ↔ s.ev.asks config.totalPkts.isSome = true ∨
    s.ev.signals config.totalPkts.isSome = true ∧ s.signalsFull = true ∧ s.snd.calling = true := by
  simp [held, blockedSignals]

/-- With an event just taken, the event goroutine is held up where it would be. -/
theorem held_handling (trk : ICMPTrackerRun) (ev : ICMPTrackerEntry) :
    ({ s with trk := trk, ev := .handling ev } : PingRun).held config = s.wouldHold config := by
  simp only [held, wouldHold, EventPC.asks, EventPC.signals]
  cases config.totalPkts.isSome <;> rfl

/-- The event goroutine is as much held up as before where it goes from one wait of an event
to the next. -/
theorem held_onward (hsnd : t.snd = s.snd) (hq : t.ctrlSignals = s.ctrlSignals)
    (ha : t.ev.asks config.totalPkts.isSome = s.ev.asks config.totalPkts.isSome)
    (hs : t.ev.signals config.totalPkts.isSome = s.ev.signals config.totalPkts.isSome) :
    t.held config = s.held config := by
  rw [held, held, blockedSignals, blockedSignals, signalsFull, signalsFull, ha, hs, hsnd, hq]

theorem Deadlocked.doomed (h : s.Deadlocked) : Doomed config s := by
  refine ⟨h.1, held_iff.2 ?_⟩
  rcases h.2 with he | ⟨he, hb⟩
  · left
    cases hev : s.ev <;> rw [hev] at he <;> first | rfl | cases he
  · right
    refine ⟨?_, Bool.and_eq_true_iff.1 hb⟩
    cases hev : s.ev <;> rw [hev] at he <;> first | rfl | cases he

theorem Open.flowing (h : Open config s) : s.Flowing := fun hc hd => h hc hd.doomed

namespace Open

/-- A step that leaves the tracker alone. -/
theorem frame (h : Open config s) (htrk : t.trk = s.trk)
    (hh : t.held config = true → s.held config = true) : Open config t := by
  rintro hc ⟨hj, hheld⟩
  rw [htrk] at hc hj
  exact h hc ⟨hj, hh hheld⟩

/-- After a call that the tracker has served, it does not wait. -/
theorem served (h : t.trk.atRecvEvC = false) : Open config t := by
  rintro _ ⟨hj, _⟩
  rw [not_jammed_of_actor h] at hj
  cases hj

/-- The event goroutine is not held up. -/
theorem free (hh : t.held config = false) : Open config t := by
  rintro _ ⟨_, hheld⟩
  rw [hh] at hheld
  cases hheld

/-- The sending goroutine is not in a call, and the event goroutine asks no more than before. -/
theorem uncalled (h : Open config s) (htrk : t.trk = s.trk) (hev : t.ev = s.ev)
    (hsnd : t.snd.calling = false) : Open config t := by
  refine h.frame htrk fun hh => held_iff.2 ?_
  rcases held_iff.1 hh with ha | ⟨_, _, hc⟩
  · exact .inl (hev ▸ ha)
  · rw [hsnd] at hc
    cases hc

/-- A step of the event goroutine from one wait of an event to the next. -/
theorem onward (h : Open config s) (htrk : t.trk = s.trk) (hsnd : t.snd = s.snd)
    (hq : t.ctrlSignals = s.ctrlSignals)
    (ha : t.ev.asks config.totalPkts.isSome = s.ev.asks config.totalPkts.isSome)
    (hs : t.ev.signals config.totalPkts.isSome = s.ev.signals config.totalPkts.isSome) :
    Open config t :=
  h.frame htrk fun hh => held_onward hsnd hq ha hs ▸ hh

theorem tracker (h : Open config s) {b : TrackerAction} {trk : ICMPTrackerRun}
    (hm : ICMPTrackerRun.Move s.trk b trk) (hok : clear config s (.tracker b)) :
    Open config { s with trk := trk } := by
  rintro hc ⟨hj, hheld⟩
  have hlive : s.trk.ctxDone = false := live_of_move hm hc
  have hheld : s.held config = true := hheld
  rcases jammed_of_move hm hj with hj' | ⟨seq, rfl, ht, hf⟩ | ⟨i, rfl, ha, hl⟩
  · exact h hlive ⟨hj', hheld⟩
  · simp [clear, hlive, ht, hf, hheld] at hok
  · simp [clear, hlive, ha, hl, hheld] at hok

theorem move (h : Open config s) (hok : clear config s a) (hm : Move config s a t) :
    Open config t := by
  cases hm with
  | tracker hi hst => exact h.tracker (ICMPTrackerRun.step_move hst) hok
  | stopped | finished => exact free rfl
  | @tookEvent src ev trk he ht =>
    rintro hc ⟨hj, hheld⟩
    obtain ⟨hj', i, rfl⟩ := jammed_of_take ht hj
    have hlive : s.trk.ctxDone = false := live_of_move (ICMPTrackerRun.take_move ht).1 hc
    have hheld : s.wouldHold config = true := held_handling trk ev ▸ hheld
    simp [clear, hlive, hj', hheld] at hok
  | handled he =>
    exact h.onward rfl rfl rfl (by rw [he]; rfl) (by rw [he]; rfl)
  | outputted he =>
    cases hn : config.totalPkts.isSome
    · exact h.onward rfl rfl rfl (by simp [he, hn, EventPC.asks]) (by simp [he, hn, EventPC.signals])
    · exact h.onward rfl rfl rfl (by simp [he, hn, EventPC.asks]) (by simp [he, hn, EventPC.signals])
  | paused he => exact h.onward rfl rfl rfl (by rw [he]; rfl) (by rw [he]; rfl)
  | asked he hn =>
    rcases ICMPTrackerRun.getUnAcked_eq_some hn with ⟨ha, _⟩ | ⟨ha, _⟩
    · exact served (by simp [ICMPTrackerRun.atRecvEvC, ha])
    · exact served (by simp [ICMPTrackerRun.atRecvEvC, ha])
  | unfinished he hn =>
    rcases ICMPTrackerRun.getAckedSeq_eq_some hn with ⟨ha, _⟩ | ⟨ha, _⟩
    · exact served (by simp [ICMPTrackerRun.atRecvEvC, ha])
    · exact served (by simp [ICMPTrackerRun.atRecvEvC, ha])
  | signalled => exact free rfl
  | crashed | replied | ioStopped => exact h.frame rfl id
  | left | tookErr | tookRunErr | wrote => exact h.uncalled rfl rfl rfl
  | tookReply hs hi =>
    rintro hc ⟨hj, hheld⟩
    rcases held_iff.1 hheld with ha | ⟨hsig, hf, _⟩
    · exact h hc ⟨hj, held_iff.2 (.inl ha)⟩
    · simp only [clear] at hok
      rcases hok with hok | hok | hok | hok
      · rw [show s.trk.ctxDone = false from hc] at hok; cases hok
      · rw [show s.trk.jammed = true from hj] at hok; cases hok
      · rw [show s.ev.signals config.totalPkts.isSome = true from hsig] at hok; cases hok
      · rw [show s.signalsFull = true from hf] at hok; cases hok
  | tookSignal hs hr =>
    -- the signal that was taken leaves room for the next
    refine h.frame rfl fun hh => held_iff.2 ?_
    rcases held_iff.1 hh with ha | ⟨_, hf, _⟩
    · exact .inl ha
    · exact absurd (of_decide_eq_true hf) (Nat.ne_of_lt (Chan.length_lt_of_recv hr))
  | markedReceived hs hr =>
    exact (h.tracker (ICMPTrackerRun.markReceived_move hr) trivial).uncalled rfl rfl rfl
  | markedSent hs hr =>
    exact (h.tracker (ICMPTrackerRun.markSent_move hr) trivial).uncalled rfl rfl rfl
  | forgot hs hr =>
    exact (h.tracker (ICMPTrackerRun.forgetAllAndClose_move hr) trivial).uncalled rfl rfl rfl
  | closedCh hs hc => exact (h.tracker (.closed hc) trivial).uncalled rfl rfl rfl

end Open

theorem open_of (h : (system config).Reachable (clear config) s) : Open config s :=
  h.invariant (fun _ hd => by cases hd.1) fun _ _ _ hs hok hst => hs.move hok (step_move hst)

/-! ## The condition is needed -/

/-- Nobody has panicked. -/
def Alive (s : PingRun) : Prop := s.panicked = false ∧ s.trk.panicked = false

theorem alive_of_step (h : s.step config a = some t) : s.Alive := by
  unfold step at h
  split at h
  next => cases h
  next hp => simpa [Alive] using hp

/-- The event goroutine has moved on by itself, and is as much held up as before. -/
structure Onward (config : PingConfig) (s t : PingRun) : Prop where
  trk : t.trk = s.trk
  snd : t.snd = s.snd
  io : t.io = s.io
  ctrlSignals : t.ctrlSignals = s.ctrlSignals
  held : t.held config = s.held config
  alive : t.Alive ↔ s.Alive
  stays : t.ev ≠ .returned
  ahead : t.ev.ahead < s.ev.ahead

/-- What the event goroutine does before it can wait. -/
theorem advance (config : PingConfig) (hal : s.Alive) (h : 0 < s.ev.ahead) :
    ∃ a t, (a = .resolve true ∨ a = .output ∨ a = .pause) ∧ s.step config a = some t ∧
      Onward config s t := by
  cases hev : s.ev with
  | handling ev =>
    obtain ⟨ttl, pmtu, data, nextTTL, heq⟩ := handle_eq config s ev true
    have hst : s.step config (.resolve true) = some (s.handle config ev true) := by
      simp [step, stepEvent, hal.1, hal.2, hev]
    rw [heq] at hst
    refine ⟨.resolve true, _, .inl rfl, hst, rfl, rfl, rfl, rfl, held_onward rfl rfl ?_ ?_, .rfl,
      by simp, ?_⟩
    · rw [hev]; rfl
    · rw [hev]; rfl
    · rw [hev]; exact Nat.lt_succ_self 2
  | outputting data nextTTL =>
    have hst : s.step config .output = some
        { s with
          output := s.output ++ [data]
          numPktsSent := s.numPktsSent + 1
          ev := if config.totalPkts.isSome then .askingUnAcked nextTTL else .pausing nextTTL } := by
      simp [step, stepEvent, hal.1, hal.2, hev]
    refine ⟨.output, _, .inr (.inl rfl), hst, rfl, rfl, rfl, rfl, held_onward rfl rfl ?_ ?_, .rfl,
      ?_, ?_⟩
    all_goals cases hn : config.totalPkts.isSome <;> simp [hev, EventPC.asks, EventPC.signals,
      EventPC.ahead]
  | pausing nextTTL =>
    have hst : s.step config .pause = some { s with ev := .signalling nextTTL } := by
      simp [step, stepEvent, hal.1, hal.2, hev]
    refine ⟨.pause, _, .inr (.inr rfl), hst, rfl, rfl, rfl, rfl, held_onward rfl rfl ?_ ?_, .rfl,
      by simp, ?_⟩
    · rw [hev]; rfl
    · rw [hev]; rfl
    · rw [hev]; exact Nat.lt_succ_self 0
  | _ => rw [hev] at h; cases h

/-- Where the wait is coming and has not come, the event goroutine has something to do. -/
theorem Doomed.ahead (h : Doomed config s) (hd : ¬ s.Deadlocked) : 0 < s.ev.ahead := by
  cases hev : s.ev with
  | handling | outputting | pausing => exact Nat.succ_pos _
  | askingUnAcked | askingAckedSeq => exact absurd ⟨h.1, .inl (by rw [hev]; rfl)⟩ hd
  | signalling =>
    rcases held_iff.1 h.2 with ha | ⟨_, hf, hc⟩
    · rw [hev] at ha; cases ha
    · exact absurd ⟨h.1, .inr ⟨by rw [hev]; rfl, by rw [blockedSignals, hf, hc]; rfl⟩⟩ hd
  | select | returned =>
    rcases held_iff.1 h.2 with ha | ⟨hs, _⟩
    · rw [hev] at ha; cases ha
    · rw [hev] at hs; cases hs

/-- A wait that is coming comes. -/
theorem Doomed.deadlocks (h : Doomed config s) (hal : s.Alive) (hc : s.trk.ctxDone = false) :
    ∃ u, (system config).Reach (clear config) s u ∧ ¬ u.Flowing := by
  induction hn : s.ev.ahead using Nat.strong_induction_on generalizing s with
  | _ n ih =>
    by_cases hd : s.Deadlocked
    · exact ⟨s, .refl, fun hf => hf hc hd⟩
    · obtain ⟨a, t, ha, hst, ho⟩ := advance config hal (h.ahead hd)
      have hok : clear config s a := by rcases ha with rfl | rfl | rfl <;> trivial
      have hdt : Doomed config t := ⟨ho.trk ▸ h.1, ho.held.trans h.2⟩
      obtain ⟨u, hr, hu⟩ := ih t.ev.ahead (hn ▸ ho.ahead) hdt (ho.alive.2 hal) (ho.trk ▸ hc) rfl
      exact ⟨u, .head hst hok hr, hu⟩

/-- A step that `clear` excludes makes the wait come. -/
theorem doomed_of_not_clear (hs : s.Orderly) (hst : s.step config a = some t)
    (hno : ¬ clear config s a) : t.trk.ctxDone = false ∧ t.Alive ∧ Doomed config t := by
  have hal := alive_of_step hst
  cases a with
  | tracker b =>
    have hst' : (s.trk.step b).map (fun trk => { s with trk := trk }) = some t := by
      rw [step.eq_def, if_neg (by simp [hal.1, hal.2])] at hst
      exact (Option.ite_none_right_eq_some.1 hst).2
    obtain ⟨trk, htrk, rfl⟩ := Option.map_eq_some_iff.1 hst'
    cases b with
    | handleTimeout seq =>
      simp only [clear, not_or, Bool.not_eq_true, Bool.not_eq_false] at hno
      obtain ⟨hc, ht, hf, hh⟩ := hno
      obtain ⟨hj, hctx, hp⟩ := jammed_of_timeout htrk ht hf
      exact ⟨hctx.trans hc, ⟨hal.1, hp⟩, hj, hh⟩
    | deliver i =>
      simp only [clear, not_or, Bool.not_eq_true, Bool.not_eq_false] at hno
      obtain ⟨hc, ha, hl, hh⟩ := hno
      have hact : s.trk.actor ≠ .returned := by
        intro hr
        rw [ICMPTrackerRun.atRecvEvC, hr] at ha
        cases ha
      obtain ⟨hj, hctx, hp⟩ := jammed_of_deliver (hs.lifecycle.open_of hact) htrk ha hl
      exact ⟨hctx.trans hc, ⟨hal.1, hp⟩, hj, hh⟩
    | _ => exact absurd trivial hno
  | evTake src =>
    cases src with
    | delivery i =>
      simp only [clear, not_or, Bool.not_eq_true, Bool.not_eq_false] at hno
      obtain ⟨hc, hj, hh⟩ := hno
      have hst' : s.stepEvent config (.evTake (.delivery i)) = some t := by
        simpa [step, hal.1, hal.2] using hst
      obtain ⟨_, hst'⟩ := Option.ite_none_right_eq_some.1 hst'
      obtain ⟨⟨ev, trk⟩, htake, rfl⟩ := Option.map_eq_some_iff.1 hst'
      simp only [ICMPTrackerRun.take] at htake
      split at htake
      next =>
        cases htake
        exact ⟨hc, hal, hj, (held_handling _ _).trans hh⟩
      next => cases htake
    | _ => exact absurd trivial hno
  | takeReply =>
    simp only [clear, not_or, Bool.not_eq_true, Bool.not_eq_false] at hno
    obtain ⟨hc, hj, hsig, hf⟩ := hno
    have hst' : s.stepSender config .takeReply = some t := by
      simpa [step, hal.1, hal.2] using hst
    simp only [stepSender] at hst'
    split at hst'
    next =>
      obtain ⟨⟨rx, io⟩, _, rfl⟩ := Option.map_eq_some_iff.1 hst'
      exact ⟨hc, hal, hj, held_iff.2 (.inr ⟨hsig, hf, rfl⟩)⟩
    next => cases hst'
  | _ => exact absurd trivial hno

/-! ## The promise -/

/-- `clear` is the exact condition under which the tracker, the event goroutine and the
sending goroutine never wait for each other. -/
theorem clear_guards (config : PingConfig) : (system config).Guards (clear config) Flowing where
  safe := fun _ hr => (open_of hr).flowing
  tight := by
    intro s a t hr hst hno
    obtain ⟨hc, hal, hd⟩ := doomed_of_not_clear (orderly hr) hst hno
    exact hd.deadlocks hal hc

/-- A ping with an interval above the packet timeout, so that `RecvEvC` is unbuffered. -/
def slowConfig : PingConfig := { sampleConfig with tracker := ⟨3000000000, 0⟩ }

/-- The first packet is answered twice, and the second times out while the event of the
second answer is handled. -/
theorem deadlocked_timeout : ¬ ∀ s, (system slowConfig).Reachable Policy.any s → s.Flowing := by
  intro h
  obtain ⟨s, hr, hp⟩ := System.exists_of_replay (system slowConfig) Policy.any
    (fun s => s.trk.ctxDone = false ∧ s.trk.jammed = true ∧ s.ev.asking = true)
    (sendOne ++ recvOne 1 ++ recvOne 1 ++
      goAround (.delivery 0) [.getUnAcked, .getAckedSeq] ++ sendOne ++
      ([.evTake (.delivery 0), .resolve true, .output, .tracker (.timerFires 2),
        .tracker (.handleTimeout 2)] : List PingAction)) (by decide +kernel)
  obtain ⟨hc, hj, he⟩ := of_decide_eq_true hp
  exact h s hr hc ⟨hj, .inl he⟩

end PingRun

end CloudPing.Pinger
