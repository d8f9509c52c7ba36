import CloudPing.Pinger.RateLimitIO
import CloudPing.Raw.TrackerTimers

/-!
# A call that is never served

The sending goroutine calls the tracker for each reply and for each packet.  The call is
served when the tracker is back at its select.  The tracker can be `lost` for it: it has
returned, so that the call fails, or it waits to send an event to an event goroutine that
has left, or that waits for the tracker or for the sending goroutine.

A tracker is lost by one of five steps (`lost_of_step`), and one that is not lost gets ready
for the call by steps of the others (`readied`).
-/

namespace CloudPing.Pinger

open Conc Raw

namespace Tracked

/-- The tracker returns by its own step. -/
theorem returned_of_move {trk trk' : ICMPTrackerRun} {b : TrackerAction}
    (hm : ICMPTrackerRun.Move trk b trk') (h : trk'.actor = .returned) :
    trk.actor = .returned ∨ b = .exit := by
  cases hm with
  | exited => exact .inr rfl
  | timedOut | emitted | metActor => cases h
  | _ => exact .inl h

/-- A tracker that answers does not wait. -/
theorem not_jammed_of_answer {trk : ICMPTrackerRun}
    (h : trk.actor = .select ∨ trk.actor = .returned) : trk.jammed = false := by
  refine not_jammed_of_actor ?_
  rcases h with h | h <;> rw [ICMPTrackerRun.atRecvEvC, h]

/-- The steps by which a tracker gets lost to its callers.  The one who takes its events is
`deaf` or not. -/
inductive Loses (s : ICMPTrackerRun) (deaf : Bool) : TrackerAction → Prop where
  | exit : Loses s deaf .exit
  | timeout {seq : Int} (ht : s.timesOut seq = true) (hf : s.full = true) (hd : deaf = true) :
      Loses s deaf (.handleTimeout seq)
  | deliver {i : Nat} (ha : s.atRecvEvC = true) (hp : s.lastPlace = true) (hd : deaf = true) :
      Loses s deaf (.deliver i)

variable {s t : ICMPTrackerRun} {b : TrackerAction} {deaf : Bool}

/-- No other step loses it. -/
theorem loses_of_move (hm : ICMPTrackerRun.Move s b t)
    (hno : ¬ (s.actor = .returned ∨ s.jammed = true ∧ deaf = true))
    (hl : t.actor = .returned ∨ t.jammed = true ∧ deaf = true) : Loses s deaf b := by
  rw [not_or] at hno
  rcases hl with ha | ⟨hj, hd⟩
  · rcases returned_of_move hm ha with ha | rfl
    · exact absurd ha hno.1
    · exact .exit
  · rcases jammed_of_move hm hj with hj | ⟨seq, rfl, ht, hf⟩ | ⟨i, rfl, ha, hp⟩
    · exact absurd ⟨hj, hd⟩ hno.2
    · exact .timeout ht hf hd
    · exact .deliver ha hp hd

/-- And each of them does. -/
theorem Loses.lost (h : Loses s deaf b) (hlife : s.Lifecycle) (hst : s.step b = some t) :
    (t.actor = .returned ∨ t.jammed = true ∧ deaf = true) ∧ t.panicked = false := by
  cases h with
  | exit =>
    rw [ICMPTrackerRun.step.eq_def] at hst
    obtain ⟨hp, hst⟩ := Option.ite_none_left_eq_some.1 hst
    obtain ⟨hret, hpan⟩ := hlife.exit hst
    exact ⟨.inl hret, hpan.trans (by simpa using hp)⟩
  | timeout ht hf hd =>
    obtain ⟨hj, _, hpan⟩ := jammed_of_timeout hst ht hf
    exact ⟨.inr ⟨hj, hd⟩, hpan⟩
  | deliver ha hp hd =>
    have hact : s.actor ≠ .returned := by
      intro hr
      rw [ICMPTrackerRun.atRecvEvC, hr] at ha
      cases ha
    obtain ⟨hj, _, hpan⟩ := jammed_of_deliver (hlife.open_of hact) hst ha hp
    exact ⟨.inr ⟨hj, hd⟩, hpan⟩

/-- A step does not lose the tracker, or nobody is `passing` a reply that waits for it. -/
def Keeps (s : ICMPTrackerRun) (passing deaf : Bool) : TrackerAction → Prop
  | .exit => passing = false
  | .handleTimeout seq =>
    passing = false ∨ s.timesOut seq = false ∨ s.full = false ∨ deaf = false
  | .deliver _ => passing = false ∨ s.atRecvEvC = false ∨ s.lastPlace = false ∨ deaf = false
  | _ => True

theorem not_keeps_iff {passing : Bool} :
    ¬Keeps s passing deaf b ↔ passing = true ∧ Loses s deaf b := by
  constructor
  · intro h
    cases b with
    | exit => exact ⟨by simpa [Keeps] using h, .exit⟩
    | handleTimeout seq =>
      simp only [Keeps, not_or, Bool.not_eq_false] at h
      exact ⟨h.1, .timeout h.2.1 h.2.2.1 h.2.2.2⟩
    | deliver i =>
      simp only [Keeps, not_or, Bool.not_eq_false] at h
      exact ⟨h.1, .deliver h.2.1 h.2.2.1 h.2.2.2⟩
    | _ => exact absurd trivial h
  · rintro ⟨hp, h⟩ hok
    cases h with
    | exit => rw [show passing = false from hok] at hp; cases hp
    | timeout ht hf hd | deliver ht hf hd => simp [Keeps, hp, ht, hf, hd] at hok

end Tracked

namespace PingRun

open Tracked

variable {config : PingConfig} {s t : PingRun} {a : PingAction}

/-- The event goroutine takes no event before a call of the tracker is served. -/
def deaf (config : PingConfig) (s : PingRun) : Bool := s.ev = .returned || s.held config

/-- No call of the tracker succeeds any more: it has returned, or it waits for an event
goroutine that takes no event. -/
def lost (config : PingConfig) (s : PingRun) : Bool :=
  s.trk.actor = .returned || (s.trk.jammed && s.deaf config)

/-! ## Why a goroutine leaves -/

/-- A step belongs to the tracker, the event goroutine, the sending goroutine or the
transceiver. -/
theorem step_owner (h : s.step config a = some t) :
    (∃ b trk, a = .tracker b ∧ b.own = true ∧ s.trk.step b = some trk ∧
        t = { s with trk := trk }) ∨
      s.stepEvent config a = some t ∨ s.stepSender config a = some t ∨
        s.stepTransceiver a = some t := by
  unfold step at h
  split at h
  next => cases h
  next =>
    split at h
    next b =>
      obtain ⟨hi, h⟩ := Option.ite_none_right_eq_some.1 h
      obtain ⟨trk, ht, rfl⟩ := Option.map_eq_some_iff.1 h
      exact .inl ⟨b, trk, rfl, hi, ht, rfl⟩
    all_goals
      first
      | exact .inr (.inl h)
      | exact .inr (.inr (.inl h))
      | exact .inr (.inr (.inr h))

theorem proceed_ev (s : PingRun) (pc : SenderPC) (r : Except String ICMPTrackerRun) :
    (s.proceed pc r).ev = s.ev := by
  cases r <;> rfl

theorem handle_frame (config : PingConfig) (s : PingRun) (ev : ICMPTrackerEntry) (found : Bool) :
    (s.handle config ev found).snd = s.snd ∧ (s.handle config ev found).ev ≠ .returned := by
  obtain ⟨_, _, _, _, heq⟩ := handle_eq config s ev found
  rw [heq]
  exact ⟨rfl, by simp⟩

theorem stepSender_ev (h : s.stepSender config a = some t) : t.ev = s.ev := by
  unfold stepSender at h
  split at h <;> grind [proceed_ev, Option.map_eq_some_iff]

theorem stepEvent_snd (h : s.stepEvent config a = some t) : t.snd = s.snd := by
  unfold stepEvent at h
  split at h <;> grind [handle_frame, evReturn, Option.map_eq_some_iff]

theorem stepTransceiver_frame (h : s.stepTransceiver a = some t) :
    t.ev = s.ev ∧ t.snd = s.snd := by
  unfold stepTransceiver at h
  grind [Option.map_eq_some_iff]

/-- The event goroutine leaves after the context, after the tracker, or on the answer to
`GetAckedSeq`. -/
theorem ev_left (h : s.step config a = some t) (he : t.ev = .returned) :
    s.ev = .returned ∨ a = .evCtxDone ∨ s.trk.recvEvC.closed = true ∨
      s.trk.getAckedSeq ≠ none := by
  rcases step_owner h with ⟨b, trk, _, _, _, rfl⟩ | h | h | h
  · exact .inl he
  · unfold stepEvent at h
    split at h <;> grind [handle_frame, Option.map_eq_some_iff, Chan.drained]
  · exact .inl (stepSender_ev h ▸ he)
  · exact .inl ((stepTransceiver_frame h).1 ▸ he)

/-- The sending goroutine leaves its select after the context, the transceiver or the
control signals, and its calls where the tracker does not serve them. -/
theorem snd_left (h : s.step config a = some t) (hr : t.snd = .returned) :
    s.snd = .forgetting ∨ s.snd = .closing ∨ s.snd = .returned ∨
      a = .sndCtxDone ∨ a = .signalsClosed ∨ s.io.pc = .returned ∨
      (∃ err c, s.io.errC.recv = some (err, c)) ∨ (s.snd.calling = true ∧ ¬ s.trk.Serving) := by
  rcases step_owner h with ⟨b, trk, _, _, _, rfl⟩ | h | h | h
  · simp [show s.snd = .returned from hr]
  · simp [show s.snd = .returned from stepEvent_snd h ▸ hr]
  · unfold stepSender at h
    split at h
    next => simp
    next =>
      split at h
      next => obtain ⟨⟨rx, io⟩, _, rfl⟩ := Option.map_eq_some_iff.1 h; cases hr
      next => cases h
    next => simp [(Option.ite_none_right_eq_some.1 h).1.2]
    next =>
      obtain ⟨_, h⟩ := Option.ite_none_right_eq_some.1 h
      obtain ⟨⟨err, c⟩, hc, _⟩ := Option.map_eq_some_iff.1 h
      simp [hc]
    next => obtain ⟨_, h⟩ := Option.ite_none_right_eq_some.1 h; cases h; cases hr
    next =>
      obtain ⟨_, h⟩ := Option.ite_none_right_eq_some.1 h
      obtain ⟨⟨ctrl, c⟩, _, rfl⟩ := Option.map_eq_some_iff.1 h
      cases hr
    next => simp
    next =>
      split at h
      next hs =>
        obtain ⟨r, hm, rfl⟩ := Option.map_eq_some_iff.1 h
        cases r with
        | error e => simp [hs, SenderPC.calling, ICMPTrackerRun.not_serving_of_markReceived hm]
        | ok trk => cases hr
      next => cases h
    next =>
      split at h
      next hs =>
        obtain ⟨r, hm, rfl⟩ := Option.map_eq_some_iff.1 h
        cases r with
        | error e => simp [hs, SenderPC.calling, ICMPTrackerRun.not_serving_of_markSent hm]
        | ok trk => cases hr
      next => cases h
    next =>
      split at h
      next => obtain ⟨io, _, rfl⟩ := Option.map_eq_some_iff.1 h; cases hr
      next => cases h
    next =>
      split at h
      next hs => simp [hs]
      next => cases h
    next =>
      split at h
      next hs => simp [hs]
      next => cases h
    next => cases h
  · simp [show s.snd = .returned from (stepTransceiver_frame h).2 ▸ hr]

/-! ## In every run -/

/-- The channels are open while their senders are there, and only the sending goroutine
closes the tracker. -/
structure Manned (s : PingRun) : Prop where
  lifecycle : s.trk.Lifecycle
  intact : s.io.Intact
  unclosed : s.trk.it.closed = true → s.snd = .closing ∨ s.snd = .returned
  signals : s.ctrlSignals.closed = true → s.ev = .returned

namespace Manned

theorem start : Manned (start config) where
  lifecycle := .new _
  intact := .start
  unclosed := by intro h; cases h
  signals := by intro h; cases h

/-- A step of the tracker that does not close it. -/
theorem trackerMove (h : s.Manned) {b : TrackerAction} {trk : ICMPTrackerRun}
    (hm : ICMPTrackerRun.Move s.trk b trk) (hb : b ≠ .forgetAllAndClose) :
    Manned { s with trk := trk } :=
  { h with
    lifecycle := h.lifecycle.move hm
    unclosed := by rw [hm.it_closed hb]; exact h.unclosed }

/-- The tracker is open while the sending goroutine has not closed it. -/
theorem open_of (h : s.Manned) (hc : s.snd ≠ .closing) (hr : s.snd ≠ .returned) :
    s.trk.it.closed = false := by
  rw [← Bool.not_eq_true]
  intro hcl
  rcases h.unclosed hcl with he | he
  · exact hc he
  · exact hr he

/-- The sending goroutine goes on from a place where the tracker is open. -/
theorem stays_open (h : s.Manned) {pc pc' : SenderPC} (hs : s.snd = pc') (hc : pc' ≠ .closing)
    (hr : pc' ≠ .returned) (hcl : s.trk.it.closed = true) : pc = .closing ∨ pc = .returned := by
  rw [h.open_of (hs ▸ hc) (hs ▸ hr)] at hcl
  cases hcl

theorem move (h : s.Manned) (hm : Move config s a t) : t.Manned := by
  cases hm with
  | tracker hi hst =>
    exact h.trackerMove (ICMPTrackerRun.step_move hst) (by rintro rfl; cases hi)
  | stopped | finished => exact { h with signals := fun _ => rfl }
  | tookEvent he ht =>
    exact
      { h.trackerMove (ICMPTrackerRun.take_move ht).1 (by simp) with
        signals := fun hc => by rw [h.signals hc] at he; cases he }
  | handled he | outputted he | asked he | unfinished he | paused he =>
    exact { h with signals := fun hc => by rw [h.signals hc] at he; cases he }
  | signalled he hc =>
    have hopen := (Chan.send_eq_sent hc).2.2.2.2
    exact { h with signals := fun hcl => by rw [hopen] at hcl; cases hcl }
  | crashed => exact { h with }
  | left => exact { h with unclosed := fun _ => .inr rfl }
  | tookErr hs hi =>
    exact
      { h with
        intact := .of_returned (h.intact.returned_of_recv hi)
        unclosed := fun _ => .inr rfl }
  | tookRunErr hs => exact { h with unclosed := h.stays_open hs (by simp) (by simp) }
  | tookReply hs hi =>
    exact { h with intact := h.intact.pass hi, unclosed := h.stays_open hs (by simp) (by simp) }
  | tookSignal hs hc =>
    exact
      { h with
        unclosed := h.stays_open hs (by simp) (by simp)
        signals := by rw [(Chan.recv_eq_some hc).2.2]; exact h.signals }
  | markedReceived hs hr =>
    have hmv := ICMPTrackerRun.markReceived_move hr
    exact
      { h.trackerMove hmv (by simp) with
        unclosed := by rw [hmv.it_closed (by simp)]; exact h.stays_open hs (by simp) (by simp) }
  | markedSent hs hr =>
    have hmv := ICMPTrackerRun.markSent_move hr
    exact
      { h.trackerMove hmv (by simp) with
        unclosed := by rw [hmv.it_closed (by simp)]; exact h.stays_open hs (by simp) (by simp) }
  | wrote hs hi =>
    exact { h with intact := h.intact.write hi, unclosed := h.stays_open hs (by simp) (by simp) }
  | forgot hs hr =>
    exact
      { h with
        lifecycle := h.lifecycle.move (ICMPTrackerRun.forgetAllAndClose_move hr)
        unclosed := fun _ => .inl rfl }
  | closedCh hs hc =>
    exact { h with lifecycle := h.lifecycle.move (.closed hc), unclosed := fun _ => .inr rfl }
  | replied hi => exact { h with intact := h.intact.reply hi }
  | ioStopped hi => exact { h with intact := .stop hi }

end Manned

/-! ## How the tracker gets lost -/

theorem lost_iff : s.lost config = true ↔
    s.trk.actor = .returned ∨ s.trk.jammed = true ∧ s.deaf config = true := by
  simp [lost]

theorem deaf_iff : s.deaf config = true ↔ s.ev = .returned ∨ s.held config = true := by
  simp [deaf]

/-- A step that leaves tracker and sending goroutine alone can make the event goroutine
leave, and can do nothing else to lose the tracker. -/
theorem left_of_lost (hno : s.lost config = false) (hl : t.lost config = true)
    (htrk : t.trk = s.trk) (hheld : t.held config = true → s.held config = true) :
    s.trk.jammed = true ∧ t.ev = .returned := by
  rw [← Bool.not_eq_true, lost_iff, not_or] at hno
  rcases lost_iff.1 hl with ha | ⟨hj, hd⟩
  · exact absurd (htrk ▸ ha) hno.1
  · rw [htrk] at hj
    rcases deaf_iff.1 hd with he | hh
    · exact ⟨hj, he⟩
    · exact absurd ⟨hj, deaf_iff.2 (.inr (hheld hh))⟩ hno.2

/-- Where the sending goroutine stays, the tracker gets lost by its own step, or the event
goroutine leaves it waiting. -/
theorem lost_of_step (hman : s.Manned) (hst : s.step config a = some t) (hsnd : t.snd = s.snd)
    (hno : s.lost config = false) (hl : t.lost config = true) :
    (∃ b, a = .tracker b ∧ Loses s.trk (s.deaf config) b) ∨
      (∃ i, a = .evTake (.delivery i) ∧ s.trk.jammed = true ∧ s.wouldHold config = true) ∨
      (a = .evCtxDone ∧ s.trk.jammed = true) := by
  have hno' := hno
  rw [← Bool.not_eq_true, lost_iff, not_or] at hno'
  have hgone : ∀ {P : Prop}, s.trk.jammed = false → s.trk.jammed = true → P := fun hf ht => by
    rw [hf] at ht; cases ht
  -- the event goroutine has left
  have hleave : s.trk.jammed = true → t.ev = .returned → a = .evCtxDone ∧ s.trk.jammed = true := by
    intro hj he
    rcases ev_left hst he with he | ha | hc | hn
    · exact absurd ⟨hj, deaf_iff.2 (.inl he)⟩ hno'.2
    · exact ⟨ha, hj⟩
    · exact absurd (hman.lifecycle.closedIff.1 hc) hno'.1
    · obtain ⟨n, hn⟩ := Option.ne_none_iff_exists'.1 hn
      refine hgone (not_jammed_of_answer ?_) hj
      exact (ICMPTrackerRun.getAckedSeq_eq_some hn).imp And.left And.left
  have hmoved : ∀ {P : Prop} {pc pc' : SenderPC}, s.snd = pc → t.snd = pc' → pc' ≠ pc → P :=
    fun hs ht hne => absurd (ht.symm.trans (hsnd.trans hs)) hne
  cases step_move hst with
  | @tracker b trk hi hm =>
    have hno : ¬ (s.trk.actor = .returned ∨ s.trk.jammed = true ∧ s.deaf config = true) :=
      not_or.2 hno'
    exact .inl ⟨b, rfl, loses_of_move (ICMPTrackerRun.step_move hm) hno
      (lost_iff (s := { s with trk := trk }).1 hl)⟩
  | tookEvent he ht =>
    rcases lost_iff.1 hl with ha | ⟨hj, hd⟩
    · rcases returned_of_move (ICMPTrackerRun.take_move ht).1 ha with ha | hb
      · exact absurd ha hno'.1
      · cases hb
    · obtain ⟨hj', i, rfl⟩ := jammed_of_take ht hj
      refine .inr (.inl ⟨i, rfl, hj', ?_⟩)
      rcases deaf_iff.1 hd with he | hh
      · cases he
      · exact held_handling _ _ ▸ hh
  | stopped | finished =>
    obtain ⟨hj, he⟩ := left_of_lost hno hl rfl (fun hh => by cases hh)
    exact .inr (.inr (hleave hj he))
  | handled he | paused he =>
    obtain ⟨_, he'⟩ := left_of_lost hno hl rfl fun hh =>
      (hh.symm.trans (held_onward (s := s) rfl rfl (by rw [he]; rfl) (by rw [he]; rfl))).symm
    cases he'
  | outputted he =>
    obtain ⟨_, he'⟩ := left_of_lost hno hl rfl fun hh => by
      refine (hh.symm.trans (held_onward (s := s) rfl rfl ?_ ?_)).symm
      all_goals cases hn : config.totalPkts.isSome <;> simp [he, EventPC.asks, EventPC.signals]
    cases hn : config.totalPkts.isSome <;> rw [hn] at he' <;> cases he'
  | asked he hn =>
    obtain ⟨hj, _⟩ := left_of_lost hno hl rfl fun _ => held_iff.2 (.inl (by rw [he]; rfl))
    refine hgone (not_jammed_of_answer ?_) hj
    exact (ICMPTrackerRun.getUnAcked_eq_some hn).imp And.left And.left
  | unfinished he hn =>
    obtain ⟨hj, _⟩ := left_of_lost hno hl rfl fun _ => held_iff.2 (.inl (by rw [he]; rfl))
    refine hgone (not_jammed_of_answer ?_) hj
    exact (ICMPTrackerRun.getAckedSeq_eq_some hn).imp And.left And.left
  | signalled =>
    obtain ⟨_, he⟩ := left_of_lost hno hl rfl fun hh => by cases hh
    cases he
  | crashed | replied | ioStopped =>
    obtain ⟨hj, he⟩ := left_of_lost hno hl rfl id
    exact .inr (.inr (hleave hj he))
  | left hs =>
    rw [← show SenderPC.returned = s.snd from hsnd] at hs
    cases hs
  | tookErr hs | tookRunErr hs | tookReply hs | tookSignal hs | markedReceived hs | markedSent hs
  | wrote hs | forgot hs | closedCh hs => exact hmoved hs rfl (by simp)

/-! ## It stays lost -/

/-- The tracker that has returned, and the wait that nobody ends. -/
theorem lost_of_keep (hl : s.lost config = true)
    (hact : s.trk.actor = .returned → t.trk.actor = .returned)
    (hjam : s.trk.jammed = true → s.deaf config = true →
      t.trk.jammed = true ∧ t.deaf config = true) : t.lost config = true := by
  rcases lost_iff.1 hl with ha | ⟨hj, hd⟩
  · exact lost_iff.2 (.inl (hact ha))
  · exact lost_iff.2 (.inr (hjam hj hd))

/-- A tracker that is lost to a call stays lost while the call waits. -/
theorem lost_keep (hm : Move config s a t) (hsnd : t.snd = s.snd) (hl : s.lost config = true) :
    t.lost config = true := by
  have hmoved : ∀ {P : Prop} {pc pc' : SenderPC}, s.snd = pc → t.snd = pc' → pc' ≠ pc → P :=
    fun hs ht hne => absurd (ht.symm.trans (hsnd.trans hs)) hne
  have hgone : ∀ {P : Prop}, s.trk.actor = .select ∨ s.trk.actor = .returned →
      s.trk.jammed = true → P := fun ha hj => by
    rw [not_jammed_of_answer ha] at hj; cases hj
  have honward : ∀ {u : PingRun}, u.trk = s.trk → u.snd = s.snd → u.ctrlSignals = s.ctrlSignals →
      u.ev.asks config.totalPkts.isSome = s.ev.asks config.totalPkts.isSome →
      u.ev.signals config.totalPkts.isSome = s.ev.signals config.totalPkts.isSome →
      s.ev ≠ .returned → u.lost config = true := fun ht hs hq ha hsig hev => by
    refine lost_of_keep hl (fun h => ht ▸ h) fun hj hd => ⟨ht ▸ hj, deaf_iff.2 (.inr ?_)⟩
    exact (held_onward hs hq ha hsig).trans ((deaf_iff.1 hd).resolve_left hev)
  cases hm with
  | tracker hi hst =>
    have hmv := ICMPTrackerRun.step_move hst
    exact lost_of_keep hl hmv.actor_returned fun hj hd =>
      ⟨jammed_keep hj hmv (by rintro _ rfl; cases hi), hd⟩
  | stopped | finished => exact lost_of_keep hl id fun hj _ => ⟨hj, rfl⟩
  | tookEvent he ht =>
    refine lost_of_keep hl (ICMPTrackerRun.take_move ht).1.actor_returned fun _ hd => ?_
    rcases deaf_iff.1 hd with hr | hh
    · rw [he] at hr; cases hr
    · rw [held, he] at hh; cases hh
  | handled he | paused he =>
    exact honward rfl rfl rfl (by rw [he]; rfl) (by rw [he]; rfl) (by rw [he]; simp)
  | outputted he =>
    refine honward rfl rfl rfl ?_ ?_ (by rw [he]; simp)
    all_goals cases hn : config.totalPkts.isSome <;> simp [he, EventPC.asks, EventPC.signals]
  | asked _ hn =>
    exact lost_of_keep hl id fun hj _ =>
      hgone ((ICMPTrackerRun.getUnAcked_eq_some hn).imp And.left And.left) hj
  | unfinished _ hn =>
    exact lost_of_keep hl id fun hj _ =>
      hgone ((ICMPTrackerRun.getAckedSeq_eq_some hn).imp And.left And.left) hj
  | signalled he hc =>
    refine lost_of_keep hl id fun _ hd => ?_
    rcases deaf_iff.1 hd with hr | hh
    · rw [he] at hr; cases hr
    · rcases held_iff.1 hh with ha | ⟨_, hf, _⟩
      · rw [he] at ha; cases ha
      · exact absurd (of_decide_eq_true hf) (Nat.ne_of_lt (Chan.send_eq_sent hc).2.1)
  | crashed | replied | ioStopped => exact hl
  | left hs =>
    rw [← show SenderPC.returned = s.snd from hsnd] at hs
    cases hs
  | tookErr hs | tookRunErr hs | tookReply hs | tookSignal hs | markedReceived hs | markedSent hs
  | wrote hs | forgot hs | closedCh hs => exact hmoved hs rfl (by simp)

/-! ## How the tracker gets ready for a call -/

/-- No packet is passed to the transceiver. -/
def unsending : Policy PingRun PingAction := fun _ a => a.isSend = false

/-- The others have moved, and the tracker serves the next call. -/
structure Readied (config : PingConfig) (s t : PingRun) : Prop where
  reach : (system config).Reach unsending s t
  manned : t.Manned
  alive : t.Alive
  actor : t.trk.actor = .select
  snd : t.snd = s.snd
  io : t.io = s.io
  ctxDone : t.trk.ctxDone = s.trk.ctxDone

theorem Readied.refl (hman : s.Manned) (hal : s.Alive) (ha : s.trk.actor = .select) :
    Readied config s s :=
  ⟨.refl, hman, hal, ha, rfl, rfl, rfl⟩

/-- After a step that is not the sending goroutine's. -/
theorem Readied.head {u : PingRun} (h : Readied config t u) (hst : s.step config a = some t)
    (ha : a.isSend = false) (hsnd : t.snd = s.snd) (hio : t.io = s.io)
    (hc : t.trk.ctxDone = s.trk.ctxDone) : Readied config s u :=
  ⟨.head hst ha h.reach, h.manned, h.alive, h.actor, h.snd.trans hsnd, h.io.trans hio,
    h.ctxDone.trans hc⟩

/-- The event goes into the buffer. -/
theorem readied_of_room (hman : s.Manned) (hal : s.Alive) {q : Int} {ev : ICMPTrackerEntry}
    (ha : s.trk.actor = .emitting q ev) (hf : s.trk.full = false) : ∃ t, Readied config s t := by
  have hopen := hman.lifecycle.open_of (by rw [ha]; simp)
  have hroom : s.trk.recvEvC.buf.length < s.trk.recvEvC.cap :=
    Nat.lt_of_le_of_ne s.trk.recvEvC.fits (of_decide_eq_false hf)
  obtain ⟨c, hc, _⟩ := Chan.send_of_room (x := ev) hopen hroom
  have hst : s.step config (.tracker .emit) =
      some { s with trk := { s.trk.emitted q with recvEvC := c } } := by
    simp [step, hal.1, hal.2, TrackerAction.own, ICMPTrackerRun.step, ICMPTrackerRun.emit, ha, hc]
  exact ⟨_, (Readied.refl (hman.move (step_move hst)) hal rfl).head hst rfl rfl rfl rfl⟩

/-- The event goroutine takes an event from the buffer, or the one the tracker holds. -/
theorem readied_of_select (hman : s.Manned) (hal : s.Alive) (he : s.ev = .select) {q : Int}
    {ev : ICMPTrackerEntry} (ha : s.trk.actor = .emitting q ev) : ∃ t, Readied config s t := by
  cases hbuf : s.trk.recvEvC.buf with
  | nil =>
    have hopen := hman.lifecycle.open_of (by rw [ha]; simp)
    have hmeet := Chan.canMeet_iff.2 ⟨hbuf, hopen⟩
    have hst : s.step config (.evTake .actor) = some
        { s with
          trk := { s.trk.emitted q with taken := s.trk.taken ++ [ev] }, ev := .handling ev } := by
      simp [step, stepEvent, hal.1, hal.2, he, ICMPTrackerRun.take, ha, hmeet]
    exact ⟨_, (Readied.refl (hman.move (step_move hst)) hal rfl).head hst rfl rfl rfl rfl⟩
  | cons x xs =>
    obtain ⟨c, hc, _⟩ := Chan.recv_of_buf hbuf
    have hst : s.step config (.evTake .buffer) = some
        { s with
          trk := { s.trk with recvEvC := c, taken := s.trk.taken ++ [x] }, ev := .handling x } := by
      simp [step, stepEvent, hal.1, hal.2, he, ICMPTrackerRun.take, hc]
    obtain ⟨t, ht⟩ := readied_of_room (hman.move (step_move hst)) hal ha
      (decide_eq_false (Nat.ne_of_lt (Chan.length_lt_of_recv hc)))
    exact ⟨t, ht.head hst rfl rfl rfl rfl⟩

/-- The event goroutine passes its control signal and takes the next event. -/
theorem readied_of_signalling (hman : s.Manned) (hal : s.Alive) {nextTTL : Int}
    (he : s.ev = .signalling nextTTL) (hf : s.signalsFull = false) {q : Int} {ev : ICMPTrackerEntry}
    (ha : s.trk.actor = .emitting q ev) : ∃ t, Readied config s t := by
  have hopen : s.ctrlSignals.closed = false := by
    rw [← Bool.not_eq_true]
    intro hc
    rw [hman.signals hc] at he
    cases he
  have hroom : s.ctrlSignals.buf.length < s.ctrlSignals.cap :=
    Nat.lt_of_le_of_ne s.ctrlSignals.fits (of_decide_eq_false hf)
  obtain ⟨c, hc, _⟩ := Chan.send_of_room (x := ⟨s.numPktsSent + 1, nextTTL, true⟩) hopen hroom
  have hst : s.step config .signal = some { s with ctrlSignals := c, ev := .select } := by
    simp [step, stepEvent, hal.1, hal.2, he, hc]
  obtain ⟨t, ht⟩ := readied_of_select (hman.move (step_move hst)) hal rfl ha
  exact ⟨t, ht.head hst rfl rfl rfl rfl⟩

/-- A tracker that is not lost gets ready for the call of the sending goroutine. -/
theorem readied (hman : s.Manned) (hal : s.Alive) (hcall : s.snd.calling = true)
    (hl : s.lost config = false) : ∃ t, Readied config s t := by
  rw [← Bool.not_eq_true, lost_iff, not_or] at hl
  induction hn : s.ev.ahead using Nat.strong_induction_on generalizing s with
  | _ n ih =>
    cases ha : s.trk.actor with
    | select => exact ⟨s, .refl hman hal ha⟩
    | returned => exact absurd ha hl.1
    | emitting q ev =>
      cases hf : s.trk.full with
      | false => exact readied_of_room hman hal ha hf
      | true =>
        have hj : s.trk.jammed = true := by
          rw [ICMPTrackerRun.jammed, ICMPTrackerRun.atRecvEvC, ha, hf]; rfl
        have hfree : s.ev ≠ .returned ∧ s.held config = false := by
          have hd := not_or.1 fun hd => hl.2 ⟨hj, deaf_iff.2 hd⟩
          exact ⟨hd.1, by simpa using hd.2⟩
        have hgo : 0 < s.ev.ahead → ∃ t, Readied config s t := by
          intro hpos
          obtain ⟨a, t, hact, hst, ho⟩ := advance config hal hpos
          have hns : a.isSend = false := by rcases hact with rfl | rfl | rfl <;> rfl
          have hlt : ¬ t.trk.actor = .returned ∧ ¬ (t.trk.jammed = true ∧ t.deaf config = true) := by
            refine ⟨by rw [ho.trk, ha]; simp, fun hd => ?_⟩
            rcases deaf_iff.1 hd.2 with he | hh
            · exact ho.stays he
            · rw [ho.held, hfree.2] at hh; cases hh
          obtain ⟨u, hu⟩ := ih t.ev.ahead (hn ▸ ho.ahead) (hman.move (step_move hst))
            (ho.alive.2 hal) (ho.snd ▸ hcall) hlt rfl
          exact ⟨u, hu.head hst hns ho.snd ho.io (by rw [ho.trk])⟩
        cases hev : s.ev with
        | select => exact readied_of_select hman hal hev ha
        | returned => exact absurd hev hfree.1
        | handling | outputting | pausing => exact hgo (by rw [hev]; exact Nat.succ_pos _)
        | askingUnAcked | askingAckedSeq =>
          have hh : s.held config = true := held_iff.2 (.inl (by rw [hev]; rfl))
          rw [hfree.2] at hh
          cases hh
        | signalling nextTTL =>
          refine readied_of_signalling hman hal hev ?_ ha
          rw [← Bool.not_eq_true]
          intro hsf
          have hh : s.held config = true := held_iff.2 (.inr ⟨by rw [hev]; rfl, hsf, hcall⟩)
          rw [hfree.2] at hh
          cases hh

end PingRun

end CloudPing.Pinger
