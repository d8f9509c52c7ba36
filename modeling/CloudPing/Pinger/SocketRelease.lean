import CloudPing.Pinger.CrossedWait
import CloudPing.Pinger.LostTracker

/-!
# The socket of a ping is released

The loop of the transceiver looks at the context only at the head of its select.  While it
holds a reply it waits for the sending goroutine, the only reader of `outC`, and the socket
is closed when the loop returns.  So the socket depends on the sending goroutine coming
back to its select while a reply is held.  That one leaves for reasons of its own: the end
of the context, the end of the control signals, an error of the tracker.  It can also be
stuck, in a call of a tracker that is lost or with a packet that nobody takes.

`attended` is the exact condition under which the loop is never left alone with a reply
(`Leaked`).
-/

namespace CloudPing.Pinger

open Conc Raw

/-- The packet the first goroutine holds is never passed while the transceiver takes none. -/
def RateLink.blocked (link : RateLink) : Bool :=
  link.wrapped.isSome &&
    match link.limiter with
    | .select => false
    | .consuming _ | .passing _ => link.forwarding.isSome
    | .returned => true

/-- The sending goroutine has left its loop. -/
def SenderPC.gone : SenderPC → Bool
  | .forgetting | .closing | .returned => true
  | .select | .markingReceived _ | .markingSent _ | .sending _ => false

namespace ThrottledPing

open PingRun Tracked

variable {config : PingConfig} {s t : ThrottledPing} {a : ThrottledAction}

/-- A packet of the sending goroutine is never taken while the transceiver takes none. -/
def blocked (s : ThrottledPing) : Bool :=
  match s.link with
  | none => true
  | some link => link.blocked

/-- The sending goroutine does not receive on `outC` any more while the transceiver waits
there. -/
def unread (config : PingConfig) (s : ThrottledPing) : Bool :=
  match s.run.snd with
  | .select => false
  | .markingReceived _ => s.run.lost config
  | .markingSent _ => s.run.lost config || s.blocked
  | .sending _ => s.blocked
  | .forgetting | .closing | .returned => true

/-- The loop of the transceiver holds a reply that nobody will take. -/
def Leaked (config : PingConfig) (s : ThrottledPing) : Prop :=
  replying s.run.io.pc = true ∧ s.unread config = true

/-- The loop of the transceiver can come to its return, which closes the socket. -/
def CanReturn (config : PingConfig) (limited : Bool) (s : ThrottledPing) : Prop :=
  ∃ t, (system config limited).Reach Policy.any s t ∧ t.run.io.pc = .returned

/-- After the end of the context the socket is not lost. -/
def Freed (config : PingConfig) (limited : Bool) (s : ThrottledPing) : Prop :=
  s.run.trk.ctxDone = true → s.run.Alive → s.CanReturn config limited

/-- A reply is held while the sending goroutine calls the tracker. -/
def passing (s : ThrottledPing) : Bool := replying s.run.io.pc && s.run.snd.calling

/-- The first goroutine of the rate limiter holds a packet. -/
def holds (s : ThrottledPing) : Bool := s.link.any fun link => link.wrapped.isSome

/-- A reply reaches the loop only where it is going to be read.  While the loop holds it,
the sending goroutine leaves its select only for it, or for a control signal whose packet
is going to be passed; the tracker is not lost to a call of the sending goroutine; and the
rate limiter does not leave a packet of it behind. -/
def attended (config : PingConfig) : Policy ThrottledPing ThrottledAction := fun s a =>
  match a with
  | .ping (.reply _) => s.unread config = false
  | .ping .takeSignal =>
    replying s.run.io.pc = false ∨ (s.run.lost config = false ∧ s.blocked = false)
  | .ping .takeRunErr | .ping .sndCtxDone | .ping .signalsClosed => replying s.run.io.pc = false
  | .ping (.tracker .exit) => s.passing = false
  | .ping (.tracker (.handleTimeout seq)) =>
    s.passing = false ∨ s.run.trk.timesOut seq = false ∨ s.run.trk.full = false ∨
      s.run.deaf config = false
  | .ping (.tracker (.deliver _)) =>
    s.passing = false ∨ s.run.trk.atRecvEvC = false ∨ s.run.trk.lastPlace = false ∨
      s.run.deaf config = false
  | .ping (.evTake (.delivery _)) =>
    s.passing = false ∨ s.run.trk.jammed = false ∨ s.run.wouldHold config = false
  | .ping .evCtxDone => s.passing = false ∨ s.run.trk.jammed = false
  | .limiterCtxDone =>
    replying s.run.io.pc = false ∨ s.run.snd.handing = false ∨ s.holds = false
  | _ => True

/-! ## The condition is enough -/

theorem manned {limited : Bool} {ok : Policy ThrottledPing ThrottledAction}
    (h : (system config limited).Reachable ok s) : s.run.Manned := by
  refine h.invariant (I := fun s => s.run.Manned) .start fun s a t hs _ hst => ?_
  cases step_move hst with
  | ping _ hr => exact hs.move (PingRun.step_move hr)
  | wrapped _ hsnd => exact { hs with unclosed := hs.stays_open hsnd (by simp) (by simp) }
  | forwarded _ _ hi => exact { hs with intact := hs.intact.write hi }
  | fed | granted | released | limiterLeft => exact hs

/-- The sending goroutine waits for a tracker that is lost, or with a packet that nobody takes,
or it has left its loop. -/
theorem unread_iff : s.unread config = true ↔
    s.run.snd.calling = true ∧ s.run.lost config = true ∨
      s.run.snd.handing = true ∧ s.blocked = true ∨ s.run.snd.gone = true := by
  unfold unread
  cases s.run.snd <;> simp [SenderPC.calling, SenderPC.handing, SenderPC.gone]

/-- A step of the rate limiter that does not leave a packet behind reads no less. -/
theorem unread_mono (h : t.unread config = true) (hrun : t.run = s.run)
    (hb : t.blocked = true → s.blocked = true) : s.unread config = true := by
  rw [unread_iff] at h ⊢
  rw [hrun] at h
  exact h.imp_right (.imp_left (.imp_right hb))

/-- The sending goroutine stays where it is, and so the tracker must have been lost to it. -/
theorem lost_of_unread {run : PingRun} (hsnd : run.snd = s.run.snd) (h : ¬ s.unread config = true)
    (hun : ({ s with run := run } : ThrottledPing).unread config = true) :
    s.run.snd.calling = true ∧ s.run.lost config = false ∧ run.lost config = true := by
  rw [unread_iff, hsnd] at hun
  rw [unread_iff, not_or] at h
  obtain ⟨hcall, hl⟩ := hun.resolve_right h.2
  exact ⟨hcall, by simpa [hcall] using h.1, hl⟩

/-- The steps of the tracker that `attended` excludes are those that lose it. -/
theorem not_attended_tracker {b : TrackerAction} : ¬ attended config s (.ping (.tracker b)) ↔
    s.passing = true ∧ Loses s.run.trk (s.run.deaf config) b := by
  have hkeeps : attended config s (.ping (.tracker b)) ↔
      Keeps s.run.trk s.passing (s.run.deaf config) b := by
    cases b <;> rfl
  rw [hkeeps, not_keeps_iff]

/-- A step of the pinger, with a reply held. -/
theorem not_leaked_passing (hman : s.run.Manned) {b : PingAction} {run : PingRun}
    (hok : attended config s (.ping b)) (hr : s.run.step config b = some run)
    (hrep : replying s.run.io.pc = true) (h : ¬ s.unread config = true) :
    ¬ ({ s with run := run } : ThrottledPing).Leaked config := by
  rintro ⟨hio, hun⟩
  have hsel : s.run.io.pc ≠ .select := by
    intro he
    rw [he] at hrep
    cases hrep
  have hret : s.run.io.pc ≠ .returned := by
    intro he
    rw [he] at hrep
    cases hrep
  have hfree : ∀ {P : Prop}, replying s.run.io.pc = false → P := fun he => by
    rw [hrep] at he
    cases he
  by_cases hsnd : run.snd = s.run.snd
  · obtain ⟨hcall, hl, hlt⟩ := lost_of_unread hsnd h hun
    have hpass : s.passing = true := Bool.and_eq_true_iff.2 ⟨hrep, hcall⟩
    rcases lost_of_step hman hr hsnd hl hlt with ⟨b, rfl, hlo⟩ | ⟨i, rfl, hj, hw⟩ | ⟨rfl, hj⟩
    · exact not_attended_tracker.2 ⟨hpass, hlo⟩ hok
    · simp [attended, hpass, hj, hw] at hok
    · simp [attended, hpass, hj] at hok
  · rw [unread_iff, not_or, not_or] at h
    cases PingRun.step_move hr with
    | left =>
      have hgone : ∀ {P : Prop} {pc : SenderPC}, s.run.snd = pc → pc.gone = true → P :=
        fun hs hg => absurd (hs ▸ hg) h.2.2
      rcases snd_left hr rfl with hs | hs | hs | rfl | rfl | hp | ⟨err, c, hc⟩ | ⟨hcall, hno⟩
      · exact hgone hs rfl
      · exact hgone hs rfl
      · exact hgone hs rfl
      · exact hfree hok
      · exact hfree hok
      · exact hret hp
      · exact hret (hman.intact.returned_of_recv hc)
      · -- a call that fails is one of a tracker that has returned
        refine hno ⟨fun ha => h.1 ⟨hcall, lost_iff.2 (.inl ha)⟩, hman.open_of ?_ ?_⟩
        · intro hs; rw [hs] at hcall; cases hcall
        · intro hs; rw [hs] at hcall; cases hcall
    | tookErr hs hi => exact hret (hman.intact.returned_of_recv hi)
    | tookRunErr => exact hfree hok
    | tookReply hs hi =>
      rw [show replying _ = false by rw [(TransceiverLoop.pass_pc hi).2]; rfl] at hio
      cases hio
    | tookSignal hs hc =>
      rcases hok with hok | ⟨hl, hb⟩
      · exact hfree hok
      · rcases Bool.or_eq_true_iff.1 hun with hlt | hb'
        · obtain ⟨hj, he⟩ := left_of_lost hl hlt rfl fun hh => held_iff.2 <|
            (held_iff.1 hh).imp_right fun ⟨_, hf, _⟩ =>
              absurd (of_decide_eq_true hf) (Nat.ne_of_lt (Chan.length_lt_of_recv hc))
          rw [lost_iff.2 (.inr ⟨hj, deaf_iff.2 (.inl he)⟩)] at hl
          cases hl
        · rw [show s.blocked = true from hb'] at hb
          cases hb
    | markedReceived => cases hun
    | markedSent hs => exact h.2.1 ⟨by rw [hs]; rfl, hun⟩
    | wrote hs hi => exact hsel (TransceiverLoop.write_pc hi).1
    | forgot hs | closedCh hs => exact h.2.2 (by rw [hs]; rfl)
    | _ => exact hsnd rfl

/-- The loop takes a reply only where it is going to be read. -/
theorem not_leaked_reply {b : PingAction} {run : PingRun} (hok : attended config s (.ping b))
    (hr : s.run.step config b = some run) (hrep : replying s.run.io.pc = false) :
    ¬ ({ s with run := run } : ThrottledPing).Leaked config := by
  rintro ⟨hio, hun⟩
  cases PingRun.step_move hr with
  | replied hi =>
    have hu : s.unread config = true := hun
    rw [show s.unread config = false from hok] at hu
    cases hu
  | tookReply hs hi =>
    rw [show replying _ = false by rw [(TransceiverLoop.pass_pc hi).2]; rfl] at hio
    cases hio
  | wrote hs hi =>
    rcases (TransceiverLoop.write_pc hi).2 with ⟨rfl, _⟩ | hp
    · rw [hrep] at hio; cases hio
    · rw [show replying _ = false by rw [hp]; rfl] at hio; cases hio
  | ioStopped hi =>
    rw [show replying _ = false by rw [(TransceiverLoop.stop_pc hi).2]; rfl] at hio
    cases hio
  | _ =>
    rw [show replying _ = false from hrep] at hio
    cases hio

theorem not_leaked_step (hman : s.run.Manned) (hok : attended config s a)
    (hst : s.step config a = some t) (h : ¬ s.Leaked config) : ¬ t.Leaked config := by
  cases step_move hst with
  | ping _ hr =>
    cases hrep : replying s.run.io.pc with
    | false => exact not_leaked_reply hok hr hrep
    | true => exact not_leaked_passing hman hok hr hrep fun hun => h ⟨hrep, hun⟩
  | wrapped => rintro ⟨_, hun⟩; cases hun
  | fed hl hw hp =>
    rintro ⟨hio, hun⟩
    exact h ⟨hio, unread_mono hun rfl fun hb => by cases hb⟩
  | granted hl hp =>
    rintro ⟨hio, hun⟩
    refine h ⟨hio, unread_mono hun rfl fun hb => ?_⟩
    simp only [blocked, hl, RateLink.blocked, hp] at hb ⊢
    exact hb
  | released hl hp hf =>
    rintro ⟨hio, hun⟩
    refine h ⟨hio, unread_mono hun rfl fun hb => ?_⟩
    simp [blocked, RateLink.blocked] at hb
  | forwarded hl hf hi =>
    rintro ⟨hio, hun⟩
    obtain ⟨hsel, ⟨rfl, _⟩ | hret⟩ := TransceiverLoop.write_pc hi
    · rw [show replying _ = false by rw [hsel]; rfl] at hio; cases hio
    · rw [show replying _ = false by rw [hret]; rfl] at hio; cases hio
  | limiterLeft hl hp hc =>
    rintro ⟨hio, hun⟩
    rcases hok with hok | hok | hok
    · rw [show replying _ = false from hok] at hio; cases hio
    · refine h ⟨hio, unread_iff.2 ((unread_iff.1 hun).imp_right fun hrest => ?_)⟩
      refine .inr (hrest.resolve_left fun hh => ?_)
      rw [show s.run.snd.handing = false from hok] at hh
      cases hh.1
    · refine h ⟨hio, unread_mono hun rfl fun hb => ?_⟩
      simp_all [blocked, RateLink.blocked, holds]

theorem not_leaked {limited : Bool} (h : (system config limited).Reachable (attended config) s) :
    ¬ s.Leaked config :=
  h.invariant_with (I := fun s => ¬ s.Leaked config) (fun _ hr => manned hr)
    (fun hl => by cases hl.1) fun _ _ _ hman hs hok hst => not_leaked_step hman hok hst hs

/-! ## The way to the return -/

/-- A step of the pinger that passes no packet is a step behind the rate limiter. -/
theorem step_ping {b : PingAction} {run : PingRun} (hb : b.isSend = false)
    (hr : s.run.step config b = some run) :
    s.step config (.ping b) = some { s with run := run } := by
  unfold step
  cases s.link <;> simp [hb, hr]

/-- And so is a run of such steps. -/
theorem reach_ping {limited : Bool} {run : PingRun}
    (h : (PingRun.system config).Reach unsending s.run run) :
    (system config limited).Reach Policy.any s { s with run := run } := by
  induction h with
  | refl => exact .refl
  | tail _ hn ih =>
    obtain ⟨b, hb, hst⟩ := hn
    exact ih.tail trivial (step_ping (s := { s with run := _ }) hb hst)

/-- What the loop needs of a state to come to its return. -/
structure Ending (s : ThrottledPing) : Prop where
  manned : s.run.Manned
  alive : s.run.Alive
  ctxDone : s.run.trk.ctxDone = true

namespace CanReturn

variable {limited : Bool}

theorem head (hst : s.step config a = some t) (h : t.CanReturn config limited) :
    s.CanReturn config limited := by
  obtain ⟨u, hr, hu⟩ := h
  exact ⟨u, .head hst trivial hr, hu⟩

/-- From its select the loop takes the end of the context. -/
theorem of_select (h : s.Ending) (hp : s.run.io.pc = .select) : s.CanReturn config limited := by
  obtain ⟨io, hio, hret⟩ := h.manned.intact.stops hp
  have hst : s.run.step config .ioCtxDone = some { s.run with io := io } := by
    simp [PingRun.step, stepTransceiver, h.alive.1, h.alive.2, h.ctxDone, hio]
  exact ⟨_, .head (step_ping rfl hst) trivial .refl, hret⟩

/-- The sending goroutine takes the reply. -/
theorem of_read (h : s.Ending) (hrep : replying s.run.io.pc = true) (hs : s.run.snd = .select) :
    s.CanReturn config limited := by
  cases hp : s.run.io.pc with
  | replying rx =>
    have hst : s.run.step config .takeReply = some
        { s.run with io := { s.run.io with pc := .select }, snd := .markingReceived rx } := by
      simp [PingRun.step, stepSender, h.alive.1, h.alive.2, hs, TransceiverLoop.pass, hp]
    have hend : Ending { s with
        run := { s.run with io := { s.run.io with pc := .select }, snd := .markingReceived rx } } :=
      ⟨h.manned.move (PingRun.step_move hst), h.alive, h.ctxDone⟩
    exact head (step_ping rfl hst) (of_select hend rfl)
  | _ => rw [hp] at hrep; cases hrep

/-- The first goroutine of the rate limiter takes the packet. -/
theorem of_wrap (h : s.Ending) (hrep : replying s.run.io.pc = true) {ctrl : SendControl}
    (hs : s.run.snd = .sending ctrl) {link : RateLink} (hl : s.link = some link)
    (hw : link.wrapped = none) : s.CanReturn config limited := by
  have hst : s.step config .wrap = some
      ⟨{ s.run with snd := .select }, some { link with wrapped := some ctrl }⟩ := by
    simp [step, hl, h.alive.1, h.alive.2, stepLink, hs, hw]
  have hend : Ending ⟨{ s.run with snd := .select }, some { link with wrapped := some ctrl }⟩ :=
    ⟨{ h.manned with unclosed := h.manned.stays_open hs (by simp) (by simp) }, h.alive, h.ctxDone⟩
  exact head hst (of_read hend hrep rfl)

/-- The limiter takes the packet before it. -/
theorem of_feed (h : s.Ending) (hrep : replying s.run.io.pc = true) {ctrl : SendControl}
    (hs : s.run.snd = .sending ctrl) {link : RateLink} (hl : s.link = some link)
    (hp : link.limiter = .select) : s.CanReturn config limited := by
  cases hw : link.wrapped with
  | none => exact of_wrap h hrep hs hl hw
  | some prev =>
    have hst : s.step config .feed = some
        { s with link := some { link with wrapped := none, limiter := .consuming prev } } := by
      simp [step, hl, h.alive.1, h.alive.2, stepLink, hw, hp]
    exact head hst (of_wrap ⟨h.manned, h.alive, h.ctxDone⟩ hrep hs rfl rfl)

/-- The limiter passes on the one it holds. -/
theorem of_release (h : s.Ending) (hrep : replying s.run.io.pc = true) {ctrl : SendControl}
    (hs : s.run.snd = .sending ctrl) {link : RateLink} (hl : s.link = some link)
    {held : SendControl} (hp : link.limiter = .passing held) (hf : link.forwarding = none) :
    s.CanReturn config limited := by
  have hst : s.step config .release = some
      { s with link := some { link with limiter := .select, forwarding := some held } } := by
    simp [step, hl, h.alive.1, h.alive.2, stepLink, hp, hf]
  exact head hst (of_feed ⟨h.manned, h.alive, h.ctxDone⟩ hrep hs rfl rfl)

/-- The rate limiter takes the packet, and the sending goroutine the reply. -/
theorem of_sending (h : s.Ending) (hrep : replying s.run.io.pc = true) {ctrl : SendControl}
    (hs : s.run.snd = .sending ctrl) (hb : s.blocked = false) : s.CanReturn config limited := by
  cases hl : s.link with
  | none => rw [blocked, hl] at hb; cases hb
  | some link =>
    simp only [blocked, hl, RateLink.blocked] at hb
    cases hw : link.wrapped with
    | none => exact of_wrap h hrep hs hl hw
    | some prev =>
      rw [hw, Option.isSome_some, Bool.true_and] at hb
      cases hp : link.limiter with
      | select => exact of_feed h hrep hs hl hp
      | returned => rw [hp] at hb; cases hb
      | passing held =>
        rw [hp] at hb
        exact of_release h hrep hs hl hp (by simpa using hb)
      | consuming held =>
        rw [hp] at hb
        have hst : s.step config .granted = some
            { s with link := some { link with limiter := .passing held } } := by
          simp [step, hl, h.alive.1, h.alive.2, stepLink, hp]
        exact head hst (of_release ⟨h.manned, h.alive, h.ctxDone⟩ hrep hs rfl rfl (by simpa using hb))

/-- The tracker serves the call of the sending goroutine. -/
theorem of_served (h : s.Ending) (hrep : replying s.run.io.pc = true)
    (hcall : s.run.snd.calling = true) (ha : s.run.trk.actor = .select)
    (hb : s.run.snd.handing = true → s.blocked = false) : s.CanReturn config limited := by
  have hserve : s.run.trk.Serving := by
    refine ⟨by rw [ha]; simp, h.manned.open_of ?_ ?_⟩
    · intro hs; rw [hs] at hcall; cases hcall
    · intro hs; rw [hs] at hcall; cases hcall
  cases hs : s.run.snd with
  | markingReceived rx =>
    obtain ⟨trk, hm, hc, hp⟩ := hserve.markReceived ha rx.seq rx 0 0 0
    have hst : s.run.step config (.markReceived 0 0 0) =
        some { s.run with trk := trk, snd := .select } := by
      simp [PingRun.step, stepSender, h.alive.1, h.alive.2, hs, hm, proceed]
    have hend : Ending { s with run := { s.run with trk := trk, snd := .select } } :=
      ⟨h.manned.move (PingRun.step_move hst), ⟨h.alive.1, hp.trans h.alive.2⟩, hc.trans h.ctxDone⟩
    exact head (step_ping rfl hst) (of_read hend hrep rfl)
  | markingSent ctrl =>
    obtain ⟨trk, hm, hc, hp⟩ := hserve.markSent ha ctrl.seq ctrl.ttl (some config.dst) 0
    have hst : s.run.step config (.markSent 0) =
        some { s.run with trk := trk, snd := .sending ctrl } := by
      simp [PingRun.step, stepSender, h.alive.1, h.alive.2, hs, hm, proceed]
    have hend : Ending { s with run := { s.run with trk := trk, snd := .sending ctrl } } :=
      ⟨h.manned.move (PingRun.step_move hst), ⟨h.alive.1, hp.trans h.alive.2⟩, hc.trans h.ctxDone⟩
    exact head (step_ping rfl hst) (of_sending hend hrep rfl (hb (by rw [hs]; rfl)))
  | _ => rw [hs] at hcall; cases hcall

/-- The sending goroutine comes back to its select for the reply. -/
theorem of_replying (h : s.Ending) (hrep : replying s.run.io.pc = true)
    (hun : ¬ s.unread config = true) : s.CanReturn config limited := by
  rw [unread_iff, not_or, not_or] at hun
  have hb : s.run.snd.handing = true → s.blocked = false := fun hh => by
    rw [← Bool.not_eq_true]
    exact fun hb => hun.2.1 ⟨hh, hb⟩
  by_cases hcall : s.run.snd.calling = true
  · -- the others get the tracker ready first
    have hl : s.run.lost config = false := by
      rw [← Bool.not_eq_true]
      exact fun hl => hun.1 ⟨hcall, hl⟩
    obtain ⟨run, hr⟩ := readied h.manned h.alive hcall hl
    have hend : Ending { s with run := run } :=
      ⟨hr.manned, hr.alive, hr.ctxDone.trans h.ctxDone⟩
    have hgo : CanReturn config limited { s with run := run } :=
      of_served hend (by rw [hr.io]; exact hrep) (by rw [hr.snd]; exact hcall) hr.actor
        (by rw [hr.snd]; exact hb)
    obtain ⟨u, hu, hret⟩ := hgo
    exact ⟨u, (reach_ping hr.reach).trans hu, hret⟩
  · cases hs : s.run.snd with
    | select => exact of_read h hrep hs
    | sending ctrl => exact of_sending h hrep hs (hb (by rw [hs]; rfl))
    | markingReceived | markingSent => exact absurd (by rw [hs]; rfl) hcall
    | forgetting | closing | returned => exact absurd (by rw [hs]; rfl) hun.2.2

end CanReturn

theorem freed {limited : Bool} (h : (system config limited).Reachable (attended config) s) :
    s.Freed config limited := by
  intro hc hal
  have hend : s.Ending := ⟨manned h, hal, hc⟩
  cases hp : s.run.io.pc with
  | select => exact .of_select hend hp
  | returned => exact ⟨s, .refl, hp⟩
  | replying rx =>
    have hrep : replying s.run.io.pc = true := by rw [hp]; rfl
    exact .of_replying hend hrep fun hun => not_leaked h ⟨hrep, hun⟩

/-! ## The condition is needed -/

/-- Where the sending goroutine stays and the tracker stays lost, nothing is read. -/
theorem unread_keep {run : PingRun} (hsnd : run.snd = s.run.snd)
    (hl : s.run.lost config = true → run.lost config = true) (h : s.unread config = true) :
    ({ s with run := run } : ThrottledPing).unread config = true := by
  rw [unread_iff] at h ⊢
  rw [hsnd]
  exact h.imp_left (.imp_right hl)

namespace Leaked

/-- A step of the pinger takes no reply that nobody reads. -/
theorem keep_ping (h : s.Leaked config) {b : PingAction} {run : PingRun}
    (hr : s.run.step config b = some run) :
    ({ s with run := run } : ThrottledPing).Leaked config := by
  obtain ⟨hio, hun⟩ := h
  have hsel : ∀ {P : Prop}, s.run.io.pc = .select → P := fun he => by
    rw [he] at hio; cases hio
  have hread : ∀ {P : Prop}, s.run.snd = .select → P := fun he => by
    rw [unread, he] at hun; cases hun
  have hm := PingRun.step_move hr
  by_cases hsnd : run.snd = s.run.snd
  · refine ⟨?_, unread_keep hsnd (lost_keep hm hsnd) hun⟩
    cases hm with
    | tookErr hs | tookReply hs => exact hread hs
    | wrote _ hi => exact hsel (TransceiverLoop.write_pc hi).1
    | replied hi => exact hsel (TransceiverLoop.reply_pc hi).1
    | ioStopped hi => exact hsel (TransceiverLoop.stop_pc hi).1
    | _ => exact hio
  · have hserved : ∀ {P : Prop}, s.run.lost config = true → s.run.trk.actor = .select → P :=
      fun hl ha => by
        rcases lost_iff.1 hl with hret | ⟨hj, _⟩
        · rw [ha] at hret; cases hret
        · rw [not_jammed_of_answer (.inl ha)] at hj; cases hj
    cases hm with
    | left => exact ⟨hio, rfl⟩
    | tookErr hs | tookRunErr hs | tookReply hs | tookSignal hs => exact hread hs
    | markedReceived hs hmk =>
      rw [unread, hs] at hun
      exact hserved hun (ICMPTrackerRun.serve_map_ok hmk).1
    | markedSent hs hmk =>
      rw [unread, hs] at hun
      rcases Bool.or_eq_true_iff.1 hun with hl | hb
      · exact hserved hl (ICMPTrackerRun.serve_map_ok hmk).1
      · exact ⟨hio, hb⟩
    | wrote _ hi => exact hsel (TransceiverLoop.write_pc hi).1
    | forgot | closedCh => exact ⟨hio, rfl⟩
    | _ => exact absurd rfl hsnd

theorem keep (h : s.Leaked config) (hst : s.step config a = some t) : t.Leaked config := by
  obtain ⟨hio, hun⟩ := h
  have hkeep : t.run = s.run → (s.blocked = true → t.blocked = true) → t.Leaked config :=
    fun hrun hb => ⟨hrun ▸ hio, unread_mono hun hrun.symm hb⟩
  cases step_move hst with
  | ping _ hr => exact keep_ping ⟨hio, hun⟩ hr
  | wrapped hl hs hw =>
    rw [unread, hs] at hun
    simp [blocked, hl, RateLink.blocked, hw] at hun
  | fed hl hw hp =>
    exact hkeep rfl fun hb => by simp [blocked, hl, RateLink.blocked, hp] at hb
  | granted hl hp =>
    refine hkeep rfl fun hb => ?_
    simp only [blocked, hl, RateLink.blocked, hp] at hb
    exact hb
  | released hl hp hf =>
    exact hkeep rfl fun hb => by simp [blocked, hl, RateLink.blocked, hp, hf] at hb
  | forwarded _ _ hi =>
    rw [(TransceiverLoop.write_pc hi).1] at hio
    cases hio
  | limiterLeft hl hp =>
    exact hkeep rfl fun hb => by simp [blocked, hl, RateLink.blocked, hp] at hb

/-- The loop holds its reply for ever, and so the socket stays open. -/
theorem forever {limited : Bool} (h : s.Leaked config)
    (hr : (system config limited).Reach Policy.any s t) : t.Leaked config :=
  hr.induct h fun _ _ _ hs _ hst => hs.keep hst

theorem not_canReturn {limited : Bool} (h : s.Leaked config) : ¬ s.CanReturn config limited := by
  rintro ⟨t, hr, hret⟩
  have hio := (h.forever hr).1
  rw [hret] at hio
  cases hio

end Leaked

/-- The tracker is lost while a reply is held for its caller. -/
theorem leaked_of_lost {run : PingRun} (hp : s.passing = true) (hsnd : run.snd = s.run.snd)
    (hio : run.io = s.run.io) (hl : run.lost config = true) :
    ({ s with run := run } : ThrottledPing).Leaked config := by
  obtain ⟨hrep, hcall⟩ := Bool.and_eq_true_iff.1 hp
  exact ⟨by rw [hio]; exact hrep, unread_iff.2 (.inl ⟨by rw [hsnd]; exact hcall, hl⟩)⟩

/-- A step of the pinger that `attended` excludes. -/
theorem leaked_of_ping (hman : s.run.Manned) {b : PingAction} {run : PingRun}
    (hr : s.run.step config b = some run) (hno : ¬ attended config s (.ping b)) :
    ({ s with run := run } : ThrottledPing).Leaked config ∧ run.Alive := by
  have hal := PingRun.alive_of_step hr
  have hgo := hr
  rw [PingRun.step.eq_def, if_neg (by simp [hal.1, hal.2])] at hgo
  cases b with
  | tracker b =>
    obtain ⟨hp, hlo⟩ := not_attended_tracker.1 hno
    obtain ⟨_, hgo⟩ := Option.ite_none_right_eq_some.1 hgo
    obtain ⟨trk, hst, rfl⟩ := Option.map_eq_some_iff.1 hgo
    obtain ⟨hl, hpan⟩ := hlo.lost hman.lifecycle hst
    exact ⟨leaked_of_lost hp rfl rfl (lost_iff.2 hl), hal.1, hpan⟩
  | evTake src =>
    cases src with
    | delivery i =>
      simp only [attended, not_or, Bool.not_eq_false] at hno
      obtain ⟨hp, hj, hw⟩ := hno
      obtain ⟨_, hgo⟩ := Option.ite_none_right_eq_some.1 hgo
      obtain ⟨⟨ev, trk⟩, htake, rfl⟩ := Option.map_eq_some_iff.1 hgo
      simp only [ICMPTrackerRun.take] at htake
      split at htake
      next =>
        cases htake
        refine ⟨leaked_of_lost hp rfl rfl (lost_iff.2 (.inr ⟨hj, ?_⟩)), hal⟩
        exact deaf_iff.2 (.inr ((held_handling _ _).trans hw))
      next => cases htake
    | _ => exact absurd trivial hno
  | evCtxDone =>
    simp only [attended, not_or, Bool.not_eq_false] at hno
    obtain ⟨hp, hj⟩ := hno
    obtain ⟨_, hgo⟩ := Option.ite_none_right_eq_some.1 hgo
    obtain ⟨c, _, rfl⟩ := Option.map_eq_some_iff.1 hgo
    exact ⟨leaked_of_lost hp rfl rfl (lost_iff.2 (.inr ⟨hj, rfl⟩)), hal⟩
  | takeSignal =>
    simp only [attended, not_or, Bool.not_eq_false, not_and_or] at hno
    obtain ⟨hrep, hb⟩ := hno
    obtain ⟨hsel, hgo⟩ := Option.ite_none_right_eq_some.1 hgo
    obtain ⟨⟨ctrl, c⟩, hc, rfl⟩ := Option.map_eq_some_iff.1 hgo
    refine ⟨⟨hrep, ?_⟩, hal⟩
    rcases hb with hl | hb
    · refine unread_iff.2 (.inl ⟨rfl, lost_of_keep hl id fun hj hd => ⟨hj, ?_⟩⟩)
      -- the sending goroutine was not in a call, and no signal waited for it
      rcases deaf_iff.1 hd with hr | hh
      · exact deaf_iff.2 (.inl hr)
      · refine deaf_iff.2 (.inr (held_iff.2 (.inl ?_)))
        rcases held_iff.1 hh with ha | ⟨_, _, hcall⟩
        · exact ha
        · rw [hsel] at hcall; cases hcall
    · exact unread_iff.2 (.inr (.inl ⟨rfl, hb⟩))
  | reply rx =>
    simp only [attended, Bool.not_eq_false] at hno
    obtain ⟨io, hi, rfl⟩ := Option.map_eq_some_iff.1 hgo
    refine ⟨⟨?_, hno⟩, hal⟩
    show replying io.pc = true
    rw [(TransceiverLoop.reply_pc hi).2]
    rfl
  | takeRunErr | sndCtxDone | signalsClosed =>
    simp only [attended, Bool.not_eq_false] at hno
    obtain ⟨_, hgo⟩ := Option.ite_none_right_eq_some.1 hgo
    cases hgo
    exact ⟨⟨hno, rfl⟩, hal⟩
  | _ => exact absurd trivial hno

/-- A step that `attended` excludes leaves the loop alone with a reply. -/
theorem leaked_of_not_attended (hman : s.run.Manned) (hst : s.step config a = some t)
    (hno : ¬ attended config s a) : t.Leaked config ∧ t.run.Alive := by
  have hgo := hst
  cases a with
  | ping b =>
    cases step_move hst with
    | ping _ hr => exact leaked_of_ping hman hr hno
  | limiterCtxDone =>
    simp only [attended, not_or, Bool.not_eq_false] at hno
    obtain ⟨hrep, hh, hw⟩ := hno
    cases step_move hst with
    | limiterLeft hl hp =>
      rw [holds, hl] at hw
      refine ⟨⟨hrep, unread_iff.2 (.inr (.inl ⟨hh, ?_⟩))⟩, ?_⟩
      · show RateLink.blocked _ = true
        rw [RateLink.blocked]
        exact Bool.and_eq_true_iff.2 ⟨hw, rfl⟩
      · simp only [step, hl] at hgo
        simpa [PingRun.Alive] using (Option.ite_none_left_eq_some.1 hgo).1
  | _ => exact absurd trivial hno

/-- After the end of the context a loop that is left alone is not freed. -/
theorem not_freed_of_leaked {limited : Bool} (h : s.Leaked config) (hal : s.run.Alive) :
    ∃ u, (system config limited).Reach (attended config) s u ∧ ¬ u.Freed config limited := by
  cases hc : s.run.trk.ctxDone with
  | true => exact ⟨s, .refl, fun hf => h.not_canReturn (hf hc hal)⟩
  | false =>
    have hst : s.run.step config (.tracker .cancel) =
        some { s.run with trk := { s.run.trk with ctxDone := true } } := by
      simp [PingRun.step, hal.1, hal.2, hc, TrackerAction.own, ICMPTrackerRun.step]
    have hst := step_ping rfl hst
    exact ⟨_, .head hst trivial .refl, fun hf => (h.keep hst).not_canReturn (hf rfl hal)⟩

/-- `attended` is the exact condition under which the socket is released. -/
theorem guards (config : PingConfig) (limited : Bool) :
    (system config limited).Guards (attended config) (Freed config limited) where
  safe := fun _ hr => freed hr
  tight := by
    intro s a t hr hst hno
    obtain ⟨hleak, hal⟩ := leaked_of_not_attended (manned hr) hst hno
    exact not_freed_of_leaked hleak hal

end ThrottledPing

end CloudPing.Pinger
