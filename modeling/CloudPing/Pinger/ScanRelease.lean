import CloudPing.Pinger.ScanProgress
import CloudPing.Pinger.SocketRelease

/-!
# The sockets are released

A block scan reads `outC` in a goroutine of its own, which leaves its select for the context
only.  The rest is as for a ping: the call that passes a reply to the tracker is served
where the tracker is not lost, and the tracker waits for the drain goroutine.  That one
returns after the context, and it panics at a `Done` of the empty group or at a send on the
closed `ch`.

`ScanRun.attended` is the condition for a scan.  With `ThrottledPing.attended` it gives the
exact conditions under which no run leaves a socket open.
-/

namespace CloudPing.Pinger

open Conc Raw

/-- The receiving goroutine is in a call of the tracker. -/
def ReceiverPC.calling : ReceiverPC → Bool
  | .markingReceived _ => true
  | .select | .returned => false

namespace ScanRun

open Tracked

variable {config : ScanConfig} {s t : ScanRun} {a : ScanAction}

/-- No packet is in the group, and none is being added. -/
def groupEmpty (s : ScanRun) : Bool := s.inFlight + s.main.addingOne = 0

/-- The drain goroutine does not come back to `RecvEvC`. -/
def deaf (s : ScanRun) : Bool :=
  match s.drain with
  | .receiving => false
  | .forwarding _ => s.chClosed || s.groupEmpty
  | .settling _ => s.groupEmpty
  | .returned => true

/-- No call of the tracker succeeds any more. -/
def lost (s : ScanRun) : Bool := s.trk.actor = .returned || (s.trk.jammed && s.deaf)

/-- The receiving goroutine does not receive on `outC` any more. -/
def unread (s : ScanRun) : Bool :=
  match s.rx with
  | .select => false
  | .markingReceived _ => s.lost
  | .returned => true

/-- The loop of the transceiver holds a reply that nobody will take. -/
def Leaked (s : ScanRun) : Prop := replying s.io.pc = true ∧ s.unread = true

/-- The loop of the transceiver can come to its return, which closes the socket. -/
def CanReturn (config : ScanConfig) (s : ScanRun) : Prop :=
  ∃ t, (system config).Reach Policy.any s t ∧ t.io.pc = .returned

/-- After the end of the context the socket is not lost. -/
def Freed (config : ScanConfig) (s : ScanRun) : Prop :=
  s.trk.ctxDone = true → s.Alive → s.CanReturn config

/-- A reply is held while the receiving goroutine calls the tracker. -/
def passing (s : ScanRun) : Bool := replying s.io.pc && s.rx.calling

/-- A reply reaches the loop only where it is going to be read, and the receiving goroutine
does not leave it there.  While the one waits for the other, the tracker does not return, does
not begin to wait for a drain goroutine that does not come back, and is not left by one that
it waits for. -/
def attended : Policy ScanRun ScanAction := fun s a =>
  match a with
  | .reply _ => s.unread = false
  | .rxCtxDone => replying s.io.pc = false
  | .tracker .exit => s.passing = false
  | .tracker (.handleTimeout seq) =>
    s.passing = false ∨ s.trk.timesOut seq = false ∨ s.trk.full = false ∨ s.deaf = false
  | .tracker (.deliver _) =>
    s.passing = false ∨ s.trk.atRecvEvC = false ∨ s.trk.lastPlace = false ∨ s.deaf = false
  | .drainTake (.delivery _) =>
    s.passing = false ∨ s.trk.jammed = false ∨ (s.chClosed = false ∧ s.groupEmpty = false)
  | .drainCtxDone => s.passing = false ∨ s.trk.jammed = false
  | .close => s.passing = false ∨ s.trk.jammed = false ∨ ∀ ev, s.drain ≠ .forwarding ev
  | _ => True

/-! ## How the tracker gets lost, and stays so -/

theorem lost_iff : s.lost = true ↔
    s.trk.actor = .returned ∨ s.trk.jammed = true ∧ s.deaf = true := by
  simp [lost]

/-- What is said of the drain goroutine depends on its place, on `ch` and on the group. -/
theorem deaf_congr (hd : t.drain = s.drain) (hc : t.chClosed = s.chClosed)
    (hg : t.groupEmpty = s.groupEmpty) : t.deaf = s.deaf := by
  unfold deaf
  rw [hd, hc, hg]

/-- A step that touches neither the tracker nor what the drain goroutine depends on. -/
theorem lost_congr (htrk : t.trk = s.trk) (hd : t.deaf = s.deaf) : t.lost = s.lost := by
  rw [lost, lost, htrk, hd]

/-- A step of the main loop, which adds no packet to the group and takes none from it. -/
theorem lost_of_main (htrk : t.trk = s.trk) (hd : t.drain = s.drain) (hc : t.chClosed = s.chClosed)
    (hn : t.inFlight + t.main.addingOne = s.inFlight + s.main.addingOne) : t.lost = s.lost := by
  refine lost_congr htrk (deaf_congr hd hc ?_)
  rw [groupEmpty, groupEmpty, hn]

/-- The main loop leaves from a place where it adds no packet. -/
theorem addingOne_of_canEnd {pc : ScanPC} (h : pc.canEnd = true) : pc.addingOne = 0 := by
  cases pc <;> first | rfl | cases h

/-- A packet that is being added keeps the drain goroutine from an empty group. -/
theorem deaf_of_adding {trk : ICMPTrackerRun} {req : ICMPSendRequest}
    (h : deaf { s with trk := trk, main := .adding req } = true) : s.deaf = true := by
  unfold deaf at h ⊢
  cases hd : s.drain <;> simp_all [groupEmpty, ScanPC.addingOne]

/-- The tracker gets lost by its own step, or the drain goroutine leaves it waiting. -/
theorem lost_of_step (hs : s.Orderly) (hst : s.step a = some t) (hno : s.lost = false)
    (hl : t.lost = true) :
    (∃ b, a = .tracker b ∧ Loses s.trk s.deaf b) ∨
      (∃ i, a = .drainTake (.delivery i) ∧ s.trk.jammed = true ∧
        (s.chClosed || s.groupEmpty) = true) ∨
      (a = .drainCtxDone ∧ s.trk.jammed = true) ∨
      (a = .close ∧ s.trk.jammed = true ∧ ∃ ev, s.drain = .forwarding ev) := by
  have hno' := hno
  rw [← Bool.not_eq_true, lost_iff, not_or] at hno'
  have hsame : ∀ {P : Prop}, t.lost = s.lost → P := fun he => by
    rw [he, hno] at hl; cases hl
  -- where the tracker stays as it is, it waits for the drain goroutine
  have hdeaf : t.trk = s.trk → s.trk.jammed = true ∧ t.deaf = true := fun ht => by
    rcases lost_iff.1 hl with ha | ⟨hj, hd⟩
    · exact absurd (ht ▸ ha) hno'.1
    · exact ⟨ht ▸ hj, hd⟩
  have hloses : ∀ {b}, ICMPTrackerRun.Move s.trk b t.trk → (t.deaf = true → s.deaf = true) →
      Loses s.trk t.deaf b := fun hm hd =>
    loses_of_move hm (not_or.2 ⟨hno'.1, fun ⟨hj, h⟩ => hno'.2 ⟨hj, hd h⟩⟩) (lost_iff.1 hl)
  cases step_move hst with
  | @tracker b trk hi hm => exact .inl ⟨b, rfl, hloses (ICMPTrackerRun.step_move hm) id⟩
  | markedReceived _ hr => cases hloses (ICMPTrackerRun.markReceived_move hr) id
  | markedSent _ hr => cases hloses (ICMPTrackerRun.markSent_move hr) deaf_of_adding
  | rejected hm | sentErr hm | tookAddress hm | added hm | passed hm | woke hm | settledAll hm
  | gaveUp hm =>
    exact hsame (lost_of_main rfl rfl rfl (by rw [hm]; rfl))
  | ended hm => exact hsame (lost_of_main rfl rfl rfl (by rw [addingOne_of_canEnd hm]; rfl))
  | launched | settled => cases (hdeaf rfl).2
  | closed hm =>
    obtain ⟨hj, hd⟩ := hdeaf rfl
    cases hdr : s.drain with
    | forwarding ev => exact .inr (.inr (.inr ⟨rfl, hj, ev, rfl⟩))
    | receiving => simp only [deaf, hdr] at hd; cases hd
    | settling | returned =>
      refine absurd ⟨hj, ?_⟩ hno'.2
      simp_all [deaf, groupEmpty, ScanPC.addingOne]
  | drainTook hd ht =>
    rcases lost_iff.1 hl with ha | ⟨hj, hdf⟩
    · rcases returned_of_move (ICMPTrackerRun.take_move ht).1 ha with ha | hb
      · exact absurd ha hno'.1
      · cases hb
    · obtain ⟨hj', i, rfl⟩ := jammed_of_take ht hj
      exact .inr (.inl ⟨i, rfl, hj', hdf⟩)
  | drainLeft hd =>
    obtain ⟨hj, _⟩ := hdeaf rfl
    rcases drain_left hst rfl with hr | ⟨ha, _⟩ | hc
    · refine absurd ⟨hj, ?_⟩ hno'.2
      rw [deaf, hr]
    · exact .inr (.inr (.inl ⟨ha, hj⟩))
    · exact absurd (hs.lifecycle.closedIff.1 hc) hno'.1
  | forwarded hd =>
    obtain ⟨hj, hg⟩ := hdeaf rfl
    refine absurd ⟨hj, ?_⟩ hno'.2
    rw [deaf, hd]
    exact Bool.or_eq_true_iff.2 (.inr hg)
  | _ => exact hsame rfl

/-- A tracker that is lost stays so. -/
theorem lost_keep (hm : Move s a t) (hne : s.main ≠ .setup) (hl : s.lost = true) :
    t.lost = true := by
  have hsame : t.lost = s.lost → t.lost = true := fun he => he.trans hl
  have hserved : ∀ {P : Prop}, s.trk.actor = .select → P := fun ha => by
    rcases lost_iff.1 hl with hr | ⟨hj, _⟩
    · rw [ha] at hr; cases hr
    · rw [not_jammed_of_select ha] at hj; cases hj
  -- a tracker that has returned, where the drain goroutine is not the one to blame
  have hret : s.deaf = false → (s.trk.actor = .returned → t.trk.actor = .returned) →
      t.lost = true := fun hd ht => by
    rcases lost_iff.1 hl with ha | ⟨_, hd'⟩
    · exact lost_iff.2 (.inl (ht ha))
    · rw [hd] at hd'; cases hd'
  have hmono : t.trk = s.trk → (s.deaf = true → t.deaf = true) → t.lost = true := fun ht hd => by
    rcases lost_iff.1 hl with ha | ⟨hj, hd'⟩
    · exact lost_iff.2 (.inl (ht ▸ ha))
    · exact lost_iff.2 (.inr ⟨ht ▸ hj, hd hd'⟩)
  cases hm with
  | tracker hi hst =>
    have hmv := ICMPTrackerRun.step_move hst
    rcases lost_iff.1 hl with ha | ⟨hj, hd⟩
    · exact lost_iff.2 (.inl (hmv.actor_returned ha))
    · exact lost_iff.2 (.inr ⟨jammed_keep hj hmv (by rintro _ rfl; cases hi), hd⟩)
  | markedSent _ hr => exact hserved (ICMPTrackerRun.serve_map_ok hr).1
  | markedReceived _ hr => exact hserved (ICMPTrackerRun.serve_map_ok hr).1
  | rejected hm | sentErr hm | tookAddress hm | added hm | passed hm | woke hm | settledAll hm
  | gaveUp hm =>
    exact hsame (lost_of_main rfl rfl rfl (by rw [hm]; rfl))
  | ended hm => exact hsame (lost_of_main rfl rfl rfl (by rw [addingOne_of_canEnd hm]; rfl))
  | launched hm => exact absurd hm hne
  | closed hm =>
    refine hmono rfl fun hd => ?_
    unfold deaf groupEmpty at hd ⊢
    cases hdr : s.drain <;> simp_all [ScanPC.addingOne]
  | drainTook hd ht =>
    exact hret (by rw [deaf, hd]) (ICMPTrackerRun.take_move ht).1.actor_returned
  | drainLeft => exact hmono rfl fun _ => rfl
  | forwarded hd hc =>
    refine hmono rfl fun h => ?_
    rw [deaf, hd, hc] at h
    exact h
  | settled hd hn =>
    refine hret ?_ id
    simp [deaf, hd, groupEmpty, hn]
  | _ => exact hsame rfl

/-! ## The condition is enough -/

/-- The transceiver of a scan that has still to be launched has not been started. -/
theorem unstarted {ok : Policy ScanRun ScanAction} (h : (system config).Reachable ok s)
    (hm : s.main = .setup) : s.io.pc = .returned := by
  refine h.invariant (I := fun s => s.main = .setup → s.io.pc = .returned) (fun _ => rfl)
    (fun s a t hs _ hst hm => ?_) hm
  cases step_move hst with
  | rejected | sentErr | launched | ended | tookAddress | markedSent | added | passed | woke
  | settledAll | gaveUp | closed => cases hm
  | tookReply _ hi =>
    have hp := hs hm
    rw [(TransceiverLoop.pass_pc hi).1] at hp
    cases hp
  | replied hi =>
    have hp := hs hm
    rw [(TransceiverLoop.reply_pc hi).1] at hp
    cases hp
  | ioStopped hi => exact (TransceiverLoop.stop_pc hi).2
  | _ => exact hs hm

/-- The receiving goroutine waits for a tracker that is lost, or it has returned. -/
theorem unread_iff : s.unread = true ↔
    s.rx.calling = true ∧ s.lost = true ∨ s.rx = .returned := by
  unfold unread
  cases s.rx <;> simp [ReceiverPC.calling]

/-- The receiving goroutine stays where it is, and so the tracker must have been lost to it. -/
theorem lost_of_unread (hrx : t.rx = s.rx) (h : ¬ s.unread = true) (hun : t.unread = true) :
    s.rx.calling = true ∧ s.lost = false ∧ t.lost = true := by
  rw [unread_iff, hrx] at hun
  rw [unread_iff, not_or] at h
  obtain ⟨hcall, hl⟩ := hun.resolve_right h.2
  exact ⟨hcall, by simpa [hcall] using h.1, hl⟩

/-- The steps of the tracker that `attended` excludes are those that lose it. -/
theorem not_attended_tracker {b : TrackerAction} : ¬ attended s (.tracker b) ↔
    s.passing = true ∧ Loses s.trk s.deaf b := by
  have hkeeps : attended s (.tracker b) ↔ Keeps s.trk s.passing s.deaf b := by cases b <;> rfl
  rw [hkeeps, not_keeps_iff]

/-- A step with a reply held. -/
theorem not_leaked_passing (hs : s.Orderly) (hstaff : s.Staffed) (hok : attended s a)
    (hst : s.step a = some t) (hrep : replying s.io.pc = true) (h : ¬ s.unread = true) :
    ¬ t.Leaked := by
  rintro ⟨hio, hun⟩
  have hret : s.io.pc ≠ .returned := by
    intro he
    rw [he] at hrep
    cases hrep
  by_cases hrx : t.rx = s.rx
  · obtain ⟨hcall, hl, hlt⟩ := lost_of_unread hrx h hun
    have hpass : s.passing = true := Bool.and_eq_true_iff.2 ⟨hrep, hcall⟩
    rcases lost_of_step hs hst hl hlt with ⟨b, rfl, hlo⟩ | ⟨i, rfl, hj, hw⟩ | ⟨rfl, hj⟩ |
      ⟨rfl, hj, ev, hd⟩
    · exact not_attended_tracker.2 ⟨hpass, hlo⟩ hok
    · rw [Bool.or_eq_true_iff] at hw
      simp only [attended, hpass, hj] at hok
      rcases hok with hok | hok | ⟨hc, hg⟩
      · cases hok
      · cases hok
      · simp [hc, hg] at hw
    · simp [attended, hpass, hj] at hok
    · simp [attended, hpass, hj, hd] at hok
  · rw [unread_iff, not_or] at h
    cases hr : t.rx with
    | select => rw [unread, hr] at hun; cases hun
    | returned =>
      rcases rx_left hst hr with hr' | ⟨rfl, _⟩ | hp | ⟨err, c, hc⟩ | ⟨⟨rx, hrx'⟩, hno⟩
      · exact h.2 hr'
      · rw [show replying s.io.pc = false from hok] at hrep; cases hrep
      · exact hret hp
      · exact hret (hstaff.intact.returned_of_recv hc)
      · -- a call that fails is one of a tracker that has returned
        refine hno ⟨fun ha => h.1 ⟨by rw [hrx']; rfl, lost_iff.2 (.inl ha)⟩, hstaff.trk.unclosed⟩
    | markingReceived rx =>
      cases step_move hst with
      | tookReply _ hi =>
        rw [show replying _ = false by rw [(TransceiverLoop.pass_pc hi).2]; rfl] at hio
        cases hio
      | launched | rxLeft | tookErr | markedReceived => cases hr
      | _ => exact hrx rfl

/-- The loop takes a reply only where it is going to be read. -/
theorem not_leaked_reply (hok : attended s a) (hst : s.step a = some t)
    (hrep : replying s.io.pc = false) : ¬ t.Leaked := by
  rintro ⟨hio, hun⟩
  have hsel : ∀ {P : Prop}, t.io.pc = .select → P := fun he => by rw [he] at hio; cases hio
  have hret : ∀ {P : Prop}, t.io.pc = .returned → P := fun he => by rw [he] at hio; cases hio
  cases step_move hst with
  | launched => exact hsel rfl
  | passed _ hi =>
    obtain ⟨hp, ⟨rfl, _⟩ | hp'⟩ := TransceiverLoop.write_pc hi
    · exact hsel hp
    · exact hret hp'
  | tookReply _ hi => exact hsel (TransceiverLoop.pass_pc hi).2
  | replied hi =>
    have hun' : s.unread = true := hun
    rw [show s.unread = false from hok] at hun'
    cases hun'
  | ioStopped hi => exact hret (TransceiverLoop.stop_pc hi).2
  | _ =>
    rw [show replying _ = false from hrep] at hio
    cases hio

theorem not_leaked (h : (system config).Reachable attended s) : ¬ s.Leaked := by
  refine h.invariant_with (J := fun s => s.Orderly ∧ s.Staffed) (I := fun s => ¬ s.Leaked)
    (fun _ hr => ⟨orderly hr, staffed hr⟩) (fun hl => by cases hl.1)
    fun s a t ⟨hs, hstaff⟩ hno hok hst => ?_
  cases hrep : replying s.io.pc with
  | false => exact not_leaked_reply hok hst hrep
  | true => exact not_leaked_passing hs hstaff hok hst hrep fun hun => hno ⟨hrep, hun⟩

/-! ## The way to the return -/

theorem reach_step {ok : Policy ScanRun ScanAction} {u : ScanRun} (h : (system config).Reach ok u s)
    (hok : ok s a) (hst : s.step a = some t) : (system config).Reach ok u t :=
  h.tail hok hst

/-- What the loop needs of a state to come to its return. -/
structure Ending (config : ScanConfig) (s : ScanRun) : Prop where
  reachable : (system config).Reachable Policy.any s
  alive : s.Alive
  ctxDone : s.trk.ctxDone = true

theorem Ending.step (h : s.Ending config) (hst : s.step a = some t) (hal : t.Alive)
    (hc : t.trk.ctxDone = true) : t.Ending config :=
  ⟨reach_step h.reachable trivial hst, hal, hc⟩

namespace CanReturn

theorem of_returned (hp : s.io.pc = .returned) : s.CanReturn config := ⟨s, .refl, hp⟩

theorem head (hst : s.step a = some t) (h : t.CanReturn config) : s.CanReturn config := by
  obtain ⟨u, hr, hu⟩ := h
  exact ⟨u, .head hst trivial hr, hu⟩

/-- From its select the loop takes the end of the context. -/
theorem of_select (h : s.Ending config) (hp : s.io.pc = .select) : s.CanReturn config := by
  obtain ⟨io, hio, hret⟩ := (staffed h.reachable).intact.stops hp
  have hst : s.step .ioCtxDone = some { s with io := io } := by
    simp [step, stepReceiver, h.alive.1, h.alive.2, h.ctxDone, hio]
  exact head hst (of_returned hret)

/-- The receiving goroutine takes the reply. -/
theorem of_read (h : s.Ending config) (hrep : replying s.io.pc = true) (hr : s.rx = .select) :
    s.CanReturn config := by
  cases hp : s.io.pc with
  | replying rx =>
    have hst : s.step .takeReply = some
        { s with io := { s.io with pc := .select }, rx := .markingReceived rx } := by
      simp [step, stepReceiver, h.alive.1, h.alive.2, hr, TransceiverLoop.pass, hp]
    exact head hst (of_select (h.step hst h.alive h.ctxDone) rfl)
  | _ => rw [hp] at hrep; cases hrep

/-- The tracker takes the reply before it. -/
theorem of_served (h : s.Ending config) (hrep : replying s.io.pc = true) {rx : ICMPReceiveReply}
    (hr : s.rx = .markingReceived rx) (ha : s.trk.actor = .select) : s.CanReturn config := by
  have hserve : s.trk.Serving := ⟨by rw [ha]; simp, (staffed h.reachable).trk.unclosed⟩
  obtain ⟨trk, hm, hc, hp⟩ := hserve.markReceived ha rx.seq rx 0 0 0
  have hst : s.step (.markReceived 0 0 0) = some { s with trk := trk, rx := .select } := by
    simp [step, stepReceiver, h.alive.1, h.alive.2, hr, hm]
  have hal : Alive { s with trk := trk, rx := .select } := ⟨h.alive.1, hp.trans h.alive.2⟩
  exact head hst (of_read (h.step hst hal (hc.trans h.ctxDone)) hrep rfl)

/-- The event of the tracker goes into the buffer. -/
theorem of_room (h : s.Ending config) (hrep : replying s.io.pc = true) {rx : ICMPReceiveReply}
    (hr : s.rx = .markingReceived rx) {q : Int} {ev : ICMPTrackerEntry}
    (ha : s.trk.actor = .emitting q ev) (hf : s.trk.full = false) : s.CanReturn config := by
  have hopen := (orderly h.reachable).lifecycle.open_of (by rw [ha]; simp)
  have hroom : s.trk.recvEvC.buf.length < s.trk.recvEvC.cap :=
    Nat.lt_of_le_of_ne s.trk.recvEvC.fits (of_decide_eq_false hf)
  obtain ⟨c, hc, _⟩ := Chan.send_of_room (x := ev) hopen hroom
  have hst : s.step (.tracker .emit) =
      some { s with trk := { s.trk.emitted q with recvEvC := c } } := by
    simp [step, h.alive.1, h.alive.2, TrackerAction.own, ICMPTrackerRun.step, ICMPTrackerRun.emit,
      ha, hc]
  exact head hst (of_served (h.step hst h.alive h.ctxDone) hrep hr rfl)

/-- The drain goroutine takes an event from the buffer, or the one the tracker holds. -/
theorem of_receiving (h : s.Ending config) (hrep : replying s.io.pc = true)
    {rx : ICMPReceiveReply} (hr : s.rx = .markingReceived rx) {q : Int} {ev : ICMPTrackerEntry}
    (ha : s.trk.actor = .emitting q ev) (hd : s.drain = .receiving) : s.CanReturn config := by
  cases hbuf : s.trk.recvEvC.buf with
  | nil =>
    have hopen := (orderly h.reachable).lifecycle.open_of (by rw [ha]; simp)
    have hmeet := Chan.canMeet_iff.2 ⟨hbuf, hopen⟩
    have hst : s.step (.drainTake .actor) = some
        { s with
          trk := { s.trk.emitted q with taken := s.trk.taken ++ [ev] }
          drain := .forwarding ev } := by
      simp [step, stepDrain, h.alive.1, h.alive.2, hd, ICMPTrackerRun.take, ha, hmeet]
    exact head hst (of_served (h.step hst h.alive h.ctxDone) hrep hr rfl)
  | cons x xs =>
    obtain ⟨c, hc, _⟩ := Chan.recv_of_buf hbuf
    have hst : s.step (.drainTake .buffer) = some
        { s with
          trk := { s.trk with recvEvC := c, taken := s.trk.taken ++ [x] }
          drain := .forwarding x } := by
      simp [step, stepDrain, h.alive.1, h.alive.2, hd, ICMPTrackerRun.take, hc]
    exact head hst (of_room (h.step hst h.alive h.ctxDone) hrep hr ha
      (decide_eq_false (Nat.ne_of_lt (Chan.length_lt_of_recv hc))))

/-- The drain goroutine takes its event out of the group. -/
theorem of_settling (h : s.Ending config) (hrep : replying s.io.pc = true)
    {rx : ICMPReceiveReply} (hr : s.rx = .markingReceived rx) {q : Int} {ev : ICMPTrackerEntry}
    (ha : s.trk.actor = .emitting q ev) {seq : Int} (hd : s.drain = .settling seq)
    (hg : s.groupEmpty = false) : s.CanReturn config := by
  cases hn : s.inFlight with
  | succ n =>
    have hst : s.step .settle = some { s with inFlight := n, drain := .receiving } := by
      simp [step, stepDrain, h.alive.1, h.alive.2, hd, hn]
    exact head hst (of_receiving (h.step hst h.alive h.ctxDone) hrep hr ha rfl)
  | zero =>
    -- the packet is still being added
    cases hm : s.main with
    | adding req =>
      have hst : s.step .add = some { s with inFlight := 1, main := .sending req } := by
        simp [step, stepMain, h.alive.1, h.alive.2, hm, hn]
      have hst' : step { s with inFlight := 1, main := .sending req } .settle =
          some { s with inFlight := 0, main := .sending req, drain := .receiving } := by
        simp [step, stepDrain, h.alive.1, h.alive.2, hd]
      have hend := (h.step hst h.alive h.ctxDone).step hst' h.alive h.ctxDone
      exact head hst (head hst' (of_receiving hend hrep hr ha rfl))
    | _ => simp [groupEmpty, hn, hm, ScanPC.addingOne] at hg

/-- The tracker serves the receiving goroutine, which comes back to its select. -/
theorem of_replying (h : s.Ending config) (hrep : replying s.io.pc = true)
    (hun : ¬ s.unread = true) : s.CanReturn config := by
  rw [unread_iff, not_or] at hun
  cases hr : s.rx with
  | select => exact of_read h hrep hr
  | returned => exact absurd hr hun.2
  | markingReceived rx =>
    have hl : ¬ s.lost = true := fun hl => hun.1 ⟨by rw [hr]; rfl, hl⟩
    rw [lost_iff, not_or] at hl
    cases ha : s.trk.actor with
    | select => exact of_served h hrep hr ha
    | returned => exact absurd ha hl.1
    | emitting q ev =>
      cases hf : s.trk.full with
      | false => exact of_room h hrep hr ha hf
      | true =>
        have hj : s.trk.jammed = true := by
          rw [ICMPTrackerRun.jammed, ICMPTrackerRun.atRecvEvC, ha, hf]; rfl
        have hd : s.deaf = false := by
          rw [← Bool.not_eq_true]
          exact fun hd => hl.2 ⟨hj, hd⟩
        rw [deaf] at hd
        cases hdr : s.drain with
        | receiving => exact of_receiving h hrep hr ha hdr
        | returned => simp only [hdr] at hd; cases hd
        | settling seq =>
          simp only [hdr] at hd
          exact of_settling h hrep hr ha hdr hd
        | forwarding ev' =>
          simp only [hdr, Bool.or_eq_false_iff] at hd
          have hst : s.step .forward = some
              { s with
                drain := .settling ev'.seq
                forwarded := s.forwarded ++ [ev'.seq]
                output := s.output ++ [.ok (newProbeEvent ev')] } := by
            simp [step, stepDrain, h.alive.1, h.alive.2, hdr, sendCh, hd.1]
          exact head hst (of_settling (h.step hst h.alive h.ctxDone) hrep hr ha
            rfl hd.2)

end CanReturn

theorem freed (h : (system config).Reachable attended s) : s.Freed config := by
  intro hc hal
  have hend : s.Ending config := ⟨h.any, hal, hc⟩
  cases hp : s.io.pc with
  | select => exact .of_select hend hp
  | returned => exact .of_returned hp
  | replying rx =>
    have hrep : replying s.io.pc = true := by rw [hp]; rfl
    exact .of_replying hend hrep fun hun => not_leaked h ⟨hrep, hun⟩

/-! ## The condition is needed -/

namespace Leaked

/-- A step of a scan takes no reply that nobody reads. -/
theorem keep (h : s.Leaked) (hset : s.main = .setup → s.io.pc = .returned)
    (hst : s.step a = some t) : t.Leaked := by
  obtain ⟨hio, hun⟩ := h
  have hsel : ∀ {P : Prop}, s.io.pc = .select → P := fun he => by
    rw [he] at hio; cases hio
  have hread : ∀ {P : Prop}, s.rx = .select → P := fun he => by
    rw [unread, he] at hun; cases hun
  have hne : s.main ≠ .setup := fun he => by
    rw [hset he] at hio; cases hio
  have hm := step_move hst
  have hun' : t.rx = s.rx → t.unread = true := fun hrx => by
    rw [unread_iff] at hun ⊢
    rw [hrx]
    exact hun.imp_left (.imp_right (lost_keep hm hne))
  cases hm with
  | launched hs => exact absurd hs hne
  | passed _ hi => exact hsel (TransceiverLoop.write_pc hi).1
  | rxLeft | tookErr => exact ⟨hio, rfl⟩
  | tookReply hs => exact hread hs
  | markedReceived hr hmk =>
    rw [unread, hr] at hun
    have ha := (ICMPTrackerRun.serve_map_ok hmk).1
    rcases lost_iff.1 hun with hret | ⟨hj, _⟩
    · rw [ha] at hret; cases hret
    · rw [not_jammed_of_select ha] at hj; cases hj
  | replied hi => exact hsel (TransceiverLoop.reply_pc hi).1
  | ioStopped hi => exact hsel (TransceiverLoop.stop_pc hi).1
  | _ => exact ⟨hio, hun' rfl⟩

/-- The loop holds its reply for ever, and so the socket stays open. -/
theorem not_canReturn (h : s.Leaked) (hs : (system config).Reachable Policy.any s) :
    ¬ s.CanReturn config := by
  rintro ⟨t, hr, hret⟩
  have hl : (system config).Reachable Policy.any t ∧ t.Leaked := by
    refine hr.induct (I := fun s => (system config).Reachable Policy.any s ∧ s.Leaked) ⟨hs, h⟩
      fun s a t ⟨hs, hl⟩ _ hst => ?_
    exact ⟨hs.tail trivial hst, hl.keep (unstarted hs) hst⟩
  have hio := hl.2.1
  rw [hret] at hio
  cases hio

end Leaked

/-- The tracker is lost while a reply is held for its caller. -/
theorem leaked_of_lost (hp : s.passing = true) (hrx : t.rx = s.rx) (hio : t.io = s.io)
    (hl : t.lost = true) : t.Leaked := by
  obtain ⟨hrep, hcall⟩ := Bool.and_eq_true_iff.1 hp
  exact ⟨by rw [hio]; exact hrep, unread_iff.2 (.inl ⟨by rw [hrx]; exact hcall, hl⟩)⟩

/-- A step that `attended` excludes leaves the loop alone with a reply. -/
theorem leaked_of_not_attended (hs : s.Orderly) (hst : s.step a = some t) (hno : ¬ attended s a) :
    t.Leaked ∧ t.Alive := by
  have hal := alive_of_step hst
  have hgo := hst
  rw [step.eq_def, if_neg (by simp [hal.1, hal.2])] at hgo
  cases a with
  | tracker b =>
    obtain ⟨hp, hlo⟩ := not_attended_tracker.1 hno
    obtain ⟨_, hgo⟩ := Option.ite_none_right_eq_some.1 hgo
    obtain ⟨trk, htrk, rfl⟩ := Option.map_eq_some_iff.1 hgo
    obtain ⟨hl, hpan⟩ := hlo.lost hs.lifecycle htrk
    exact ⟨leaked_of_lost hp rfl rfl (lost_iff.2 hl), hal.1, hpan⟩
  | drainTake src =>
    cases src with
    | delivery i =>
      simp only [attended, not_or, Bool.not_eq_false, not_and_or] at hno
      obtain ⟨hp, hj, hd⟩ := hno
      obtain ⟨_, hgo⟩ := Option.ite_none_right_eq_some.1 hgo
      obtain ⟨⟨ev, trk⟩, htake, rfl⟩ := Option.map_eq_some_iff.1 hgo
      simp only [ICMPTrackerRun.take] at htake
      split at htake
      next =>
        cases htake
        exact ⟨leaked_of_lost hp rfl rfl (lost_iff.2 (.inr ⟨hj, Bool.or_eq_true_iff.2 hd⟩)), hal⟩
      next => cases htake
    | _ => exact absurd trivial hno
  | drainCtxDone =>
    simp only [attended, not_or, Bool.not_eq_false] at hno
    obtain ⟨hp, hj⟩ := hno
    simp only [stepDrain] at hgo
    split at hgo
    next =>
      obtain ⟨_, hgo⟩ := Option.ite_none_right_eq_some.1 hgo
      cases hgo
      exact ⟨leaked_of_lost hp rfl rfl (lost_iff.2 (.inr ⟨hj, rfl⟩)), hal⟩
    next => cases hgo
  | close =>
    simp only [attended, not_or, Bool.not_eq_false, not_forall, not_not] at hno
    obtain ⟨hp, hj, ev, hd⟩ := hno
    obtain ⟨_, hgo⟩ := Option.ite_none_right_eq_some.1 hgo
    cases hgo
    refine ⟨leaked_of_lost hp rfl rfl (lost_iff.2 (.inr ⟨hj, ?_⟩)), hal⟩
    simp only [deaf, hd, Bool.true_or]
  | reply rx =>
    simp only [attended, Bool.not_eq_false] at hno
    obtain ⟨io, hi, rfl⟩ := Option.map_eq_some_iff.1 hgo
    refine ⟨⟨?_, hno⟩, hal⟩
    show replying io.pc = true
    rw [(TransceiverLoop.reply_pc hi).2]
    rfl
  | rxCtxDone =>
    simp only [attended, Bool.not_eq_false] at hno
    obtain ⟨_, hgo⟩ := Option.ite_none_right_eq_some.1 hgo
    cases hgo
    exact ⟨⟨hno, rfl⟩, hal⟩
  | _ => exact absurd trivial hno

/-- After the end of the context a loop that is left alone is not freed. -/
theorem not_freed_of_leaked (hr : (system config).Reachable Policy.any s) (h : s.Leaked)
    (hal : s.Alive) : ∃ u, (system config).Reach attended s u ∧ ¬ u.Freed config := by
  cases hc : s.trk.ctxDone with
  | true => exact ⟨s, .refl, fun hf => h.not_canReturn hr (hf hc hal)⟩
  | false =>
    have hst : s.step (.tracker .cancel) =
        some { s with trk := { s.trk with ctxDone := true } } := by
      simp [step, hal.1, hal.2, hc, TrackerAction.own, ICMPTrackerRun.step]
    refine ⟨_, reach_step (a := .tracker .cancel) .refl trivial hst, fun hf => ?_⟩
    exact (h.keep (unstarted hr) hst).not_canReturn (reach_step hr trivial hst) (hf rfl hal)

/-- `attended` is the exact condition under which the socket of a scan is released. -/
theorem guards (config : ScanConfig) : (system config).Guards attended (Freed config) where
  safe := fun _ hr => freed hr
  tight := by
    intro s a t hr hst hno
    obtain ⟨hleak, hal⟩ := leaked_of_not_attended (orderly hr) hst hno
    exact not_freed_of_leaked (hr.any.tail trivial hst) hleak hal

end ScanRun

/-! ## The promise -/

/-- The conditions under which no run of a ping or of a block scan leaves a socket open. -/
theorem sockets_released (config : PingConfig) (limited : Bool) (scan : ScanConfig) :
    (ThrottledPing.system config limited).Guards (ThrottledPing.attended config)
        (ThrottledPing.Freed config limited) ∧
      (ScanRun.system scan).Guards ScanRun.attended (ScanRun.Freed scan) :=
  ⟨ThrottledPing.guards config limited, ScanRun.guards scan⟩

/-- The first packet is answered, and the context ends before the reader of `outC` takes the
reply: it takes the end of the context. -/
theorem sockets_leaked :
    (¬ ∀ s, (ThrottledPing.system PingRun.sampleConfig false).Reachable Policy.any s →
      s.Freed PingRun.sampleConfig false) ∧
    ¬ ∀ s, (ScanRun.system ScanRun.sampleScan).Reachable Policy.any s →
      s.Freed ScanRun.sampleScan := by
  constructor
  · intro h
    obtain ⟨s, hr, hp⟩ := System.exists_of_replay
      (ThrottledPing.system PingRun.sampleConfig false) Policy.any
      (fun s => s.run.trk.ctxDone = true ∧
        (s.run.panicked = false ∧ s.run.trk.panicked = false) ∧
        replying s.run.io.pc = true ∧ s.run.snd = .returned)
      (PingRun.sendOne.map ThrottledAction.ping ++
        ([.ping (.reply (ICMPTrackerRun.sampleReply 1)), .ping (.tracker .cancel),
          .ping .sndCtxDone] : List ThrottledAction)) (by decide +kernel)
    obtain ⟨hc, hal, hio, hs⟩ := of_decide_eq_true hp
    have hleak : s.Leaked PingRun.sampleConfig := ⟨hio, by rw [ThrottledPing.unread, hs]⟩
    exact hleak.not_canReturn (h s hr hc hal)
  · intro h
    obtain ⟨s, hr, hp⟩ := System.exists_of_replay (ScanRun.system ScanRun.sampleScan) Policy.any
      (fun s => s.trk.ctxDone = true ∧ (s.panicked = false ∧ s.trk.panicked = false) ∧
        replying s.io.pc = true ∧ s.rx = .returned)
      (([.launch] : List ScanAction) ++ ScanRun.scanOne ++
        ([.reply (ICMPTrackerRun.sampleReply 1), .tracker .cancel, .rxCtxDone] :
          List ScanAction)) (by decide +kernel)
    obtain ⟨hc, hal, hio, hs⟩ := of_decide_eq_true hp
    have hleak : s.Leaked := ⟨hio, by rw [ScanRun.unread, hs]⟩
    exact hleak.not_canReturn hr (h s hr hc hal)

end CloudPing.Pinger
