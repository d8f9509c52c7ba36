import CloudPing.Raw.TrackerAccounting

/-!
# Shutdown of the tracker

`Run` closes `RecvEvC` when it returns.  The goroutines that deliver reply events are not
known to it: one that has still to send when the channel closes panics, and so does one
that was already blocked in its send.

`calm` is the exact condition under which this does not happen.  It speaks of the calls
and of the cancellation only: neither the cancellation nor `ForgetAllAndClose` comes while
a reply event is undelivered, and after the cancellation no reply to a stored packet is
marked.
-/

namespace CloudPing.Raw

open Conc

namespace ICMPTrackerRun

/-- No goroutine has sent on `RecvEvC` after its close, and none has still to. -/
def NoSendAfterClose (s : ICMPTrackerRun) : Prop :=
  s.panicked = false ∧ (s.recvEvC.closed = true → s.deliveries = [])

/-- The actor would execute the function of `MarkReceived` now, and it finds an entry. -/
def wouldAnswer (s : ICMPTrackerRun) (seq : Int) : Bool :=
  s.actor = .select && !s.it.closed && (s.it.store.lookup seq).isSome

/-- The cancellation and `ForgetAllAndClose` find no reply event undelivered, and no reply
is recorded after the cancellation. -/
def calm : Policy ICMPTrackerRun TrackerAction := fun s a =>
  match a with
  | .cancel | .forgetAllAndClose => s.deliveries = []
  | .markReceived seq _ _ _ _ => s.ctxDone = true → s.wouldAnswer seq = false
  | _ => True

instance : ∀ s a, Decidable (calm s a) := fun s a =>
  match a with
  | .cancel | .forgetAllAndClose => inferInstanceAs (Decidable (s.deliveries = []))
  | .markReceived seq _ _ _ _ =>
    inferInstanceAs (Decidable (s.ctxDone = true → s.wouldAnswer seq = false))
  | .markSent .. | .timerFires _ | .handleTimeout _ | .cleanupEntry _ | .emit
  | .deliver _ | .take _ | .closeCloseCh | .exit => isTrue trivial

/-! ## Runs that meet the condition -/

/-- The shutdown invariant: once the end has begun no reply event is undelivered. -/
structure Quiet (s : ICMPTrackerRun) : Prop extends Lifecycle s where
  alive : s.panicked = false
  delivered : s.ctxDone = true ∨ s.it.closed = true → s.deliveries = []

namespace Quiet

theorem new (config : ICMPTrackerConfig) : Quiet (.new config) :=
  ⟨.new config, rfl, fun _ => rfl⟩

variable {s t : ICMPTrackerRun}

theorem noSend (h : s.Quiet) : s.NoSendAfterClose :=
  ⟨h.alive, fun hc => h.delivered (h.returned (h.closedIff.1 hc))⟩

theorem move (h : s.Quiet) {a : TrackerAction} (hok : calm s a) (hm : Move s a t) : t.Quiet := by
  refine ⟨h.toLifecycle.move hm, ?_, ?_⟩
  · cases hm with
    | panicked hc hp =>
      have hr := h.closedIff.1 hc
      rcases hp with hp | hp
      · exact absurd hr hp
      · exact absurd (h.delivered (h.returned hr)) hp
    | _ => exact h.alive
  · cases hm with
    | cancelled => exact fun _ => hok
    | forgot => exact fun _ => hok
    | answered ha hc hl =>
      have hctx : s.ctxDone = false := by
        cases hd : s.ctxDone with
        | false => rfl
        | true =>
          have hw := hok hd
          simp [wouldAnswer, ha, hc, hl] at hw
      rintro (hd | hd)
      · rw [hctx] at hd; cases hd
      · rw [hc] at hd; cases hd
    | delivered hi | metDelivery hi =>
      intro hd
      rw [h.delivered hd] at hi
      cases hi
    | _ => exact h.delivered

end Quiet

variable {config : ICMPTrackerConfig} {s t u : ICMPTrackerRun}

theorem quiet (h : (system config).Reachable calm s) : s.Quiet :=
  h.invariant (Quiet.new config) fun _ _ _ hs ha hst => hs.move ha (step_move hst)

/-! ## Runs that leave it -/

/-- A consumer that reads lets the actor out of the function of `handleTimeout`. -/
theorem frees_actor (hp : s.panicked = false) (ho : s.recvEvC.closed = false)
    (ha : s.actor ≠ .returned) :
    ∃ u, (system config).Reach calm s u ∧ u.actor = .select ∧ u.panicked = false ∧
      u.recvEvC.closed = false ∧ u.deliveries = s.deliveries ∧ u.ctxDone = s.ctxDone := by
  cases hact : s.actor with
  | select => exact ⟨s, .refl, hact, hp, ho, rfl, rfl⟩
  | returned => exact absurd hact ha
  | emitting q ev =>
    cases hb : s.recvEvC.buf with
    | nil =>
      -- nothing is buffered, so the consumer meets the actor
      have hmeet : s.recvEvC.canMeet = true := Chan.canMeet_iff.2 ⟨hb, ho⟩
      have hst : step s (.take .actor) =
          some { s.emitted q with taken := s.taken ++ [ev] } := by
        simp [step, hp, take, hact, hmeet]
      exact ⟨_, reach_step _ hst trivial, rfl, hp, ho, rfl, rfl⟩
    | cons x xs =>
      -- the consumer makes room in the buffer, and the actor sends
      obtain ⟨d, hd, hdb, hdc, hdo⟩ := Chan.recv_of_buf hb
      have hst : step s (.take .buffer) =
          some { s with recvEvC := d, taken := s.taken ++ [x] } := by
        simp [step, hp, take, hd]
      have hroom : d.buf.length < d.cap := by
        have hf := s.recvEvC.fits
        rw [hb, List.length_cons] at hf
        rw [hdb, hdc]
        omega
      obtain ⟨e, he, _, _, heo⟩ := Chan.send_of_room (x := ev) (hdo.trans ho) hroom
      have hst' : step { s with recvEvC := d, taken := s.taken ++ [x] } .emit =
          some { { s with recvEvC := d, taken := s.taken ++ [x] }.emitted q with recvEvC := e } := by
        simp [step, hp, emit, hact, he]
      exact ⟨_, (reach_step _ hst trivial).trans (reach_step _ hst' trivial), rfl,
        hp, heo, rfl, rfl⟩

/-- The actor returns and leaves an event undelivered. -/
theorem exit_unsafe (hp : s.panicked = false) (ho : s.recvEvC.closed = false)
    (ha : s.actor = .select) (hx : s.ctxDone = true ∨ s.closeCh = true)
    (hd : s.deliveries ≠ []) : ∃ u, (system config).Reach calm s u ∧ ¬ u.NoSendAfterClose := by
  have hclose : s.recvEvC.close = some { s.recvEvC with closed := true } := by
    simp [Chan.close, ho]
  have hst : step s .exit =
      some { s with recvEvC := { s.recvEvC with closed := true }, actor := .returned } := by
    have hor : (s.ctxDone || s.closeCh) = true := by simpa using hx
    simp [step, hp, exit, ha, hor, hclose]
  exact ⟨_, reach_step _ hst trivial, fun hs => hd (hs.2 rfl)⟩

/-- A cancelled tracker with an undelivered event can get to a send on the closed
channel. -/
theorem cancelled_unsafe (hp : s.panicked = false) (ho : s.recvEvC.closed = false)
    (ha : s.actor ≠ .returned) (hctx : s.ctxDone = true) (hd : s.deliveries ≠ []) :
    ∃ u, (system config).Reach calm s u ∧ ¬ u.NoSendAfterClose := by
  obtain ⟨v, hv, hva, hvp, hvo, hvd, hvc⟩ := frees_actor hp ho ha
  obtain ⟨u, hu, hus⟩ := exit_unsafe hvp hvo hva
    (Or.inl (hvc.trans hctx)) (hvd.symm ▸ hd)
  exact ⟨u, hv.trans hu, hus⟩

theorem not_calm_unsafe {a : TrackerAction} (hs : s.Quiet) (hst : step s a = some t)
    (hok : ¬ calm s a) : ∃ u, (system config).Reach calm t u ∧ ¬ u.NoSendAfterClose := by
  have hact : s.deliveries ≠ [] → s.actor ≠ .returned := fun hd hr =>
    hd (hs.delivered (hs.returned hr))
  rw [step.eq_def, if_neg (by simp [hs.alive])] at hst
  cases a with
  | cancel =>
    have hd : s.deliveries ≠ [] := hok
    simp only [Option.ite_none_left_eq_some, Option.some.injEq] at hst
    obtain ⟨_, rfl⟩ := hst
    exact cancelled_unsafe hs.alive (hs.open_of (hact hd)) (hact hd) rfl hd
  | forgetAllAndClose =>
    have hd : s.deliveries ≠ [] := hok
    have hcl : s.it.closed = false := by
      cases hc : s.it.closed with
      | false => rfl
      | true => exact absurd (hs.delivered (Or.inr hc)) hd
    obtain ⟨r, hr, rfl⟩ := Option.map_eq_some_iff.1 hst
    rw [forgetAllAndClose, if_neg (c := s.it.closed = true) (by simp [hcl])] at hr
    split at hr
    next => cases hr
    next =>
      rcases serve_eq_some hr with ⟨ha, rfl⟩ | ⟨ha, _⟩
      · -- `closeCh` is closed and the actor returns
        have ho := hs.open_of (hact hd)
        have hst' : step { s with it := s.it.forgetAll, armed := s.stopTimers, closing := true }
            .closeCloseCh = some { s with
              it := s.it.forgetAll, armed := s.stopTimers, closing := false, closeCh := true } := by
          simp only [step, hs.alive, Bool.false_eq_true, if_false, if_true]
        obtain ⟨u, hu, hus⟩ := exit_unsafe (s := { s with
            it := s.it.forgetAll, armed := s.stopTimers, closing := false, closeCh := true })
          hs.alive ho ha (Or.inr rfl) hd
        exact ⟨u, (reach_step _ hst' trivial).trans hu, hus⟩
      · exact absurd ha (hact hd)
  | markReceived q r t₁ t₂ t₃ =>
    obtain ⟨hctx, hw⟩ : s.ctxDone = true ∧ s.wouldAnswer q = true := by
      simpa [calm] using hok
    simp only [wouldAnswer, Bool.and_eq_true, decide_eq_true_eq, Bool.not_eq_true',
      Option.isSome_iff_exists] at hw
    obtain ⟨⟨ha, hc⟩, ent, hl⟩ := hw
    have ho := hs.open_of (by rw [ha]; simp)
    obtain ⟨v, hv, rfl⟩ := Option.map_eq_some_iff.1 hst
    simp only [markReceived, serve, ha, ICMPTracker.markReceived, hc, hl, Bool.false_eq_true,
      if_false, Except.map, Option.some.injEq] at hv
    subst hv
    exact exit_unsafe hs.alive ho rfl (Or.inl hctx) (by simp [after])
  | markSent | timerFires | handleTimeout | cleanupEntry | emit | deliver | take | closeCloseCh
  | exit => exact absurd trivial hok

/-- No send on the closed event channel, exactly in the runs whose cancellation and
`ForgetAllAndClose` find every reply event delivered, and which record no reply after the
cancellation. -/
theorem no_send_after_close (config : ICMPTrackerConfig) :
    (system config).Guards calm NoSendAfterClose where
  safe := fun _ h => (quiet h).noSend
  tight := fun _ _ _ h hst hok => not_calm_unsafe (quiet h) hst hok

/-- A reply arrives, nobody reads `RecvEvC`, and the context ends. -/
theorem send_after_close :
    ¬ ∀ s, (system ⟨1000000000, 0⟩).Reachable Policy.any s → s.panicked = false := by
  intro h
  obtain ⟨s, hr, hp⟩ := System.exists_of_replay (system ⟨1000000000, 0⟩) Policy.any
    (fun s => s.panicked)
    [.markSent 1 64 none 0, .markReceived 1 (sampleReply 1) 3 3 3, .cancel, .exit, .deliver 0]
    (by decide)
  rw [h s hr] at hp
  cases hp

end ICMPTrackerRun

end CloudPing.Raw
