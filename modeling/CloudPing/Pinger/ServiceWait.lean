import CloudPing.Pinger.TCPSYNPinger

/-!
# The main loop and its tracker

The tracker sends its events to the main loop, and the main loop hands its packets to the
tracker.  Both channels are unbuffered.  When the tracker is at its send on `EventC` while
the main loop is in `MarkSent`, each waits for the other, and neither selects on anything
else (`Deadlocked.forever`).

There are two ways into it.  The main loop takes a tick while the tracker has an event for
it, or a reply or a timeout reaches its entry while the main loop prepares a packet.
`separate` excludes both, and is exact.
-/

namespace CloudPing.Pinger

open Conc Tcping

/-- The main loop is in `Send` and not yet served by the tracker. -/
def SYNMainPC.sending : SYNMainPC → Bool
  | .preparing | .markingSent _ _ => true
  | _ => false

/-- The main loop waits for the tracker. -/
def SYNMainPC.marking : SYNMainPC → Bool
  | .markingSent _ _ => true
  | _ => false

/-- The tracker waits for the main loop. -/
def ServicePC.atEventC : ServicePC → Bool
  | .emitting _ _ => true
  | _ => false

namespace SYNRun

variable {config : SYNConfig} {s t : SYNRun} {a : SYNAction}

/-- The main loop waits in `MarkSent` for the tracker, and the tracker waits at its send on
`EventC` for the main loop. -/
def Deadlocked (s : SYNRun) : Prop := s.main.marking = true ∧ s.actor.atEventC = true

/-- Nobody waits in a circle while the context is live. -/
def Flowing (s : SYNRun) : Prop := s.ctxDone = false → ¬ s.Deadlocked

/-- The key has an entry. -/
def stored (s : SYNRun) (key : Key) : Bool := (s.tk.store.lookup key).isSome

/-- The reply that the receiving goroutine passes on has an entry. -/
def replyStored (s : SYNRun) : Bool :=
  match s.rx with
  | .marking pkgInfo => pkgInfo.key.any s.stored
  | _ => false

/-- While the context is live, a tick is taken only when the tracker has no event to send,
and a reply or a timeout reaches its entry only when the main loop is not about to mark a
packet sent. -/
def separate : Policy SYNRun SYNAction := fun s a =>
  match a with
  | .tick => s.ctxDone = true ∨ s.actor.atEventC = false
  | .markReceived => s.ctxDone = true ∨ s.main.sending = false ∨ s.replyStored = false
  | .handleTimeout key => s.ctxDone = true ∨ s.main.sending = false ∨ s.stored key = false
  | _ => True

instance : ∀ s a, Decidable (separate s a) := fun _ a =>
  match a with
  | .tick => inferInstanceAs (Decidable (_ ∨ _))
  | .markReceived => inferInstanceAs (Decidable (_ ∨ _ ∨ _))
  | .handleTimeout _ => inferInstanceAs (Decidable (_ ∨ _ ∨ _))
  | .cancel | .tickerFires | .tickClosed | .ctxDone | .sendErr _ | .prepare _ _ | .markSent
  | .write _ | .takeEvent | .eventsClosed | .output | .confirm | .reply _ | .filteredClosed
  | .rxCtxDone | .timerFires _ | .reset _ | .exit => isTrue trivial

/-- Once they wait for each other, they always do. -/
theorem Deadlocked.forever (h : s.Deadlocked) (hr : (system config).Reach Policy.any s t) :
    t.Deadlocked := by
  refine hr.induct h fun s a t hs _ hst => ?_
  obtain ⟨hmain, hact⟩ := hs
  cases step_move hst with
  | tookTick hm | ended hm | failed hm | prepared hm | wrote hm | notWritten hm | tookEvent hm
  | outputted hm | reported hm | confirmed hm => rw [hm] at hmain; cases hmain
  | markedSent _ ha | unmarked _ ha => rw [ha] at hact; cases hact
  | markedReceived _ ha | unknown _ ha => rw [ha] at hact; cases hact
  | timedOut _ ha | stale _ ha | lapsed _ ha => rw [ha] at hact; cases hact
  | exited ha => rw [ha] at hact; cases hact
  | ticked | received | fired | wasReset | cancelled => exact ⟨hmain, hact⟩
  | panicked _ hp hp' => exact ⟨by rw [hp]; exact hmain, by rw [hp']; exact hact⟩

/-! ## The condition is enough -/

/-- While the context is live, the main loop is not about to mark a packet sent when the
tracker has an event to send. -/
def Apart (s : SYNRun) : Prop :=
  s.ctxDone = false → s.main.sending = true → s.actor.atEventC = false

theorem Apart.move (h : s.Apart) (hok : separate s a) (hm : Move config s a t) : t.Apart := by
  cases hm with
  | tookTick =>
    intro hc _
    rcases hok with hd | he
    · rw [show s.ctxDone = false from hc] at hd; cases hd
    · exact he
  | @markedReceived pkgInfo key ev tk hr ha hk ht =>
    intro hc hse
    have hst := (Tracker.markReceived_eq_some ht).2 rfl
    rcases hok with hd | hm | hf
    · rw [show s.ctxDone = false from hc] at hd; cases hd
    · rw [show s.main.sending = true from hse] at hm; cases hm
    · rw [replyStored, hr] at hf
      simp only [hk, Option.any_some, stored, hst] at hf
      cases hf
  | timedOut hk ha ht =>
    intro hc hse
    have hst := (Tracker.handleTimeout_eq_some ht).2 rfl
    rcases hok with hd | hm | hf
    · rw [show s.ctxDone = false from hc] at hd; cases hd
    · rw [show s.main.sending = true from hse] at hm; cases hm
    · rw [stored, hst] at hf
      cases hf
  | prepared hm => exact fun hc _ => h hc (by rw [hm]; rfl)
  | outputted =>
    intro _ hse
    rcases s.outputEvent_main config _ with he | he
    · rw [he] at hse; cases hse
    · rw [he] at hse; cases hse
  | wrote => intro _ hse; rw [sent_main] at hse; cases hse
  | ended | failed | markedSent | unmarked | notWritten | reported | confirmed =>
    intro _ hse
    cases hse
  | tookEvent | exited => exact fun _ _ => rfl
  | cancelled => intro hc; cases hc
  | ticked | received | fired | wasReset | unknown | stale | lapsed => exact h
  | panicked _ hp hp' _ hc => rw [Apart, hp, hp', hc]; exact h

theorem apart (h : (system config).Reachable separate s) : s.Apart :=
  h.invariant (fun _ hse => by cases hse) fun _ _ _ hs hok hst => hs.move hok (step_move hst)

theorem Apart.flowing (h : s.Apart) : s.Flowing := by
  rintro hc ⟨hm, ha⟩
  have hse : s.main.sending = true := by
    revert hm
    cases s.main <;> simp [SYNMainPC.marking, SYNMainPC.sending]
  rw [h hc hse] at ha
  cases ha

/-! ## The condition is needed -/

/-- The keys in use are of one length, and the port of the target is in range once there
is a key. -/
structure Keyed (config : SYNConfig) (s : SYNRun) : Prop where
  uniform : s.tk.Uniform
  storedPort : ∀ k ∈ s.tk.store, 0 ≤ config.dstPort ∧ config.dstPort ≤ 65535
  eventPort : s.actor.atEventC = true → 0 ≤ config.dstPort ∧ config.dstPort ≤ 65535
  markingPort : s.main.marking = true → 0 ≤ config.dstPort ∧ config.dstPort ≤ 65535
  returned : s.actor = .returned → s.ctxDone = true

namespace Keyed

theorem start : Keyed config start where
  uniform := .new {}
  storedPort := by intro k hk; cases hk
  eventPort := by intro h; cases h
  markingPort := by intro h; cases h
  returned := by intro h; cases h

/-- The tracker deletes an entry. -/
theorem delete (h : Keyed config s) {key : Key} {tk : Tracker} {ent : Option TCPSYNSentReceipt}
    (hd : s.tk.delete key = some (ent, tk)) : Keyed config { s with tk := tk } := by
  refine { h with uniform := h.uniform.delete hd, storedPort := fun k hk => ?_ }
  obtain ⟨-, rfl⟩ := Tracker.delete_eq_some hd
  exact h.storedPort k (AList.mem_erase.1 hk).2

theorem move (h : Keyed config s) (hm : Move config s a t) : Keyed config t := by
  cases hm with
  | ticked | received | fired | wasReset | lapsed => exact { h with }
  | tookTick | ended | failed | notWritten | reported | confirmed | unmarked =>
    exact { h with markingPort := by intro hm; cases hm }
  | @prepared srcIP srcPort key hm hk =>
    have hp := buildKey_isSome.1 (Option.isSome_of_mem hk)
    exact { h with markingPort := fun _ => hp.2 }
  | @markedSent key receipt tk hm ha ht =>
    have hp := h.markingPort (by rw [hm]; rfl)
    exact
      { h with
        uniform := Tracker.uniform_of_markSent ht
        storedPort := fun _ _ => hp
        markingPort := by intro hm; cases hm }
  | wrote =>
    exact
      { uniform := by rw [sent_tk]; exact h.uniform
        storedPort := by rw [sent_tk]; exact h.storedPort
        eventPort := by rw [sent_actor]; exact h.eventPort
        markingPort := by rw [sent_main]; intro hm; cases hm
        returned := by rw [sent_actor, sent_ctxDone]; exact h.returned }
  | tookEvent =>
    exact
      { h with
        eventPort := by intro he; cases he
        markingPort := by intro hm; cases hm
        returned := by intro hr; cases hr }
  | @outputted ev =>
    refine
      { uniform := by rw [outputEvent_tk]; exact h.uniform
        storedPort := by rw [outputEvent_tk]; exact h.storedPort
        eventPort := by rw [outputEvent_actor]; exact h.eventPort
        markingPort := fun hm => ?_
        returned := by rw [outputEvent_actor, outputEvent_ctxDone]; exact h.returned }
    rcases s.outputEvent_main config ev with he | he
    · rw [he] at hm; cases hm
    · rw [he] at hm; cases hm
  | markedReceived hr ha hk ht =>
    obtain ⟨⟨ent, hd⟩, hst⟩ := Tracker.markReceived_eq_some ht
    have hp := h.storedPort _ (AList.lookup_isSome.1 (hst rfl))
    exact
      { h.delete hd with
        eventPort := fun _ => hp
        returned := by intro hr; cases hr }
  | unknown hr ha hk ht =>
    obtain ⟨⟨ent, hd⟩, _⟩ := Tracker.markReceived_eq_some ht
    exact { h.delete hd with }
  | timedOut hk ha ht =>
    obtain ⟨⟨ent, hd⟩, hst⟩ := Tracker.handleTimeout_eq_some ht
    have hp := h.storedPort _ (AList.lookup_isSome.1 (hst rfl))
    exact
      { h.delete hd with
        eventPort := fun _ => hp
        returned := by intro hr; cases hr }
  | stale hk ha ht =>
    obtain ⟨⟨ent, hd⟩, _⟩ := Tracker.handleTimeout_eq_some ht
    exact { h.delete hd with }
  | cancelled => exact { h with returned := fun _ => rfl }
  | exited ha hc =>
    exact
      { h with
        eventPort := by intro he; cases he
        returned := fun _ => hc }
  | panicked _ hp hp' hp'' hc =>
    exact
      { uniform := by rw [hp'']; exact h.uniform
        storedPort := by rw [hp'']; exact h.storedPort
        eventPort := by rw [hp']; exact h.eventPort
        markingPort := by rw [hp]; exact h.markingPort
        returned := by rw [hp', hc]; exact h.returned }

end Keyed

theorem keyed {ok : Policy SYNRun SYNAction} (h : (system config).Reachable ok s) :
    Keyed config s :=
  h.invariant Keyed.start fun _ _ _ hs _ hst => hs.move (step_move hst)

/-- From inside `Send`, with an event to send, it is at most one step to the deadlock. -/
theorem deadlocks (hp : 0 ≤ config.dstPort ∧ config.dstPort ≤ 65535) (hal : s.panicked = false)
    (hc : s.ctxDone = false) (hm : s.main.sending = true) (ha : s.actor.atEventC = true) :
    ∃ u, (system config).Reach separate s u ∧ ¬ u.Flowing := by
  cases hmain : s.main with
  | preparing =>
    have hz : (0 : Int) ≤ (0 : UInt16).toNat ∧ ((0 : UInt16).toNat : Int) ≤ 65535 := by decide
    have hk : ((config.receipt config.dstIP 0).key).isSome := buildKey_isSome.2 ⟨hz, hp⟩
    obtain ⟨key, hk⟩ := Option.isSome_iff_exists.1 hk
    have hst : (system config).step s (.prepare config.dstIP 0) =
        some { s with main := .markingSent key (config.receipt config.dstIP 0) } := by
      simp [system, step, stepMain, prepare, hal, hmain, hk]
    exact ⟨_, .head hst trivial .refl, fun hf => hf hc ⟨rfl, ha⟩⟩
  | markingSent key receipt =>
    exact ⟨s, .refl, fun hf => hf hc ⟨by rw [hmain]; rfl, ha⟩⟩
  | _ => rw [hmain] at hm; cases hm

/-- A reply to a stored packet that is served yields an event to send. -/
theorem markReceived_hit (hk : Keyed config s) (h : s.step config .markReceived = some t)
    (hc : s.ctxDone = false) (hs : s.replyStored = true) :
    t.panicked = false ∧ t.ctxDone = false ∧ t.main = s.main ∧ t.actor.atEventC = true := by
  have hal := alive_of_step h
  cases hr : s.rx with
  | marking pkgInfo =>
    rw [replyStored, hr] at hs
    obtain ⟨key, hkey, hst⟩ := (Option.any_eq_true _ _).1 hs
    obtain ⟨value, hl⟩ := Option.isSome_iff_exists.1 hst
    cases ha : s.actor with
    | select =>
      have hd := Tracker.delete_of_lookup hk.uniform hl
      simp [step, stepReceiver, hal, hr, ha, hkey, Tracker.markReceived, hd] at h
      subst h
      exact ⟨rfl, hc, rfl, rfl⟩
    | emitting ev caller => simp [step, stepReceiver, hal, hr, ha] at h
    | returned => rw [hk.returned ha] at hc; cases hc
  | _ => rw [replyStored, hr] at hs; cases hs

/-- A timeout of a stored packet that is served yields an event to send. -/
theorem handleTimeout_hit {key : Key} (hk : Keyed config s)
    (h : s.step config (.handleTimeout key) = some t) (hc : s.ctxDone = false)
    (hs : s.stored key = true) :
    t.panicked = false ∧ t.ctxDone = false ∧ t.main = s.main ∧ t.actor.atEventC = true := by
  have hal := alive_of_step h
  obtain ⟨value, hl⟩ := Option.isSome_iff_exists.1 hs
  cases ha : s.actor with
  | select =>
    have hd := Tracker.delete_of_lookup hk.uniform hl
    simp [step, stepTimers, hal, ha, Tracker.handleTimeout, hd] at h
    obtain ⟨_, rfl⟩ := h
    exact ⟨rfl, hc, rfl, rfl⟩
  | emitting ev caller => simp [step, stepTimers, hal, ha] at h
  | returned => rw [hk.returned ha] at hc; cases hc

/-! ## The promise -/

/-- `separate` is the exact condition under which the main loop and its tracker never wait
for each other. -/
theorem separate_guards (config : SYNConfig) : (system config).Guards separate Flowing where
  safe := fun s hr => (apart hr).flowing
  tight := by
    intro s a t hr hst hno
    have hk := keyed hr
    have hkt := hk.move (step_move hst)
    have hal := alive_of_step hst
    cases a with
    | tick =>
      obtain ⟨hc, ha⟩ := not_or.1 hno
      have hst' : s.stepMain config .tick = some t := by simpa [system, step, hal] using hst
      obtain ⟨_, ht⟩ := Option.ite_none_right_eq_some.1 hst'
      cases ht
      have hev : s.actor.atEventC = true := by simpa using ha
      exact deadlocks (hk.eventPort hev) hal (by simpa using hc) rfl hev
    | markReceived =>
      obtain ⟨hc, hno⟩ := not_or.1 hno
      obtain ⟨hm, hs⟩ := not_or.1 hno
      obtain ⟨hal', hc', hm', ha'⟩ := markReceived_hit hk hst (by simpa using hc) (by simpa using hs)
      exact deadlocks (hkt.eventPort ha') hal' hc' (by rw [hm']; simpa using hm) ha'
    | handleTimeout key =>
      obtain ⟨hc, hno⟩ := not_or.1 hno
      obtain ⟨hm, hs⟩ := not_or.1 hno
      obtain ⟨hal', hc', hm', ha'⟩ := handleTimeout_hit hk hst (by simpa using hc) (by simpa using hs)
      exact deadlocks (hkt.eventPort ha') hal' hc' (by rw [hm']; simpa using hm) ha'
    | _ => exact absurd trivial hno

/-- A ping of one address. -/
def sampleSYN : SYNConfig where
  dstIP := [192, 0, 2, 1]
  dstPort := 443
  timeout := 3000000000
  totalPkts := none
  tickBuffer := 1
  throttled := false

/-- The first packet is answered, and the next tick is taken before the answer's event. -/
theorem deadlocked_tick : ¬ ∀ s, (system sampleSYN).Reachable Policy.any s → s.Flowing := by
  intro h
  obtain ⟨s, hr, hp⟩ := System.exists_of_replay (system sampleSYN) Policy.any
    (fun s => s.ctxDone = false ∧ s.main.marking = true ∧ s.actor.atEventC = true)
    [.tickerFires, .tick, .prepare [198, 51, 100, 7] 50000, .markSent, .write none,
      .reply ⟨[192, 0, 2, 1], [198, 51, 100, 7], ⟨443, 50000, true, true⟩⟩, .markReceived,
      .tickerFires, .tick, .prepare [198, 51, 100, 7] 50001] (by decide +kernel)
  obtain ⟨hc, hm, ha⟩ := of_decide_eq_true hp
  exact h s hr hc ⟨hm, ha⟩

end SYNRun

end CloudPing.Pinger
