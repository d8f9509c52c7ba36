import CloudPing.Pinger.TCPSYNPinger

/-!
# How many SYN packets a TCP ping sends

The main loop stops the ticker after the packet whose number is the last, and it knows the
number from the tracker.  So a packet too many needs a tick that the stop does not hold
back: one that is on its way through the goroutines of the rate limiter, or one taken when
the tracker has ended, since a packet that is not marked sent has the number zero.

`inTime` says that no such tick is taken, and `Budget` is the invariant.
-/

namespace CloudPing.Pinger

open Conc Tcping

namespace SYNMainPC

/-- The main loop is on its way to write a packet. -/
def pending : SYNMainPC → Nat
  | .preparing | .markingSent _ _ | .writing _ _ => 1
  | _ => 0

/-- The packet is marked sent and not written. -/
def marked : SYNMainPC → Nat
  | .writing _ _ => 1
  | _ => 0

/-- The main loop has left the loop, or will on its next step. -/
def leaving : SYNMainPC → Bool
  | .failing _ | .confirming | .returned => true
  | _ => false

end SYNMainPC

namespace SYNRun

/-- A packet is written. -/
def writes : SYNAction → Bool
  | .write none => true
  | _ => false

/-- Ticks are taken while the ticker runs and the tracker does. -/
def inTime : Policy SYNRun SYNAction := fun s a =>
  match a with
  | .tick => s.ticking = true ∧ s.actor ≠ .returned
  | _ => True

instance : ∀ s a, Decidable (inTime s a) := fun _ a =>
  match a with
  | .tick => inferInstanceAs (Decidable (_ ∧ _))
  | .tickerFires | .tickClosed | .ctxDone | .sendErr _ | .prepare _ _ | .markSent | .write _
  | .takeEvent | .eventsClosed | .output | .confirm | .reply _ | .filteredClosed | .rxCtxDone
  | .markReceived | .timerFires _ | .reset _ | .handleTimeout _ | .cancel | .exit =>
    isTrue trivial

/-- All runs, with the number of packets written. -/
def counted (config : SYNConfig) : System (SYNRun × Nat) SYNAction :=
  (system config).tally writes

variable {config : SYNConfig} {s t : SYNRun} {a : SYNAction} {n k : Nat}

/-! ## What a step keeps -/

theorem counter_markSent {tk tk' : Tracker} {key : Key} {receipt : TCPSYNSentReceipt}
    (h : tk.markSent key receipt = some tk') : tk'.counter = tk.counter + 1 := by
  obtain ⟨_, h⟩ := Option.ite_none_right_eq_some.1 h
  cases h
  rfl

theorem counter_delete {tk tk' : Tracker} {key : Key} {ent : Option TCPSYNSentReceipt}
    (h : tk.delete key = some (ent, tk')) : tk'.counter = tk.counter := by
  obtain ⟨_, h⟩ := Option.ite_none_right_eq_some.1 h
  cases h
  rfl

theorem counter_markReceived {tk tk' : Tracker} {key : Key} {pkgInfo : PacketInfo}
    {ev : Option TrackerEvent} (h : tk.markReceived key pkgInfo = some (ev, tk')) :
    tk'.counter = tk.counter := by
  obtain ⟨⟨_, hd⟩, _⟩ := Tracker.markReceived_eq_some h
  exact counter_delete hd

theorem counter_handleTimeout {tk tk' : Tracker} {key : Key} {ev : Option TrackerEvent}
    (h : tk.handleTimeout key = some (ev, tk')) : tk'.counter = tk.counter := by
  obtain ⟨⟨_, hd⟩, _⟩ := Tracker.handleTimeout_eq_some h
  exact counter_delete hd

/-- The ticker goes on after a packet only if it was not the last. -/
theorem ticking_sent {key : Key} {seq : Int} (h : (s.sent config key seq).ticking = true) :
    s.ticking = true ∧ config.totalPkts ≠ some (seq + 1) := by
  simp only [sent] at h
  split at h
  next => cases h
  next hne => exact ⟨h, hne⟩

/-- A packet is written where the main loop has one. -/
theorem wrote_of_step (ha : writes a = true) (hst : s.step config a = some t) :
    ∃ key seq, s.main = .writing key seq ∧ t = s.sent config key seq := by
  obtain rfl : a = .write none := by
    cases a with
    | write err => cases err <;> first | rfl | cases ha
    | _ => cases ha
  have hmain : s.stepMain config (.write none) = some t := by
    simpa [SYNRun.step, alive_of_step hst] using hst
  simp only [stepMain] at hmain
  split at hmain
  next key seq hm _ =>
    cases hmain
    exact ⟨key, seq, hm, rfl⟩
  next heq => cases heq
  next => cases hmain

/-- The invariant of a ping of `n` packets with `k` written. -/
structure Budget (n k : Nat) (s : SYNRun) : Prop where
  bound : k + s.main.pending ≤ n
  /-- The tracker has counted the packets, those marked sent included. -/
  numbered : s.actor ≠ .returned → s.main.leaving = false →
    s.tk.counter = k + s.main.marked
  number : ∀ key seq, s.main = .writing key seq → s.actor ≠ .returned → seq = k
  /-- While the ticker runs, the last packet is still to come. -/
  room : s.panicked = false → s.actor ≠ .returned → s.ticking = true → s.main.leaving = false →
    s.main.pending = 0 → k < n

namespace Budget

theorem start (hn : 1 ≤ n) : Budget n 0 start where
  bound := Nat.zero_le n
  numbered := fun _ _ => rfl
  number := fun _ _ hm => by cases hm
  room := fun _ _ _ _ _ => hn

/-- A step that leaves the main loop where it is. -/
theorem same (h : Budget n k s) (hm : t.main = s.main) (hc : t.tk.counter = s.tk.counter)
    (ha : t.actor ≠ .returned → s.actor ≠ .returned)
    (hr : t.panicked = false → s.panicked = false ∧ t.ticking = s.ticking) : Budget n k t where
  bound := by rw [hm]; exact h.bound
  numbered := fun hact hl => by
    rw [hm] at hl ⊢
    rw [hc]
    exact h.numbered (ha hact) hl
  number := fun key seq hw hact => h.number key seq (hm ▸ hw) (ha hact)
  room := fun hp hact htk hl hpend => by
    obtain ⟨hp', htk'⟩ := hr hp
    rw [hm] at hl hpend
    exact h.room hp' (ha hact) (htk' ▸ htk) hl hpend

/-- The main loop leaves the loop. -/
theorem leave (h : Budget n k s) (hl : t.main.leaving = true) : Budget n k t := by
  have hpend : t.main.pending = 0 := by
    cases hm : t.main <;> rw [hm] at hl <;> first | rfl | cases hl
  refine ⟨?_, fun _ hl' => ?_, fun key seq hw => ?_, fun _ _ _ hl' => ?_⟩
  · have hb := h.bound
    omega
  · rw [hl] at hl'
    cases hl'
  · rw [hw] at hl
    cases hl
  · rw [hl] at hl'
    cases hl'

/-- The main loop goes on in its loop, from a place without a packet to another. -/
theorem goOn (h : Budget n k s) (hp : s.main.pending = 0) (hl : s.main.leaving = false)
    (hp' : t.main.pending = 0) (htk : t.tk = s.tk)
    (ha : t.actor ≠ .returned → s.actor ≠ .returned)
    (hr : t.panicked = false → s.panicked = false ∧ t.ticking = s.ticking) : Budget n k t := by
  have hz : ∀ pc : SYNMainPC, pc.pending = 0 → pc.marked = 0 := by
    intro pc hpc
    cases pc <;> first | rfl | cases hpc
  refine ⟨?_, fun hact _ => ?_, fun key seq hw => ?_, fun hpan hact hti _ _ => ?_⟩
  · have hb := h.bound
    omega
  · have hnum := h.numbered (ha hact) hl
    rw [hz _ hp] at hnum
    rw [htk, hz _ hp']
    exact hnum
  · rw [hw] at hp'
    cases hp'
  · obtain ⟨hpan', hti'⟩ := hr hpan
    exact h.room hpan' (ha hact) (hti' ▸ hti) hl hp

/-- A packet is written. -/
theorem wrote (h : Budget n k s) (ht : config.totalPkts = some (n : Int)) {key : Key} {seq : Int}
    (hm : s.main = .writing key seq) : Budget n (k + 1) (s.sent config key seq) := by
  have hb : k + 1 ≤ n := by
    have hb := h.bound
    rw [hm] at hb
    exact hb
  refine ⟨?_, fun hact _ => ?_, fun key' seq' hw => ?_, fun _ hact hti _ _ => ?_⟩
  · rw [sent_main]
    exact hb
  · rw [sent_actor] at hact
    rw [sent_tk, sent_main]
    have hnum := h.numbered hact (by rw [hm]; rfl)
    rw [hm] at hnum
    rw [hnum]
    rfl
  · rw [sent_main] at hw
    cases hw
  · -- the ticker runs, so this was not the last packet
    rw [sent_actor] at hact
    obtain ⟨_, hne⟩ := ticking_sent hti
    have hseq := h.number key seq hm hact
    rw [ht, hseq] at hne
    have hne' : (n : Int) ≠ k + 1 := fun heq => hne (congrArg some heq)
    omega

theorem move (h : Budget n k s) (hok : inTime s a) (hal : s.panicked = false)
    (ha : writes a = false) (hm : Move config s a t) : Budget n k t := by
  cases hm with
  | ticked ht => exact h.same rfl rfl id fun hp => ⟨hp, rfl⟩
  | tookTick hm ht =>
    have hz : s.main.pending = 0 := by rw [hm]; rfl
    have hl : s.main.leaving = false := by rw [hm]; rfl
    have hroom := h.room hal hok.2 hok.1 hl hz
    refine ⟨hroom, fun hact _ => ?_, (fun key seq hw => by cases hw),
      (fun _ _ _ _ hp => by cases hp)⟩
    have hnum := h.numbered hact hl
    rw [hm] at hnum
    exact hnum
  | ended hm => exact h.leave rfl
  | failed hm => exact h.leave rfl
  | prepared hm hk =>
    refine ⟨?_, fun hact _ => ?_, (fun key seq hw => by cases hw),
      (fun _ _ _ _ hp => by cases hp)⟩
    · have hb := h.bound
      rw [hm] at hb
      exact hb
    · have hnum := h.numbered hact (by rw [hm]; rfl)
      rw [hm] at hnum
      exact hnum
  | markedSent hm hact ht =>
    have hact' : s.actor ≠ .returned := by simp [hact]
    have hnum := h.numbered hact' (by rw [hm]; rfl)
    rw [hm] at hnum
    have hcount : s.tk.counter = k := by simpa [SYNMainPC.marked] using hnum
    refine ⟨?_, fun _ _ => ?_, fun key seq hw _ => ?_,
      (fun _ _ _ _ hp => by cases hp)⟩
    · have hb := h.bound
      rw [hm] at hb
      exact hb
    · rw [counter_markSent ht, hcount]
      rfl
    · cases hw
      exact hcount
  | unmarked hm hact =>
    refine ⟨?_, fun hact' => absurd hact hact', fun _ _ _ hact' => absurd hact hact',
      fun _ hact' => absurd hact hact'⟩
    have hb := h.bound
    rw [hm] at hb
    exact hb
  | wrote hm => cases ha
  | notWritten hm => exact h.leave rfl
  | tookEvent hm hact =>
    exact h.goOn (by rw [hm]; rfl) (by rw [hm]; rfl) rfl rfl (fun _ => by simp [hact])
      fun hp => ⟨hp, rfl⟩
  | outputted hm =>
    rcases outputEvent_main config s _ with hout | hout
    · exact h.leave (by rw [hout]; rfl)
    · refine h.goOn (by rw [hm]; rfl) (by rw [hm]; rfl) (by rw [hout]; rfl) (by simp)
        (by simp) fun _ => ⟨hal, ?_⟩
      rw [outputEvent]
      split <;> rfl
  | reported hm => exact h.leave rfl
  | confirmed hm hc => exact h.leave rfl
  | received => exact h.same rfl rfl id fun hp => ⟨hp, rfl⟩
  | markedReceived hr hact hk ht =>
    exact h.same rfl (counter_markReceived ht) (fun _ => by simp [hact]) fun hp => ⟨hp, rfl⟩
  | unknown hr hact hk ht =>
    exact h.same rfl (counter_markReceived ht) id fun hp => ⟨hp, rfl⟩
  | fired hk => exact h.same rfl rfl id fun hp => ⟨hp, rfl⟩
  | wasReset hk hans => exact h.same rfl rfl id fun hp => ⟨hp, rfl⟩
  | timedOut hk hact ht =>
    exact h.same rfl (counter_handleTimeout ht) (fun _ => by simp [hact]) fun hp => ⟨hp, rfl⟩
  | stale hk hact ht => exact h.same rfl (counter_handleTimeout ht) id fun hp => ⟨hp, rfl⟩
  | lapsed hk hact => exact h.same rfl rfl id fun hp => ⟨hp, rfl⟩
  | cancelled => exact h.same rfl rfl id fun hp => ⟨hp, rfl⟩
  | exited hact hc => exact h.same rfl rfl (fun hne => absurd rfl hne) fun hp => ⟨hp, rfl⟩
  | panicked ht hp hp' hp'' hc =>
    refine h.same hp (by rw [hp'']) (fun hne => hp' ▸ hne) fun hpan => ?_
    rw [ht] at hpan
    cases hpan

theorem step (h : Budget n k s) (ht : config.totalPkts = some (n : Int)) (hok : inTime s a)
    (hst : s.step config a = some t) : Budget n (if writes a then k + 1 else k) t := by
  by_cases ha : writes a = true
  · obtain ⟨key, seq, hm, rfl⟩ := wrote_of_step ha hst
    rw [if_pos ha]
    exact h.wrote ht hm
  · rw [if_neg ha]
    exact h.move hok (alive_of_step hst) (by simpa using ha) (step_move hst)

end Budget

/-! ## The promise -/

/-- A ping of `n` packets that is `inTime` writes no more. -/
theorem budget (hn : 1 ≤ n) (ht : config.totalPkts = some (n : Int)) {x : SYNRun × Nat}
    (h : (counted config).Reachable (fun x a => inTime x.1 a) x) : Budget n x.2 x.1 := by
  refine h.invariant (I := fun x => Budget n x.2 x.1) (Budget.start hn) ?_
  intro x a y hx hok hst
  obtain ⟨hst, hy⟩ := System.tally_eq_some hst
  rw [hy]
  exact hx.step ht hok hst

theorem written_le (hn : 1 ≤ n) (ht : config.totalPkts = some (n : Int)) {x : SYNRun × Nat}
    (h : (counted config).Reachable (fun x a => inTime x.1 a) x) : x.2 ≤ n :=
  Nat.le_trans (Nat.le_add_right _ _) (budget hn ht h).bound

/-! ## No bound without a last packet -/

/-- The main loop and the tracker are in their selects, the ticker runs, and the key can be
stored. -/
structure Ready (key : Key) (s : SYNRun) : Prop where
  main : s.main = .select
  actor : s.actor = .select
  ticking : s.ticking = true
  alive : s.panicked = false
  counter : 0 ≤ s.tk.counter
  comparable : s.tk.comparable key = true

theorem counted_of_stepMain (hp : s.panicked = false) (h : s.stepMain config a = some t) :
    (counted config).step (s, k) a = some (t, if writes a then k + 1 else k) := by
  have hst : (system config).step s a = some t := step_of_stepMain hp h
  simp only [counted, System.tally, hst, Option.map_some]

/-- One more packet, where no packet is the last. -/
theorem ready_again {srcIP : IP} {srcPort : UInt16} {key : Key} (hbuf : 0 < config.tickBuffer)
    (hlast : ∀ m, config.totalPkts = some m → m < 1)
    (hkey : (config.receipt srcIP srcPort).key = some key) (h : Ready key s) :
    ∃ t, (counted config).Reach (fun x a => inTime x.1 a) (s, k) (t, k + 1) ∧ Ready key t := by
  have hm := h.main
  have ha := h.actor
  have hp := h.alive
  obtain ⟨tk, htk⟩ : ∃ tk, s.tk.markSent key (config.receipt srcIP srcPort) = some tk :=
    ⟨_, if_pos h.comparable⟩
  have hcount := counter_markSent htk
  have hpos := h.counter
  have hstored : key ∈ tk.store := by
    obtain ⟨_, htk⟩ := Option.ite_none_right_eq_some.1 htk
    cases htk
    exact AList.mem_insert _ |>.2 (Or.inl rfl)
  let ticks := min (s.ticks + 1) config.tickBuffer
  have hticks : 0 < ticks := Nat.lt_min.2 ⟨Nat.succ_pos _, hbuf⟩
  let s₁ : SYNRun := { s with ticks := ticks }
  let s₂ : SYNRun := { s₁ with ticks := ticks - 1, main := .preparing }
  let s₃ : SYNRun := { s₂ with main := .markingSent key (config.receipt srcIP srcPort) }
  let s₄ : SYNRun := { s₃ with tk := tk, main := .writing key s.tk.counter }
  have hseq : config.totalPkts ≠ some (s.tk.counter + 1) := fun heq => by
    have := hlast _ heq
    omega
  have hsent : s₄.sent config key s.tk.counter =
      { s₄ with main := .select, armed := s₄.armed ++ [key] } := if_neg hseq
  have h₁ : (counted config).step (s, k) .tickerFires = some (s₁, k) :=
    counted_of_stepMain hp (if_pos h.ticking)
  have h₂ : (counted config).step (s₁, k) .tick = some (s₂, k) :=
    counted_of_stepMain hp (if_pos ⟨hm, hticks⟩)
  have h₃ : (counted config).step (s₂, k) (.prepare srcIP srcPort) = some (s₃, k) := by
    refine counted_of_stepMain hp ?_
    simp only [stepMain, prepare, hkey, if_true, s₂, s₃]
  have h₄ : (counted config).step (s₃, k) .markSent = some (s₄, k) := by
    refine counted_of_stepMain hp ?_
    simp only [stepMain, s₃, s₂, s₁, ha, htk, s₄]
  have h₅ : (counted config).step (s₄, k) (.write none) =
      some ({ s₄ with main := .select, armed := s₄.armed ++ [key] }, k + 1) :=
    counted_of_stepMain hp (congrArg some hsent)
  have htick : inTime s₁ .tick := ⟨h.ticking, by simp [s₁, ha]⟩
  refine ⟨_, .head h₁ trivial (.head h₂ htick (.head h₃ trivial (.head h₄ trivial
    (.head h₅ trivial .refl)))), rfl, ha, h.ticking, hp, ?_, ?_⟩
  · show 0 ≤ tk.counter
    omega
  · exact (Tracker.uniform_of_markSent htk).comparable hstored

/-- Where no packet is the last there is a run of any number of packets. -/
theorem writes_any {srcIP : IP} {srcPort : UInt16} {key : Key} (hbuf : 0 < config.tickBuffer)
    (hlast : ∀ m, config.totalPkts = some m → m < 1)
    (hkey : (config.receipt srcIP srcPort).key = some key) (k : Nat) :
    ∃ x, (counted config).Reachable (fun x a => inTime x.1 a) x ∧ x.2 = k := by
  suffices h : ∀ k, ∃ s, (counted config).Reachable (fun x a => inTime x.1 a) (s, k) ∧
      Ready key s by
    obtain ⟨s, hr, _⟩ := h k
    exact ⟨(s, k), hr, rfl⟩
  intro k
  induction k with
  | zero => exact ⟨SYNRun.start, .refl, rfl, rfl, rfl, rfl, Int.le_refl 0, rfl⟩
  | succ k ih =>
    obtain ⟨s, hr, hs⟩ := ih
    obtain ⟨t, ht, hready⟩ := ready_again hbuf hlast hkey hs
    exact ⟨t, hr.trans ht, hready⟩

end SYNRun

end CloudPing.Pinger
