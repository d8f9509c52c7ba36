import Mathlib.Algebra.BigOperators.Fin
import CloudPing.Conc.Progress
import CloudPing.Pinger.TCPSYNPinger

/-!
# How a TCP ping shuts down

`TCPSYNPinger.Ping` runs one goroutine per target, and one more that closes the output
channel when the group of all targets is empty.  A target's goroutine leaves its loop on
several ways, and on all of them a deferred function waits on `allConfirmedCh` before
`wg.Done()` is called.  Only the event of the last packet closes that channel: on every
other way nobody is left to do so, the goroutine waits for good, and the output channel
stays open.
-/

namespace CloudPing.Pinger

open Conc

namespace SYNRun

variable {config : SYNConfig} {s t : SYNRun} {a : SYNAction}

/-! ## The goroutine of one target -/

/-- The loop is left by the event of the last packet and in no other way. -/
def leftByLastEvent (a : SYNAction) : Prop :=
  match a with
  | .tickClosed | .ctxDone | .eventsClosed | .sendErr _ | .write (some _) => False
  | _ => True

/-- The deferred function waits on `allConfirmedCh`, which is open. -/
def Waits (s : SYNRun) : Prop := s.main = .confirming ∧ s.allConfirmed = false

/-- A loop that is over can go on to `wg.Done()`. -/
structure Confirms (s : SYNRun) : Prop where
  failing : ∀ err, s.main ≠ .failing err
  closed : s.main = .confirming → s.allConfirmed = true
  left : s.allConfirmed = true → s.main = .confirming ∨ s.main = .returned

theorem Confirms.start : start.Confirms := by
  refine ⟨fun err h => ?_, fun h => ?_, fun h => ?_⟩ <;> cases h

theorem Confirms.not_waits (h : s.Confirms) : ¬ s.Waits := by
  rintro ⟨hmain, hopen⟩
  rw [h.closed hmain] at hopen
  cases hopen

/-- The channel is open while the loop goes on. -/
theorem Confirms.open_of_main (h : s.Confirms) (hmain : s.main ≠ .confirming)
    (hmain' : s.main ≠ .returned) : s.allConfirmed = false := by
  refine Bool.eq_false_iff.2 fun hclosed => ?_
  rcases h.left hclosed with hm | hm
  · exact hmain hm
  · exact hmain' hm

/-- A step on from the loop's own places that neither fails nor leaves. -/
theorem Confirms.of_going (hopen : t.allConfirmed = false) (hfail : ∀ err, t.main ≠ .failing err)
    (hmain : t.main ≠ .confirming) : t.Confirms := by
  refine ⟨hfail, fun h => absurd h hmain, fun h => ?_⟩
  rw [hopen] at h
  cases h

theorem Confirms.of_frame (h : s.Confirms) (hmain : t.main = s.main)
    (hclosed : t.allConfirmed = s.allConfirmed) : t.Confirms := by
  refine ⟨?_, ?_, ?_⟩
  · rw [hmain]
    exact h.failing
  · rw [hmain, hclosed]
    exact h.closed
  · rw [hmain, hclosed]
    exact h.left

/-! ### Steps of the main goroutine -/

/-- A goroutine that waits on an open channel does not move. -/
theorem stepMain_waits (hs : s.Waits) (h : s.stepMain config a = some t) : t.Waits := by
  obtain ⟨hmain, hopen⟩ := hs
  cases a with
  | tickerFires =>
    obtain ⟨_, h⟩ := Option.ite_none_right_eq_some.1 h
    cases h
    exact ⟨hmain, hopen⟩
  | _ =>
    simp only [stepMain, hmain, hopen] at h
    grind

theorem Confirms.stepMain (hs : s.Confirms) (ha : leftByLastEvent a)
    (h : s.stepMain config a = some t) : t.Confirms := by
  have hopen : s.main ≠ .confirming → s.main ≠ .returned → s.allConfirmed = false :=
    hs.open_of_main
  cases a with
  | tickerFires =>
    obtain ⟨_, h⟩ := Option.ite_none_right_eq_some.1 h
    cases h
    exact hs.of_frame rfl rfl
  | tick =>
    obtain ⟨⟨hmain, _⟩, h⟩ := Option.ite_none_right_eq_some.1 h
    cases h
    exact .of_going (hopen (by simp [hmain]) (by simp [hmain])) (by simp) (by simp)
  | prepare srcIP srcPort =>
    obtain ⟨hmain, h⟩ := Option.ite_none_right_eq_some.1 h
    cases h
    have hopen := hopen (by simp [hmain]) (by simp [hmain])
    unfold prepare
    split
    next => exact .of_going hopen (by simp) (by simp)
    next => exact hs.of_frame rfl rfl
  | markSent =>
    simp only [SYNRun.stepMain] at h
    split at h
    next hmain _ =>
      have hopen := hopen (by simp [hmain]) (by simp [hmain])
      split at h
      next => cases h; exact .of_going hopen (by simp) (by simp)
      next => cases h; exact hs.of_frame rfl rfl
    next hmain _ =>
      cases h
      exact .of_going (hopen (by simp [hmain]) (by simp [hmain])) (by simp) (by simp)
    next => cases h
  | write err =>
    simp only [SYNRun.stepMain] at h
    split at h
    next key seq hmain =>
      cases h
      have hopen := hopen (by simp [hmain]) (by simp [hmain])
      refine .of_going ?_ (by simp) (by simp)
      simp only [sent]
      split <;> exact hopen
    next => cases ha
    next => cases h
  | takeEvent =>
    simp only [SYNRun.stepMain] at h
    split at h
    next hmain _ =>
      cases h
      exact .of_going (hopen (by simp [hmain]) (by simp [hmain])) (by simp) (by simp)
    next => cases h
  | output =>
    simp only [SYNRun.stepMain] at h
    split at h
    next hmain =>
      cases h
      have hopen := hopen (by simp [hmain]) (by simp [hmain])
      unfold outputEvent
      split
      -- the last packet: `close(allConfirmedCh)` comes with the end of the loop
      next => exact ⟨by simp, fun _ => rfl, fun _ => .inl rfl⟩
      next => exact .of_going hopen (by simp) (by simp)
    next err hmain => exact absurd hmain (hs.failing err)
    next => cases h
  | confirm =>
    obtain ⟨_, h⟩ := Option.ite_none_right_eq_some.1 h
    cases h
    exact ⟨by simp, by simp, fun _ => .inr rfl⟩
  | tickClosed | ctxDone | eventsClosed | sendErr => cases ha
  | _ => cases h

/-! ### All steps -/

theorem waits_step (hs : s.Waits) (h : s.step config a = some t) : t.Waits := by
  have hframe : t.main = s.main ∧ t.allConfirmed = s.allConfirmed → t.Waits :=
    fun hf => ⟨hf.1.trans hs.1, hf.2.trans hs.2⟩
  unfold step at h
  split at h
  next => cases h
  next =>
    split at h
    all_goals
      first
      | exact stepMain_waits hs h
      | exact hframe (stepReceiver_frame h)
      | exact hframe (stepTimers_frame h)

theorem Confirms.step (hs : s.Confirms) (ha : leftByLastEvent a)
    (h : s.step config a = some t) : t.Confirms := by
  unfold SYNRun.step at h
  split at h
  next => cases h
  next =>
    split at h
    all_goals
      first
      | exact hs.stepMain ha h
      | exact hs.of_frame (stepReceiver_frame h).1 (stepReceiver_frame h).2
      | exact hs.of_frame (stepTimers_frame h).1 (stepTimers_frame h).2

/-- The goroutine leaves the loop in another way: at once, or after it has sent an error. -/
theorem leaves_of_not (hs : s.Confirms) (ha : ¬ leftByLastEvent a)
    (h : s.step config a = some t) : t.panicked = false ∧
      (t.Waits ∨ ∃ u, t.step config .output = some u ∧ u.Waits) := by
  have hopen : s.main ≠ .confirming → s.main ≠ .returned → s.allConfirmed = false :=
    hs.open_of_main
  have hal := alive_of_step h
  simp only [SYNRun.step, hal] at h
  cases a with
  | tickClosed | ctxDone | eventsClosed =>
    obtain ⟨⟨hmain, _⟩, h⟩ := Option.ite_none_right_eq_some.1 h
    cases h
    exact ⟨hal, .inl ⟨rfl, hopen (by simp [hmain]) (by simp [hmain])⟩⟩
  | sendErr err =>
    obtain ⟨hmain, h⟩ := Option.ite_none_right_eq_some.1 h
    cases h
    refine ⟨hal, .inr ⟨_, by simp only [SYNRun.step, hal]; rfl, rfl, ?_⟩⟩
    exact hopen (by simp [hmain]) (by simp [hmain])
  | write err =>
    cases err with
    | none => exact absurd trivial ha
    | some err =>
      have h : s.stepMain config (.write (some err)) = some t := h
      simp only [SYNRun.stepMain] at h
      split at h
      next heq => cases heq
      next hmain heq =>
        cases h
        cases heq
        refine ⟨hal, .inr ⟨_, by simp only [SYNRun.step, hal]; rfl, rfl, ?_⟩⟩
        exact hopen (by simp [hmain]) (by simp [hmain])
      next => cases h
  | _ => exact absurd trivial ha

end SYNRun

/-! ## All targets -/

/-- Where the goroutine of a target is. -/
inductive TargetPC where
  | absent
  /-- Before the loop: the address is looked up and the socket is opened. -/
  | preparing
  /-- In the loop, or in the deferred functions after it. -/
  | running (run : SYNRun)
  /-- `wg.Done()` has been called. -/
  | done

namespace TargetPC

def panicked : TargetPC → Bool
  | .running run => run.panicked
  | _ => false

/-- The share of a target in the group. -/
def active : TargetPC → Nat
  | .preparing | .running _ => 1
  | .absent | .done => 0

/-- The loop of the target is over. -/
def left : TargetPC → Bool
  | .running run => run.main = .confirming ∨ run.main = .returned
  | .done => true
  | .absent | .preparing => false

end TargetPC

/-- One call of `TCPSYNPinger.Ping`. -/
structure SYNPing (n : Nat) where
  /-- The targets whose goroutine was started. -/
  started : Nat
  wg : Nat
  targets : Fin n → TargetPC
  /-- `evCh` is closed. -/
  closed : Bool

inductive SYNPingAction (n : Nat) where
  /-- `wg.Add(1)`, and the next goroutine starts. -/
  | add
  /-- The goroutine reports that there is no address or no socket. -/
  | fail (i : Fin n)
  | enter (i : Fin n)
  | run (i : Fin n) (a : SYNAction)
  | done (i : Fin n)
  | close

namespace SYNPing

variable {n : Nat}

def start : SYNPing n := ⟨0, 0, fun _ => .absent, false⟩

def setTarget (s : SYNPing n) (i : Fin n) (target : TargetPC) : SYNPing n :=
  { s with targets := Function.update s.targets i target }

/-- `defer wg.Done()` -/
def finish (s : SYNPing n) (i : Fin n) : SYNPing n :=
  { s.setTarget i .done with wg := s.wg - 1 }

def move (configs : Fin n → SYNConfig) (s : SYNPing n) : SYNPingAction n → Option (SYNPing n)
  | .add =>
    if h : s.started < n then
      some
        { s.setTarget ⟨s.started, h⟩ .preparing with
          started := s.started + 1
          wg := s.wg + 1 }
    else none
  | .fail i =>
    match s.targets i with
    | .preparing => some (s.finish i)
    | _ => none
  | .enter i =>
    match s.targets i with
    | .preparing => some (s.setTarget i (.running .start))
    | _ => none
  | .run i a =>
    match s.targets i with
    | .running run => (run.step (configs i) a).map fun run => s.setTarget i (.running run)
    | _ => none
  | .done i =>
    match s.targets i with
    | .running run => if run.main = .returned then some (s.finish i) else none
    | _ => none
  | .close =>
    if s.started = n ∧ s.wg = 0 ∧ s.closed = false then some { s with closed := true } else none

/-- A panic of one goroutine ends all. -/
def step (configs : Fin n → SYNConfig) (s : SYNPing n) (a : SYNPingAction n) :
    Option (SYNPing n) :=
  if ∃ i, (s.targets i).panicked = true then none else s.move configs a

/-- All runs of a ping. -/
def system (configs : Fin n → SYNConfig) : System (SYNPing n) (SYNPingAction n) :=
  ⟨start, step configs⟩

/-- The deferred function of the target waits on `allConfirmedCh`, which is open. -/
def Waits (s : SYNPing n) (i : Fin n) : Prop := ∃ run, s.targets i = .running run ∧ run.Waits

/-- The deferred function of the target waits, and whatever happens it does. -/
def Stranded (configs : Fin n → SYNConfig) (s : SYNPing n) (i : Fin n) : Prop :=
  ∀ t, (system configs).Reach .any s t → t.Waits i

/-- Every loop that is left is left by the event of its last packet. -/
def leftByLastEvent : Policy (SYNPing n) (SYNPingAction n) := fun _ a =>
  match a with
  | .run _ a => SYNRun.leftByLastEvent a
  | _ => True

variable {configs : Fin n → SYNConfig} {s t : SYNPing n} {i : Fin n} {a : SYNPingAction n}

/-! ### What a step can do -/

/-- The effects of the actions. -/
inductive Move (configs : Fin n → SYNConfig) (s : SYNPing n) :
    SYNPingAction n → SYNPing n → Prop where
  | added (h : s.started < n) :
      Move configs s .add
        { s.setTarget ⟨s.started, h⟩ .preparing with
          started := s.started + 1, wg := s.wg + 1 }
  | failed {i : Fin n} (hi : s.targets i = .preparing) : Move configs s (.fail i) (s.finish i)
  | entered {i : Fin n} (hi : s.targets i = .preparing) :
      Move configs s (.enter i) (s.setTarget i (.running .start))
  | ran {i : Fin n} {a : SYNAction} {run run' : SYNRun} (hi : s.targets i = .running run)
      (hrun : run.step (configs i) a = some run') :
      Move configs s (.run i a) (s.setTarget i (.running run'))
  | finished {i : Fin n} {run : SYNRun} (hi : s.targets i = .running run)
      (hrun : run.main = .returned) : Move configs s (.done i) (s.finish i)
  | closed (hstarted : s.started = n) (hwg : s.wg = 0) :
      Move configs s .close { s with closed := true }

theorem step_move (h : s.step configs a = some t) : Move configs s a t := by
  obtain ⟨_, h⟩ := Option.ite_none_left_eq_some.1 h
  cases a with
  | add =>
    obtain ⟨hlt, h⟩ := Option.dite_none_right_eq_some.1 h
    cases h
    exact .added hlt
  | fail i =>
    simp only [move] at h
    split at h
    next hi => cases h; exact .failed hi
    next => cases h
  | enter i =>
    simp only [move] at h
    split at h
    next hi => cases h; exact .entered hi
    next => cases h
  | run i a =>
    simp only [move] at h
    split at h
    next run hi =>
      obtain ⟨run', hrun, rfl⟩ := Option.map_eq_some_iff.1 h
      exact .ran hi hrun
    next => cases h
  | done i =>
    simp only [move] at h
    split at h
    next run hi =>
      obtain ⟨hrun, h⟩ := Option.ite_none_right_eq_some.1 h
      cases h
      exact .finished hi hrun
    next => cases h
  | close =>
    obtain ⟨⟨hstarted, hwg, _⟩, h⟩ := Option.ite_none_right_eq_some.1 h
    cases h
    exact .closed hstarted hwg

theorem targets_setTarget (s : SYNPing n) (i j : Fin n) (target : TargetPC) :
    (s.setTarget i target).targets j = if j = i then target else s.targets j :=
  Function.update_apply _ _ _ _

/-! ### The group -/

/-- The counter of the group is the number of targets that are not done. -/
structure Grouped (s : SYNPing n) : Prop where
  wg : s.wg = ∑ i, (s.targets i).active
  bound : s.started ≤ n
  absent : ∀ i, s.targets i = .absent ↔ s.started ≤ i
  closed : s.closed = true → ∀ i, s.targets i = .done

theorem Grouped.start : (start : SYNPing n).Grouped :=
  ⟨by simp [SYNPing.start, TargetPC.active], Nat.zero_le n,
    fun i => ⟨fun _ => Nat.zero_le i, fun _ => rfl⟩, fun h => by cases h⟩

theorem Grouped.active_eq_zero (h : s.Grouped) (hwg : s.wg = 0) (i : Fin n) :
    (s.targets i).active = 0 :=
  (Finset.sum_eq_zero_iff.1 (h.wg.symm.trans hwg)) i (Finset.mem_univ i)

/-- A target that is not absent is replaced by one that is not. -/
theorem Grouped.absent_setTarget (h : s.Grouped) {target : TargetPC}
    (hi : s.targets i ≠ .absent) (htarget : target ≠ .absent) (j : Fin n) :
    (s.setTarget i target).targets j = .absent ↔ s.started ≤ j := by
  rw [targets_setTarget]
  split
  next hj =>
    subst hj
    exact iff_of_false htarget fun hle => hi ((h.absent j).2 hle)
  next => exact h.absent j

/-- An active target moves on, and is counted while it is still active. -/
theorem Grouped.moved (hs : s.Grouped) (target : TargetPC) (hi : (s.targets i).active = 1)
    (htarget : target ≠ .absent) (htargets : t.targets = (s.setTarget i target).targets)
    (hwg : t.wg = s.wg + target.active - 1) (hstarted : t.started = s.started)
    (hclosed : t.closed = s.closed) : t.Grouped where
  wg := by
    have hsum := sum_update s.targets i target TargetPC.active
    rw [hi, ← hs.wg] at hsum
    rw [hwg, htargets, ← hsum]
    rfl
  bound := hstarted ▸ hs.bound
  absent := by
    intro j
    rw [htargets, hstarted]
    exact hs.absent_setTarget (fun habsent => by rw [habsent] at hi; cases hi) htarget j
  closed := by
    intro hall
    rw [hs.closed (hclosed ▸ hall)] at hi
    cases hi

theorem Grouped.step (hs : s.Grouped) (h : s.step configs a = some t) : t.Grouped := by
  cases step_move h with
  | added hlt =>
    have habsent : s.targets ⟨s.started, hlt⟩ = .absent := (hs.absent _).2 (Nat.le_refl _)
    have hsum := sum_update s.targets ⟨s.started, hlt⟩ .preparing TargetPC.active
    refine ⟨?_, hlt, fun j => ?_, fun hclosed => ?_⟩
    · rw [habsent, ← hs.wg] at hsum
      exact hsum.symm
    · show (s.setTarget ⟨s.started, hlt⟩ .preparing).targets j = .absent ↔ s.started + 1 ≤ j
      rw [targets_setTarget]
      split
      next hj =>
        subst hj
        exact iff_of_false (fun hp => by cases hp) (by simp)
      next hj =>
        have hne : (j : Nat) ≠ s.started := fun he => hj (Fin.ext he)
        rw [hs.absent j]
        omega
    · rw [hs.closed hclosed] at habsent
      cases habsent
  | failed hi => exact hs.moved .done (by rw [hi]; rfl) (by simp) rfl rfl rfl rfl
  | entered hi =>
    exact hs.moved (.running .start) (by rw [hi]; rfl) (by simp) rfl rfl rfl rfl
  | @ran _ _ _ run' hi =>
    exact hs.moved (.running run') (by rw [hi]; rfl) (by simp) rfl rfl rfl rfl
  | finished hi => exact hs.moved .done (by rw [hi]; rfl) (by simp) rfl rfl rfl rfl
  | closed hstarted hwg =>
    refine ⟨hs.wg, hs.bound, hs.absent, fun _ i => ?_⟩
    have hactive := hs.active_eq_zero hwg i
    cases hi : s.targets i with
    | absent =>
      have hle := (hs.absent i).1 hi
      omega
    | preparing | running run =>
      rw [hi] at hactive
      cases hactive
    | done => rfl

theorem grouped_of_reachable {ok : Policy (SYNPing n) (SYNPingAction n)}
    (h : (system configs).Reachable ok s) : s.Grouped :=
  h.invariant Grouped.start fun _ _ _ hs _ hst => hs.step hst

/-! ### Waiting for good -/

theorem waits_step (hg : s.Grouped) (hs : s.Waits i) (h : s.step configs a = some t) :
    t.Waits i := by
  obtain ⟨run, hi, hwaits⟩ := hs
  have hother : ∀ {j target}, j ≠ i → (s.setTarget j target).Waits i := fun hj =>
    ⟨run, by rw [targets_setTarget, if_neg (Ne.symm hj), hi], hwaits⟩
  cases step_move h with
  | added hlt =>
    refine hother fun hj => ?_
    have habsent : s.targets i = .absent := hj ▸ (hg.absent _).2 (Nat.le_refl _)
    cases habsent.symm.trans hi
  | @failed j hj => exact hother fun hji => by rw [← hji, hj] at hi; cases hi
  | @entered j hj => exact hother fun hji => by rw [← hji, hj] at hi; cases hi
  | @ran j a run₀ run' hj hrun =>
    by_cases hji : j = i
    · subst hji
      cases hj.symm.trans hi
      exact ⟨run', by rw [targets_setTarget, if_pos rfl], SYNRun.waits_step hwaits hrun⟩
    · exact hother hji
  | @finished j run₀ hj hrun =>
    refine hother fun hji => ?_
    subst hji
    cases hj.symm.trans hi
    cases hrun.symm.trans hwaits.1
  | closed => exact ⟨run, hi, hwaits⟩

/-- A deferred function that waits on an open channel does so for good. -/
theorem Waits.stranded (hg : s.Grouped) (hs : s.Waits i) : s.Stranded configs i := by
  intro t ht
  have hboth := ht.induct (I := fun s => s.Grouped ∧ s.Waits i) ⟨hg, hs⟩
    fun s a t hi _ hst => ⟨hi.1.step hst, waits_step hi.1 hi.2 hst⟩
  exact hboth.2

/-- The output channel stays open then. -/
theorem Stranded.never_closed (hg : s.Grouped) (hs : s.Stranded configs i)
    (h : (system configs).Reach .any s t) : t.closed = false := by
  obtain ⟨run, hi, _⟩ := hs t h
  have hgt : t.Grouped := h.induct hg fun _ _ _ hs _ hst => hs.step hst
  refine Bool.eq_false_iff.2 fun hclosed => ?_
  rw [hgt.closed hclosed] at hi
  cases hi

/-! ### Loops that are left by their last event -/

/-- All loops that are over can go on to `wg.Done()`. -/
def Confirms (s : SYNPing n) : Prop := ∀ i run, s.targets i = .running run → run.Confirms

theorem Confirms.setTarget (hs : s.Confirms) {target : TargetPC}
    (htarget : ∀ run, target = .running run → run.Confirms) :
    (s.setTarget i target).Confirms := by
  intro j run hj
  rw [targets_setTarget] at hj
  split at hj
  next => exact htarget run hj
  next => exact hs j run hj

theorem confirms_of_reachable (h : (system configs).Reachable leftByLastEvent s) :
    s.Confirms := by
  refine h.invariant (fun i run hi => by cases hi) fun s a t hs ha hst => ?_
  cases step_move hst with
  | added => exact hs.setTarget (s := s) fun run hrun => by cases hrun
  | failed => exact hs.setTarget (s := s) fun run hrun => by cases hrun
  | entered =>
    refine hs.setTarget (s := s) fun run hrun => ?_
    cases hrun
    exact .start
  | ran hi hrun =>
    refine hs.setTarget (s := s) fun run hrun' => ?_
    cases hrun'
    exact (hs _ _ hi).step ha hrun
  | finished => exact hs.setTarget (s := s) fun run hrun => by cases hrun
  | closed => exact hs

theorem alive_of_step (h : s.step configs a = some t) (i : Fin n) :
    (s.targets i).panicked = false := by
  obtain ⟨halive, _⟩ := Option.ite_none_left_eq_some.1 h
  exact Bool.eq_false_iff.2 fun hp => halive ⟨i, hp⟩

theorem step_of_alive (h : ∀ i, (s.targets i).panicked = false) :
    s.step configs a = s.move configs a :=
  if_neg fun ⟨i, hi⟩ => by rw [h i] at hi; cases hi

theorem run_of_alive {run run' : SYNRun} {b : SYNAction} (hi : s.targets i = .running run)
    (h : ∀ i, (s.targets i).panicked = false) (hrun : run.step (configs i) b = some run') :
    s.step configs (.run i b) = some (s.setTarget i (.running run')) := by
  rw [step_of_alive h]
  simp only [move, hi, hrun, Option.map_some]

theorem targets_setTarget_same {run : SYNRun} :
    (s.setTarget i (.running run)).targets i = .running run := by
  rw [targets_setTarget, if_pos rfl]

theorem alive_setTarget {run : SYNRun} (hrun : run.panicked = false)
    (h : ∀ i, (s.targets i).panicked = false) (j : Fin n) :
    ((s.setTarget i (.running run)).targets j).panicked = false := by
  rw [targets_setTarget]
  split
  next => exact hrun
  next => exact h j

/-- A loop that is left in another way is over for good one step later. -/
theorem waits_of_not (hs : s.Confirms) (h : s.step configs a = some t)
    (ha : ¬ leftByLastEvent s a) :
    ∃ i u, (system configs).Reach leftByLastEvent t u ∧ u.Waits i := by
  have halive := alive_of_step h
  cases step_move h with
  | @ran i b run run' hi hrun =>
    obtain ⟨hpanicked, hwaits | ⟨u, hu, hwaits⟩⟩ := SYNRun.leaves_of_not (hs i run hi) ha hrun
    · exact ⟨i, _, .refl, run', targets_setTarget_same, hwaits⟩
    · have hstep := run_of_alive targets_setTarget_same (alive_setTarget hpanicked halive) hu
      exact ⟨i, _, .head hstep trivial .refl, u, targets_setTarget_same, hwaits⟩
  | added | failed | entered | finished | closed => exact absurd trivial ha

/-! ### Closing the output channel -/

/-- A goroutine that has returned from its loop calls `wg.Done()`. -/
theorem finish_of_returned {run : SYNRun} (halive : ∀ i, (s.targets i).panicked = false)
    (hi : s.targets i = .running run) (hrun : run.main = .returned) :
    s.step configs (.done i) = some (s.finish i) := by
  rw [step_of_alive halive]
  simp only [move, hi, hrun, if_true]

/-- A target whose loop is over leaves the group. -/
theorem finishes {run : SYNRun} (hs : s.Confirms) (halive : ∀ i, (s.targets i).panicked = false)
    (hi : s.targets i = .running run) (hleft : (s.targets i).left = true) :
    ∃ t, (system configs).Reach leftByLastEvent s t ∧ t.wg = s.wg - 1 ∧
      ∀ j, t.targets j = .done ∨ t.targets j = s.targets j := by
  have hleft : run.main = .confirming ∨ run.main = .returned := by
    rw [hi] at hleft
    exact of_decide_eq_true hleft
  rcases hleft with hmain | hmain
  · -- the deferred receive goes on, since the channel is closed
    let run' : SYNRun := { run with main := .returned }
    have hpanicked : run.panicked = false := by
      have hp := halive i
      rwa [hi] at hp
    have hstep : run.step (configs i) .confirm = some run' := by
      have hclosed := (hs i run hi).closed hmain
      exact SYNRun.step_of_stepMain hpanicked (if_pos ⟨hmain, hclosed⟩)
    have halive' : ∀ j, ((s.setTarget i (.running run')).targets j).panicked = false :=
      alive_setTarget hpanicked halive
    refine ⟨_, .head (run_of_alive hi halive hstep) trivial
      (.head (finish_of_returned halive' targets_setTarget_same rfl) trivial .refl), rfl,
      fun j => ?_⟩
    show ((s.setTarget i (.running run')).setTarget i .done).targets j = .done ∨
      ((s.setTarget i (.running run')).setTarget i .done).targets j = s.targets j
    rw [targets_setTarget, targets_setTarget]
    split
    next => exact .inl rfl
    next => exact .inr rfl
  · refine ⟨_, .head (finish_of_returned halive hi hmain) trivial .refl, rfl, fun j => ?_⟩
    show (s.setTarget i .done).targets j = .done ∨ (s.setTarget i .done).targets j = s.targets j
    rw [targets_setTarget]
    split
    next => exact .inl rfl
    next => exact .inr rfl

/-- When all loops are over, the output channel gets closed. -/
theorem closes (hs : (system configs).Reachable leftByLastEvent s)
    (hleft : ∀ i, (s.targets i).left = true) (halive : ∀ i, (s.targets i).panicked = false) :
    ∃ t, (system configs).Reach leftByLastEvent s t ∧ t.closed = true := by
  have hg := grouped_of_reachable hs
  induction hwg : s.wg generalizing s with
  | zero =>
    have hstarted : s.started = n := by
      rcases Nat.lt_or_eq_of_le hg.bound with hlt | heq
      · have habsent : s.targets ⟨s.started, hlt⟩ = .absent := (hg.absent _).2 (Nat.le_refl _)
        have hnot := hleft ⟨s.started, hlt⟩
        rw [habsent] at hnot
        cases hnot
      · exact heq
    cases hclosed : s.closed with
    | true => exact ⟨s, .refl, hclosed⟩
    | false =>
      refine ⟨_, .head (a := .close) (t := { s with closed := true }) ?_ trivial .refl, rfl⟩
      show s.step configs .close = _
      rw [step_of_alive halive, move, if_pos ⟨hstarted, hwg, hclosed⟩]
  | succ k ih =>
    obtain ⟨i, _, hi⟩ : ∃ i ∈ Finset.univ, (s.targets i).active ≠ 0 := by
      refine Finset.exists_ne_zero_of_sum_ne_zero ?_
      rw [← hg.wg, hwg]
      exact Nat.succ_ne_zero k
    cases htarget : s.targets i with
    | absent | done =>
      rw [htarget] at hi
      exact absurd rfl hi
    | preparing =>
      have hnot := hleft i
      rw [htarget] at hnot
      cases hnot
    | running run =>
      obtain ⟨t, ht, hcount, hkept⟩ :=
        finishes (confirms_of_reachable hs) halive htarget (hleft i)
      have hreach : (system configs).Reachable leftByLastEvent t := hs.trans ht
      obtain ⟨u, hu, hclosed⟩ := ih hreach
        (fun j => (hkept j).elim (fun h => by rw [h]; rfl) fun h => by rw [h]; exact hleft j)
        (fun j => (hkept j).elim (fun h => by rw [h]; rfl) fun h => by rw [h]; exact halive j)
        (grouped_of_reachable hreach) (by rw [hcount, hwg]; rfl)
      exact ⟨u, ht.trans hu, hclosed⟩

/-- No deferred function waits for good exactly as long as every loop is left by its last
event; and when all loops are over the output channel gets closed. -/
theorem shutdown_guards (configs : Fin n → SYNConfig) :
    (system configs).Guards leftByLastEvent (fun s => ∀ i, ¬ s.Stranded configs i) ∧
      ∀ s, (system configs).Reachable leftByLastEvent s →
        (∀ i, (s.targets i).left = true ∧ (s.targets i).panicked = false) →
        ∃ t, (system configs).Reach leftByLastEvent s t ∧ t.closed = true := by
  refine ⟨⟨fun s hs i hstranded => ?_, fun s a t hs hst ha => ?_⟩, fun s hs h => ?_⟩
  · obtain ⟨run, hi, hwaits⟩ := hstranded s .refl
    exact (confirms_of_reachable hs i run hi).not_waits hwaits
  · obtain ⟨i, u, hu, hwaits⟩ := waits_of_not (confirms_of_reachable hs) hst ha
    have hg := grouped_of_reachable ((System.Reach.tail hs.any trivial hst).trans
      (hu.mono fun _ _ _ => trivial))
    exact ⟨u, hu, fun h => h i (hwaits.stranded hg)⟩
  · exact closes hs (fun i => (h i).1) fun i => (h i).2

/-- One target, and one packet to send. -/
def oneTarget : Fin 1 → SYNConfig := fun _ => ⟨[192, 0, 2, 1], 443, 1000000000, some 1, 1, true⟩

/-- The context ends before the first packet. -/
theorem stranded_on_cancel : ∃ s, (system oneTarget).Reachable .any s ∧
    s.Stranded oneTarget 0 ∧ ∀ t, (system oneTarget).Reach .any s t → t.closed = false := by
  obtain ⟨s, hs, hp⟩ := System.exists_of_replay (system oneTarget) .any
    (fun s => match s.targets 0 with
      | .running run => run.main = .confirming ∧ run.allConfirmed = false
      | _ => false)
    [.add, .enter 0, .run 0 .cancel, .run 0 .ctxDone] (by decide +kernel)
  have hwaits : s.Waits 0 := by
    split at hp
    next run hi =>
      have hboth : run.main = .confirming ∧ run.allConfirmed = false := of_decide_eq_true hp
      exact ⟨run, hi, hboth⟩
    next => cases hp
  have hg := grouped_of_reachable hs
  exact ⟨s, hs, hwaits.stranded hg, fun t ht => (hwaits.stranded hg).never_closed hg ht⟩

end SYNPing

end CloudPing.Pinger
