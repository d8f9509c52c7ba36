import CloudPing.Pinger.PacketCount
import Mathlib.Logic.Function.Basic

/-!
# One generator for all targets

`SimplePinger.Ping` starts a goroutine for each target, and all of them use the TTL generator of
the request.  The first packet of a target takes its TTL from the generator, and each of its
events starts an automatic one over, reads it and moves it forward, in up to three calls with
lookups between them.  The calls of other targets come in anywhere.

Here each target is a `PingRun`, and what its event goroutine does with the generator is taken
apart.  A TTL that a target takes is its own as long as no other target has moved the generator, and
with a generator that always has the same TTL (`unshared`).  Then each target runs as it would run
alone (`nonInterfering_of_unshared`).

The `ttl` of a target's own run is what its own calls alone would have made of the generator.  The
proof goes through `readsOwn`, by which a target that takes a TTL from the shared one finds this TTL
there (`nonInterfering_of_readsOwn`).
-/

namespace CloudPing.Pinger

open Conc Raw

/-! ## The targets -/

/-- A request, with what differs from one target to another. -/
structure PingGroup where
  numTargets : Nat
  target : Nat → PingConfig
  ttl : TTLGenerator

/-- What `Ping` reads of the request for a target. -/
def PingGroup.config (group : PingGroup) (i : Nat) : PingConfig :=
  { group.target i with ttl := group.ttl }

/-- How far the event goroutine is with an event. -/
inductive TTLStage where
  | idle
  /-- The generator was started over, if the last hop has answered. -/
  | enriching
  /-- It has read the generator. -/
  | got (found : Bool) (nextTTL : Int)
  deriving DecidableEq, Repr

/-- Where the goroutines of a target are.  `log` has what they did. -/
inductive TargetRun where
  | preparing
  | failed
  /-- The first TTL was read. -/
  | first (ttl : Int)
  | running (run : PingRun) (stage : TTLStage) (log : List PingAction)

structure SharedRun where
  ttl : TTLGenerator
  targets : Nat → TargetRun

inductive SharedAction where
  /-- The target has no address, or is not allowed. -/
  | fail (i : Nat)
  | getFirst (i : Nat)
  | forwardFirst (i : Nat)
  | reset (i : Nat)
  | get (i : Nat) (found : Bool)
  | forward (i : Nat)
  /-- Any other step of a target. -/
  | own (i : Nat) (a : PingAction)

def PingAction.isResolve : PingAction → Bool
  | .resolve _ => true
  | _ => false

namespace PingRun

/-- The own generator, after an event of the last hop. -/
def restarted (s : PingRun) (ev : ICMPTrackerEntry) : TTLGenerator :=
  if ev.foundLastHop && s.ttl.isAuto then s.ttl.reset else s.ttl

/-- The event sets an MTU, so the generator is not moved. -/
def setsPMTU (ev : ICMPTrackerEntry) (found : Bool) : Bool :=
  ((if found then some ev else none).bind ICMPTrackerEntry.getPMTU).isSome

/-- The next packet has the TTL of the event, and what was read is not used. -/
def repeatsTTL (ev : ICMPTrackerEntry) (found : Bool) : Bool :=
  setsPMTU ev found && decide (ev.ttl > 1)

/-- After `handle`, with the TTL that was read. -/
def withNextTTL (ev : ICMPTrackerEntry) (found : Bool) (nextTTL : Int) (s : PingRun) : PingRun :=
  if repeatsTTL ev found then s
  else
    match s.ev with
    | .outputting data _ => { s with ev := .outputting data nextTTL }
    | _ => s

/-- The start, with the first TTL that was read. -/
def startWith (config : PingConfig) (ttl : Int) : PingRun :=
  { start config with ctrlSignals := ⟨1, [⟨1, ttl, false⟩], false, Nat.zero_lt_one⟩ }

end PingRun

namespace SharedRun

def start (group : PingGroup) : SharedRun := ⟨group.ttl, fun _ => .preparing⟩

def goto (s : SharedRun) (i : Nat) (target : TargetRun) : SharedRun :=
  { s with targets := Function.update s.targets i target }

/-- A step of one of the targets. -/
def stepTarget (group : PingGroup) (s : SharedRun) : SharedAction → Option SharedRun
  | .fail i =>
    match s.targets i with
    | .preparing => some (s.goto i .failed)
    | _ => none
  | .getFirst i =>
    match s.targets i with
    | .preparing => some (s.goto i (.first s.ttl.get))
    | _ => none
  | .forwardFirst i =>
    match s.targets i with
    | .first ttl =>
      some ({ s with ttl := s.ttl.forward }.goto i
        (.running (PingRun.startWith (group.config i) ttl) .idle []))
    | _ => none
  | .reset i =>
    match s.targets i with
    | .running run .idle log =>
      match run.ev with
      | .handling ev =>
        let ttl := if ev.foundLastHop && s.ttl.isAuto then s.ttl.reset else s.ttl
        some ({ s with ttl := ttl }.goto i (.running run .enriching log))
      | _ => none
    | _ => none
  | .get i found =>
    match s.targets i with
    | .running run .enriching log => some (s.goto i (.running run (.got found s.ttl.get) log))
    | _ => none
  | .forward i =>
    match s.targets i with
    | .running run (.got found nextTTL) log =>
      match run.ev with
      | .handling ev =>
        (run.step (group.config i) (PingAction.resolve found)).map fun run' =>
          { s with ttl := if PingRun.setsPMTU ev found then s.ttl else s.ttl.forward }.goto i
            (.running (run'.withNextTTL ev found nextTTL) .idle (log ++ [PingAction.resolve found]))
      | _ => none
    | _ => none
  | .own i a =>
    match s.targets i with
    | .running run stage log =>
      if a.isResolve then none
      else
        (run.step (group.config i) a).map fun run' => s.goto i (.running run' stage (log ++ [a]))
    | _ => none

end SharedRun

/-- The target that takes the step. -/
def SharedAction.target : SharedAction → Nat
  | .fail i | .getFirst i | .forwardFirst i | .reset i | .get i _ | .forward i | .own i _ => i

namespace SharedRun

def step (group : PingGroup) (s : SharedRun) (a : SharedAction) : Option SharedRun :=
  if a.target < group.numTargets then s.stepTarget group a else none

/-- All runs of a request. -/
def system (group : PingGroup) : System SharedRun SharedAction := ⟨start group, step group⟩

end SharedRun

/-! ## The promise and the condition -/

/-- The run of a request with this target only, if it can do this. -/
def PingRun.exec (config : PingConfig) (as : List PingAction) : Option PingRun :=
  as.foldlM (PingRun.step config) (PingRun.start config)

def PingAction.replied : PingAction → Option ICMPReceiveReply
  | .reply rx => some rx
  | _ => none

/-- The replies that come in. -/
def repliesOf (as : List PingAction) : List ICMPReceiveReply := as.filterMap PingAction.replied

/-- The TTL of the target's own generator for the next packet, when the target is at the read. -/
def TargetRun.due (found : Bool) : TargetRun → Option Int
  | .running run .enriching _ =>
    match run.ev with
    | .handling ev => if PingRun.repeatsTTL ev found then none else some (run.restarted ev).get
    | _ => none
  | _ => none

/-- The goroutine of the target has moved the generator. -/
def TargetRun.moved : TargetRun → Bool
  | .running _ _ _ => true
  | .preparing | .failed | .first _ => false

/-- The event that the target is at makes the next packet repeat its TTL. -/
def TargetRun.repeats (found : Bool) : TargetRun → Bool
  | .running run _ _ =>
    match run.ev with
    | .handling ev => PingRun.repeatsTTL ev found
    | _ => false
  | .preparing | .failed | .first _ => false

/-- The TTLs of the packets that were sent. -/
def PingRun.ttls (s : PingRun) : List Int := s.wire.map ICMPSendRequest.ttl

namespace SharedRun

/-- A run with the target alone could have got the same replies and used the same TTLs. -/
def NonInterfering (group : PingGroup) (s : SharedRun) : Prop :=
  ∀ i run stage log, s.targets i = .running run stage log →
    ∃ as alone, PingRun.exec (group.config i) as = some alone ∧ repliesOf as = repliesOf log ∧
      alone.ttls = run.ttls

/-- No other target has moved the generator. -/
def UnmovedByOthers (group : PingGroup) (s : SharedRun) (i : Nat) : Prop :=
  ∀ j < group.numTargets, j ≠ i → (s.targets j).moved = false

instance (group : PingGroup) (s : SharedRun) (i : Nat) : Decidable (s.UnmovedByOthers group i) :=
  inferInstanceAs (Decidable (∀ j < group.numTargets, j ≠ i → (s.targets j).moved = false))

/-- A target takes a TTL for a packet only before another target has moved the generator, or the
generator has one TTL. -/
def unshared (group : PingGroup) : Policy SharedRun SharedAction := fun s a =>
  match a with
  | .getFirst i => group.ttl.isConstant = true ∨ s.UnmovedByOthers group i
  | .get i found =>
    group.ttl.isConstant = true ∨ (s.targets i).repeats found = true ∨ s.UnmovedByOthers group i
  | _ => True

instance (group : PingGroup) (s : SharedRun) : ∀ a, Decidable (unshared group s a)
  | .getFirst i =>
    inferInstanceAs (Decidable (group.ttl.isConstant = true ∨ s.UnmovedByOthers group i))
  | .get i found =>
    inferInstanceAs (Decidable (group.ttl.isConstant = true ∨
      (s.targets i).repeats found = true ∨ s.UnmovedByOthers group i))
  | .fail _ | .forwardFirst _ | .reset _ | .forward _ | .own _ _ => isTrue trivial

/-- A target that takes a TTL from the generator finds the one there that its own calls alone
would have brought it to. -/
def readsOwn (group : PingGroup) : Policy SharedRun SharedAction := fun s a =>
  match a with
  | .getFirst _ => s.ttl.get = group.ttl.get
  | .get i found => ∀ ttl ∈ (s.targets i).due found, s.ttl.get = ttl
  | _ => True

end SharedRun

/-! ## A target by itself -/

namespace PingRun

variable {config : PingConfig} {s t : PingRun} {a : PingAction}

/-- Only an event moves the own generator. -/
theorem ttl_of_step (h : s.step config a = some t) (ha : a.isResolve = false) : t.ttl = s.ttl := by
  cases step_move h with
  | handled => cases ha
  | _ => rfl

/-- The event goroutine stays at its event while the others go on. -/
theorem handling_of_step {ev : ICMPTrackerEntry} (h : s.step config a = some t)
    (ha : a.isResolve = false) (hev : s.ev = .handling ev) : t.ev = .handling ev := by
  cases step_move h with
  | handled => cases ha
  | stopped he | finished he | tookEvent he | outputted he | asked he | unfinished he | paused he
  | signalled he =>
    rw [hev] at he
    cases he
  | _ => exact hev

/-- What `handle` does with the own generator and the next TTL. -/
theorem handle_cases (config : PingConfig) (s : PingRun) (ev : ICMPTrackerEntry) (found : Bool) :
    (setsPMTU ev found = false ∧ ∃ pmtu data, s.handle config ev found =
        { s with
          ttl := (s.restarted ev).forward, pmtu := pmtu
          ev := .outputting data (s.restarted ev).get }) ∨
      (setsPMTU ev found = true ∧ ev.ttl > 1 ∧ (s.handle config ev found).ttl = s.restarted ev) ∨
        (setsPMTU ev found = true ∧ ¬ev.ttl > 1 ∧ ∃ pmtu data, s.handle config ev found =
          { s with
            ttl := s.restarted ev, pmtu := pmtu
            ev := .outputting data (s.restarted ev).get }) := by
  rw [setsPMTU]
  unfold handle
  cases hp : (if found then some ev else none).bind ICMPTrackerEntry.getPMTU with
  | none =>
    simp only [hp]
    exact Or.inl ⟨rfl, _, _, rfl⟩
  | some m =>
    simp only [hp]
    by_cases httl : ev.ttl > 1
    · simp only [if_pos httl]
      exact Or.inr (Or.inl ⟨rfl, httl, rfl⟩)
    · simp only [if_neg httl]
      exact Or.inr (Or.inr ⟨rfl, httl, _, _, rfl⟩)

/-- With the TTL of the own generator, an event is handled as ever. -/
theorem withNextTTL_handle {ev : ICMPTrackerEntry} {found : Bool} {nextTTL : Int}
    (config : PingConfig) (s : PingRun)
    (h : repeatsTTL ev found = false → nextTTL = (s.restarted ev).get) :
    (s.handle config ev found).withNextTTL ev found nextTTL = s.handle config ev found := by
  cases hr : repeatsTTL ev found with
  | true => rw [withNextTTL, if_pos hr]
  | false =>
    rw [h hr, withNextTTL, hr, if_neg (by decide)]
    rcases handle_cases config s ev found with ⟨-, pmtu, data, he⟩ | ⟨hp, httl, -⟩ |
      ⟨-, -, pmtu, data, he⟩
    · rw [he]
    · rw [repeatsTTL, hp, decide_eq_true httl] at hr
      cases hr
    · rw [he]

theorem ttl_handle (config : PingConfig) (s : PingRun) (ev : ICMPTrackerEntry) (found : Bool) :
    (s.handle config ev found).ttl =
      if setsPMTU ev found then s.restarted ev else (s.restarted ev).forward := by
  rcases handle_cases config s ev found with ⟨hp, pmtu, data, h⟩ | ⟨hp, -, h⟩ |
    ⟨hp, -, pmtu, data, h⟩
  · rw [h, hp, if_neg (by decide)]
  · rw [h, hp, if_pos rfl]
  · rw [h, hp, if_pos rfl]

@[simp]
theorem ttl_withNextTTL (ev : ICMPTrackerEntry) (found : Bool) (nextTTL : Int) (s : PingRun) :
    (s.withNextTTL ev found nextTTL).ttl = s.ttl := by
  rw [withNextTTL]
  split
  · rfl
  · split <;> rfl

theorem exec_append {log : List PingAction} (h : exec config log = some s) :
    exec config (log ++ [a]) = s.step config a := by
  rw [exec] at h ⊢
  rw [List.foldlM_append, h]
  simp

end PingRun

/-! ## What a step of the shared run can do -/

namespace SharedRun

/-- The steps of the targets, each with what holds when it happens. -/
inductive Moved (group : PingGroup) (s : SharedRun) : SharedAction → SharedRun → Prop where
| fail {i : Nat} :
  s.targets i = .preparing →
  Moved group s (.fail i) (s.goto i .failed)
| getFirst {i : Nat} :
  s.targets i = .preparing →
  Moved group s (.getFirst i) (s.goto i (.first s.ttl.get))
| forwardFirst {i : Nat} {ttl : Int} :
  s.targets i = .first ttl →
  Moved group s (.forwardFirst i)
    ({ s with ttl := s.ttl.forward }.goto i
      (.running (PingRun.startWith (group.config i) ttl) .idle []))
| reset {i : Nat} {run : PingRun} {log : List PingAction} {ev : ICMPTrackerEntry} :
  s.targets i = .running run .idle log →
  run.ev = .handling ev →
  Moved group s (.reset i)
    ({ s with ttl := if ev.foundLastHop && s.ttl.isAuto then s.ttl.reset else s.ttl }.goto i
      (.running run .enriching log))
| get {i : Nat} {found : Bool} {run : PingRun} {log : List PingAction} :
  s.targets i = .running run .enriching log →
  Moved group s (.get i found) (s.goto i (.running run (.got found s.ttl.get) log))
| forward {i : Nat} {found : Bool} {nextTTL : Int} {run run' : PingRun} {log : List PingAction}
    {ev : ICMPTrackerEntry} :
  s.targets i = .running run (.got found nextTTL) log →
  run.ev = .handling ev →
  run.step (group.config i) (.resolve found) = some run' →
  Moved group s (.forward i)
    ({ s with ttl := if PingRun.setsPMTU ev found then s.ttl else s.ttl.forward }.goto i
      (.running (run'.withNextTTL ev found nextTTL) .idle
        (log ++ [PingAction.resolve found])))
| own {i : Nat} {a : PingAction} {run run' : PingRun} {stage : TTLStage} {log : List PingAction} :
  s.targets i = .running run stage log →
  a.isResolve = false →
  run.step (group.config i) a = some run' →
  Moved group s (.own i a) (s.goto i (.running run' stage (log ++ [a])))

variable {group : PingGroup} {s t : SharedRun} {a : SharedAction}

theorem moved_of_stepTarget (h : s.stepTarget group a = some t) : Moved group s a t := by
  unfold stepTarget at h
  split at h
  next i =>
    split at h
    next hi => cases h; exact .fail hi
    next => cases h
  next i =>
    split at h
    next hi => cases h; exact .getFirst hi
    next => cases h
  next i =>
    split at h
    next hi => cases h; exact .forwardFirst hi
    next => cases h
  next i =>
    split at h
    next hi =>
      split at h
      next hev => cases h; exact .reset hi hev
      next => cases h
    next => cases h
  next i found =>
    split at h
    next hi => cases h; exact .get hi
    next => cases h
  next i =>
    split at h
    next hi =>
      split at h
      next hev =>
        obtain ⟨run', hs, rfl⟩ := Option.map_eq_some_iff.1 h
        exact .forward hi hev hs
      next => cases h
    next => cases h
  next i a =>
    split at h
    next hi =>
      obtain ⟨ha, h⟩ := Option.ite_none_left_eq_some.1 h
      obtain ⟨run', hs, rfl⟩ := Option.map_eq_some_iff.1 h
      exact .own hi (Bool.eq_false_iff.2 ha) hs
    next => cases h

theorem step_eq_some (h : step group s a = some t) :
    a.target < group.numTargets ∧ Moved group s a t := by
  obtain ⟨ha, h⟩ := Option.ite_none_right_eq_some.1 h
  exact ⟨ha, moved_of_stepTarget h⟩

/-- What holds of the other targets and of the new one holds of all. -/
theorem forall_goto {P : Nat → TargetRun → Prop} {i : Nat} {target : TargetRun}
    (h : ∀ j, P j (s.targets j)) (hi : P i target) (j : Nat) :
    P j ((s.goto i target).targets j) := by
  exact (Function.forall_update_iff s.targets (p := P)).2 ⟨hi, fun j _ => h j⟩ j

end SharedRun

theorem TargetRun.due_eq {run : PingRun} {log : List PingAction} {ev : ICMPTrackerEntry}
    {found : Bool} (hev : run.ev = .handling ev) :
    TargetRun.due found (.running run .enriching log) =
      if PingRun.repeatsTTL ev found then none else some (run.restarted ev).get := by
  simp only [TargetRun.due, hev]

theorem TargetRun.due_eq_some {target : TargetRun} {found : Bool} {ttl : Int}
    (h : target.due found = some ttl) :
    ∃ run log ev, target = .running run .enriching log ∧ run.ev = .handling ev ∧
      ttl = (run.restarted ev).get := by
  unfold TargetRun.due at h
  split at h
  next run log =>
    split at h
    next ev hev =>
      obtain ⟨-, h⟩ := Option.ite_none_left_eq_some.1 h
      exact ⟨run, log, ev, rfl, hev, (Option.some.inj h).symm⟩
    next => cases h
  next => cases h

/-! ## Runs that read their own TTL -/

/-- A target that is where its actions alone would have brought it. -/
inductive Follows (config : PingConfig) : TargetRun → Prop where
| preparing :
  Follows config .preparing
| failed :
  Follows config .failed
| first :
  Follows config (.first config.ttl.get)
| idle {run : PingRun} {log : List PingAction} :
  PingRun.exec config log = some run →
  Follows config (.running run .idle log)
| enriching {run : PingRun} {log : List PingAction} {ev : ICMPTrackerEntry} :
  PingRun.exec config log = some run →
  run.ev = .handling ev →
  Follows config (.running run .enriching log)
| got {run : PingRun} {log : List PingAction} {ev : ICMPTrackerEntry} {found : Bool}
    {nextTTL : Int} :
  PingRun.exec config log = some run →
  run.ev = .handling ev →
  (PingRun.repeatsTTL ev found = false → nextTTL = (run.restarted ev).get) →
  Follows config (.running run (.got found nextTTL) log)

namespace Follows

variable {config : PingConfig} {run run' : PingRun} {stage : TTLStage} {log : List PingAction}
  {a : PingAction}

theorem exec_eq (h : Follows config (.running run stage log)) :
    PingRun.exec config log = some run := by
  cases h with
  | idle he | enriching he | got he => exact he

theorem start (config : PingConfig) :
    Follows config (.running (PingRun.startWith config config.ttl.get) .idle []) :=
  .idle rfl

/-- Other steps of the target leave what the event goroutine has read as it should be. -/
theorem own (h : Follows config (.running run stage log)) (ha : a.isResolve = false)
    (hs : run.step config a = some run') : Follows config (.running run' stage (log ++ [a])) := by
  have he : PingRun.exec config (log ++ [a]) = some run' := by
    rw [PingRun.exec_append h.exec_eq, hs]
  cases h with
  | idle => exact .idle he
  | enriching _ hev => exact .enriching he (PingRun.handling_of_step hs ha hev)
  | got _ hev hn =>
    refine .got he (PingRun.handling_of_step hs ha hev) fun hr => ?_
    rw [hn hr, PingRun.restarted, PingRun.restarted, PingRun.ttl_of_step hs ha]

theorem forward {ev : ICMPTrackerEntry} {found : Bool} {nextTTL : Int}
    (h : Follows config (.running run (.got found nextTTL) log)) (hev : run.ev = .handling ev)
    (hs : run.step config (.resolve found) = some run') :
    Follows config
      (.running (run'.withNextTTL ev found nextTTL) .idle (log ++ [.resolve found])) := by
  cases h with
  | got he hev' hn =>
    rw [hev] at hev'
    cases hev'
    have heq := PingRun.handle_of_step hs hev
    rw [heq, PingRun.withNextTTL_handle config run hn, ← heq]
    refine .idle ?_
    rw [PingRun.exec_append he, hs]

end Follows

namespace SharedRun

variable {group : PingGroup} {s t : SharedRun} {a : SharedAction}

theorem follows_step (hs : ∀ i, Follows (group.config i) (s.targets i)) (ha : s.readsOwn group a)
    (h : step group s a = some t) : ∀ i, Follows (group.config i) (t.targets i) := by
  obtain ⟨-, hm⟩ := step_eq_some h
  cases hm with
  | fail => exact forall_goto hs .failed
  | getFirst =>
    refine forall_goto hs ?_
    have hget : s.ttl.get = group.ttl.get := ha
    rw [hget]
    exact .first
  | @forwardFirst i ttl hi =>
    have hf := hs i
    rw [hi] at hf
    cases hf with
    | first => exact forall_goto hs (.start (group.config i))
  | @reset i run log ev hi hev =>
    have hf := hs i
    rw [hi] at hf
    exact forall_goto hs (.enriching hf.exec_eq hev)
  | @get i found run log hi =>
    have hf := hs i
    rw [hi] at hf
    cases hf with
    | enriching he hev =>
      refine forall_goto hs (.got he hev fun hr => ha _ ?_)
      rw [hi, TargetRun.due_eq hev, hr]
      rfl
  | @forward i found nextTTL run run' log ev hi hev hstep =>
    have hf := hs i
    rw [hi] at hf
    exact forall_goto hs (hf.forward hev hstep)
  | @own i a run run' stage log hi hown hstep =>
    have hf := hs i
    rw [hi] at hf
    exact forall_goto hs (hf.own hown hstep)

theorem follows (h : (system group).Reachable (readsOwn group) s) (i : Nat) :
    Follows (group.config i) (s.targets i) := by
  have hall : ∀ i, Follows (group.config i) (s.targets i) := by
    refine h.invariant (I := fun s => ∀ i, Follows (group.config i) (s.targets i))
      (fun i => .preparing) ?_
    intro s a t hs ha hst
    exact follows_step hs ha hst
  exact hall i

theorem nonInterfering_of_follows (h : ∀ i, Follows (group.config i) (s.targets i)) :
    s.NonInterfering group := by
  intro i run stage log hi
  have hf := h i
  rw [hi] at hf
  exact ⟨log, run, hf.exec_eq, rfl, rfl⟩

end SharedRun

/-! ## The first packet -/

/-- The control signal that the sending goroutine has in hand. -/
def SenderPC.inHand : SenderPC → Option SendControl
  | .markingSent ctrl | .sending ctrl => some ctrl
  | _ => none

namespace PingRun

variable {config : PingConfig} {s t : PingRun} {a : PingAction}

/-- The TTLs of the packets that were sent and of those to come. -/
def ttlsToCome (s : PingRun) : List Int :=
  s.ttls ++ (s.snd.inHand.toList ++ s.ctrlSignals.buf).map SendControl.ttl

/-- The first packet has the first TTL, or there is none. -/
def FirstTTL (c : Int) (s : PingRun) : Prop :=
  s.ttlsToCome.head? = some c ∨ s.wire = [] ∧ s.snd = .returned

theorem FirstTTL.of_eq {c : Int} (h : s.FirstTTL c) (hcome : t.ttlsToCome = s.ttlsToCome)
    (hsnd : s.snd ≠ .returned) : t.FirstTTL c := by
  rcases h with h | ⟨-, h⟩
  · exact Or.inl (by rw [hcome, h])
  · exact absurd h hsnd

/-- The event goroutine only adds to what comes. -/
theorem FirstTTL.of_buf {c : Int} {pc : EventPC} {ch : Chan SendControl} {ctrls : List SendControl}
    (h : s.FirstTTL c) (hbuf : ch.buf = s.ctrlSignals.buf ++ ctrls) :
    { s with ev := pc, ctrlSignals := ch }.FirstTTL c := by
  rcases h with h | h
  · left
    have hcome : { s with ev := pc, ctrlSignals := ch }.ttlsToCome =
        s.ttlsToCome ++ ctrls.map SendControl.ttl := by
      simp only [ttlsToCome, ttls, hbuf, List.map_append, List.append_assoc]
    rw [hcome, List.head?_append, h]
    rfl
  · exact Or.inr h

theorem head?_ttlsToCome (h : s.ttls ≠ []) : s.ttlsToCome.head? = s.ttls.head? := by
  rw [ttlsToCome, List.head?_append_of_ne_nil _ h]

/-- The signal in hand can be lost when the sending goroutine returns. -/
theorem FirstTTL.returned {c : Int} (h : s.FirstTTL c) :
    { s with snd := .returned }.FirstTTL c := by
  by_cases hw : s.wire = []
  · exact Or.inr ⟨hw, rfl⟩
  · rcases h with h | ⟨hnil, -⟩
    · have hne : s.ttls ≠ [] := fun hnil => hw (List.map_eq_nil_iff.1 hnil)
      left
      rw [head?_ttlsToCome hne] at h
      exact (head?_ttlsToCome (s := { s with snd := .returned }) hne).trans h
    · exact absurd hnil hw

theorem FirstTTL.step {c : Int} (hs : s.FirstTTL c) (h : s.step config a = some t) :
    t.FirstTTL c := by
  cases step_move h with
  | tracker | tookEvent | handled | outputted | asked | unfinished | paused | crashed | replied
  | ioStopped => exact hs
  | stopped _ _ hc | finished _ _ _ hc =>
    obtain ⟨-, -, hbuf, -⟩ := Chan.close_eq_some hc
    exact hs.of_buf (hbuf.trans (List.append_nil _).symm)
  | signalled _ hc =>
    obtain ⟨-, -, -, hbuf, -⟩ := Chan.send_eq_sent hc
    exact hs.of_buf hbuf
  | left => exact hs.returned
  | tookErr hsnd | tookRunErr hsnd | tookReply hsnd | markedReceived hsnd | markedSent hsnd
  | forgot hsnd | closedCh hsnd =>
    refine hs.of_eq ?_ (by rw [hsnd]; nofun)
    rw [ttlsToCome, ttlsToCome, hsnd]
    rfl
  | tookSignal hsnd hc =>
    obtain ⟨hbuf, -, -⟩ := Chan.recv_eq_some hc
    refine hs.of_eq ?_ (by rw [hsnd]; nofun)
    rw [ttlsToCome, ttlsToCome, hsnd, hbuf]
    rfl
  | wrote hsnd hi =>
    refine hs.of_eq ?_ (by rw [hsnd]; nofun)
    simp [ttlsToCome, ttls, hsnd, SenderPC.inHand, request]

theorem reach_of_foldlM {as : List PingAction} (h : as.foldlM (step config) s = some t) :
    (system config).Reach Policy.any s t := by
  induction as generalizing s with
  | nil => cases h; exact .refl
  | cons a as ih =>
    obtain ⟨u, hu, h⟩ := Option.bind_eq_some_iff.1 h
    exact .head hu trivial (ih h)

theorem first_ttl {as : List PingAction} (h : exec config as = some s) (hne : s.ttls ≠ []) :
    s.ttls.head? = some config.ttl.get := by
  have hfirst : s.FirstTTL config.ttl.get := by
    refine (reach_of_foldlM h).induct (I := FirstTTL config.ttl.get) (Or.inl rfl) ?_
    intro s a t hs _ hst
    exact hs.step hst
  rcases hfirst with hhead | ⟨hw, -⟩
  · rwa [head?_ttlsToCome hne] at hhead
  · rw [ttls, hw] at hne
    exact absurd rfl hne

end PingRun

/-- The TTLs of the packets to the target, once it is running. -/
def TargetRun.sentTTLs : TargetRun → Option (List Int)
  | .running run _ _ => some run.ttls
  | _ => none

theorem TargetRun.sentTTLs_eq_some {target : TargetRun} {ttls : List Int}
    (h : target.sentTTLs = some ttls) :
    ∃ run stage log, target = .running run stage log ∧ run.ttls = ttls := by
  cases target with
  | running run stage log => exact ⟨run, stage, log, rfl, Option.some.inj h⟩
  | preparing | failed | first => cases h

namespace SharedRun

/-- A ping of two targets. -/
def sampleGroup (ttl : TTLGenerator) : PingGroup where
  numTargets := 2
  target := fun _ => PingRun.sampleConfig
  ttl := ttl

/-- Steps of the goroutines of a target other than those with the generator. -/
def ownSteps (i : Nat) (as : List PingAction) : List SharedAction := as.map (.own i)

/-- While every target takes its own TTL from the generator, it runs as it would alone. -/
theorem nonInterfering_of_readsOwn (group : PingGroup) {s : SharedRun}
    (h : (system group).Reachable (readsOwn group) s) : s.NonInterfering group :=
  nonInterfering_of_follows (follows h)

end SharedRun

/-! ## The generator of one target -/

/-- The generator is where the calls of the target have brought it. -/
def TargetRun.Left (config : PingConfig) (ttl : TTLGenerator) : TargetRun → Prop
  | .preparing | .first _ => ttl = config.ttl
  | .failed => True
  | .running run .idle _ => ttl = run.ttl
  | .running run _ _ => ∃ ev, run.ev = .handling ev ∧ ttl = run.restarted ev

namespace TargetRun

variable {config : PingConfig} {ttl : TTLGenerator} {run run' : PingRun} {stage : TTLStage}
  {log log' : List PingAction} {a : PingAction}

theorem Left.own (h : Left config ttl (.running run stage log)) (ha : a.isResolve = false)
    (hs : run.step config a = some run') : Left config ttl (.running run' stage log') := by
  have httl := PingRun.ttl_of_step hs ha
  have hlate (h : ∃ ev, run.ev = .handling ev ∧ ttl = run.restarted ev) :
      ∃ ev, run'.ev = .handling ev ∧ ttl = run'.restarted ev := by
    obtain ⟨ev, hev, heq⟩ := h
    refine ⟨ev, PingRun.handling_of_step hs ha hev, ?_⟩
    rw [heq, PingRun.restarted, PingRun.restarted, httl]
  cases stage with
  | idle => exact h.trans httl.symm
  | enriching => exact hlate h
  | got => exact hlate h

theorem eq_restarted {ev : ICMPTrackerEntry}
    (h : ∃ ev', run.ev = .handling ev' ∧ ttl = run.restarted ev') (hev : run.ev = .handling ev) :
    ttl = run.restarted ev := by
  obtain ⟨ev', hev', heq⟩ := h
  rw [hev] at hev'
  cases hev'
  exact heq

theorem Left.forward {ev : ICMPTrackerEntry} {found : Bool} {nextTTL : Int}
    (h : Left config ttl (.running run (.got found nextTTL) log)) (hev : run.ev = .handling ev)
    (hs : run.step config (.resolve found) = some run') :
    Left config (if PingRun.setsPMTU ev found then ttl else ttl.forward)
      (.running (run'.withNextTTL ev found nextTTL) .idle log') := by
  rw [Left, PingRun.ttl_withNextTTL, PingRun.handle_of_step hs hev, PingRun.ttl_handle,
    eq_restarted h hev]

end TargetRun

namespace SharedRun

variable {group : PingGroup} {s t : SharedRun} {a : SharedAction}

theorem targets_goto (s : SharedRun) (i : Nat) (target : TargetRun) :
    (s.goto i target).targets i = target := by
  simp [goto]

theorem left_goto {config : PingConfig} {ttl : TTLGenerator} {target : TargetRun} {i : Nat}
    (s : SharedRun) (h : target.Left config ttl) :
    ((s.goto i target).targets i).Left config ttl := by
  rw [targets_goto]
  exact h

/-- The target that takes a step leaves the generator where its own calls have brought it. -/
theorem left_step (hs : (s.targets a.target).Left (group.config a.target) s.ttl)
    (h : step group s a = some t) :
    s.readsOwn group a ∧ (t.targets a.target).Left (group.config a.target) t.ttl := by
  obtain ⟨-, hm⟩ := step_eq_some h
  cases hm with
  | fail hi => exact ⟨trivial, left_goto s trivial⟩
  | @getFirst i hi =>
    have httl : (s.targets i).Left (group.config i) s.ttl := hs
    rw [hi] at httl
    exact ⟨congrArg TTLGenerator.get httl, left_goto s httl⟩
  | @forwardFirst i ttl hi =>
    have httl : (s.targets i).Left (group.config i) s.ttl := hs
    rw [hi] at httl
    exact ⟨trivial, left_goto s (congrArg TTLGenerator.forward httl)⟩
  | @reset i run log ev hi hev =>
    have hleft : (s.targets i).Left (group.config i) s.ttl := hs
    rw [hi] at hleft
    have httl : s.ttl = run.ttl := hleft
    have hreset : (if ev.foundLastHop && s.ttl.isAuto then s.ttl.reset else s.ttl) =
        run.restarted ev := by
      rw [PingRun.restarted, httl]
    exact ⟨trivial, left_goto s ⟨ev, hev, hreset⟩⟩
  | @get i found run log hi =>
    have hleft : (s.targets i).Left (group.config i) s.ttl := hs
    rw [hi] at hleft
    refine ⟨fun ttl httl => ?_, left_goto s hleft⟩
    obtain ⟨run', log', ev, hi', hev, rfl⟩ := TargetRun.due_eq_some httl
    rw [hi] at hi'
    cases hi'
    rw [TargetRun.eq_restarted hleft hev]
  | @forward i found nextTTL run run' log ev hi hev hstep =>
    have hleft : (s.targets i).Left (group.config i) s.ttl := hs
    rw [hi] at hleft
    exact ⟨trivial, left_goto s (hleft.forward hev hstep)⟩
  | @own i a run run' stage log hi hown hstep =>
    have hleft : (s.targets i).Left (group.config i) s.ttl := hs
    rw [hi] at hleft
    exact ⟨trivial, left_goto s (hleft.own hown hstep)⟩

/-- A step leaves the other targets as they are. -/
theorem targets_of_step {j : Nat} (h : step group s a = some t) (hj : j ≠ a.target) :
    t.targets j = s.targets j := by
  obtain ⟨-, hm⟩ := step_eq_some h
  cases hm <;> exact Function.update_of_ne hj _ _

/-- A target that has not moved the generator yet has left it as it was. -/
theorem unmoved_of_step (h : step group s a = some t)
    (hmoved : (t.targets a.target).moved = false) :
    t.ttl = s.ttl ∧ (s.targets a.target).moved = false := by
  obtain ⟨-, hm⟩ := step_eq_some h
  cases hm with
  | @fail i hi => exact ⟨rfl, congrArg TargetRun.moved hi⟩
  | @getFirst i hi => exact ⟨rfl, congrArg TargetRun.moved hi⟩
  | forwardFirst | reset | get | forward | own =>
    rw [SharedAction.target, targets_goto] at hmoved
    cases hmoved

/-- The generator is where the calls of a target have brought it if no other one has moved it. -/
def OwnsUnmoved (group : PingGroup) (s : SharedRun) : Prop :=
  ∀ i, s.UnmovedByOthers group i → (s.targets i).Left (group.config i) s.ttl

theorem OwnsUnmoved.step (hs : s.OwnsUnmoved group) (h : step group s a = some t) :
    t.OwnsUnmoved group := by
  intro i hothers
  obtain ⟨hlt, -⟩ := step_eq_some h
  by_cases hi : i = a.target
  · subst hi
    refine (left_step (hs _ fun j hj hne => ?_) h).2
    rw [← targets_of_step h hne]
    exact hothers j hj hne
  · obtain ⟨httl, hmoved⟩ := unmoved_of_step h (hothers _ hlt (Ne.symm hi))
    rw [targets_of_step h hi, httl]
    refine hs i fun j hj hne => ?_
    by_cases hja : j = a.target
    · rw [hja]
      exact hmoved
    · rw [← targets_of_step h hja]
      exact hothers j hj hne

/-- A packet that repeats a TTL takes none. -/
theorem due_of_repeats {target : TargetRun} {found : Bool} (h : target.repeats found = true) :
    target.due found = none := by
  rw [Option.eq_none_iff_forall_ne_some]
  intro ttl httl
  unfold TargetRun.due at httl
  split at httl
  next run log =>
    split at httl
    next ev hev =>
      have hrepeats : PingRun.repeatsTTL ev found = true := by
        simpa only [TargetRun.repeats, hev] using h
      rw [if_pos hrepeats] at httl
      cases httl
    next => cases httl
  next => cases httl

/-- Where the generator has more than one TTL, and is not shared, every target takes its own. -/
theorem readsOwn_of_unshared (hg : group.ttl.isConstant = false)
    (h : (system group).Reachable (unshared group) s) :
    (system group).Reachable (readsOwn group) s := by
  refine h.meets (J := OwnsUnmoved group) (fun _ _ => rfl) ?_
  intro s a t hs ha hst
  refine ⟨?_, hs.step hst⟩
  cases a with
  | getFirst i =>
    rcases ha with ha | ha
    · rw [hg] at ha
      cases ha
    · exact (left_step (a := .getFirst i) (hs i ha) hst).1
  | get i found =>
    rcases ha with ha | ha | ha
    · rw [hg] at ha
      cases ha
    · intro ttl httl
      rw [due_of_repeats ha] at httl
      cases httl
    · exact (left_step (a := .get i found) (hs i ha) hst).1
  | fail | forwardFirst | reset | forward | own => trivial

end SharedRun

/-! ## One TTL -/

namespace PingRun

variable {config : PingConfig} {s t : PingRun} {a : PingAction} {c : Int}

theorem constant_restarted {ev : ICMPTrackerEntry} (h : s.ttl.Constant c) :
    (s.restarted ev).Constant c := by
  rw [restarted]
  split
  · exact h.reset
  · exact h

theorem constant_handle {ev : ICMPTrackerEntry} {found : Bool} (h : s.ttl.Constant c) :
    (s.handle config ev found).ttl.Constant c := by
  rw [ttl_handle]
  split
  · exact constant_restarted h
  · exact (constant_restarted h).forward

end PingRun

/-- The own generator of the target has the one TTL. -/
def TargetRun.SameTTL (c : Int) : TargetRun → Prop
  | .running run _ _ => run.ttl.Constant c
  | _ => True

namespace SharedRun

variable {group : PingGroup} {s t : SharedRun} {a : SharedAction} {c : Int}

/-- The shared generator and the own ones have the one TTL. -/
structure SameTTL (c : Int) (s : SharedRun) : Prop where
  shared : s.ttl.Constant c
  own : ∀ i, (s.targets i).SameTTL c

theorem SameTTL.goto {ttl : TTLGenerator} {target : TargetRun} {i : Nat} (h : s.SameTTL c)
    (httl : ttl.Constant c) (hi : target.SameTTL c) :
    ({ s with ttl := ttl }.goto i target).SameTTL c :=
  ⟨httl, forall_goto h.own hi⟩

theorem SameTTL.run {run : PingRun} {stage : TTLStage} {log : List PingAction} {i : Nat}
    (h : s.SameTTL c) (hi : s.targets i = .running run stage log) : run.ttl.Constant c := by
  have hown := h.own i
  rwa [hi] at hown

theorem SameTTL.step (hg : group.ttl.Constant c) (hs : s.SameTTL c)
    (h : step group s a = some t) : s.readsOwn group a ∧ t.SameTTL c := by
  obtain ⟨-, hm⟩ := step_eq_some h
  cases hm with
  | fail hi => exact ⟨trivial, hs.goto hs.shared trivial⟩
  | getFirst hi =>
    have hget : s.ttl.get = group.ttl.get := by rw [hs.shared.get_eq, hg.get_eq]
    exact ⟨hget, hs.goto hs.shared trivial⟩
  | forwardFirst hi => exact ⟨trivial, hs.goto hs.shared.forward hg.forward⟩
  | @reset i run log ev hi hev =>
    have hreset :
        (if ev.foundLastHop && s.ttl.isAuto then s.ttl.reset else s.ttl).Constant c := by
      split
      · exact hs.shared.reset
      · exact hs.shared
    exact ⟨trivial, hs.goto hreset (hs.run hi)⟩
  | @get i found run log hi =>
    refine ⟨fun ttl httl => ?_, hs.goto hs.shared (hs.run hi)⟩
    obtain ⟨run', log', ev, hi', -, rfl⟩ := TargetRun.due_eq_some httl
    rw [hs.shared.get_eq, (PingRun.constant_restarted (hs.run hi')).get_eq]
  | @forward i found nextTTL run run' log ev hi hev hstep =>
    have hshared : (if PingRun.setsPMTU ev found then s.ttl else s.ttl.forward).Constant c := by
      split
      · exact hs.shared
      · exact hs.shared.forward
    refine ⟨trivial, hs.goto hshared ?_⟩
    rw [TargetRun.SameTTL, PingRun.ttl_withNextTTL, PingRun.handle_of_step hstep hev]
    exact PingRun.constant_handle (hs.run hi)
  | @own i a run run' stage log hi hown hstep =>
    refine ⟨trivial, hs.goto hs.shared ?_⟩
    rw [TargetRun.SameTTL, PingRun.ttl_of_step hstep hown]
    exact hs.run hi

/-- With one TTL, every target takes its own. -/
theorem readsOwn_of_constant (hg : group.ttl.Constant c)
    (h : (system group).Reachable Policy.any s) : (system group).Reachable (readsOwn group) s := by
  refine h.meets (J := SameTTL c) ⟨hg, fun _ => trivial⟩ ?_
  intro s a t hs _ hst
  exact hs.step hg hst

/-! ## Runs without a shared generator -/

/-- While no target takes a TTL for a packet from a generator that another one has moved, or the
generator has one TTL, every target runs as it would alone. -/
theorem nonInterfering_of_unshared (group : PingGroup) {s : SharedRun}
    (h : (system group).Reachable (unshared group) s) : s.NonInterfering group := by
  cases hg : group.ttl.isConstant with
  | true =>
    obtain ⟨c, hc⟩ := TTLGenerator.constant_of_isConstant hg
    exact nonInterfering_of_readsOwn group (readsOwn_of_constant hc h.any)
  | false => exact nonInterfering_of_readsOwn group (readsOwn_of_unshared hg h)

/-- Both targets take the first TTL, and then both move the generator. -/
theorem nonInterfering_first_packets :
    ∃ s, (system (sampleGroup (.auto 1 1))).Reachable (unshared (sampleGroup (.auto 1 1))) s ∧
      (s.targets 0).sentTTLs = some [1] ∧ (s.targets 1).sentTTLs = some [1] ∧
        s.NonInterfering (sampleGroup (.auto 1 1)) := by
  obtain ⟨s, hr, hp⟩ := System.exists_of_replay (system (sampleGroup (.auto 1 1)))
    (unshared (sampleGroup (.auto 1 1)))
    (fun s => (s.targets 0).sentTTLs = some [1] ∧ (s.targets 1).sentTTLs = some [1])
    (([.getFirst 0, .getFirst 1, .forwardFirst 0, .forwardFirst 1] : List SharedAction) ++
      ownSteps 0 PingRun.sendOne ++ ownSteps 1 PingRun.sendOne) (by decide +kernel)
  obtain ⟨h0, h1⟩ := of_decide_eq_true hp
  exact ⟨s, hr, h0, h1, nonInterfering_of_unshared _ hr⟩

/-- The first packet of the second target has the TTL after the one of the first target. -/
theorem second_target_ttl : ¬ ∀ s, (system (sampleGroup (.auto 1 1))).Reachable Policy.any s →
    s.NonInterfering (sampleGroup (.auto 1 1)) := by
  intro h
  obtain ⟨s, hr, hp⟩ := System.exists_of_replay (system (sampleGroup (.auto 1 1))) Policy.any
    (fun s => (s.targets 1).sentTTLs = some [2])
    (([.getFirst 0, .forwardFirst 0, .getFirst 1, .forwardFirst 1] : List SharedAction) ++
      ownSteps 1 PingRun.sendOne)
    (by decide +kernel)
  obtain ⟨run, stage, log, hi, httls⟩ := TargetRun.sentTTLs_eq_some (of_decide_eq_true hp)
  obtain ⟨as, alone, hexec, -, heq⟩ := h s hr 1 run stage log hi
  rw [httls] at heq
  have hfirst := PingRun.first_ttl hexec (by rw [heq]; nofun)
  rw [heq] at hfirst
  cases hfirst

end SharedRun

end CloudPing.Pinger
