import Mathlib.Algebra.BigOperators.Fin
import CloudPing.Conc.Progress
import CloudPing.Handler.EventMerge

/-!
# What the merge of many pingers delivers

What the consumer got of a lane and what is still in the lane are together the events of its
pinger, with the metadata, in order (`Merging.kept`).  A lane whose merging goroutine left
its loop holds nothing any more, so nothing is missing when the last one has called
`wg.Done`, and only then is the channel closed.

Each step brings some event or some goroutine closer to its end (`rank`), and a state in
which the channel is open has a step (`exists_step`).
-/

namespace CloudPing.Handler

open Conc

variable {D : Type}

namespace Lane

variable {p : WithMetadataPinger D} {lane lane' : Lane D} {a : LaneAction}

/-! ## One lane -/

/-- The events in a lane as they will be given on, the next one first. -/
def pending (p : WithMetadataPinger D) (lane : Lane D) : List (PingEvent D) :=
  (match lane.merger with
    | .sending ev => [ev]
    | _ => []) ++
  (match lane.forwarder with
    | .sending ev => [ev]
    | _ => []) ++ (lane.chan.buf ++ lane.todo).map p.wrapped

/-- Which goroutines of a lane go together with which state of the origin. -/
def Phased (p : WithMetadataPinger D) (lane : Lane D) : Prop :=
  match p.metadata, lane.forwarder, lane.merger with
  | _, .absent, .absent | _, .absent, .starting => lane.origin = .idle
  | none, .absent, .receiving | none, .absent, .sending _ => lane.origin ≠ .idle
  | none, .absent, .exiting | none, .absent, .returned => lane.chan.drained = true
  | some _, .starting, .receiving => lane.origin = .idle
  | some _, .receiving, .receiving | some _, .receiving, .sending _
  | some _, .sending _, .receiving | some _, .sending _, .sending _ => lane.origin ≠ .idle
  | some _, .closing, .receiving | some _, .closing, .sending _
  | some _, .returned, .receiving | some _, .returned, .sending _
  | some _, .returned, .exiting | some _, .returned, .returned => lane.chan.drained = true
  | _, _, _ => False

structure Inv (p : WithMetadataPinger D) (lane : Lane D) : Prop where
  phased : lane.Phased p
  closed : lane.chan.closed = true ↔ lane.origin = .closed
  spent : lane.origin = .closed → lane.todo = []

/-- What is left to do in a lane: an event counts once for each hand it still has to pass. -/
def rank (lane : Lane D) : Nat :=
  4 * lane.todo.length + 3 * lane.chan.buf.length +
  (match lane.origin with
    | .idle => 2
    | .sending => 1
    | .closed => 0) +
  (match lane.forwarder with
    | .absent => 0
    | .starting => 5
    | .receiving => 2
    | .sending _ => 4
    | .closing => 1
    | .returned => 0) +
  match lane.merger with
    | .absent => 20
    | .starting => 19
    | .receiving => 2
    | .sending _ => 3
    | .exiting => 1
    | .returned => 0

/-- One if the merging goroutine counts in the wait group. -/
def active (lane : Lane D) : Nat :=
  match lane.merger with
  | .absent | .returned => 0
  | _ => 1

/-- What a step of a lane leaves as it is, and that it brings the lane closer to its end. -/
structure Moves (p : WithMetadataPinger D) (lane lane' : Lane D) : Prop where
  inv : lane'.Inv p
  pending : lane'.pending p = lane.pending p
  rank : lane'.rank < lane.rank
  active : lane'.active = lane.active
  absent : lane'.merger = .absent ↔ lane.merger = .absent
  returned : lane'.merger = .returned ↔ lane.merger = .returned

theorem inv_start (p : WithMetadataPinger D) : (start p).Inv p := by
  refine ⟨?_, ?_, ?_⟩
  · cases hm : p.metadata <;> rw [Phased, hm] <;> rfl
  · exact iff_of_false (by simp [start, Chan.make]) (by simp [start])
  · intro h
    cases h

theorem accept_eq_some {ev : PingEvent D} (h : accept p lane ev = some lane') :
    (∃ m, p.metadata = some m ∧ lane.forwarder = .receiving ∧
        lane' = { lane with forwarder := .sending (wrapEvent m ev) }) ∨
      (p.metadata = none ∧ lane.merger = .receiving ∧
        lane' = { lane with merger := .sending ev }) := by
  rw [accept] at h
  cases hm : p.metadata with
  | some m =>
    cases hf : lane.forwarder with
    | receiving =>
      simp only [hm, hf, Option.some.injEq] at h
      exact .inl ⟨m, rfl, rfl, h.symm⟩
    | _ => simp [hm, hf] at h
  | none =>
    cases hmerger : lane.merger with
    | receiving =>
      simp only [hm, hmerger, Option.some.injEq] at h
      exact .inr ⟨rfl, rfl, h.symm⟩
    | _ => simp [hm, hmerger] at h

theorem leave_eq_some (h : leave p lane = some lane') :
    (∃ m, p.metadata = some m ∧ lane.forwarder = .receiving ∧
        lane' = { lane with forwarder := .closing }) ∨
      (p.metadata = none ∧ lane.merger = .receiving ∧
        lane' = { lane with merger := .exiting }) := by
  rw [leave] at h
  cases hm : p.metadata with
  | some m =>
    cases hf : lane.forwarder with
    | receiving =>
      simp only [hm, hf, Option.some.injEq] at h
      exact .inl ⟨m, rfl, rfl, h.symm⟩
    | _ => simp [hm, hf] at h
  | none =>
    cases hmerger : lane.merger with
    | receiving =>
      simp only [hm, hmerger, Option.some.injEq] at h
      exact .inr ⟨rfl, rfl, h.symm⟩
    | _ => simp [hm, hmerger] at h

/-- A reader that is at its receive reads from an origin that is not idle. -/
theorem Inv.not_idle (hinv : lane.Inv p)
    (h : (∃ m, p.metadata = some m ∧ lane.forwarder = .receiving) ∨
      (p.metadata = none ∧ lane.merger = .receiving)) : lane.origin ≠ .idle := by
  obtain ⟨origin, todo, chan, forwarder, merger⟩ := lane
  obtain ⟨events, cap, metadata⟩ := p
  have hphased := hinv.phased
  rcases h with ⟨m, rfl, rfl⟩ | ⟨rfl, rfl⟩
  · cases merger with
    | receiving | sending ev => exact hphased
    | _ => exact hphased.elim
  · cases forwarder with
    | absent => exact hphased
    | _ => exact hphased.elim

/-- Without metadata there is no forwarding goroutine. -/
theorem Inv.forwarder_absent (hinv : lane.Inv p) (h : p.metadata = none) :
    lane.forwarder = .absent := by
  obtain ⟨origin, todo, chan, forwarder, merger⟩ := lane
  obtain ⟨events, cap, metadata⟩ := p
  subst h
  have hphased := hinv.phased
  cases forwarder with
  | absent => rfl
  | _ => cases merger <;> exact hphased.elim

/-- While the forwarding goroutine reads, the merging one is in its loop. -/
theorem Inv.merging (hinv : lane.Inv p) (h : lane.forwarder ≠ .absent)
    (h' : lane.forwarder ≠ .returned) :
    lane.merger = .receiving ∨ ∃ ev, lane.merger = .sending ev := by
  obtain ⟨origin, todo, chan, forwarder, merger⟩ := lane
  obtain ⟨events, cap, metadata⟩ := p
  have hphased := hinv.phased
  cases metadata with
  | none => exact absurd (hinv.forwarder_absent rfl) h
  | some m =>
    cases merger with
    | receiving => exact .inl rfl
    | sending ev => exact .inr ⟨ev, rfl⟩
    | _ => cases forwarder <;> first | exact absurd rfl h | exact absurd rfl h' | exact hphased.elim

/-! ## The steps of a lane -/

theorem moves_begin (hinv : lane.Inv p) (h : lane.step p .begin = some lane') :
    Moves p lane lane' := by
  obtain ⟨origin, todo, chan, forwarder, merger⟩ := lane
  obtain ⟨events, cap, metadata⟩ := p
  have hphased := hinv.phased
  have hclosed := hinv.closed
  cases merger <;> cases metadata <;> simp [step] at h
  all_goals
    subst h
    cases forwarder <;> first | exact hphased.elim | skip
    have hidle : origin = .idle := hphased
    subst hidle
    refine ⟨⟨by simp [Phased], by simpa using hclosed, by simp⟩, rfl, ?_, rfl, by simp, by simp⟩
    simp [Lane.rank]

theorem moves_call (hinv : lane.Inv p) (h : lane.step p .call = some lane') :
    Moves p lane lane' := by
  obtain ⟨origin, todo, chan, forwarder, merger⟩ := lane
  obtain ⟨events, cap, metadata⟩ := p
  have hphased := hinv.phased
  have hclosed := hinv.closed
  cases forwarder <;> simp [step] at h
  subst h
  cases metadata with
  | none => cases merger <;> exact hphased.elim
  | some m =>
    cases merger <;> first | exact hphased.elim | skip
    have hidle : origin = .idle := hphased
    subst hidle
    refine ⟨⟨by simp [Phased], by simpa using hclosed, by simp⟩, rfl, ?_, rfl, by simp, by simp⟩
    simp [Lane.rank]

theorem not_drained_of_open {c : Chan (PingEvent D)} (h : c.closed = false) :
    c.drained = false := by
  rw [Chan.drained, h, Bool.and_false]

/-- What the origin still holds does not matter to the goroutines while it holds something
or is open. -/
theorem Inv.hold (hinv : lane.Inv p) (hnot : lane.chan.drained = false)
    (todo : List (PingEvent D)) (chan : Chan (PingEvent D))
    (hchan : chan.closed = lane.chan.closed) (hspent : lane.origin = .closed → todo = []) :
    Inv p { lane with todo := todo, chan := chan } := by
  obtain ⟨origin, todo', chan', forwarder, merger⟩ := lane
  obtain ⟨events, cap, metadata⟩ := p
  have hphased := hinv.phased
  refine ⟨?_, hchan ▸ hinv.closed, hspent⟩
  cases metadata <;> cases forwarder <;> cases merger <;>
    simp_all [Phased]

theorem moves_produce (hinv : lane.Inv p) (h : lane.step p .produce = some lane') :
    Moves p lane lane' := by
  rw [step] at h
  split at h
  next ev todo hopen htodo =>
    split at h
    next chan hsend =>
      cases h
      obtain ⟨hclosed, _, _, hbuf, hchan⟩ := Chan.send_eq_sent hsend
      have hnew := hinv.hold (not_drained_of_open hclosed) todo chan
        (hchan.trans hclosed.symm) fun h => by
          rw [hopen] at h
          cases h
      refine ⟨hnew, ?_, ?_, rfl, Iff.rfl, Iff.rfl⟩
      · simp only [pending, hbuf, htodo, List.append_assoc, List.cons_append, List.nil_append]
      · simp only [Lane.rank, hbuf, htodo, List.length_append, List.length_cons, List.length_nil]
        omega
    next => cases h
  next => cases h

theorem moves_closeOrigin (hinv : lane.Inv p) (h : lane.step p .closeOrigin = some lane') :
    Moves p lane lane' := by
  rw [step] at h
  split at h
  next hopen htodo =>
    obtain ⟨chan, hclose, rfl⟩ := Option.map_eq_some_iff.1 h
    obtain ⟨_, _, hbuf, hclosed⟩ := Chan.close_eq_some hclose
    refine ⟨⟨?_, iff_of_true hclosed rfl, fun _ => htodo⟩, ?_, ?_, rfl, Iff.rfl, Iff.rfl⟩
    · have hphased := hinv.phased
      have hclosed' := hinv.closed
      obtain ⟨origin, todo, chan', forwarder, merger⟩ := lane
      obtain ⟨events, cap, metadata⟩ := p
      have hopen : origin = .sending := hopen
      subst hopen
      have hnot : chan'.drained = false := not_drained_of_open (by simpa using hclosed')
      cases metadata <;> cases forwarder <;> cases merger <;>
        simp_all [Phased]
    · simp only [pending, hbuf]
    · simp only [Lane.rank, hbuf, hopen]
      omega
  next => cases h

/-- The reader takes the next event of the origin. -/
theorem moves_accept {lane₁ : Lane D} {ev : PingEvent D} (hinv : lane₁.Inv p)
    (hforwarder : lane₁.forwarder = lane.forwarder) (hmerger : lane₁.merger = lane.merger)
    (horigin : lane₁.origin = lane.origin)
    (hnext : lane.chan.buf ++ lane.todo = ev :: (lane₁.chan.buf ++ lane₁.todo))
    (hlen : 4 * lane₁.todo.length + 3 * lane₁.chan.buf.length + 3 ≤
      4 * lane.todo.length + 3 * lane.chan.buf.length)
    (h : accept p lane₁ ev = some lane') : Moves p lane lane' := by
  have hphased := hinv.phased
  rcases accept_eq_some h with ⟨m, hm, hf, rfl⟩ | ⟨hm, hr, rfl⟩
  · have hidle := hinv.not_idle (.inl ⟨m, hm, hf⟩)
    refine ⟨⟨?_, hinv.closed, hinv.spent⟩, ?_, ?_, ?_, ?_, ?_⟩
    · rcases hinv.merging (by simp [hf]) (by simp [hf]) with hr | ⟨ev', hr⟩ <;>
      · simp only [Phased, hm, hr]
        exact hidle
    · simp only [pending, hnext, ← hforwarder, ← hmerger, hf, List.map_cons,
        WithMetadataPinger.wrapped, hm, List.append_nil, List.append_assoc, List.singleton_append]
    · simp only [Lane.rank, ← hforwarder, ← hmerger, ← horigin, hf]
      omega
    · simp only [Lane.active, hmerger]
    · simp only [hmerger]
    · simp only [hmerger]
  · have hidle := hinv.not_idle (.inr ⟨hm, hr⟩)
    have habsent := hinv.forwarder_absent hm
    refine ⟨⟨?_, hinv.closed, hinv.spent⟩, ?_, ?_, ?_, ?_, ?_⟩
    · simp only [Phased, hm, habsent]
      exact hidle
    · simp only [pending, hnext, ← hforwarder, ← hmerger, hr, habsent, List.map_cons,
        WithMetadataPinger.wrapped, hm, List.append_nil, List.nil_append, List.singleton_append]
    · simp only [Lane.rank, ← hforwarder, ← hmerger, ← horigin, hr]
      omega
    · simp only [Lane.active, ← hmerger, hr]
    · simp [← hmerger, hr]
    · simp [← hmerger, hr]

theorem moves_meet (hinv : lane.Inv p) (h : lane.step p .meet = some lane') :
    Moves p lane lane' := by
  rw [step] at h
  split at h
  next ev todo hopen htodo =>
    split at h
    next hmeet =>
      obtain ⟨hbuf, hclosed⟩ := Chan.canMeet_iff.1 hmeet
      have hnew := hinv.hold (not_drained_of_open hclosed) todo lane.chan
        rfl fun h => by
          rw [hopen] at h
          cases h
      refine moves_accept hnew rfl rfl rfl ?_ ?_ h
      · rw [htodo, hbuf]
        rfl
      · rw [htodo, List.length_cons]
        dsimp only
        omega
    next => cases h
  next => cases h

theorem moves_take (hinv : lane.Inv p) (h : lane.step p .take = some lane') :
    Moves p lane lane' := by
  obtain ⟨⟨ev, chan⟩, hrecv, h⟩ := Option.bind_eq_some_iff.1 h
  obtain ⟨hbuf, _, hchan⟩ := Chan.recv_eq_some hrecv
  have hnot : lane.chan.drained = false := by
    rw [Chan.drained, hbuf]
    rfl
  refine moves_accept (hinv.hold hnot lane.todo chan hchan hinv.spent) rfl rfl rfl ?_ ?_ h
  · rw [hbuf]
    rfl
  · rw [hbuf, List.length_cons]
    dsimp only
    omega

theorem moves_drained (hinv : lane.Inv p) (h : lane.step p .drained = some lane') :
    Moves p lane lane' := by
  rw [step] at h
  split at h
  next hdrained =>
    rcases leave_eq_some h with ⟨m, hm, hf, rfl⟩ | ⟨hm, hr, rfl⟩
    · refine ⟨⟨?_, hinv.closed, hinv.spent⟩, ?_, ?_, rfl, Iff.rfl, Iff.rfl⟩
      · rcases hinv.merging (by simp [hf]) (by simp [hf]) with hr | ⟨ev, hr⟩ <;>
        · simp only [Phased, hm, hr]
          exact hdrained
      · simp only [pending, hf]
      · simp only [Lane.rank, hf]
        omega
    · have habsent := hinv.forwarder_absent hm
      refine ⟨⟨?_, hinv.closed, hinv.spent⟩, ?_, ?_, ?_, ?_, ?_⟩
      · simp only [Phased, hm, habsent]
        exact hdrained
      · simp only [pending, hr]
      · simp only [Lane.rank, hr]
        omega
      · simp only [Lane.active, hr]
      · simp [hr]
      · simp [hr]
  next => cases h

/-- The forwarding goroutine gives the merging one an event, or lets it see the end of them. -/
theorem moves_forward (hinv : lane.Inv p) (ha : a = .pass ∨ a = .wrappedClosed)
    (h : lane.step p a = some lane') : Moves p lane lane' := by
  obtain ⟨origin, todo, chan, forwarder, merger⟩ := lane
  obtain ⟨events, cap, metadata⟩ := p
  have hphased := hinv.phased
  rcases ha with rfl | rfl <;> cases forwarder <;> cases merger <;> simp [step] at h
  all_goals
    subst h
    cases metadata with
    | none => exact hphased.elim
    | some m =>
      refine ⟨⟨hphased, hinv.closed, hinv.spent⟩, rfl, ?_, rfl, by simp, by simp⟩
      simp [Lane.rank]

theorem moves_closeWrapped (hinv : lane.Inv p) (h : lane.step p .closeWrapped = some lane') :
    Moves p lane lane' := by
  obtain ⟨origin, todo, chan, forwarder, merger⟩ := lane
  obtain ⟨events, cap, metadata⟩ := p
  have hphased := hinv.phased
  cases forwarder <;> simp [step] at h
  subst h
  cases metadata with
  | none => cases merger <;> exact hphased.elim
  | some m =>
    refine ⟨⟨?_, hinv.closed, hinv.spent⟩, rfl, ?_, rfl, by simp, by simp⟩
    · cases merger with
      | receiving | sending ev => exact hphased
      | _ => exact hphased.elim
    · simp [Lane.rank]

/-- Every step of a lane keeps its events and brings it closer to its end. -/
theorem moves_step (hinv : lane.Inv p) (h : lane.step p a = some lane') : Moves p lane lane' := by
  cases a with
  | begin => exact moves_begin hinv h
  | call => exact moves_call hinv h
  | produce => exact moves_produce hinv h
  | meet => exact moves_meet hinv h
  | closeOrigin => exact moves_closeOrigin hinv h
  | take => exact moves_take hinv h
  | drained => exact moves_drained hinv h
  | pass => exact moves_forward hinv (.inl rfl) h
  | closeWrapped => exact moves_closeWrapped hinv h
  | wrappedClosed => exact moves_forward hinv (.inr rfl) h

/-- A merging goroutine that left its loop leaves nothing behind. -/
theorem Inv.pending_nil (hinv : lane.Inv p)
    (h : lane.merger = .exiting ∨ lane.merger = .returned) : lane.pending p = [] := by
  obtain ⟨origin, todo, chan, forwarder, merger⟩ := lane
  obtain ⟨events, cap, metadata⟩ := p
  have hphased := hinv.phased
  have hspent : chan.drained = true → chan.buf = [] ∧ todo = [] := fun hdrained => by
    obtain ⟨hbuf, hclosed⟩ := Chan.drained_iff.1 hdrained
    exact ⟨hbuf, hinv.spent (hinv.closed.1 hclosed)⟩
  rcases h with h | h <;>
  · have h : merger = _ := h
    subst h
    cases metadata with
    | none =>
      cases forwarder with
      | absent =>
        obtain ⟨hbuf, htodo⟩ := hspent hphased
        simp [pending, hbuf, htodo]
      | _ => exact hphased.elim
    | some m =>
      cases forwarder with
      | returned =>
        obtain ⟨hbuf, htodo⟩ := hspent hphased
        simp [pending, hbuf, htodo]
      | _ => exact hphased.elim

/-! ## The merging goroutine -/

/-- The merging goroutine moves on within what its place has in common with the next. -/
theorem Inv.move (hinv : lane.Inv p) {merger : MergerPC D}
    (h : (lane.merger = .absent ∧ merger = .starting) ∨
      (lane.merger = .exiting ∧ merger = .returned) ∨
      ((∃ ev, lane.merger = .sending ev) ∧ merger = .receiving)) :
    Inv p (lane.setMerger merger) := by
  refine ⟨?_, hinv.closed, hinv.spent⟩
  have hphased := hinv.phased
  obtain ⟨origin, todo, chan, forwarder, merger'⟩ := lane
  obtain ⟨events, cap, metadata⟩ := p
  rcases h with ⟨h, rfl⟩ | ⟨h, rfl⟩ | ⟨⟨ev, h⟩, rfl⟩ <;>
  · have h : merger' = _ := h
    subst h
    cases metadata <;> cases forwarder <;> first | exact hphased | exact hphased.elim

theorem rank_move {merger : MergerPC D}
    (h : (lane.merger = .absent ∧ merger = .starting) ∨
      (lane.merger = .exiting ∧ merger = .returned) ∨
      ((∃ ev, lane.merger = .sending ev) ∧ merger = .receiving)) :
    (lane.setMerger merger).rank < lane.rank := by
  rcases h with ⟨h, rfl⟩ | ⟨h, rfl⟩ | ⟨⟨ev, h⟩, rfl⟩ <;>
  · simp only [Lane.rank, setMerger, h]
    omega

end Lane

def MergeMainPC.rank (n : Nat) : MergeMainPC → Nat
  | .starting i => n - i + 3
  | .waiting => 2
  | .closing => 1
  | .returned => 0

namespace MergeState

variable {n : Nat} {pingers : Fin n → WithMetadataPinger D} {s t : MergeState D n}
variable {i : Fin n}

/-! ## All lanes -/

/-- What the consumer got of a lane. -/
def delivered (s : MergeState D n) (i : Fin n) : List (PingEvent D) :=
  (s.out.filter fun x => x.1 = i).map Prod.snd

/-- What is left to do. -/
def rank (s : MergeState D n) : Nat := s.main.rank n + ∑ i, (s.lanes i).rank

/-- What holds in every state of a run. -/
structure Merging (pingers : Fin n → WithMetadataPinger D) (s : MergeState D n) : Prop where
  lane : ∀ i, (s.lanes i).Inv (pingers i)
  kept : ∀ i, s.delivered i ++ (s.lanes i).pending (pingers i) =
    (pingers i).events.map (pingers i).wrapped
  bound : ∀ k, s.main = .starting k → k < n
  absent : ∀ i, (s.lanes i).merger = .absent ↔ ∃ k, s.main = .starting k ∧ k ≤ i
  wg : s.wg = ∑ i, (s.lanes i).active
  ended : s.main = .closing ∨ s.main = .returned → ∀ i, (s.lanes i).merger = .returned
  closed : s.closed = true ↔ s.main = .returned
  panicked : s.panicked = false

theorem merging_start (pingers : Fin n → WithMetadataPinger D) :
    (start pingers).Merging pingers := by
  refine ⟨fun i => Lane.inv_start _, fun i => rfl, ?_, ?_, ?_, ?_, ?_, rfl⟩
  · intro k hk
    simp only [start] at hk
    split at hk
    next => cases hk
    next hn =>
      cases hk
      exact Nat.pos_of_ne_zero hn
  · intro i
    refine iff_of_true rfl ⟨0, ?_, Nat.zero_le _⟩
    have hn : n ≠ 0 := by
      rintro rfl
      exact i.elim0
    simp only [start, if_neg hn]
  · exact (Finset.sum_eq_zero fun i _ => rfl).symm
  · intro h i
    have hn : n ≠ 0 := by
      rintro rfl
      exact i.elim0
    simp only [start, if_neg hn] at h
    rcases h with h | h <;> cases h
  · refine iff_of_false (by simp [start]) ?_
    simp only [start]
    split <;> simp

/-- A lane after an update. -/
theorem lanes_setLane (s : MergeState D n) (i j : Fin n) (lane : Lane D) :
    (s.setLane i lane).lanes j = if j = i then lane else s.lanes j := by
  by_cases h : j = i
  · subst h
    rw [if_pos rfl]
    exact Function.update_self _ _ _
  · rw [if_neg h]
    exact Function.update_of_ne h _ _

/-- A step of one lane. -/
theorem merging_lane {a : LaneAction} (h : s.Merging pingers)
    (hst : s.step pingers (.lane i a) = some t) :
    t.Merging pingers ∧ t.rank < s.rank := by
  obtain ⟨lane, hlane, rfl⟩ := Option.map_eq_some_iff.1 hst
  have hmoves := Lane.moves_step (h.lane i) hlane
  refine ⟨⟨fun j => ?_, fun j => ?_, h.bound, fun j => ?_, ?_, fun hmain j => ?_, h.closed,
    h.panicked⟩, ?_⟩
  · rw [lanes_setLane]
    split
    next hj => exact hj ▸ hmoves.inv
    next => exact h.lane j
  · rw [lanes_setLane]
    split
    next hj =>
      subst hj
      rw [hmoves.pending]
      exact h.kept j
    next => exact h.kept j
  · rw [lanes_setLane]
    split
    next hj =>
      subst hj
      rw [hmoves.absent]
      exact h.absent j
    next => exact h.absent j
  · have hsum := sum_update s.lanes i lane Lane.active
    rw [hmoves.active] at hsum
    exact h.wg.trans (by
      show _ = ∑ j, (Function.update s.lanes i lane j).active
      omega)
  · rw [lanes_setLane]
    split
    next hj =>
      subst hj
      exact hmoves.returned.2 (h.ended hmain j)
    next => exact h.ended hmain j
  · have hsum := sum_update s.lanes i lane Lane.rank
    have hlt := hmoves.rank
    show s.main.rank n + ∑ j, (Function.update s.lanes i lane j).rank <
      s.main.rank n + ∑ j, (s.lanes j).rank
    omega

theorem merging_startLane (h : s.Merging pingers)
    (hst : s.step pingers .startLane = some t) : t.Merging pingers ∧ t.rank < s.rank := by
  rw [step] at hst
  split at hst
  next k hmain =>
    have hk := h.bound k hmain
    rw [dif_pos hk] at hst
    cases hst
    obtain ⟨i, hi⟩ : ∃ i : Fin n, i = ⟨k, hk⟩ := ⟨_, rfl⟩
    rw [← hi]
    have hval : (i : Nat) = k := by rw [hi]
    have habsent : (s.lanes i).merger = .absent := (h.absent i).2 ⟨k, hmain, Nat.le_of_eq hval.symm⟩
    have hlanes := lanes_setLane s i
    have hinv := (h.lane i).move (.inl ⟨habsent, rfl⟩)
    have hpending : ((s.lanes i).setMerger .starting).pending (pingers i) =
        (s.lanes i).pending (pingers i) := by
      simp only [Lane.pending, Lane.setMerger, habsent]
    refine ⟨⟨fun j => ?_, fun j => ?_, fun k' hk' => ?_, fun j => ?_, ?_, fun hmain' => ?_,
      ?_, h.panicked⟩, ?_⟩
    · show Lane.Inv (pingers j) ((s.setLane i _).lanes j)
      rw [hlanes]
      split
      next hj => exact hj ▸ hinv
      next => exact h.lane j
    · show s.delivered j ++ Lane.pending (pingers j) ((s.setLane i _).lanes j) = _
      rw [hlanes]
      split
      next hj =>
        subst hj
        rw [hpending]
        exact h.kept j
      next => exact h.kept j
    · have hk' : (if k + 1 < n then MergeMainPC.starting (k + 1) else .waiting) =
        .starting k' := hk'
      split at hk'
      next hlt =>
        cases hk'
        exact hlt
      next => cases hk'
    · show ((s.setLane i _).lanes j).merger = .absent ↔
        ∃ k', (if k + 1 < n then MergeMainPC.starting (k + 1) else .waiting) = .starting k' ∧
          k' ≤ (j : Nat)
      rw [hlanes]
      split
      next hj =>
        subst hj
        refine iff_of_false (by simp [Lane.setMerger]) ?_
        rintro ⟨k', hk', hle⟩
        split at hk'
        next =>
          cases hk'
          omega
        next => cases hk'
      next hj =>
        have hne : (j : Nat) ≠ k := fun heq => hj (Fin.ext (heq.trans hval.symm))
        rw [h.absent j]
        constructor
        · rintro ⟨k', hk', hle⟩
          cases hmain.symm.trans hk'
          have hlt := j.isLt
          exact ⟨k + 1, if_pos (by omega), by omega⟩
        · rintro ⟨k', hk', hle⟩
          split at hk'
          next =>
            cases hk'
            exact ⟨k, hmain, by omega⟩
          next => cases hk'
    · have hsum := sum_update s.lanes i ((s.lanes i).setMerger .starting) Lane.active
      have hzero : (s.lanes i).active = 0 := by simp only [Lane.active, habsent]
      have hone : ((s.lanes i).setMerger .starting).active = 1 := rfl
      show s.wg + 1 = ∑ j, (Function.update s.lanes i _ j).active
      rw [h.wg]
      omega
    · have hmain' : (if k + 1 < n then MergeMainPC.starting (k + 1) else .waiting) = .closing ∨
        (if k + 1 < n then MergeMainPC.starting (k + 1) else .waiting) = .returned := hmain'
      split at hmain' <;> rcases hmain' with h | h <;> cases h
    · have hopen : s.closed = false := by
        rw [← Bool.not_eq_true, h.closed, hmain]
        simp
      refine iff_of_false (by simp [setLane, hopen]) ?_
      show ¬ (if k + 1 < n then MergeMainPC.starting (k + 1) else .waiting) = .returned
      split <;> simp
    · have hsum := sum_update s.lanes i ((s.lanes i).setMerger .starting) Lane.rank
      have hlane : ((s.lanes i).setMerger .starting).rank < (s.lanes i).rank :=
        Lane.rank_move (.inl ⟨habsent, rfl⟩)
      show (if k + 1 < n then MergeMainPC.starting (k + 1) else .waiting).rank n +
          ∑ j, (Function.update s.lanes i _ j).rank < s.main.rank n + ∑ j, (s.lanes j).rank
      rw [hmain]
      split <;> simp only [MergeMainPC.rank] <;> omega
  next => cases hst

theorem merging_wait (h : s.Merging pingers) (hst : s.step pingers .wait = some t) :
    t.Merging pingers ∧ t.rank < s.rank := by
  rw [step] at hst
  split at hst
  next hmain =>
    split at hst
    next hwg =>
      cases hst
      -- all goroutines were started and none is counted any more
      have hall : ∀ i, (s.lanes i).merger = .returned := fun i => by
        have hzero : (s.lanes i).active = 0 := by
          have hsum := Finset.add_sum_erase _ (fun j => (s.lanes j).active) (Finset.mem_univ i)
          rw [← h.wg, hwg] at hsum
          exact (Nat.add_eq_zero_iff.1 hsum).1
        have hpresent : (s.lanes i).merger ≠ .absent := by
          rw [Ne, h.absent i]
          rintro ⟨k, hk, _⟩
          cases hmain.symm.trans hk
        simp only [Lane.active] at hzero
        split at hzero
        next habsent => exact absurd habsent hpresent
        next hreturned => exact hreturned
        next => cases hzero
      have hopen : s.closed = false := by
        rw [← Bool.not_eq_true, h.closed, hmain]
        simp
      refine ⟨⟨h.lane, h.kept, fun k hk => (by cases hk), fun i => ?_, h.wg, fun _ => hall,
        iff_of_false (by simp [hopen]) (by simp), h.panicked⟩, ?_⟩
      · refine iff_of_false (by rw [hall i]; simp) ?_
        rintro ⟨k, hk, _⟩
        cases hk
      · simp only [rank, hmain, MergeMainPC.rank]
        omega
    next => cases hst
  next => cases hst

theorem merging_closeEvents (h : s.Merging pingers)
    (hst : s.step pingers .closeEvents = some t) : t.Merging pingers ∧ t.rank < s.rank := by
  rw [step] at hst
  split at hst
  next hmain =>
    have hopen : ¬ s.closed = true := by
      rw [h.closed, hmain]
      simp
    rw [if_neg hopen] at hst
    cases hst
    have hall := h.ended (.inl hmain)
    refine ⟨⟨h.lane, h.kept, fun k hk => (by cases hk), fun i => ?_, h.wg, fun _ => hall,
      iff_of_true rfl rfl, h.panicked⟩, ?_⟩
    · refine iff_of_false (by rw [hall i]; simp) ?_
      rintro ⟨k, hk, _⟩
      cases hk
    · simp only [rank, hmain, MergeMainPC.rank]
      omega
  next => cases hst

/-- A lane whose merging goroutine moves on from one active place to another place. -/
theorem Merging.setMerger (h : s.Merging pingers) {merger : MergerPC D}
    (hactive : (s.lanes i).active = 1) (hmerger : merger ≠ .absent)
    (hinv : ((s.lanes i).setMerger merger).Inv (pingers i)) (j : Fin n) :
    ((s.setLane i ((s.lanes i).setMerger merger)).lanes j).Inv (pingers j) ∧
      (((s.setLane i ((s.lanes i).setMerger merger)).lanes j).merger = .absent ↔
        ∃ k, s.main = .starting k ∧ k ≤ j) := by
  rw [lanes_setLane]
  split
  next hj =>
    subst hj
    refine ⟨hinv, iff_of_false hmerger ?_⟩
    rw [← h.absent j]
    intro habsent
    rw [Lane.active, habsent] at hactive
    cases hactive
  next => exact ⟨h.lane j, h.absent j⟩

theorem merging_wgDone (h : s.Merging pingers) (hst : s.step pingers (.wgDone i) = some t) :
    t.Merging pingers ∧ t.rank < s.rank := by
  rw [step] at hst
  split at hst
  next hexit =>
    cases hst
    have hactive : (s.lanes i).active = 1 := by simp only [Lane.active, hexit]
    have hinv := (h.lane i).move (.inr (.inl ⟨hexit, rfl⟩))
    have hset := fun j => h.setMerger hactive (by simp) hinv j
    refine ⟨⟨fun j => (hset j).1, fun j => ?_, h.bound, fun j => (hset j).2, ?_, fun hmain j => ?_,
      h.closed, h.panicked⟩, ?_⟩
    · show s.delivered j ++ Lane.pending (pingers j) ((s.setLane i _).lanes j) = _
      rw [lanes_setLane]
      split
      next hj =>
        subst hj
        have hnil := (h.lane j).pending_nil (.inl hexit)
        have hnil' := Lane.Inv.pending_nil hinv (.inr rfl)
        rw [hnil', ← hnil]
        exact h.kept j
      next => exact h.kept j
    · have hsum := sum_update s.lanes i ((s.lanes i).setMerger .returned) Lane.active
      have hzero : ((s.lanes i).setMerger .returned).active = 0 := rfl
      show s.wg - 1 = ∑ j, (Function.update s.lanes i _ j).active
      rw [h.wg]
      omega
    · show ((s.setLane i _).lanes j).merger = .returned
      rw [lanes_setLane]
      split
      next => rfl
      next => exact h.ended hmain j
    · have hsum := sum_update s.lanes i ((s.lanes i).setMerger .returned) Lane.rank
      have hlane : ((s.lanes i).setMerger .returned).rank < (s.lanes i).rank :=
        Lane.rank_move (.inr (.inl ⟨hexit, rfl⟩))
      show s.main.rank n + ∑ j, (Function.update s.lanes i _ j).rank <
        s.main.rank n + ∑ j, (s.lanes j).rank
      omega
  next => cases hst

theorem merging_deliver (h : s.Merging pingers) (hst : s.step pingers (.deliver i) = some t) :
    t.Merging pingers ∧ t.rank < s.rank := by
  rw [step] at hst
  split at hst
  next ev hsend =>
    have hopen : ¬ s.closed = true := by
      rw [h.closed]
      intro hmain
      cases hsend.symm.trans (h.ended (.inr hmain) i)
    rw [if_neg hopen] at hst
    cases hst
    have hactive : (s.lanes i).active = 1 := by simp only [Lane.active, hsend]
    have hinv := (h.lane i).move (.inr (.inr ⟨⟨ev, hsend⟩, rfl⟩))
    have hset := fun j => h.setMerger hactive (by simp) hinv j
    refine ⟨⟨fun j => (hset j).1, fun j => ?_, h.bound, fun j => (hset j).2, ?_, fun hmain j => ?_,
      h.closed, h.panicked⟩, ?_⟩
    · -- the event went from the lane to the consumer
      show ((s.out ++ [(i, ev)]).filter fun x => x.1 = j).map Prod.snd ++
        ((s.setLane i _).lanes j).pending (pingers j) = _
      rw [lanes_setLane, List.filter_append]
      split
      next hj =>
        subst hj
        have hpending : (s.lanes j).pending (pingers j) =
            ev :: ((s.lanes j).setMerger .receiving).pending (pingers j) := by
          simp only [Lane.pending, Lane.setMerger, hsend, List.nil_append, List.cons_append]
        rw [← h.kept j, hpending, List.filter_cons_of_pos (by simp), List.filter_nil,
          List.map_append, List.append_assoc]
        rfl
      next hj =>
        have hne : ¬ i = j := fun hij => hj hij.symm
        rw [List.filter_cons_of_neg (by simpa using hne), List.filter_nil, List.append_nil]
        exact h.kept j
    · have hsum := sum_update s.lanes i ((s.lanes i).setMerger .receiving) Lane.active
      have hone : ((s.lanes i).setMerger .receiving).active = 1 := rfl
      show s.wg = ∑ j, (Function.update s.lanes i _ j).active
      rw [h.wg]
      omega
    · cases hsend.symm.trans (h.ended hmain i)
    · have hsum := sum_update s.lanes i ((s.lanes i).setMerger .receiving) Lane.rank
      have hlane : ((s.lanes i).setMerger .receiving).rank < (s.lanes i).rank :=
        Lane.rank_move (.inr (.inr ⟨⟨ev, hsend⟩, rfl⟩))
      show s.main.rank n + ∑ j, (Function.update s.lanes i _ j).rank <
        s.main.rank n + ∑ j, (s.lanes j).rank
      omega
  next => cases hst

theorem merging_step {a : MergeAction n} (h : s.Merging pingers)
    (hst : s.step pingers a = some t) : t.Merging pingers ∧ t.rank < s.rank := by
  cases a with
  | startLane => exact merging_startLane h hst
  | wait => exact merging_wait h hst
  | closeEvents => exact merging_closeEvents h hst
  | lane i a => exact merging_lane h hst
  | deliver i => exact merging_deliver h hst
  | wgDone i => exact merging_wgDone h hst

theorem merging_of_reachable (h : (startMultiplePings pingers).Reachable .any s) :
    s.Merging pingers :=
  h.invariant (merging_start pingers) fun _ _ _ hi _ hst => (merging_step hi hst).1

/-! ## Progress -/

end MergeState

namespace Lane

variable {p : WithMetadataPinger D} {lane : Lane D}

/-- The reader of the origin's channel is at its receive. -/
def Reads (p : WithMetadataPinger D) (lane : Lane D) : Prop :=
  (∃ m, p.metadata = some m ∧ lane.forwarder = .receiving) ∨
    (p.metadata = none ∧ lane.merger = .receiving)

theorem Reads.accept (h : lane.Reads p) (todo : List (PingEvent D)) (chan : Chan (PingEvent D))
    (ev : PingEvent D) :
    ∃ lane', Lane.accept p { lane with todo := todo, chan := chan } ev = some lane' := by
  rcases h with ⟨m, hm, hf⟩ | ⟨hm, hr⟩
  · exact ⟨_, by simp only [Lane.accept, hm, hf]; rfl⟩
  · exact ⟨_, by simp only [Lane.accept, hm, hr]; rfl⟩

theorem Reads.leave (h : lane.Reads p) : ∃ lane', Lane.leave p lane = some lane' := by
  rcases h with ⟨m, hm, hf⟩ | ⟨hm, hr⟩
  · exact ⟨_, by simp only [Lane.leave, hm, hf]; rfl⟩
  · exact ⟨_, by simp only [Lane.leave, hm, hr]; rfl⟩

/-- A reader at its receive gets an event or leaves, unless the origin closes first. -/
theorem Reads.step (h : lane.Reads p) (hinv : lane.Inv p) :
    ∃ a lane', lane.step p a = some lane' := by
  cases hbuf : lane.chan.buf with
  | cons ev evs =>
    obtain ⟨chan, hrecv, _⟩ := Chan.recv_of_buf hbuf
    obtain ⟨lane', hacc⟩ := h.accept lane.todo chan ev
    exact ⟨.take, lane', Option.bind_eq_some_iff.2 ⟨(ev, chan), hrecv, hacc⟩⟩
  | nil =>
    cases horigin : lane.origin with
    | idle => exact absurd horigin (hinv.not_idle h)
    | closed =>
      obtain ⟨lane', hleave⟩ := h.leave
      have hdrained := Chan.drained_iff.2 ⟨hbuf, hinv.closed.2 horigin⟩
      exact ⟨.drained, lane', by rw [Lane.step, if_pos hdrained, hleave]⟩
    | sending =>
      have hopen : lane.chan.closed = false := by
        rw [← Bool.not_eq_true, hinv.closed, horigin]
        simp
      cases htodo : lane.todo with
      | nil =>
        exact ⟨.closeOrigin, _, by simp only [Lane.step, horigin, htodo, Chan.close, hopen]; rfl⟩
      | cons ev evs =>
        obtain ⟨lane', hacc⟩ := h.accept evs lane.chan ev
        refine ⟨.meet, lane', ?_⟩
        rw [horigin] at hacc
        simp only [Lane.step, horigin, htodo, if_pos (Chan.canMeet_iff.2 ⟨hbuf, hopen⟩)]
        exact hacc

/-- A lane whose merging goroutine waits for an event has a step. -/
theorem Inv.exists_step (hinv : lane.Inv p) (h : lane.merger = .receiving) :
    ∃ a lane', lane.step p a = some lane' := by
  cases hm : p.metadata with
  | none => exact Reads.step (.inr ⟨hm, h⟩) hinv
  | some m =>
    cases hf : lane.forwarder with
    | absent =>
      have hphased := hinv.phased
      simp only [Phased, hm, hf, h] at hphased
    | starting => exact ⟨.call, _, by simp only [Lane.step, hf]; rfl⟩
    | receiving => exact Reads.step (.inl ⟨m, hm, hf⟩) hinv
    | sending ev => exact ⟨.pass, _, by simp only [Lane.step, hf, h]; rfl⟩
    | closing => exact ⟨.closeWrapped, _, by simp only [Lane.step, hf]; rfl⟩
    | returned => exact ⟨.wrappedClosed, _, by simp only [Lane.step, hf, h]; rfl⟩

end Lane

namespace MergeState

variable {n : Nat} {pingers : Fin n → WithMetadataPinger D} {s : MergeState D n}

/-- A state in which nothing can move is one in which the channel was closed. -/
theorem Merging.exists_step (h : s.Merging pingers) (hmain : s.main ≠ .returned) :
    ∃ a t, s.step pingers a = some t := by
  have hopen : ¬ s.closed = true := fun hclosed => hmain (h.closed.1 hclosed)
  cases hm : s.main with
  | returned => exact absurd hm hmain
  | starting k => exact ⟨.startLane, _, by simp only [step, hm, dif_pos (h.bound k hm)]; rfl⟩
  | closing => exact ⟨.closeEvents, _, by simp only [step, hm, if_neg hopen]; rfl⟩
  | waiting =>
    by_cases hwg : s.wg = 0
    · exact ⟨.wait, _, by simp only [step, hm, if_pos hwg]; rfl⟩
    -- some goroutine is still counted
    obtain ⟨i, hi⟩ : ∃ i, (s.lanes i).active ≠ 0 := by
      by_contra hnone
      push Not at hnone
      exact hwg (h.wg.trans (Finset.sum_eq_zero fun i _ => hnone i))
    cases hmerger : (s.lanes i).merger with
    | absent => exact absurd (by simp only [Lane.active, hmerger]) hi
    | returned => exact absurd (by simp only [Lane.active, hmerger]) hi
    | starting =>
      cases hmeta : (pingers i).metadata with
      | none =>
        exact ⟨.lane i .begin, _, by simp only [step, Lane.step, hmerger, hmeta]; rfl⟩
      | some m =>
        exact ⟨.lane i .begin, _, by simp only [step, Lane.step, hmerger, hmeta]; rfl⟩
    | receiving =>
      obtain ⟨a, lane, hlane⟩ := (h.lane i).exists_step hmerger
      exact ⟨.lane i a, _, by simp only [step, hlane]; rfl⟩
    | sending ev => exact ⟨.deliver i, _, by simp only [step, hmerger, if_neg hopen]; rfl⟩
    | exiting => exact ⟨.wgDone i, _, by simp only [step, hmerger]; rfl⟩

end MergeState

/-! ## What the consumer gets -/

/-- The event with the metadata written over its own, and else the same. -/
structure Labels (metadata : Option (Store String String)) (ev ev' : PingEvent D) : Prop where
  data : ev'.data = ev.data
  error : ev'.error = ev.error
  err : ev'.err = ev.err
  metadata : ∀ k, (ev'.metadata.getD ∅).lookup k =
    ((metadata.getD ∅).lookup k).or ((ev.metadata.getD ∅).lookup k)

/-- Writing entries with distinct keys one after the other. -/
theorem lookup_foldl_insert (entries : List (Sigma fun _ : String => String))
    (hnodup : entries.NodupKeys) (m : Store String String) (k : String) :
    (entries.foldl (fun m e => m.insert e.1 e.2) m).lookup k =
      (List.dlookup k entries).or (m.lookup k) := by
  induction entries generalizing m with
  | nil => rfl
  | cons e entries ih =>
    obtain ⟨key, v⟩ := e
    obtain ⟨hkey, hnodup⟩ := List.nodupKeys_cons.1 hnodup
    rw [List.foldl_cons, ih hnodup, Store.lookup_insert_eq]
    by_cases hk : k = key
    · subst hk
      rw [if_pos rfl, List.dlookup_cons_eq, List.dlookup_eq_none.2 hkey]
      rfl
    · rw [if_neg hk, List.dlookup_cons_ne _ _ hk]

theorem labels_wrapped (p : WithMetadataPinger D) (ev : PingEvent D) :
    Labels p.metadata ev (p.wrapped ev) := by
  cases hm : p.metadata with
  | none =>
    have hsame : p.wrapped ev = ev := by rw [WithMetadataPinger.wrapped, hm]
    rw [hsame]
    exact ⟨rfl, rfl, rfl, fun k => by rw [Option.getD_none, AList.lookup_empty, Option.none_or]⟩
  | some m =>
    have hwrap : p.wrapped ev = wrapEvent m ev := by rw [WithMetadataPinger.wrapped, hm]
    rw [hwrap]
    exact ⟨rfl, rfl, rfl, fun k => lookup_foldl_insert m.entries m.nodupKeys _ k⟩

/-- A list of labelled values is what its labels pick out of it, put together. -/
theorem perm_flatMap_filter {α : Type} {n : Nat} (l : List (Fin n × α)) :
    l.Perm ((List.finRange n).flatMap fun i => l.filter fun x => x.1 = i) := by
  classical
  rw [List.perm_iff_count]
  intro x
  rw [List.count_flatMap]
  have hcount : (List.count x ∘ fun i => l.filter fun y => y.1 = i) =
      fun i => if x.1 = i then l.count x else 0 := by
    funext i
    by_cases hx : x.1 = i
    · rw [if_pos hx]
      exact List.count_filter (by simpa using hx)
    · rw [if_neg hx]
      exact List.count_eq_zero.2 fun hmem => hx (by simpa using List.of_mem_filter hmem)
  rw [hcount, ← Fin.sum_univ_def, Finset.sum_ite_eq, if_pos (Finset.mem_univ _)]

namespace MergeState

/-- What a consumer that keeps reading can see: of each lane a beginning of its events, with
the metadata of its pinger, and all of them once the channel is closed. -/
structure Faithful {n : Nat} (pingers : Fin n → WithMetadataPinger D) (s : MergeState D n) :
    Prop where
  /-- No goroutine sent on a closed channel or closed one twice. -/
  panicked : s.panicked = false
  /-- All that was received, as a multiset, is what was received of the single lanes. -/
  union : (s.out.map Prod.snd).Perm ((List.finRange n).flatMap s.delivered)
  order : ∀ i, List.Forall₂ (Labels (pingers i).metadata)
    ((pingers i).events.take (s.delivered i).length) (s.delivered i)
  complete : s.closed = true → ∀ i, (s.delivered i).length = (pingers i).events.length

theorem Merging.faithful {n : Nat} {pingers : Fin n → WithMetadataPinger D}
    {s : MergeState D n} (h : s.Merging pingers) : s.Faithful pingers := by
  refine ⟨h.panicked, ?_, fun i => ?_, fun hclosed i => ?_⟩
  · have hperm := (perm_flatMap_filter s.out).map Prod.snd
    rwa [List.map_flatMap] at hperm
  · have htake : s.delivered i =
        ((pingers i).events.take (s.delivered i).length).map (pingers i).wrapped := by
      rw [List.map_take, ← h.kept i, List.take_left]
    have hlabels : ∀ l : List (PingEvent D),
        List.Forall₂ (Labels (pingers i).metadata) l (l.map (pingers i).wrapped) := fun l => by
      induction l with
      | nil => exact .nil
      | cons ev l ih => exact .cons (labels_wrapped _ ev) ih
    have hall := hlabels ((pingers i).events.take (s.delivered i).length)
    rwa [← htake] at hall
  · have hreturned := h.ended (.inr (h.closed.1 hclosed)) i
    have hkept := congrArg List.length (h.kept i)
    rwa [(h.lane i).pending_nil (.inr hreturned), List.append_nil, List.length_map] at hkept

end MergeState

/-- Whatever the schedule, the consumer sees the events of all pingers in order, each with the
metadata of its pinger, and every run comes to its end with the channel closed and nothing
missing. -/
theorem merge_faithful {n : Nat} (pingers : Fin n → WithMetadataPinger D) :
    (∀ s, (startMultiplePings pingers).Reachable .any s → s.Faithful pingers) ∧
      (startMultiplePings pingers).Settles fun s => s.closed = true := by
  refine ⟨fun s hs => (MergeState.merging_of_reachable hs).faithful,
    System.settles_of_rank MergeState.rank (fun s a t hs hst => ?_) fun s hs hstuck => ?_⟩
  · exact (MergeState.merging_step (MergeState.merging_of_reachable hs) hst).2
  · have hmerging := MergeState.merging_of_reachable hs
    refine hmerging.closed.2 ?_
    by_contra hmain
    obtain ⟨a, t, hst⟩ := hmerging.exists_step hmain
    cases (hstuck a).symm.trans hst

end CloudPing.Handler
