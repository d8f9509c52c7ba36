import CloudPing.Raw.TrackerEvents

/-!
# The timers of outstanding packets

`MarkSent` starts a timer for the packet, a reply stops it, and a timer that has fired calls
`handleTimeout`.  So a packet that is outstanding is not forgotten: its timer runs, or its
goroutine is at the call, or the actor is in that call.  A closed tracker stops its timers
and fails its calls, and there it need not hold.
-/

namespace CloudPing.Raw

open Conc

namespace ICMPTrackerRun

variable {s t : ICMPTrackerRun} {a : TrackerAction}

/-- The tracker executes the functions it is asked to. -/
def Serving (s : ICMPTrackerRun) : Prop := s.actor ≠ .returned ∧ s.it.closed = false

/-- An outstanding packet has a timer, or its timeout is being handled. -/
def Timed (s : ICMPTrackerRun) : Prop :=
  s.Serving → ∀ q ent, s.it.store.lookup q = some ent → ent.outstanding = true →
    q ∈ s.armed ∨ q ∈ s.expired ∨ ∃ ev, s.actor = .emitting q ev

theorem Timed.new (config : ICMPTrackerConfig) : Timed (.new config) := by
  intro _ q ent hl
  cases hl

/-- A tracker that serves after a step served before it. -/
theorem Serving.of_move (hm : Move s a t) (h : t.Serving) : s.Serving := by
  refine ⟨fun hr => h.1 (hm.actor_returned hr), ?_⟩
  cases hc : s.it.closed with
  | false => rfl
  | true =>
    have hclosed : t.it.closed = true := by cases hm <;> first | exact hc | rfl
    rw [h.2] at hclosed
    cases hclosed

/-- A reply is refused only by a tracker that does not serve. -/
theorem not_serving_of_markReceived {q : Int} {r : ICMPReceiveReply} {t₁ t₂ t₃ : Time} {err : String}
    (h : s.markReceived q r t₁ t₂ t₃ = some (.error err)) : ¬ s.Serving := by
  intro hs
  rcases serve_eq_some h with ⟨_, he⟩ | ⟨ha, _⟩
  · unfold ICMPTracker.markReceived at he
    rw [if_neg (by simp [hs.2])] at he
    split at he <;> cases he
  · exact hs.1 ha

/-- And so is a packet. -/
theorem not_serving_of_markSent {q ttl : Int} {dst : Option IPAddr} {now : Time} {err : String}
    (h : s.markSent q ttl dst now = some (.error err)) : ¬ s.Serving := by
  intro hs
  rcases serve_eq_some h with ⟨_, he⟩ | ⟨ha, _⟩
  · unfold ICMPTracker.markSent at he
    rw [if_neg (by simp [hs.2])] at he
    cases he
  · exact hs.1 ha

/-- In its select the tracker executes what it is asked to. -/
theorem serve_of_select (ha : s.actor = .select) (fn : Except String ICMPTrackerRun) :
    s.serve fn = some fn := by
  rw [serve, ha]

/-- A tracker that serves takes a reply. -/
theorem Serving.markReceived (h : s.Serving) (ha : s.actor = .select) (q : Int)
    (r : ICMPReceiveReply) (t₁ t₂ t₃ : Time) :
    ∃ t, s.markReceived q r t₁ t₂ t₃ = some (.ok t) ∧ t.ctxDone = s.ctxDone ∧
      t.panicked = s.panicked := by
  rw [ICMPTrackerRun.markReceived, serve_of_select ha]
  cases hm : s.it.markReceived q r t₁ t₂ t₃ with
  | error e =>
    simp only [ICMPTracker.markReceived, h.2, Bool.false_eq_true, if_false] at hm
    split at hm <;> cases hm
  | ok p =>
    obtain ⟨it, _ | ev⟩ := p
    · exact ⟨_, rfl, rfl, rfl⟩
    · exact ⟨_, rfl, rfl, rfl⟩

/-- And a packet. -/
theorem Serving.markSent (h : s.Serving) (ha : s.actor = .select) (q ttl : Int)
    (dst : Option IPAddr) (now : Time) :
    ∃ t, s.markSent q ttl dst now = some (.ok t) ∧ t.ctxDone = s.ctxDone ∧
      t.panicked = s.panicked := by
  rw [ICMPTrackerRun.markSent, serve_of_select ha]
  cases hm : s.it.markSent q ttl dst now with
  | error e =>
    simp only [ICMPTracker.markSent, h.2, Bool.false_eq_true, if_false] at hm
    cases hm
  | ok it => exact ⟨_, rfl, rfl, rfl⟩

/-- A timer is stopped for its own packet only. -/
theorem mem_stopTimer {q q' : Int} (hq : q ∈ s.armed) (hne : q ≠ q') : q ∈ s.stopTimer q' := by
  unfold stopTimer
  split
  · exact (List.mem_erase_of_ne hne).2 hq
  · exact hq

/-- A call of `handleTimeout` to a tracker that serves takes the function to its end or to
the send of the event. -/
theorem handleTimeout_effect {q : Int} (h : s.step (.handleTimeout q) = some t) (hs : s.Serving) :
    s.actor = .select ∧ t.armed = s.armed ∧ t.expired = s.expired.erase q ∧
      (t.it.store = s.it.store ∧ (∃ ev, t.actor = .emitting q ev) ∨
        t.it.store = s.it.store.erase q) := by
  rw [step.eq_def] at h
  split at h
  next => cases h
  next =>
    obtain ⟨_, h⟩ := Option.ite_none_right_eq_some.1 h
    obtain ⟨r, hr, rfl⟩ := Option.map_eq_some_iff.1 h
    rcases serve_eq_some hr with ⟨ha, rfl⟩ | ⟨ha, _⟩
    · have hc := hs.2
      cases hit : s.it.handleTimeout q with
      | error e =>
        unfold ICMPTracker.handleTimeout at hit
        grind
      | ok p =>
        obtain ⟨it, oev⟩ := p
        obtain ⟨_, ⟨rfl, rfl, _⟩ | ⟨ent, _, _, rfl, rfl⟩⟩ := ICMPTracker.handleTimeout_ok hit
        · exact ⟨ha, rfl, rfl, .inr rfl⟩
        · exact ⟨ha, rfl, rfl, .inl ⟨rfl, _, rfl⟩⟩
    · exact absurd ha hs.1

/-- A call of `handleTimeout` disposes of its own packet and of no other. -/
theorem Timed.handleTimeout {q : Int} (h : s.Timed) (hst : s.step (.handleTimeout q) = some t) :
    t.Timed := by
  intro hserve q' ent hl ho
  have hserve' := hserve.of_move (step_move hst)
  obtain ⟨ha, harm, hexp, heff⟩ := handleTimeout_effect hst hserve'
  have hnot : ¬ ∃ ev, s.actor = .emitting q' ev := by
    rintro ⟨ev, he⟩
    rw [ha] at he
    cases he
  by_cases hq : q' = q
  · subst hq
    rcases heff with ⟨_, hev⟩ | hstore
    · exact .inr (.inr hev)
    · rw [hstore, AList.lookup_erase] at hl
      cases hl
  · have hl' : s.it.store.lookup q' = some ent := by
      rcases heff with ⟨hstore, _⟩ | hstore
      · rwa [hstore] at hl
      · rwa [hstore, AList.lookup_erase_ne hq] at hl
    rcases h hserve' q' ent hl' ho with hr | hr | hr
    · exact .inl (harm ▸ hr)
    · exact .inr (.inl (hexp ▸ (List.mem_erase_of_ne hq).2 hr))
    · exact absurd hr hnot

theorem Timed.move (h : s.Timed) (hm : Move s a t) (ha : ∀ q, a ≠ .handleTimeout q) : t.Timed := by
  intro hserve q ent hl ho
  have hold := h (hserve.of_move hm) q ent
  cases hm with
  | timedOut | stale | lapsed => exact absurd rfl (ha _)
  | @sent q' =>
    rcases eq_or_ne q q' with rfl | hq
    · exact .inl (List.mem_append_right _ (List.mem_singleton.2 rfl))
    · rw [AList.lookup_insert_ne hq] at hl
      exact (hold hl ho).imp_left (List.mem_append_left _)
  | @answered q' raw now sinceNs sinceMs ent' =>
    rcases eq_or_ne q q' with rfl | hq
    · rw [AList.lookup_insert] at hl
      cases hl
      rw [ent'.addReply_outstanding] at ho
      cases ho
    · rw [AList.lookup_insert_ne hq] at hl
      exact (hold hl ho).imp_left fun hr => mem_stopTimer hr hq
  | @fired q' =>
    rcases hold hl ho with hr | hr | hr
    · rcases eq_or_ne q q' with rfl | hq
      · exact .inr (.inl (List.mem_append_right _ (List.mem_singleton.2 rfl)))
      · exact .inl ((List.mem_erase_of_ne hq).2 hr)
    · exact .inr (.inl (List.mem_append_left _ hr))
    · exact .inr (.inr hr)
  | @cleaned q' =>
    rcases eq_or_ne q q' with rfl | hq
    · rw [ICMPTracker.forget_store, AList.lookup_erase] at hl
      cases hl
    · rw [ICMPTracker.forget_store, AList.lookup_erase_ne hq] at hl
      exact hold hl ho
  | @emitted q' ev c ha' | @metActor q' ev ha' =>
    rcases eq_or_ne q q' with rfl | hq
    · have hl : (s.it.store.erase q).lookup q = some ent := hl
      rw [AList.lookup_erase] at hl
      cases hl
    · have hl : (s.it.store.erase q').lookup q = some ent := hl
      rw [AList.lookup_erase_ne hq] at hl
      rcases hold hl ho with hr | hr | ⟨ev', hr⟩
      · exact .inl hr
      · exact .inr (.inl hr)
      · rw [ha'] at hr
        cases hr
        exact absurd rfl hq
  | forgot => cases hserve.2
  | exited => exact absurd rfl hserve.1
  | _ => exact hold hl ho

theorem Timed.step (h : s.Timed) (hst : s.step a = some t) : t.Timed := by
  by_cases ha : ∃ q, a = .handleTimeout q
  · obtain ⟨q, rfl⟩ := ha
    exact h.handleTimeout hst
  · exact h.move (step_move hst) fun q he => ha ⟨q, he⟩

/-! ## A tracker that nobody closes -/

/-- The tracker was not closed, and its goroutines are in order until the context ends. -/
structure Running (s : ICMPTrackerRun) : Prop where
  unclosed : s.it.closed = false
  timed : s.Timed
  produced : s.acked.length ≤ s.events.length
  returned : s.actor = .returned → s.ctxDone = true
  alive : s.panicked = true → s.ctxDone = true

namespace Running

theorem new (config : ICMPTrackerConfig) : Running (.new config) where
  unclosed := rfl
  timed := .new config
  produced := Nat.le_refl 0
  returned := by intro h; cases h
  alive := by intro h; cases h

theorem serving (h : s.Running) (hc : s.ctxDone = false) : s.Serving := by
  refine ⟨fun hr => ?_, h.unclosed⟩
  rw [h.returned hr] at hc
  cases hc

/-- Every step but a close keeps it, provided it keeps the timers. -/
theorem keep (h : s.Running) (hacc : s.Accounted) (hlife : s.Lifecycle) (hm : Move s a t)
    (ha : a ≠ .forgetAllAndClose) (htimed : t.Timed) : t.Running where
  unclosed := by rw [hm.it_closed ha]; exact h.unclosed
  timed := htimed
  produced := (hm.effect hacc).acked_le h.produced
  returned := by
    intro hr
    rcases (hlife.move hm).returned hr with hc | hc
    · exact hc
    · rw [hm.it_closed ha, h.unclosed] at hc
      cases hc
  alive := by
    intro hp
    cases hm with
    | panicked hc => exact h.returned (hlife.closedIff.1 hc)
    | cancelled => rfl
    | _ => exact h.alive hp

theorem move (h : s.Running) (hacc : s.Accounted) (hlife : s.Lifecycle) (hm : Move s a t)
    (ha : a ≠ .forgetAllAndClose) (ha' : ∀ q, a ≠ .handleTimeout q) : t.Running :=
  h.keep hacc hlife hm ha (h.timed.move hm ha')

theorem step (h : s.Running) (hacc : s.Accounted) (hlife : s.Lifecycle) (hst : s.step a = some t)
    (ha : a ≠ .forgetAllAndClose) : t.Running :=
  h.keep hacc hlife (step_move hst) ha (h.timed.step hst)

end Running

end ICMPTrackerRun

end CloudPing.Raw
