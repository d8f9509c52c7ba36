import Mathlib.Data.List.Perm.Subperm
import CloudPing.Raw.TrackerRun

/-!
# What the tracker counts

Over every run in which the sequence numbers marked sent are distinct, each packet marked
sent is either counted in `ackedSeq`, once, or it is a stored entry without a reply.  A
packet yields at most one timeout event, and if it does it yields no reply event, before
or after.

Two kinds of goroutines act late.  A timer can fire before a reply stops it, and then
`handleTimeout` runs for an entry that has a reply or that is gone.  A `cleanupEntry` runs
for an entry that a timeout cannot have deleted, because a reply came first.  The
invariant `Accounted` covers both: what `cleanupEntry` deletes was acknowledged, and what
`handleTimeout` counts was not.
-/

namespace CloudPing.Raw

open Conc

/-- One while the actor is inside the function of `handleTimeout`: the packet is counted
and its entry is still stored. -/
def ActorPC.inFn : ActorPC → Nat
  | .emitting _ _ => 1
  | _ => 0

namespace ICMPTrackerRun

/-- No sequence number is marked sent twice. -/
def distinct : Policy ICMPTrackerRun TrackerAction := fun s a =>
  match a with
  | .markSent seq _ _ _ => seq ∉ s.sent
  | _ => True

instance : ∀ s a, Decidable (distinct s a) := fun s a =>
  match a with
  | .markSent seq _ _ _ => inferInstanceAs (Decidable (seq ∉ s.sent))
  | .cancel | .markReceived .. | .timerFires _ | .handleTimeout _ | .cleanupEntry _ | .emit
  | .deliver _ | .take _ | .forgetAllAndClose | .closeCloseCh | .exit => isTrue trivial

theorem distinct_of_own {a : TrackerAction} (ha : a.own = true) (s : ICMPTrackerRun) :
    distinct s a := by
  cases a with
  | markSent => cases ha
  | _ => trivial

/-- Two events of one packet are both reply events. -/
def Compatible (e e' : ICMPTrackerEntry) : Prop :=
  e.seq = e'.seq → e.receivedAt ≠ [] ∧ e'.receivedAt ≠ []

/-- The accounting invariant. -/
structure Accounted (s : ICMPTrackerRun) : Prop where
  balance : s.sent.length + s.actor.inFn = s.it.ackedSeq + s.it.getUnAcked
  ackedLength : s.acked.length = s.it.ackedSeq
  ackedNodup : s.acked.Nodup
  ackedSent : ∀ q ∈ s.acked, q ∈ s.sent
  stored : ∀ q ent, s.it.store.lookup q = some ent → ent.seq = q ∧ q ∈ s.sent ∧ ent.Even
  counted : ∀ q ent, s.it.store.lookup q = some ent → ent.outstanding = false → q ∈ s.acked
  uncounted : ∀ q ent, s.it.store.lookup q = some ent → ent.outstanding = true →
    q ∈ s.acked → ∃ ev, s.actor = .emitting q ev
  emitting : ∀ q ev, s.actor = .emitting q ev →
    ∃ ent, s.it.store.lookup q = some ent ∧ ent.outstanding = true ∧ ev = ent.readonlyClone
  cleanups : ∀ q ∈ s.cleanups, q ∈ s.acked ∧
    ∀ ent, s.it.store.lookup q = some ent → ent.outstanding = false
  eventsAcked : ∀ ev ∈ s.events, ev.seq ∈ s.acked
  timeouts : ∀ ev ∈ s.events, ev.receivedAt = [] →
    ∀ ent, s.it.store.lookup ev.seq = some ent → ∃ ev', s.actor = .emitting ev.seq ev'
  compatible : s.events.Pairwise Compatible

namespace Accounted

theorem new (config : ICMPTrackerConfig) : Accounted (.new config) where
  balance := rfl
  ackedLength := rfl
  ackedNodup := List.nodup_nil
  ackedSent := by intro q h; cases h
  stored := by intro q ent h; cases h
  counted := by intro q ent h; cases h
  uncounted := by intro q ent h; cases h
  emitting := by intro q ev h; cases h
  cleanups := by intro q h; cases h
  eventsAcked := by intro ev h; cases h
  timeouts := by intro ev h; cases h
  compatible := List.Pairwise.nil

variable {s : ICMPTrackerRun} {q ttl : Int} {dst : Option IPAddr} {r : ICMPReceiveReply}
  {t₁ t₂ t₃ : Time} {ent : ICMPTrackerEntry}

theorem acked_le (h : s.Accounted) : s.acked.length ≤ s.sent.length :=
  (List.subperm_of_subset h.ackedNodup h.ackedSent).length_le

/-- A reply is only recorded in an entry that no timeout event was produced for. -/
theorem replied_compatible (h : s.Accounted) (ha : s.actor = .select)
    (hl : s.it.store.lookup q = some ent) {ev ev' : ICMPTrackerEntry} (hev : ev ∈ s.events)
    (hq : ev'.seq = q) (hr : ev'.receivedAt ≠ []) : Compatible ev ev' := by
  intro hs
  refine ⟨fun ht => ?_, hr⟩
  rw [hq] at hs
  subst hs
  obtain ⟨ev'', he⟩ := h.timeouts ev hev ht ent hl
  rw [ha] at he
  cases he

/-- A packet that is timed out has produced no event before. -/
theorem timedOut_compatible (h : s.Accounted) (ha : s.actor = .select)
    (hl : s.it.store.lookup q = some ent) (ho : ent.outstanding = true)
    {ev ev' : ICMPTrackerEntry} (hev : ev ∈ s.events) (hq : ev'.seq = q) : Compatible ev ev' := by
  intro hs
  rw [hq] at hs
  subst hs
  obtain ⟨ev'', he⟩ := h.uncounted ev.seq ent hl ho (h.eventsAcked ev hev)
  rw [ha] at he
  cases he

theorem pairwise_concat (h : s.Accounted) {ev : ICMPTrackerEntry}
    (hc : ∀ e ∈ s.events, Compatible e ev) : (s.events ++ [ev]).Pairwise Compatible := by
  refine List.pairwise_append.2 ⟨h.compatible, List.pairwise_singleton _ _, ?_⟩
  intro e he e' he'
  rw [List.mem_singleton.1 he']
  exact hc e he

/-- `MarkSent` of a fresh sequence number. -/
theorem sent (h : s.Accounted) (hq : q ∉ s.sent) (armed : List Int) :
    Accounted
      { s with
        it := { s.it with
          store := s.it.store.insert q (ICMPTracker.sentEntry q ttl dst t₁) }
        armed := armed
        sent := s.sent ++ [q] } := by
  have hfresh : s.it.store.lookup q = none := by
    cases hl : s.it.store.lookup q with
    | none => rfl
    | some ent => exact absurd (h.stored q ent hl).2.1 hq
  have hna : q ∉ s.acked := fun ha => hq (h.ackedSent q ha)
  have look : ∀ {q' ent},
      (s.it.store.insert q (ICMPTracker.sentEntry q ttl dst t₁)).lookup q' = some ent →
      (q' = q ∧ ent = ICMPTracker.sentEntry q ttl dst t₁) ∨
        (q' ≠ q ∧ s.it.store.lookup q' = some ent) := Store.lookup_insert_eq_some
  refine
    { balance := ?_, ackedLength := h.ackedLength, ackedNodup := h.ackedNodup
      ackedSent := fun q ha => List.mem_append_left _ (h.ackedSent q ha)
      stored := ?_, counted := ?_, uncounted := ?_, emitting := ?_, cleanups := ?_
      eventsAcked := h.eventsAcked, timeouts := ?_, compatible := h.compatible }
  · have hb := h.balance
    simp only [List.length_append, List.length_singleton, ICMPTracker.getUnAcked_sent hfresh]
    omega
  · intro q' ent hl
    rcases look hl with ⟨rfl, rfl⟩ | ⟨_, hl⟩
    · exact ⟨rfl, by simp, ICMPTracker.sentEntry_even ..⟩
    · obtain ⟨hs, hm, he⟩ := h.stored q' ent hl
      exact ⟨hs, List.mem_append_left _ hm, he⟩
  · intro q' ent hl ho
    rcases look hl with ⟨_, rfl⟩ | ⟨_, hl⟩
    · cases ho
    · exact h.counted q' ent hl ho
  · intro q' ent hl ho ha
    rcases look hl with ⟨rfl, _⟩ | ⟨_, hl⟩
    · exact absurd ha hna
    · exact h.uncounted q' ent hl ho ha
  · intro q' ev he
    obtain ⟨ent, hl, ho⟩ := h.emitting q' ev he
    refine ⟨ent, ?_, ho⟩
    rw [Store.lookup_insert_eq, if_neg]
    · exact hl
    · rintro rfl
      rw [hfresh] at hl
      cases hl
  · intro q' hc
    obtain ⟨ha, ho⟩ := h.cleanups q' hc
    refine ⟨ha, fun ent hl => ?_⟩
    rcases look hl with ⟨rfl, _⟩ | ⟨_, hl⟩
    · exact absurd ha hna
    · exact ho ent hl
  · intro ev hev ht ent hl
    rcases look hl with ⟨hs, _⟩ | ⟨_, hl⟩
    · exact absurd (hs ▸ h.eventsAcked ev hev) hna
    · exact h.timeouts ev hev ht ent hl

/-- The first reply of a packet counts it and a later one does not: in an even entry
`raw` is empty exactly when the entry is outstanding. -/
theorem answered (h : s.Accounted) (ha : s.actor = .select)
    (hl : s.it.store.lookup q = some ent) (armed : List Int) :
    Accounted
      { s with
        it := { s.it with
          store := s.it.store.insert q (ent.addReply r t₁ t₂ t₃)
          ackedSeq := if ent.raw.isEmpty then s.it.ackedSeq + 1 else s.it.ackedSeq }
        armed := armed
        cleanups := s.cleanups ++ [q]
        deliveries := s.deliveries ++ [(ent.addReply r t₁ t₂ t₃).readonlyClone]
        acked := if ent.raw.isEmpty then s.acked ++ [q] else s.acked
        events := s.events ++ [(ent.addReply r t₁ t₂ t₃).readonlyClone] } := by
  obtain ⟨hseq, hsent, heven⟩ := h.stored q ent hl
  have hraw : ent.raw.isEmpty = ent.outstanding := by
    rw [ICMPTrackerEntry.outstanding, Bool.eq_iff_iff, List.isEmpty_iff, List.isEmpty_iff]
    exact heven.raw_eq_nil
  have hnot : ∀ q ev, s.actor ≠ .emitting q ev := by rw [ha]; intro q ev he; cases he
  have hnew : ent.outstanding = true → q ∉ s.acked := fun ho hm =>
    (h.uncounted q ent hl ho hm).elim fun ev he => hnot q ev he
  have hmem : ∀ q', q' ∈ (if ent.raw.isEmpty then s.acked ++ [q] else s.acked) ↔
      q' = q ∨ q' ∈ s.acked := by
    intro q'
    rw [hraw]
    cases ho : ent.outstanding with
    | true => simp [or_comm]
    | false =>
      have := h.counted q ent hl ho
      simp only [Bool.false_eq_true, if_false]
      exact ⟨Or.inr, fun hq => hq.elim (fun he => he ▸ this) id⟩
  have look : ∀ {q' ent'},
      (s.it.store.insert q (ent.addReply r t₁ t₂ t₃)).lookup q' = some ent' →
      (q' = q ∧ ent' = ent.addReply r t₁ t₂ t₃) ∨
        (q' ≠ q ∧ s.it.store.lookup q' = some ent') := Store.lookup_insert_eq_some
  have hadd := ent.addReply_outstanding r t₁ t₂ t₃
  refine
    { balance := ?_, ackedLength := ?_, ackedNodup := ?_, ackedSent := ?_, stored := ?_
      counted := ?_, uncounted := ?_, emitting := fun q ev he => absurd he (hnot q ev)
      cleanups := ?_, eventsAcked := ?_, timeouts := ?_, compatible := ?_ }
  · have hb := h.balance
    have hu := ICMPTracker.getUnAcked_reply r t₁ t₂ t₃
      (if ent.raw.isEmpty then s.it.ackedSeq + 1 else s.it.ackedSeq) hl
    rw [← hraw] at hu
    split at hu
    next he => simp only [he, if_true] at hu ⊢; omega
    next he => simp only [he, Bool.false_eq_true, if_false] at hu ⊢; omega
  · show (if ent.raw.isEmpty then s.acked ++ [q] else s.acked).length =
      if ent.raw.isEmpty then s.it.ackedSeq + 1 else s.it.ackedSeq
    split
    · rw [List.length_append, h.ackedLength, List.length_singleton]
    · exact h.ackedLength
  · show (if ent.raw.isEmpty then s.acked ++ [q] else s.acked).Nodup
    split
    next he =>
      rw [hraw] at he
      exact h.ackedNodup.append (List.nodup_singleton q) (List.disjoint_singleton.2 (hnew he))
    next => exact h.ackedNodup
  · intro q' hq'
    rcases (hmem q').1 hq' with rfl | hq'
    · exact hsent
    · exact h.ackedSent q' hq'
  · intro q' ent' hl'
    rcases look hl' with ⟨rfl, rfl⟩ | ⟨_, hl'⟩
    · exact ⟨hseq, hsent, heven.addReply r t₁ t₂ t₃⟩
    · exact h.stored q' ent' hl'
  · intro q' ent' hl' ho
    rcases look hl' with ⟨rfl, _⟩ | ⟨_, hl'⟩
    · exact (hmem q').2 (Or.inl rfl)
    · exact (hmem q').2 (Or.inr (h.counted q' ent' hl' ho))
  · intro q' ent' hl' ho hq'
    rcases look hl' with ⟨_, rfl⟩ | ⟨hne, hl'⟩
    · rw [hadd] at ho
      cases ho
    · exact h.uncounted q' ent' hl' ho (((hmem q').1 hq').resolve_left hne)
  · intro q' hq'
    rcases List.mem_append.1 hq' with hq' | hq'
    · obtain ⟨hm, ho⟩ := h.cleanups q' hq'
      refine ⟨(hmem q').2 (Or.inr hm), fun ent' hl' => ?_⟩
      rcases look hl' with ⟨_, rfl⟩ | ⟨_, hl'⟩
      · exact hadd
      · exact ho ent' hl'
    · rw [List.mem_singleton.1 hq']
      refine ⟨(hmem q).2 (Or.inl rfl), fun ent' hl' => ?_⟩
      rcases look hl' with ⟨_, rfl⟩ | ⟨hne, _⟩
      · exact hadd
      · exact absurd rfl hne
  · intro ev hev
    rcases List.mem_append.1 hev with hev | hev
    · exact (hmem _).2 (Or.inr (h.eventsAcked ev hev))
    · rw [List.mem_singleton.1 hev]
      exact (hmem _).2 (Or.inl hseq)
  · intro ev hev ht ent' hl'
    rcases List.mem_append.1 hev with hev | hev
    · rcases look hl' with ⟨hq, _⟩ | ⟨_, hl'⟩
      · rw [hq]
        exact hq ▸ h.timeouts ev hev ht ent (hq ▸ hl)
      · exact h.timeouts ev hev ht ent' hl'
    · rw [List.mem_singleton.1 hev] at ht
      exact absurd ht (ent.addReply_receivedAt r t₁ t₂ t₃)
  · exact h.pairwise_concat fun e he =>
      h.replied_compatible ha hl he hseq (ent.addReply_receivedAt r t₁ t₂ t₃)

/-- A timeout counts a packet that was not counted: an outstanding entry is counted only
while the actor is inside the function that counted it. -/
theorem timedOut (h : s.Accounted) (ha : s.actor = .select)
    (hl : s.it.store.lookup q = some ent) (ho : ent.outstanding = true) (expired : List Int) :
    Accounted
      { s with
        expired := expired
        it := { s.it with ackedSeq := s.it.ackedSeq + 1 }
        actor := .emitting q ent.readonlyClone
        acked := s.acked ++ [q]
        events := s.events ++ [ent.readonlyClone] } := by
  obtain ⟨hseq, hsent, _⟩ := h.stored q ent hl
  have hnot : ∀ q ev, s.actor ≠ .emitting q ev := by rw [ha]; intro q ev he; cases he
  have hnew : q ∉ s.acked := fun hm =>
    (h.uncounted q ent hl ho hm).elim fun ev he => hnot q ev he
  refine
    { balance := ?_, ackedLength := ?_, ackedNodup := ?_, ackedSent := ?_, stored := h.stored
      counted := fun q' ent' hl' ho' => List.mem_append_left _ (h.counted q' ent' hl' ho')
      uncounted := ?_, emitting := ?_, cleanups := ?_, eventsAcked := ?_, timeouts := ?_
      compatible := ?_ }
  · have hb := h.balance
    rw [ha] at hb
    simp only [ActorPC.inFn] at hb ⊢
    show s.sent.length + 1 = s.it.ackedSeq + 1 + s.it.getUnAcked
    omega
  · show (s.acked ++ [q]).length = s.it.ackedSeq + 1
    rw [List.length_append, h.ackedLength, List.length_singleton]
  · exact h.ackedNodup.append (List.nodup_singleton q) (List.disjoint_singleton.2 hnew)
  · intro q' hq'
    rcases List.mem_append.1 hq' with hq' | hq'
    · exact h.ackedSent q' hq'
    · rw [List.mem_singleton.1 hq']
      exact hsent
  · intro q' ent' hl' ho' hq'
    rcases List.mem_append.1 hq' with hq' | hq'
    · obtain ⟨ev, he⟩ := h.uncounted q' ent' hl' ho' hq'
      exact absurd he (hnot q' ev)
    · rw [List.mem_singleton.1 hq']
      exact ⟨_, rfl⟩
  · intro q' ev he
    cases he
    exact ⟨ent, hl, ho, rfl⟩
  · intro q' hq'
    obtain ⟨hm, hr⟩ := h.cleanups q' hq'
    exact ⟨List.mem_append_left _ hm, hr⟩
  · intro ev hev
    rcases List.mem_append.1 hev with hev | hev
    · exact List.mem_append_left _ (h.eventsAcked ev hev)
    · rw [List.mem_singleton.1 hev]
      exact List.mem_append_right _ (List.mem_singleton.2 hseq)
  · intro ev hev ht ent' hl'
    rcases List.mem_append.1 hev with hev | hev
    · obtain ⟨ev', he⟩ := h.timeouts ev hev ht ent' hl'
      exact absurd he (hnot _ ev')
    · rw [List.mem_singleton.1 hev]
      exact ⟨ent.readonlyClone, by rw [ICMPTrackerEntry.readonlyClone_seq, hseq]⟩
  · exact h.pairwise_concat fun e he => h.timedOut_compatible ha hl ho he hseq

/-- Deleting an entry that has a reply, or that is gone. -/
theorem forget (h : s.Accounted) (ha : s.actor = .select)
    (hl : ∀ ent, s.it.store.lookup q = some ent → ent.outstanding = false) :
    Accounted { s with it := s.it.forget q } := by
  have hnot : ∀ q ev, s.actor ≠ .emitting q ev := by rw [ha]; intro q ev he; cases he
  have look : ∀ {q' ent'}, (s.it.store.erase q).lookup q' = some ent' →
      s.it.store.lookup q' = some ent' := fun hl' => (Store.lookup_erase_eq_some hl').2
  refine
    { h with
      balance := ?_
      stored := fun q' ent' hl' => h.stored q' ent' (look hl')
      counted := fun q' ent' hl' => h.counted q' ent' (look hl')
      uncounted := fun q' ent' hl' => h.uncounted q' ent' (look hl')
      emitting := fun q' ev he => absurd he (hnot q' ev)
      cleanups := fun q' hq' =>
        ⟨(h.cleanups q' hq').1, fun ent' hl' => (h.cleanups q' hq').2 ent' (look hl')⟩
      timeouts := fun ev hev ht ent' hl' => h.timeouts ev hev ht ent' (look hl') }
  show s.sent.length + s.actor.inFn = s.it.ackedSeq + (s.it.forget q).getUnAcked
  cases hq : s.it.store.lookup q with
  | none => rw [ICMPTracker.forget_of_lookup_none hq]; exact h.balance
  | some ent =>
    have hu := ICMPTracker.getUnAcked_forget hq
    rw [hl ent hq] at hu
    have hb := h.balance
    simp only [Bool.false_eq_true, if_false] at hu
    omega

/-- The actor deletes the entry it timed out and leaves the function. -/
theorem settle (h : s.Accounted) {ev : ICMPTrackerEntry} (ha : s.actor = .emitting q ev) :
    Accounted (s.emitted q) := by
  obtain ⟨ent, hl, ho, _⟩ := h.emitting q ev ha
  have look : ∀ {q' ent'}, (s.it.store.erase q).lookup q' = some ent' →
      q' ≠ q ∧ s.it.store.lookup q' = some ent' := Store.lookup_erase_eq_some
  have only : ∀ {q' ev'}, s.actor = .emitting q' ev' → q' = q := by
    intro q' ev' he
    rw [ha] at he
    cases he
    rfl
  refine
    { h with
      balance := ?_
      stored := fun q' ent' hl' => h.stored q' ent' (look hl').2
      counted := fun q' ent' hl' => h.counted q' ent' (look hl').2
      uncounted := ?_
      emitting := fun q' ev' he => by cases he
      cleanups := fun q' hq' =>
        ⟨(h.cleanups q' hq').1, fun ent' hl' => (h.cleanups q' hq').2 ent' (look hl').2⟩
      timeouts := ?_ }
  · have hb := h.balance
    have hu := ICMPTracker.getUnAcked_forget hl
    rw [ho] at hu
    rw [ha] at hb
    simp only [ActorPC.inFn, if_true] at hb hu
    show s.sent.length + 0 = s.it.ackedSeq + (s.it.forget q).getUnAcked
    omega
  · intro q' ent' hl' ho' hq'
    obtain ⟨ev', he⟩ := h.uncounted q' ent' (look hl').2 ho' hq'
    exact absurd (only he) (look hl').1
  · intro e he ht ent' hl'
    obtain ⟨ev', hem⟩ := h.timeouts e he ht ent' (look hl').2
    exact absurd (only hem) (look hl').1

/-- Every step with fresh sequence numbers keeps the accounts. -/
theorem move (h : s.Accounted) {a : TrackerAction} {t : ICMPTrackerRun} (hd : distinct s a)
    (hm : Move s a t) : t.Accounted := by
  cases hm with
  | refused => exact h
  | cancelled => exact { h with }
  | sent ha hc => exact h.sent hd _
  | answered ha hc hl => exact h.answered ha hl _
  | fired => exact { h with }
  | timedOut hq ha hc hl ho => exact h.timedOut ha hl ho _
  | stale hq ha hc hl => exact { h.forget ha hl with }
  | lapsed => exact { h with }
  | cleaned hq ha =>
    refine { h.forget ha (h.cleanups _ hq).2 with cleanups := ?_ }
    intro q' hq'
    exact (h.forget ha (h.cleanups _ hq).2).cleanups q' (List.mem_of_mem_erase hq')
  | unclean => exact { h with cleanups := fun q' hq' => h.cleanups q' (List.mem_of_mem_erase hq') }
  | emitted ha hc => exact { h.settle ha with }
  | delivered => exact { h with }
  | took => exact { h with }
  | metActor ha hc => exact { h.settle ha with }
  | metDelivery => exact { h with }
  | forgot ha hc => exact { h with }
  | closed => exact { h with }
  | exited ha hx hc => exact { h with
      balance := by have hb := h.balance; rw [ha] at hb; exact hb
      uncounted := fun q ent hl ho hq => by
        obtain ⟨ev, he⟩ := h.uncounted q ent hl ho hq
        rw [ha] at he
        cases he
      emitting := fun q ev he => by cases he
      timeouts := fun ev hev ht ent hl => by
        obtain ⟨ev', he⟩ := h.timeouts ev hev ht ent hl
        rw [ha] at he
        cases he }
  | panicked => exact { h with }

end Accounted

variable {config : ICMPTrackerConfig} {s : ICMPTrackerRun}

theorem accounted (h : (system config).Reachable distinct s) : s.Accounted :=
  h.invariant (Accounted.new config) fun _ _ _ hs hd hst => hs.move hd (step_move hst)

/-- Two events of one packet, one of them a timeout event, cannot both be in a compatible
history. -/
theorem compatible_split {l₁ l₂ : List ICMPTrackerEntry} {e : ICMPTrackerEntry}
    (h : (l₁ ++ e :: l₂).Pairwise Compatible) (he : e.receivedAt = []) :
    ∀ e' ∈ l₁ ++ l₂, e'.seq ≠ e.seq := by
  obtain ⟨_, h₂, h₁⟩ := List.pairwise_append.1 h
  intro e' he' hs
  rcases List.mem_append.1 he' with hm | hm
  · exact (h₁ e' hm e List.mem_cons_self hs).2 he
  · exact ((List.pairwise_cons.1 h₂).1 e' hm hs.symm).1 he

/-- The accounts of the tracker, in every state of every run whose sequence numbers are
distinct: the packets marked sent are those counted in `ackedSeq` and the stored ones
without a reply (while the actor is inside `handleTimeout` one packet is both); no packet
is counted twice; a packet with a timeout event has no other event; the four lists of an
entry have equal length. -/
theorem accounts (config : ICMPTrackerConfig) {s : ICMPTrackerRun}
    (h : (system config).Reachable distinct s) :
    s.sent.length + s.actor.inFn = s.it.ackedSeq + s.it.getUnAcked ∧
      (s.acked.Nodup ∧ s.acked.length = s.it.ackedSeq) ∧
      (∀ l₁ e l₂, s.events = l₁ ++ e :: l₂ → e.receivedAt = [] →
        ∀ e' ∈ l₁ ++ l₂, e'.seq ≠ e.seq) ∧
      ∀ q ent, s.it.store.lookup q = some ent →
        ent.raw.length = ent.receivedAt.length ∧
          ent.rttNanoSecs.length = ent.receivedAt.length ∧
          ent.rttMilliSecs.length = ent.receivedAt.length := by
  have hs := accounted h
  refine ⟨hs.balance, ⟨hs.ackedNodup, hs.ackedLength⟩, ?_, fun q ent hl => (hs.stored q ent hl).2.2⟩
  intro l₁ e l₂ he ht
  exact compatible_split (he ▸ hs.compatible) ht

/-- A reply with the given sequence number, from the last hop. -/
def sampleReply (seq : Int) : ICMPReceiveReply where
  id := 7
  size := 64
  seq := seq
  ttl := 60
  peer := "192.0.2.1"
  lastHop := true
  receivedAt := 5
  iNetFamily := 4
  icmpType := some 0
  icmpCode := some 0
  ipProto := 1
  setMTUTo := none

/-- A run with a stale timeout: the timer of packet 2 fires, its reply comes, and then
`handleTimeout` runs. -/
theorem accounts_stale : ∃ s, (system ⟨1000000000, 2⟩).Reachable distinct s ∧
    s.sent = [1, 2, 3] ∧ s.acked = [1, 2] ∧ s.it.store.lookup 2 = none ∧
      s.sent.length + s.actor.inFn = s.it.ackedSeq + s.it.getUnAcked := by
  obtain ⟨s, hr, hp⟩ := System.exists_of_replay (system ⟨1000000000, 2⟩) distinct
    (fun s => s.sent = [1, 2, 3] ∧ s.acked = [1, 2] ∧ s.it.store.lookup 2 = none)
    [.markSent 1 64 none 0, .markSent 2 64 none 1, .timerFires 1, .timerFires 2,
      .handleTimeout 1, .emit, .markReceived 2 (sampleReply 2) 3 3 3, .handleTimeout 2,
      .markSent 3 64 none 4] (by decide)
  obtain ⟨hs, ha, hl⟩ := of_decide_eq_true hp
  exact ⟨s, hr, hs, ha, hl, (accounts _ hr).1⟩

end ICMPTrackerRun

end CloudPing.Raw
