import Mathlib.Data.List.Perm.Basic
import CloudPing.Raw.TrackerAccounting

/-!
# The events of the tracker

The users of the tracker see it through four histories: what they marked sent, what is
counted, the events produced and the events they took.  `Effect` says how one step moves
these, and nothing more.  A packet's first reply or its timeout counts it and produces one
event.  A reply to a packet that has one produces an event and counts nothing: such a step
`repeats`.

No event is lost and none is made up: what was produced is what was taken and what is
still on the way.
-/

namespace CloudPing.Raw

open Conc

/-- The event the actor is about to send. -/
def ActorPC.pending : ActorPC → List ICMPTrackerEntry
  | .emitting _ ev => [ev]
  | _ => []

namespace ICMPTrackerRun

/-- The events produced and not yet taken. -/
def undelivered (s : ICMPTrackerRun) : List ICMPTrackerEntry :=
  s.deliveries ++ s.actor.pending ++ s.recvEvC.buf

/-- The step records a reply in an entry that has one. -/
def repeats (s : ICMPTrackerRun) : TrackerAction → Bool
  | .markReceived seq _ _ _ _ =>
    s.actor = .select && !s.it.closed && (s.it.store.lookup seq).any fun ent => !ent.raw.isEmpty
  | _ => false

/-- How a step moves the histories. -/
inductive Effect (s : ICMPTrackerRun) (a : TrackerAction) (t : ICMPTrackerRun) : Prop where
  | quiet (hs : t.sent = s.sent) (ha : t.acked = s.acked) (he : t.events = s.events)
      (ht : t.taken = s.taken)
  | sent {q ttl : Int} {dst : Option IPAddr} {now : Time} (hact : a = .markSent q ttl dst now)
      (hs : t.sent = s.sent ++ [q]) (ha : t.acked = s.acked) (he : t.events = s.events)
      (ht : t.taken = s.taken)
  | first {q : Int} {ev : ICMPTrackerEntry} (hq : ev.seq = q) (hs : t.sent = s.sent)
      (ha : t.acked = s.acked ++ [q]) (he : t.events = s.events ++ [ev]) (ht : t.taken = s.taken)
  | again {q : Int} {ev : ICMPTrackerEntry} (hq : ev.seq = q) (hr : s.repeats a = true)
      (hs : t.sent = s.sent) (ha : t.acked = s.acked) (he : t.events = s.events ++ [ev])
      (ht : t.taken = s.taken)
  | took {src : EventSource} {ev : ICMPTrackerEntry} (hact : a = .take src) (hs : t.sent = s.sent)
      (ha : t.acked = s.acked) (he : t.events = s.events) (ht : t.taken = s.taken ++ [ev])

variable {s t : ICMPTrackerRun} {a : TrackerAction}

theorem Move.effect (h : s.Accounted) (hm : Move s a t) : Effect s a t := by
  cases hm with
  | sent => exact .sent rfl rfl rfl rfl rfl
  | @answered seq raw now sinceNs sinceMs ent ha hc hl =>
    have hq : (ent.addReply raw now sinceNs sinceMs).readonlyClone.seq = seq :=
      (h.stored seq ent hl).1
    cases hr : ent.raw.isEmpty with
    | true => exact .first hq rfl rfl rfl rfl
    | false => exact .again hq (by simp [repeats, ha, hc, hl, hr]) rfl rfl rfl rfl
  | @timedOut seq ent hq ha hc hl ho =>
    have hs : ent.readonlyClone.seq = seq := (h.stored seq ent hl).1
    exact .first hs rfl rfl rfl rfl
  | took | metActor | metDelivery => exact .took rfl rfl rfl rfl rfl
  | _ => exact .quiet rfl rfl rfl rfl

/-- A packet counted has produced an event. -/
theorem Effect.acked_le (h : Effect s a t) (hle : s.acked.length ≤ s.events.length) :
    t.acked.length ≤ t.events.length := by
  cases h with
  | quiet _ ha he | sent _ _ ha he | took _ _ ha he => rw [ha, he]; exact hle
  | first _ _ ha he => rw [ha, he]; simpa using hle
  | again _ _ _ ha he =>
    rw [ha, he, List.length_append]
    exact Nat.le_add_right_of_le hle

/-- While no step repeats, the events are those of the packets counted, in order. -/
theorem Effect.firsts (h : Effect s a t) (hr : s.repeats a = false)
    (he : s.events.map ICMPTrackerEntry.seq = s.acked) :
    t.events.map ICMPTrackerEntry.seq = t.acked := by
  cases h with
  | quiet _ ha hev | sent _ _ ha hev | took _ _ ha hev => rw [ha, hev, he]
  | first hq _ ha hev => rw [ha, hev, List.map_append, he, ← hq]; rfl
  | again _ hr' => rw [hr] at hr'; cases hr'

/-! ## Conservation -/

/-- The events produced are the events taken and the events on the way. -/
def Conserved (s : ICMPTrackerRun) : Prop := s.events.Perm (s.taken ++ s.undelivered)

theorem perm_eraseIdx {α : Type*} {l : List α} {i : Nat} {x : α} (h : l[i]? = some x) :
    l.Perm (x :: l.eraseIdx i) := by
  obtain ⟨hi, rfl⟩ := List.getElem?_eq_some_iff.1 h
  exact (List.getElem_cons_eraseIdx_perm hi).symm

theorem conserved_iff : s.Conserved ↔ ∀ e, s.events.count e =
    s.taken.count e + s.deliveries.count e + s.actor.pending.count e + s.recvEvC.buf.count e := by
  rw [Conserved, List.perm_iff_count]
  simp only [undelivered, List.count_append, Nat.add_assoc]

theorem Conserved.new (config : ICMPTrackerConfig) : Conserved (.new config) := List.Perm.nil

/-- A send, a receive or a hand-over moves one event and changes no count. -/
theorem Conserved.move (h : s.Conserved) (hm : Move s a t) : t.Conserved := by
  rw [conserved_iff] at h ⊢
  intro e
  have he := h e
  cases hm with
  | answered | timedOut =>
    simp_all only [ActorPC.pending, List.count_append, List.count_nil]
    omega
  | emitted ha hc =>
    obtain ⟨_, _, _, hb, _⟩ := Chan.send_eq_sent hc
    simp only [ha, hb, ActorPC.pending, ICMPTrackerRun.emitted, List.count_append,
      List.count_nil] at he ⊢
    omega
  | delivered hi hc =>
    obtain ⟨_, _, _, hb, _⟩ := Chan.send_eq_sent hc
    have hd := (perm_eraseIdx hi).count_eq e
    simp only [hb, List.count_append, List.count_cons, List.count_nil] at hd he ⊢
    omega
  | took hc =>
    obtain ⟨hb, _, _⟩ := Chan.recv_eq_some hc
    simp only [hb, List.count_append, List.count_cons, List.count_nil] at he ⊢
    omega
  | metActor ha hc =>
    simp only [ha, ActorPC.pending, ICMPTrackerRun.emitted, List.count_append,
      List.count_nil] at he ⊢
    omega
  | metDelivery hi hc =>
    have hd := (perm_eraseIdx hi).count_eq e
    simp only [List.count_append, List.count_cons, List.count_nil] at hd he ⊢
    omega
  | exited ha hx hc =>
    obtain ⟨_, _, hb, _⟩ := Chan.close_eq_some hc
    simp only [ha, hb, ActorPC.pending] at he ⊢
    exact he
  | _ => exact he

theorem conserved {config : ICMPTrackerConfig} {ok : Policy ICMPTrackerRun TrackerAction}
    (h : (system config).Reachable ok s) : s.Conserved :=
  h.invariant (Conserved.new config) fun _ _ _ hs _ hst => hs.move (step_move hst)

theorem Conserved.length (h : s.Conserved) :
    s.events.length = s.taken.length + s.undelivered.length := by
  rw [List.Perm.length_eq h, List.length_append]

/-! ## Destinations -/

/-- Every entry and every event has the destination of its sequence number. -/
structure Destined (dst : Int → Option IPAddr) (s : ICMPTrackerRun) : Prop where
  stored : ∀ q ent, s.it.store.lookup q = some ent → ent.originDstAddr = dst q
  produced : ∀ ev ∈ s.events, ev.originDstAddr = dst ev.seq

namespace Destined

variable {dst : Int → Option IPAddr}

theorem new (config : ICMPTrackerConfig) : Destined dst (.new config) where
  stored := by intro q ent h; cases h
  produced := by intro ev h; cases h

/-- An entry that is deleted takes nothing with it. -/
theorem forget (h : s.Destined dst) (q : Int) : Destined dst { s with it := s.it.forget q } :=
  { h with stored := fun q' ent hl => h.stored q' ent (Store.lookup_erase_eq_some hl).2 }

/-- One more event, with the destination of an entry it is a copy of. -/
theorem produce (h : s.Destined dst) {ev : ICMPTrackerEntry} (hev : ev.originDstAddr = dst ev.seq) :
    ∀ e ∈ s.events ++ [ev], e.originDstAddr = dst e.seq := by
  intro e he
  rcases List.mem_append.1 he with he | he
  · exact h.produced e he
  · rw [List.mem_singleton.1 he]
    exact hev

/-- Packets that are marked sent with the destination of their number keep it. -/
theorem move (h : s.Destined dst) (hacc : s.Accounted) (hm : Move s a t)
    (hd : ∀ q ttl d now, a = .markSent q ttl d now → d = dst q) : t.Destined dst := by
  cases hm with
  | sent ha hc =>
    refine { h with stored := fun q ent hl => ?_ }
    rcases Store.lookup_insert_eq_some hl with ⟨rfl, rfl⟩ | ⟨_, hl⟩
    · exact hd _ _ _ _ rfl
    · exact h.stored q ent hl
  | answered ha hc hent =>
    have hdst := h.stored _ _ hent
    have hseq := (hacc.stored _ _ hent).1
    refine { stored := fun q ent hl => ?_, produced := h.produce ?_ }
    · rcases Store.lookup_insert_eq_some hl with ⟨rfl, rfl⟩ | ⟨_, hl⟩
      · exact hdst
      · exact h.stored q ent hl
    · exact hdst.trans (congrArg dst hseq.symm)
  | timedOut hq ha hc hent =>
    have hdst := h.stored _ _ hent
    have hseq := (hacc.stored _ _ hent).1
    exact { h with produced := h.produce (hdst.trans (congrArg dst hseq.symm)) }
  | stale | cleaned | emitted | metActor => exact { h.forget _ with }
  | _ => exact { h with }

/-- An event that was taken was produced. -/
theorem taken (h : s.Destined dst) (hc : s.Conserved) {ev : ICMPTrackerEntry} (hev : ev ∈ s.taken) :
    ev.originDstAddr = dst ev.seq :=
  h.produced ev (hc.mem_iff.2 (List.mem_append_left _ hev))

end Destined

end ICMPTrackerRun

end CloudPing.Raw
