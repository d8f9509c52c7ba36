import CloudPing.Pinger.Enrichment
import CloudPing.Pinger.PacketCount

/-!
# The events an agent can emit

An entry has four lists, and a reply adds one element to each of them.  So in every event that
the tracker produces they are of one length, and the round trip times with some number are
those of the reply with this number.  The event goroutine changes nothing but the TTL of an
event, and the lookups add to its replies, so this is also so in what `SimplePinger` outputs
(`even_of_output`).
-/

namespace CloudPing

open Conc Raw

/-! ## The tracker -/

namespace Raw.ICMPTrackerRun

variable {s t : ICMPTrackerRun} {a : TrackerAction}

def EvenEvents (s : ICMPTrackerRun) : Prop := ∀ ev ∈ s.events, ev.Even

theorem EvenEvents.concat {ev : ICMPTrackerEntry} (h : s.EvenEvents) (hev : ev.Even) :
    ∀ ev' ∈ s.events ++ [ev], ev'.Even := by
  intro ev' hmem
  rcases List.mem_append.1 hmem with hmem | hmem
  · exact h ev' hmem
  · rw [List.mem_singleton.1 hmem]
    exact hev

theorem EvenEvents.move (h : s.EvenEvents) (hacc : s.Accounted) (hm : Move s a t) :
    t.EvenEvents := by
  cases hm with
  | answered ha hc hl => exact h.concat ((hacc.stored _ _ hl).2.2.addReply _ _ _ _)
  | timedOut _ ha hc hl => exact h.concat (hacc.stored _ _ hl).2.2
  | _ => exact h

/-- What was taken was produced. -/
theorem Conserved.mem_events {ev : ICMPTrackerEntry} (h : s.Conserved) (hev : ev ∈ s.taken) :
    ev ∈ s.events :=
  h.mem_iff.2 (List.mem_append_left _ hev)

end Raw.ICMPTrackerRun

namespace Pinger

/-! ## The event goroutine -/

/-- The event in hand. -/
def EventPC.inHand : EventPC → Option ICMPTrackerEntry
  | .handling ev => some ev
  | .outputting data _ => data
  | _ => none

namespace PingRun

variable {config : PingConfig} {s t : PingRun} {a : PingAction}

/-- What is output is the event with some TTL, or nothing. -/
theorem inHand_handle {ev ev' : ICMPTrackerEntry} {found : Bool}
    (h : ev' ∈ (s.handle config ev found).ev.inHand) : ∃ ttl, ev' = { ev with ttl := ttl } := by
  unfold handle at h
  dsimp only at h
  split at h
  · split at h
    · exact ⟨ev.ttl - 1, (Option.some.inj h).symm⟩
    · cases found with
      | true => exact ⟨ev.ttl, (Option.some.inj h).symm⟩
      | false => cases h
  · cases found with
    | true => exact ⟨ev.ttl, (Option.some.inj h).symm⟩
    | false => cases h

/-- All events on the way and in the output are even. -/
structure EvenOutput (s : PingRun) : Prop where
  events : s.trk.EvenEvents
  inHand : ∀ ev ∈ s.ev.inHand, ev.Even
  output : ∀ ev, some ev ∈ s.output → ev.Even

theorem EvenOutput.start (config : PingConfig) : (start config).EvenOutput where
  events := fun _ hev => (List.not_mem_nil hev).elim
  inHand := fun _ hev => by cases hev
  output := fun _ hev => (List.not_mem_nil hev).elim

theorem EvenOutput.step (h : s.EvenOutput) (ho : s.Orderly) (hst : s.step config a = some t) :
    t.EvenOutput := by
  have hm := step_move hst
  have hevents : t.trk.EvenEvents := by
    rcases ho.trackerMove hm with he | ⟨b, hb, -⟩
    · rw [he]
      exact h.events
    · exact h.events.move ho.accounted hb
  cases hm with
  | @tookEvent src ev trk he ht =>
    refine ⟨hevents, fun ev' hev' => ?_, h.output⟩
    obtain rfl := Option.some.inj hev'
    obtain ⟨hmove, htaken⟩ := ICMPTrackerRun.take_move ht
    refine hevents _ ((ho.conserved.move hmove).mem_events ?_)
    rw [htaken]
    exact List.mem_append_right _ (List.mem_singleton_self _)
  | @handled ev found ttl pmtu nextTTL data he =>
    refine ⟨hevents, fun ev' hev' => ?_, h.output⟩
    rw [handle_of_step hst he] at hev'
    obtain ⟨ttl', rfl⟩ := inHand_handle hev'
    exact h.inHand ev (by rw [he]; rfl)
  | @outputted data nextTTL he =>
    refine ⟨hevents, fun ev hev => ?_, fun ev hev => ?_⟩
    · split at hev <;> cases hev
    · rcases List.mem_append.1 hev with hev | hev
      · exact h.output ev hev
      · refine h.inHand ev ?_
        rw [he, EventPC.inHand, ← List.mem_singleton.1 hev]
        rfl
  | asked =>
    refine ⟨hevents, fun ev hev => ?_, h.output⟩
    split at hev <;> cases hev
  | stopped | finished | unfinished | paused | signalled =>
    refine ⟨hevents, ?_, h.output⟩
    intro ev hev
    cases hev
  | _ => exact ⟨hevents, h.inHand, h.output⟩

theorem evenOutput {ok : Policy PingRun PingAction} (h : (system config).Reachable ok s) :
    s.EvenOutput := by
  refine h.invariant_with (fun s hs => orderly hs) (EvenOutput.start config) ?_
  intro s a t ho hs _ hst
  exact hs.step ho hst

end PingRun

/-! ## What is emitted -/

variable {F : Type}

/-- The data of an event of some ICMP or UDP probe, with whatever the lookups have found. -/
def Emitted (data : Option (WrappedEV F)) : Prop :=
  ∃ config s, (PingRun.system config).Reachable Policy.any s ∧ data.map WrappedEV.plain ∈ s.output

theorem even_of_output {e : WrappedEV F} (h : Emitted (some e)) : e.plain.Even := by
  obtain ⟨config, s, hr, hmem⟩ := h
  exact (PingRun.evenOutput hr).output e.plain hmem

end Pinger

end CloudPing
