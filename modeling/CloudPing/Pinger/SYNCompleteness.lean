import CloudPing.Pinger.SYNCount

/-!
# Whether each SYN packet of a TCP ping has its event

A packet that was marked sent is in one place: its entry is in the store, or its event is on
its way through the tracker and the main loop, or the event was sent to the output.
`Ledger` counts the places, and each step moves a number from one to another.

Two things break the count.  An entry that is put over another one takes its event away.
And the main loop leaves on the event of the last packet, whatever else is on its way:
events that come later are never sent.  `orderly` rules both out, and the ticks that come
too late as `inTime` does.
-/

namespace CloudPing.Pinger

open Conc Tcping

/-- The event that the tracker waits to send. -/
def ServicePC.emitted : ServicePC → List TrackerEvent
  | .emitting ev _ => [ev]
  | _ => []

/-- The event that the main loop has taken. -/
def SYNMainPC.held : SYNMainPC → List TrackerEvent
  | .outputting ev => [ev]
  | _ => []

namespace SYNRun

/-- The events among what was output. -/
def events (output : List (Except String TrackerEvent)) : List TrackerEvent :=
  output.filterMap Except.toOption

/-- The number of events of a packet. -/
def numOf (seq : Int) (evs : List TrackerEvent) : Nat := evs.countP (·.details.seq = seq)

/-- Ticks are taken in time, no packet is put over the entry of another, and the event of the
last packet is the last that is on its way. -/
def orderly (config : SYNConfig) : Policy SYNRun SYNAction := fun s a =>
  match a with
  | .tick => s.ticking = true ∧ s.actor ≠ .returned
  | .markSent =>
    match s.main with
    | .markingSent key _ => s.actor = .select → s.tk.store.lookup key = none
    | _ => True
  | .output =>
    match s.main with
    | .outputting ev => config.totalPkts = some (ev.details.seq + 1) →
        s.tk.store.keys = [] ∧ s.actor.emitted = []
    | _ => True
  | _ => True

variable {config : SYNConfig} {s t : SYNRun} {a : SYNAction} {n k : Nat}

theorem inTime_of_orderly (h : orderly config s a) : inTime s a := by
  cases a with
  | tick => exact h
  | _ => exact trivial

/-! ## Where the packets are -/

/-- The events on their way to the output, and those that are there. -/
def pipeline (s : SYNRun) : List TrackerEvent :=
  events s.output ++ (s.main.held ++ s.actor.emitted)

/-- Each packet that was counted is stored, or its event is in the pipeline. -/
def Ledger (s : SYNRun) : Prop := ∀ seq : Int,
  s.tk.store.count (·.seq = seq) + numOf seq s.pipeline =
    if 0 ≤ seq ∧ seq < s.tk.counter then 1 else 0

theorem numOf_append (seq : Int) (evs evs' : List TrackerEvent) :
    numOf seq (evs ++ evs') = numOf seq evs + numOf seq evs' :=
  List.countP_append

theorem numOf_singleton (seq : Int) (ev : TrackerEvent) :
    numOf seq [ev] = Store.weight (·.seq = seq) ev.details := by
  simp only [numOf, List.countP_singleton, Store.weight]

theorem events_concat_ok (output : List (Except String TrackerEvent)) (ev : TrackerEvent) :
    events (output ++ [Except.ok ev]) = events output ++ [ev] := by
  rw [events, List.filterMap_append]
  rfl

theorem events_concat_error (output : List (Except String TrackerEvent)) (err : String) :
    events (output ++ [Except.error err]) = events output := by
  rw [events, List.filterMap_append]
  exact List.append_nil _

namespace Ledger

theorem start : Ledger start := fun _ => (if_neg fun h => absurd h.1 (Int.not_le.2 h.2)).symm

/-- A step that neither marks a packet sent nor deletes an entry. -/
theorem same (h : Ledger s) (htk : t.tk = s.tk) (hpipe : t.pipeline = s.pipeline) :
    Ledger t := by
  intro seq
  rw [htk, hpipe]
  exact h seq

/-- An entry becomes an event. -/
theorem emit {key : Key} {tk : Tracker} {value : TCPSYNSentReceipt} (h : Ledger s)
    (ev : TrackerEvent) (hd : s.tk.delete key = some (some value, tk))
    (hseq : ev.details.seq = value.seq) (htk : t.tk = tk)
    (hpipe : t.pipeline = s.pipeline ++ [ev]) : Ledger t := by
  intro seq
  obtain ⟨hl, rfl⟩ := Tracker.delete_eq_some hd
  have hold := h seq
  have hweight : Store.weight (fun v : TCPSYNSentReceipt => v.seq = seq) ev.details =
      Store.weight (fun v : TCPSYNSentReceipt => v.seq = seq) value := by
    simp only [Store.weight, hseq]
  rw [Store.count_erase hl] at hold
  rw [htk, hpipe, numOf_append, numOf_singleton, hweight]
  dsimp only at hold ⊢
  omega

/-- A key without an entry is deleted. -/
theorem nothing {key : Key} {tk : Tracker} (h : Ledger s)
    (hd : s.tk.delete key = some (none, tk)) (htk : t.tk = tk)
    (hpipe : t.pipeline = s.pipeline) : Ledger t := by
  obtain ⟨hl, rfl⟩ := Tracker.delete_eq_some hd
  rw [Store.erase_of_lookup_none hl] at htk
  exact h.same htk hpipe

/-- A packet is marked sent under a key without an entry. -/
theorem insert {key : Key} {receipt : TCPSYNSentReceipt} {tk : Tracker} (h : Ledger s)
    (hcount : 0 ≤ s.tk.counter) (hmark : s.tk.markSent key receipt = some tk)
    (hfree : s.tk.store.lookup key = none) (htk : t.tk = tk)
    (hpipe : t.pipeline = s.pipeline) : Ledger t := by
  intro seq
  obtain ⟨_, hmark⟩ := Option.ite_none_right_eq_some.1 hmark
  cases hmark
  have hold := h seq
  rw [htk, hpipe, Store.count_insert_fresh hfree]
  by_cases hseq : s.tk.counter = seq
  · subst hseq
    rw [if_neg fun hlt => Int.lt_irrefl _ hlt.2] at hold
    have hweight : Store.weight (fun v : TCPSYNSentReceipt => v.seq = s.tk.counter)
        { receipt with seq := s.tk.counter } = 1 := Store.weight_of_true (decide_eq_true rfl)
    have hin : 0 ≤ s.tk.counter ∧ s.tk.counter < s.tk.counter + 1 := ⟨hcount, by omega⟩
    rw [hweight, if_pos hin]
    omega
  · have hweight : Store.weight (fun v : TCPSYNSentReceipt => v.seq = seq)
        { receipt with seq := s.tk.counter } = 0 := Store.weight_of_false (decide_eq_false hseq)
    have hiff : (0 ≤ seq ∧ seq < s.tk.counter + 1) ↔ (0 ≤ seq ∧ seq < s.tk.counter) := by omega
    rw [hweight]
    simp only [hiff]
    omega

end Ledger

/-! ## Steps -/

theorem pipeline_outputEvent {ev : TrackerEvent} (hm : s.main = .outputting ev) :
    (s.outputEvent config ev).pipeline = s.pipeline := by
  have hheld : (s.outputEvent config ev).main.held = [] := by
    rcases outputEvent_main config s ev with hout | hout <;> rw [hout] <;> rfl
  have houtput : events (s.outputEvent config ev).output = events s.output ++ [ev] := by
    unfold outputEvent
    split <;> exact events_concat_ok _ _
  rw [pipeline, pipeline, hheld, houtput, outputEvent_actor, hm, List.append_assoc]
  rfl

/-- The main loop is not at the send of an event, before the step and after it. -/
theorem pipeline_of_main (hout : t.output = s.output) (hact : t.actor = s.actor)
    (hs : s.main.held = []) (ht : t.main.held = []) : t.pipeline = s.pipeline := by
  rw [pipeline, pipeline, hout, hact, hs, ht]

theorem Ledger.step (h : Ledger s) (hcount : 0 ≤ s.tk.counter) (hok : orderly config s a)
    (hst : s.step config a = some t) : Ledger t := by
  cases step_move hst with
  | ticked | received | fired | wasReset | lapsed | cancelled => exact h.same rfl rfl
  | tookTick hm | ended hm | failed hm | prepared hm | notWritten hm | confirmed hm =>
    exact h.same rfl (pipeline_of_main rfl rfl (by rw [hm]; rfl) rfl)
  | unmarked hm => exact h.same rfl (pipeline_of_main rfl rfl (by rw [hm]; rfl) rfl)
  | @markedSent key receipt tk hm ha hmark =>
    simp only [orderly, hm] at hok
    exact h.insert hcount hmark (hok ha) rfl
      (pipeline_of_main rfl rfl (by rw [hm]; rfl) rfl)
  | wrote hm =>
    refine h.same (sent_tk _ _ _ _) (pipeline_of_main ?_ (sent_actor _ _ _ _) (by rw [hm]; rfl) ?_)
    · simp only [sent]
      split <;> rfl
    · rw [sent_main]
      rfl
  | tookEvent hm ha =>
    refine h.same rfl ?_
    rw [pipeline, pipeline, hm, ha]
    rfl
  | outputted hm => exact h.same (outputEvent_tk _ _ _) (pipeline_outputEvent hm)
  | reported hm =>
    refine h.same rfl ?_
    rw [pipeline, pipeline, hm, events_concat_error]
    rfl
  | @markedReceived pkgInfo key ev tk hr ha hk hmark =>
    obtain ⟨ent, hd, hsome⟩ := Tracker.markReceived_deleted hmark
    obtain ⟨value, rfl, rfl⟩ := Option.map_eq_some_iff.1 hsome
    refine h.emit ⟨.received, { value with receivedPkt := some pkgInfo }⟩ hd rfl rfl ?_
    rw [pipeline, pipeline, ha, List.append_assoc, List.append_assoc]
    rfl
  | unknown hr ha hk hmark =>
    obtain ⟨ent, hd, hnone⟩ := Tracker.markReceived_deleted hmark
    rw [Option.map_eq_none_iff.1 hnone] at hd
    exact h.nothing hd rfl rfl
  | timedOut hk ha hcall =>
    obtain ⟨ent, hd, hsome⟩ := Tracker.handleTimeout_deleted hcall
    obtain ⟨value, rfl, rfl⟩ := Option.map_eq_some_iff.1 hsome
    refine h.emit ⟨.timeout, value⟩ hd rfl rfl ?_
    rw [pipeline, pipeline, ha, List.append_assoc, List.append_assoc]
    rfl
  | stale hk ha hcall =>
    obtain ⟨ent, hd, hnone⟩ := Tracker.handleTimeout_deleted hcall
    rw [Option.map_eq_none_iff.1 hnone] at hd
    exact h.nothing hd rfl rfl
  | exited ha =>
    refine h.same rfl ?_
    rw [pipeline, pipeline, ha]
    rfl
  | panicked ht =>
    rw [eq_panic_of_step hst ht]
    exact h.same rfl rfl

/-! ## The end of the loop -/

/-- The loop that was left by the event of the last packet has sent all events before. -/
structure Ending (n k : Nat) (s : SYNRun) : Prop where
  written : ∀ ev, s.main = .outputting ev → s.tk.counter = k
  closed : s.allConfirmed = true → (s.main = .confirming ∨ s.main = .returned) ∧ k = n ∧
    ∀ seq : Int, numOf seq (events s.output) = if 0 ≤ seq ∧ seq < n then 1 else 0
  returned : s.main = .returned → s.allConfirmed = true

namespace Ending

theorem start (n : Nat) : Ending n 0 start where
  written := fun _ h => by cases h
  closed := fun h => by cases h
  returned := fun h => by cases h

/-- The channel is open while the main loop is elsewhere. -/
theorem open_of_main (h : Ending n k s) (hm : s.main ≠ .confirming) (hm' : s.main ≠ .returned) :
    s.allConfirmed = false := by
  refine Bool.eq_false_iff.2 fun hclosed => ?_
  rcases (h.closed hclosed).1 with h | h
  · exact hm h
  · exact hm' h

/-- A step in the loop. -/
theorem of_open (hopen : t.allConfirmed = false) (hm : t.main.held = [])
    (hm' : t.main ≠ .returned) : Ending n k t where
  written := fun ev h => by rw [h] at hm; cases hm
  closed := fun h => by rw [hopen] at h; cases h
  returned := fun h => absurd h hm'

/-- A step that leaves the main loop where it is. -/
theorem same (h : Ending n k s) (hm : t.main = s.main) (hclosed : t.allConfirmed = s.allConfirmed)
    (hout : t.output = s.output)
    (hcount : t.tk.counter = s.tk.counter) : Ending n k t where
  written := fun ev he => by rw [hcount]; exact h.written ev (hm ▸ he)
  closed := fun hc => by
    rw [hm, hout]
    exact h.closed (hclosed ▸ hc)
  returned := fun hr => by
    rw [hclosed]
    exact h.returned (hm ▸ hr)

/-- The event of a packet goes to the output. -/
theorem output {ev : TrackerEvent} (h : Ending n k s) (hb : Budget n k s) (hl : Ledger s)
    (ht : config.totalPkts = some (n : Int)) (hm : s.main = .outputting ev)
    (hok : config.totalPkts = some (ev.details.seq + 1) →
      s.tk.store.keys = [] ∧ s.actor.emitted = []) : Ending n k (s.outputEvent config ev) := by
  unfold outputEvent
  split
  next hlast =>
    obtain ⟨hkeys, hemitted⟩ := hok hlast
    have hstore : ∀ p, s.tk.store.count p = 0 := fun p => by
      have hentries : s.tk.store.entries = [] := List.map_eq_nil_iff.1 hkeys
      rw [Store.count, hentries]
      rfl
    have hpipe : s.pipeline = events (s.output ++ [Except.ok ev]) := by
      rw [pipeline, hm, hemitted, events_concat_ok]
      rfl
    have hnum : ∀ seq : Int, numOf seq (events (s.output ++ [Except.ok ev])) =
        if 0 ≤ seq ∧ seq < s.tk.counter then 1 else 0 := fun seq => by
      have hseq := hl seq
      rwa [hstore, Nat.zero_add, hpipe] at hseq
    -- the packet was counted, so that all were, and no more were written than there are
    have hlt : ev.details.seq < s.tk.counter := by
      by_contra hge
      have hzero := hnum ev.details.seq
      have hweight : Store.weight (fun v : TCPSYNSentReceipt => v.seq = ev.details.seq)
          ev.details = 1 := Store.weight_of_true (decide_eq_true rfl)
      rw [if_neg fun hin => hge hin.2, events_concat_ok, numOf_append, numOf_singleton,
        hweight] at hzero
      omega
    have hk := h.written ev hm
    have hbound := hb.bound
    have hn : (n : Int) = ev.details.seq + 1 := Option.some.inj (ht.symm.trans hlast)
    have hkn : k = n := by omega
    refine ⟨(fun ev' he => by cases he), fun _ => ⟨.inl rfl, hkn, fun seq => ?_⟩,
      (fun hr => by cases hr)⟩
    rw [hnum, hk, hkn]
  next =>
    have hopen := h.open_of_main (by rw [hm]; simp) (by rw [hm]; simp)
    exact of_open hopen rfl (by simp)

theorem move (h : Ending n k s) (hb : Budget n k s) (hl : Ledger s)
    (ht : config.totalPkts = some (n : Int)) (hok : orderly config s a)
    (ha : writes a = false) (hst : s.step config a = some t) : Ending n k t := by
  have hopen : s.main ≠ .confirming → s.main ≠ .returned → s.allConfirmed = false :=
    h.open_of_main
  cases step_move hst with
  | ticked | received | fired | wasReset | lapsed | cancelled | exited =>
    exact h.same rfl rfl rfl rfl
  | tookTick hm | ended hm | failed hm | prepared hm | markedSent hm | unmarked hm
  | notWritten hm | reported hm =>
    exact .of_open (hopen (by simp [hm]) (by simp [hm])) rfl (by simp)
  | wrote => cases ha
  | tookEvent hm hact =>
    have hconfirmed := hopen (by simp [hm]) (by simp [hm])
    have hnum := hb.numbered (by simp [hact]) (by rw [hm]; rfl)
    rw [hm] at hnum
    refine ⟨fun ev he => by simpa [SYNMainPC.marked] using hnum, fun hc => ?_,
      (fun hr => by cases hr)⟩
    have hc : s.allConfirmed = true := hc
    rw [hconfirmed] at hc
    cases hc
  | outputted hm =>
    simp only [orderly, hm] at hok
    exact h.output hb hl ht hm hok
  | confirmed hm hc =>
    obtain ⟨_, hkn, hnum⟩ := h.closed hc
    exact ⟨(fun ev he => by cases he), fun _ => ⟨.inr rfl, hkn, hnum⟩, fun _ => hc⟩
  | markedReceived hr hact hk hmark =>
    exact h.same rfl rfl rfl (counter_markReceived hmark)
  | unknown hr hact hk hmark => exact h.same rfl rfl rfl (counter_markReceived hmark)
  | timedOut hk hact hcall => exact h.same rfl rfl rfl (counter_handleTimeout hcall)
  | stale hk hact hcall => exact h.same rfl rfl rfl (counter_handleTimeout hcall)
  | panicked hp =>
    rw [eq_panic_of_step hst hp]
    exact h.same rfl rfl rfl rfl

theorem wrote (h : Ending n k s) {key : Key} {seq : Int} (hm : s.main = .writing key seq) :
    Ending n (k + 1) (s.sent config key seq) := by
  have hopen := h.open_of_main (by simp [hm]) (by simp [hm])
  refine of_open ?_ (by rw [sent_main]; rfl) (by simp)
  simp only [sent]
  split <;> exact hopen

end Ending

/-! ## The promise -/

/-- The invariant of an orderly ping of `n` packets with `k` written. -/
structure Accounted (n k : Nat) (s : SYNRun) : Prop where
  budget : Budget n k s
  ledger : Ledger s
  ending : Ending n k s
  counter : 0 ≤ s.tk.counter

theorem counter_le_of_step (hst : s.step config a = some t) : s.tk.counter ≤ t.tk.counter := by
  cases step_move hst with
  | @markedSent _ _ tk _ _ hmark =>
    have hcount := counter_markSent hmark
    show s.tk.counter ≤ tk.counter
    omega
  | markedReceived _ _ _ hmark => exact Int.le_of_eq (counter_markReceived hmark).symm
  | unknown _ _ _ hmark => exact Int.le_of_eq (counter_markReceived hmark).symm
  | timedOut _ _ hcall => exact Int.le_of_eq (counter_handleTimeout hcall).symm
  | stale _ _ hcall => exact Int.le_of_eq (counter_handleTimeout hcall).symm
  | wrote => exact Int.le_of_eq (by rw [sent_tk])
  | outputted => exact Int.le_of_eq (by rw [outputEvent_tk])
  | panicked _ _ _ htk => exact Int.le_of_eq (by rw [htk])
  | _ => exact Int.le_refl _

theorem Accounted.start (hn : 1 ≤ n) : Accounted n 0 start :=
  ⟨.start hn, .start, .start n, Int.le_refl 0⟩

theorem Accounted.step (h : Accounted n k s) (ht : config.totalPkts = some (n : Int))
    (hok : orderly config s a) (hst : s.step config a = some t) :
    Accounted n (if writes a then k + 1 else k) t := by
  refine ⟨h.budget.step ht (inTime_of_orderly hok) hst, h.ledger.step h.counter hok hst, ?_,
    Int.le_trans h.counter (counter_le_of_step hst)⟩
  by_cases ha : writes a = true
  · obtain ⟨key, seq, hm, rfl⟩ := wrote_of_step ha hst
    rw [if_pos ha]
    exact h.ending.wrote hm
  · rw [if_neg ha]
    exact h.ending.move h.budget h.ledger ht hok (by simpa using ha) hst

/-- No more than `n` packets are sent and none has two events; and when the goroutine has
returned, after which the output channel is closed, `n` were sent and each has one event. -/
structure Complete (n : Nat) (x : SYNRun × Nat) : Prop where
  atMost : x.2 ≤ n
  single : ∀ seq, numOf seq (events x.1.output) ≤ 1
  each : x.1.main = .returned →
    x.2 = n ∧ ∀ seq : Int, 0 ≤ seq → seq < n → numOf seq (events x.1.output) = 1

theorem Accounted.complete {x : SYNRun × Nat} (h : Accounted n x.2 x.1) : Complete n x where
  atMost := Nat.le_trans (Nat.le_add_right _ _) h.budget.bound
  single := fun seq => by
    have hseq := h.ledger seq
    rw [pipeline, numOf_append] at hseq
    split at hseq <;> omega
  each := fun hreturned => by
    obtain ⟨_, hkn, hnum⟩ := h.ending.closed (h.ending.returned hreturned)
    exact ⟨hkn, fun seq hle hlt => (hnum seq).trans (if_pos ⟨hle, hlt⟩)⟩

/-- An orderly ping is complete. -/
theorem completeness (hn : 1 ≤ n) (ht : config.totalPkts = some (n : Int)) {x : SYNRun × Nat}
    (h : (counted config).Reachable (fun x a => orderly config x.1 a) x) : Complete n x := by
  have hacc : Accounted n x.2 x.1 := by
    refine h.invariant (I := fun x => Accounted n x.2 x.1) (.start hn) ?_
    intro x a y hx hok hst
    obtain ⟨hst, hy⟩ := System.tally_eq_some hst
    rw [hy]
    exact hx.step ht hok hst
  exact hacc.complete

/-! ## Two packets -/

instance : ∀ s a, Decidable (orderly config s a) := fun s a =>
  match a with
  | .tick => inferInstanceAs (Decidable (_ ∧ _))
  | .markSent => by
    unfold orderly
    dsimp only
    split <;> infer_instance
  | .output => by
    unfold orderly
    dsimp only
    split <;> infer_instance
  | .tickerFires | .tickClosed | .ctxDone | .sendErr _ | .prepare _ _ | .write _
  | .takeEvent | .eventsClosed | .confirm | .reply _ | .filteredClosed | .rxCtxDone
  | .markReceived | .timerFires _ | .reset _ | .handleTimeout _ | .cancel | .exit =>
    isTrue trivial

def twoPackets : SYNConfig := ⟨[192, 0, 2, 1], 443, 1000000000, some 2, 2, true⟩

/-- The two packets are sent, from two ports. -/
def bothSent : List SYNAction :=
  [.tickerFires, .tick, .prepare [192, 0, 2, 2] 40000, .markSent, .write none,
    .tickerFires, .tick, .prepare [192, 0, 2, 2] 40001, .markSent, .write none]

/-- The reply to the packet from the port goes to the output. -/
def replyTo (port : UInt16) : List SYNAction :=
  [.reply ⟨[192, 0, 2, 1], [192, 0, 2, 2], ⟨443, port, true, true⟩⟩, .markReceived, .takeEvent,
    .output]

/-- One packet is answered and the other times out. -/
theorem completeness_two : ∃ x, (counted twoPackets).Reachable
    (fun x a => orderly twoPackets x.1 a) x ∧ x.1.main = .returned ∧ Complete 2 x := by
  obtain ⟨x, hr, hp⟩ := System.exists_of_replay (counted twoPackets)
    (fun x a => orderly twoPackets x.1 a) (fun x => x.1.main = .returned)
    (bothSent ++ replyTo 40000 ++
      ([.timerFires [192, 0, 2, 2, 156, 65, 192, 0, 2, 1, 1, 187],
        .handleTimeout [192, 0, 2, 2, 156, 65, 192, 0, 2, 1, 1, 187], .takeEvent, .output,
        .confirm] : List SYNAction)) (by decide +kernel)
  exact ⟨x, hr, of_decide_eq_true hp, completeness (by decide) rfl hr⟩

/-- The second packet is answered first. -/
theorem incomplete_out_of_order :
    ¬ ∀ x, (counted twoPackets).Reachable .any x → Complete 2 x := by
  intro h
  obtain ⟨x, hr, hp⟩ := System.exists_of_replay (counted twoPackets) .any
    (fun x => x.1.main = .returned ∧ numOf 0 (events x.1.output) = 0)
    (bothSent ++ replyTo 40001 ++ ([.confirm] : List SYNAction)) (by decide +kernel)
  obtain ⟨hreturned, hnone⟩ := of_decide_eq_true hp
  have hone := ((h x hr).each hreturned).2 0 (by decide) (by decide)
  rw [hnone] at hone
  cases hone

end SYNRun

end CloudPing.Pinger
