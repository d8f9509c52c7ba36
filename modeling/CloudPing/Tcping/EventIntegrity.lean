import CloudPing.Conc.System
import CloudPing.Tcping.Tracker

/-!
# Which packet an event of the TCP tracker belongs to

`Send` opens a listener, whose port is that of the packet, and marks the packet sent.  It
then writes the packet and starts a goroutine that waits for the timer of the packet or for
its reply, and closes the listener in both cases.  After the timer another goroutine calls
`handleTimeout`.

A receipt is known by its number, but the tracker finds and deletes its entry by the key of
its flow.  No other packet gets the key while the listener is open.  The listener is closed
when the timer has fired, before `handleTimeout` is served: a packet that gets the key in
between puts its entry over the old one, or has it deleted by the old timeout.

Each call of the tracker is one step here, its event included.
-/

namespace CloudPing.Tcping

open Conc

/-! ## Receipts -/

/-- Where a packet is that was marked sent. -/
inductive ReceiptPC where
  /-- In `Send`, before the packet is written. -/
  | marked
  /-- Its goroutine waits for the timer or the reply. -/
  | waiting
  /-- Its goroutine is in the deferred functions; the listener is open. -/
  | closing
  | closed
  /-- It could not be written: the listener stays open, and there is no goroutine. -/
  | unsent
  deriving DecidableEq, Repr

structure Receipt where
  key : Key
  pc : ReceiptPC
  /-- The timer has fired, and `handleTimeout` is not served yet. -/
  timeoutC : Bool
  /-- The reply is in `ReceivedC`. -/
  receivedC : Bool
  deriving DecidableEq, Repr

namespace Receipt

/-- No goroutine of the receipt is left. -/
def finished (r : Receipt) : Prop := (r.pc = .closed ∨ r.pc = .unsent) ∧ r.timeoutC = false

/-- The key can not be had by another packet, or a timeout for it is on its way. -/
def live (r : Receipt) : Prop := r.pc ≠ .closed ∨ r.timeoutC = true

/-- The event of the receipt is to come. -/
def pending (r : Receipt) : Prop :=
  r.receivedC = false ∧ (r.pc = .marked ∨ r.pc = .waiting ∨ r.timeoutC = true)

theorem pending.live {r : Receipt} (h : r.pending) : r.live := by
  rcases h.2 with hpc | hpc | htimeout
  · exact .inl (by rw [hpc]; decide)
  · exact .inl (by rw [hpc]; decide)
  · exact .inr htimeout

theorem pending.not_finished {r : Receipt} (h : r.pending) : ¬ r.finished := by
  rintro ⟨hover, htimeout⟩
  rcases h.2 with hpc | hpc | htimeout'
  · rw [hpc] at hover
    rcases hover with hover | hover <;> cases hover
  · rw [hpc] at hover
    rcases hover with hover | hover <;> cases hover
  · rw [htimeout] at htimeout'
    cases htimeout'

end Receipt

/-! ## Runs -/

/-- An event on `EventC`. -/
structure Emitted where
  event : TrackerEvent
  /-- The receipt whose timer made it, for a timeout. -/
  timer : Option Int
  deriving DecidableEq, Repr

structure ReceiptRun where
  tk : Tracker
  /-- The packets that were marked sent, by their numbers. -/
  receipts : Store Int Receipt
  events : List Emitted
  panicked : Bool

inductive ReceiptAction where
  /-- `net.Listen`, and `MarkSent`. -/
  | send (receipt : TCPSYNSentReceipt)
  | write (seq : Int) (err : Option String)
  | timerFires (seq : Int)
  | takeReply (seq : Int)
  | close (seq : Int)
  | handleTimeout (seq : Int)
  | markReceived (receivedPkt : PacketInfo)

namespace ReceiptRun

def start (config : TrackerConfig) : ReceiptRun := ⟨NewTracker config, ∅, [], false⟩

def panic (s : ReceiptRun) : ReceiptRun := { s with panicked := true }

/-- A listener for a packet with the key is open. -/
def held (s : ReceiptRun) (key : Key) : Bool :=
  s.receipts.entries.any fun e => e.2.key = key ∧ e.2.pc ≠ .closed

def setReceipt (s : ReceiptRun) (seq : Int) (r : Receipt) : ReceiptRun :=
  { s with receipts := s.receipts.insert seq r }

/-- A step of the goroutines of one receipt. -/
def onReceipt (s : ReceiptRun) (seq : Int) (f : Receipt → Option Receipt) : Option ReceiptRun :=
  (s.receipts.lookup seq).bind fun r => (f r).map (s.setReceipt seq)

/-- `EventC <- event` -/
def emit (s : ReceiptRun) (event : TrackerEvent) (timer : Option Int) : ReceiptRun :=
  { s with events := s.events ++ [⟨event, timer⟩] }

def send (s : ReceiptRun) (receipt : TCPSYNSentReceipt) : Option ReceiptRun :=
  match receipt.key with
  | none => some s.panic
  | some key =>
    if s.held key then none
    else
      match s.tk.markSent key receipt with
      | none => some s.panic
      | some tk => some ({ s with tk := tk }.setReceipt s.tk.counter ⟨key, .marked, false, false⟩)

def handleTimeout (s : ReceiptRun) (seq : Int) (r : Receipt) : ReceiptRun :=
  match s.tk.handleTimeout r.key with
  | none => s.panic
  | some (event, tk) =>
    let s := { s with tk := tk }.setReceipt seq { r with timeoutC := false }
    match event with
    | some event => s.emit event (some seq)
    | none => s

def markReceived (s : ReceiptRun) (receivedPkt : PacketInfo) : ReceiptRun :=
  match receivedPkt.key.bind fun key => s.tk.markReceived key receivedPkt with
  | none => s.panic
  | some (none, tk) => { s with tk := tk }
  | some (some event, tk) =>
    let s := { s with tk := tk }.emit event none
    match s.receipts.lookup event.details.seq with
    | some r => s.setReceipt event.details.seq { r with receivedC := true }
    | none => s

def step (s : ReceiptRun) (a : ReceiptAction) : Option ReceiptRun :=
  if s.panicked then none
  else
    match a with
    | .send receipt => s.send receipt
    | .write seq err =>
      s.onReceipt seq fun r =>
        if r.pc = .marked then
          some { r with pc := match err with | none => .waiting | some _ => .unsent }
        else none
    | .timerFires seq =>
      s.onReceipt seq fun r =>
        if r.pc = .waiting then some { r with pc := .closing, timeoutC := true } else none
    | .takeReply seq =>
      s.onReceipt seq fun r =>
        if r.pc = .waiting ∧ r.receivedC = true then
          some { r with pc := .closing, receivedC := false }
        else none
    | .close seq =>
      s.onReceipt seq fun r => if r.pc = .closing then some { r with pc := .closed } else none
    | .handleTimeout seq =>
      (s.receipts.lookup seq).bind fun r =>
        if r.timeoutC = true then some (s.handleTimeout seq r) else none
    | .markReceived receivedPkt => some (s.markReceived receivedPkt)

/-- All orders of the calls, for a tracker with the configuration. -/
def system (config : TrackerConfig) : System ReceiptRun ReceiptAction := ⟨start config, step⟩

/-! ## Integrity -/

/-- The events of a receipt. -/
def eventsOf (s : ReceiptRun) (seq : Int) : List Emitted :=
  s.events.filter fun e => e.event.details.seq = seq

/-- Each receipt has one event, once nobody works on it any more, and a timeout is that of
the receipt's own timer. -/
structure Integrity (s : ReceiptRun) : Prop where
  once : ∀ seq r, s.receipts.lookup seq = some r → (s.eventsOf seq).length ≤ 1
  finished : ∀ seq r, s.receipts.lookup seq = some r → r.finished → (s.eventsOf seq).length = 1
  own : ∀ e ∈ s.events, e.event.type = .timeout → e.timer = some e.event.details.seq

/-- No packet is marked sent under a key for which a timeout is on its way, and no packet
fails to be written unless its reply has come. -/
def keysFree : Policy ReceiptRun ReceiptAction := fun s a =>
  match a with
  | .send receipt => ∀ key, receipt.key = some key → s.tk.comparable key = true →
      ∀ seq r, s.receipts.lookup seq = some r → r.key = key → r.timeoutC = false
  | .write seq (some _) => ∀ r, s.receipts.lookup seq = some r → r.receivedC = true
  | _ => True

variable {config : TrackerConfig} {s t : ReceiptRun} {a : ReceiptAction} {seq : Int} {r : Receipt}

/-! ## The invariant -/

/-- The entry under the key of the receipt is its own. -/
def Stored (s : ReceiptRun) (seq : Int) (r : Receipt) : Prop :=
  ∃ value, s.tk.store.lookup r.key = some value ∧ value.seq = seq

/-- Of a receipt either the entry is stored and the event to come, or the event was sent. -/
structure Tracked (s : ReceiptRun) (seq : Int) (r : Receipt) : Prop where
  toCome : s.Stored seq r → s.eventsOf seq = [] ∧ r.pending
  sent : ¬ s.Stored seq r →
    (s.eventsOf seq).length = 1 ∧ (r.pc = .marked → r.receivedC = true)

/-- What the store, the receipts and the events have to do with each other. -/
structure Books (s : ReceiptRun) : Prop where
  /-- Numbers from the counter on are free. -/
  fresh : ∀ seq r, s.receipts.lookup seq = some r → seq < s.tk.counter
  stored : ∀ key value, s.tk.store.lookup key = some value →
    ∃ r, s.receipts.lookup value.seq = some r ∧ r.key = key
  emitted : ∀ e ∈ s.events, (s.receipts.lookup e.event.details.seq).isSome
  own : ∀ e ∈ s.events, e.event.type = .timeout → e.timer = some e.event.details.seq
  /-- Two live receipts have different keys. -/
  apart : ∀ seq r seq' r', s.receipts.lookup seq = some r → s.receipts.lookup seq' = some r' →
    r.key = r'.key → r.live → r'.live → seq = seq'
  fired : ∀ seq r, s.receipts.lookup seq = some r → r.timeoutC = true → r.pc ≠ .marked

structure Inv (s : ReceiptRun) : Prop extends s.Books where
  tracked : ∀ seq r, s.receipts.lookup seq = some r → s.Tracked seq r

theorem Inv.start (config : TrackerConfig) : (start config).Inv := by
  refine ⟨⟨?_, ?_, ?_, ?_, ?_, ?_⟩, ?_⟩
  · intro seq r h
    cases h
  · intro key value h
    cases h
  · intro e he
    cases he
  · intro e he
    cases he
  · intro seq r seq' r' h
    cases h
  · intro seq r h
    cases h
  · intro seq r h
    cases h

theorem Inv.integrity (h : s.Inv) : s.Integrity := by
  refine ⟨fun seq r hr => ?_, fun seq r hr hover => ?_, h.own⟩
  · have htracked := h.tracked seq r hr
    by_cases hstored : s.Stored seq r
    · rw [(htracked.toCome hstored).1]
      exact Nat.zero_le 1
    · exact Nat.le_of_eq (htracked.sent hstored).1
  · have htracked := h.tracked seq r hr
    exact (htracked.sent fun hstored => (htracked.toCome hstored).2.not_finished hover).1

/-! ## What the steps do to it -/

theorem eventsOf_append (s : ReceiptRun) (e : Emitted) (seq : Int) :
    eventsOf { s with events := s.events ++ [e] } seq =
      s.eventsOf seq ++ if e.event.details.seq = seq then [e] else [] := by
  rw [eventsOf, List.filter_append, ← eventsOf]
  by_cases h : e.event.details.seq = seq <;> simp [h]

/-- The receipts after one of them has moved on. -/
theorem lookup_setReceipt (s : ReceiptRun) (seq seq' : Int) (r : Receipt) :
    (s.setReceipt seq r).receipts.lookup seq' =
      if seq' = seq then some r else s.receipts.lookup seq' :=
  Store.lookup_insert_eq _ _ _ _

theorem Books.setReceipt {r' : Receipt} (h : s.Books) (hr : s.receipts.lookup seq = some r)
    (hkey : r'.key = r.key) (hlive : r'.live → r.live)
    (hfired : r'.timeoutC = true → r'.pc ≠ .marked) : (s.setReceipt seq r').Books := by
  -- every receipt of the new state is one of the old state, with the same key
  have hback : ∀ seq' r₁, (s.setReceipt seq r').receipts.lookup seq' = some r₁ →
      ∃ r₀, s.receipts.lookup seq' = some r₀ ∧ r₁.key = r₀.key ∧ (r₁.live → r₀.live) := by
    intro seq' r₁ h₁
    rw [lookup_setReceipt] at h₁
    split at h₁
    next heq =>
      cases h₁
      subst heq
      exact ⟨r, hr, hkey, hlive⟩
    next => exact ⟨r₁, h₁, rfl, id⟩
  refine ⟨fun seq' r₁ h₁ => ?_, fun key value hv => ?_, fun e he => ?_, h.own,
    fun seq₁ r₁ seq₂ r₂ h₁ h₂ heq hl₁ hl₂ => ?_, fun seq' r₁ h₁ => ?_⟩
  · obtain ⟨r₀, h₀, _⟩ := hback seq' r₁ h₁
    exact h.fresh seq' r₀ h₀
  · obtain ⟨r₀, h₀, hk⟩ := h.stored key value hv
    rw [lookup_setReceipt]
    split
    next heq =>
      rw [heq] at h₀
      cases hr.symm.trans h₀
      exact ⟨r', rfl, hkey.trans hk⟩
    next => exact ⟨r₀, h₀, hk⟩
  · rw [lookup_setReceipt]
    split
    next => rfl
    next => exact h.emitted e he
  · obtain ⟨q₁, hq₁, hk₁, hlive₁⟩ := hback seq₁ r₁ h₁
    obtain ⟨q₂, hq₂, hk₂, hlive₂⟩ := hback seq₂ r₂ h₂
    exact h.apart seq₁ q₁ seq₂ q₂ hq₁ hq₂ (hk₁.symm.trans (heq.trans hk₂)) (hlive₁ hl₁)
      (hlive₂ hl₂)
  · rw [lookup_setReceipt] at h₁
    split at h₁
    next =>
      cases h₁
      exact hfired
    next => exact h.fired seq' r₁ h₁

/-- One receipt moves on. -/
theorem Inv.setReceipt {r' : Receipt} (h : s.Inv) (hr : s.receipts.lookup seq = some r)
    (hkey : r'.key = r.key) (hlive : r'.live → r.live)
    (hfired : r'.timeoutC = true → r'.pc ≠ .marked)
    (hpending : s.Stored seq r → r.pending → r'.pending)
    (hmarked : (r.pc = .marked → r.receivedC = true) → r'.pc = .marked → r'.receivedC = true) :
    (s.setReceipt seq r').Inv := by
  refine ⟨h.toBooks.setReceipt hr hkey hlive hfired, fun seq' r₁ h₁ => ?_⟩
  rw [lookup_setReceipt] at h₁
  split at h₁
  next heq =>
    cases h₁
    subst heq
    have htracked := h.tracked seq' r hr
    have hsame : (s.setReceipt seq' r').Stored seq' r' ↔ s.Stored seq' r := by
      rw [Stored, hkey]
      exact Iff.rfl
    refine ⟨fun hst => ?_, fun hst => ?_⟩
    · obtain ⟨hnil, hp⟩ := htracked.toCome (hsame.1 hst)
      exact ⟨hnil, hpending (hsame.1 hst) hp⟩
    · obtain ⟨hone, hm⟩ := htracked.sent fun h' => hst (hsame.2 h')
      exact ⟨hone, hmarked hm⟩
  next =>
    have htracked := h.tracked seq' r₁ h₁
    exact ⟨htracked.toCome, htracked.sent⟩

/-- The entry under a key is deleted, and an event sent. -/
def deliver (s : ReceiptRun) (key : Key) (event : TrackerEvent) (timer : Option Int) :
    ReceiptRun :=
  emit { s with tk := { s.tk with store := s.tk.store.erase key } } event timer

theorem stored_deliver_iff {key : Key} {event : TrackerEvent} {timer : Option Int} :
    (s.deliver key event timer).Stored seq r ↔ r.key ≠ key ∧ s.Stored seq r := by
  simp only [Stored, deliver, emit, Store.lookup_erase_eq]
  constructor
  · rintro ⟨value, hv, hseq⟩
    split at hv
    next => cases hv
    next hne => exact ⟨hne, value, hv, hseq⟩
  · rintro ⟨hne, value, hv, hseq⟩
    exact ⟨value, (if_neg hne).trans hv, hseq⟩

theorem Books.deliver {key : Key} {value : TCPSYNSentReceipt} {event : TrackerEvent}
    {timer : Option Int} (h : s.Books) (hl : s.tk.store.lookup key = some value)
    (hseq : event.details.seq = value.seq)
    (hown : event.type = .timeout → timer = some value.seq) :
    (s.deliver key event timer).Books := by
  obtain ⟨r₀, hr₀, _⟩ := h.stored key value hl
  refine ⟨h.fresh, fun key' v hv => ?_, fun e he => ?_, fun e he htype => ?_, h.apart, h.fired⟩
  · exact h.stored key' v (Store.lookup_erase_eq_some hv).2
  · rcases List.mem_append.1 he with he | he
    · exact h.emitted e he
    · cases List.mem_singleton.1 he
      show (s.receipts.lookup event.details.seq).isSome
      rw [hseq, hr₀]
      rfl
  · rcases List.mem_append.1 he with he | he
    · exact h.own e he htype
    · cases List.mem_singleton.1 he
      show timer = some event.details.seq
      rw [hseq]
      exact hown htype

/-- The entry of a receipt is deleted, and its event sent. -/
theorem Inv.deliver {key : Key} {value : TCPSYNSentReceipt} {r' : Receipt} (h : s.Inv)
    (event : TrackerEvent) (timer : Option Int) (hl : s.tk.store.lookup key = some value)
    (hseq : event.details.seq = value.seq)
    (hown : event.type = .timeout → timer = some value.seq)
    (hr : s.receipts.lookup value.seq = some r) (hkey : r'.key = r.key)
    (hlive : r'.live → r.live) (hfired : r'.timeoutC = true → r'.pc ≠ .marked)
    (hmarked : r'.pc = .marked → r'.receivedC = true) :
    ((s.deliver key event timer).setReceipt value.seq r').Inv := by
  have hkey₀ : r.key = key := by
    obtain ⟨r₀, hr₀, hk⟩ := h.stored key value hl
    cases hr.symm.trans hr₀
    exact hk
  refine ⟨(h.toBooks.deliver hl hseq hown).setReceipt hr hkey hlive hfired, fun seq r₁ h₁ => ?_⟩
  have hevents := eventsOf_append s ⟨event, timer⟩ seq
  rw [hseq] at hevents
  rw [lookup_setReceipt] at h₁
  split at h₁
  next heq =>
    -- the receipt of the entry: it was stored, and now has its event
    cases h₁
    subst heq
    have hstored : s.Stored value.seq r := ⟨value, by rw [hkey₀, hl], rfl⟩
    rw [((h.tracked _ r hr).toCome hstored).1, if_pos rfl] at hevents
    refine ⟨fun hst => ?_, fun _ => ⟨congrArg List.length hevents, hmarked⟩⟩
    have hst : (s.deliver key event timer).Stored value.seq r' := hst
    exact absurd (hkey.trans hkey₀) (stored_deliver_iff.1 hst).1
  next hne =>
    have htracked := h.tracked seq r₁ h₁
    rw [if_neg (Ne.symm hne), List.append_nil] at hevents
    refine ⟨fun hst => ?_, fun hst => ?_⟩
    · have hst : (s.deliver key event timer).Stored seq r₁ := hst
      obtain ⟨hnil, hp⟩ := htracked.toCome (stored_deliver_iff.1 hst).2
      exact ⟨hevents.trans hnil, hp⟩
    · have hnot : ¬ s.Stored seq r₁ := by
        rintro ⟨v, hv, hvseq⟩
        have hst : ¬ (s.deliver key event timer).Stored seq r₁ := hst
        refine hst (stored_deliver_iff.2 ⟨fun hk => ?_, v, hv, hvseq⟩)
        rw [hk, hl] at hv
        cases hv
        exact hne hvseq.symm
      obtain ⟨hone, hm⟩ := htracked.sent hnot
      exact ⟨(congrArg List.length hevents).trans hone, hm⟩

/-- A packet gets a key that nobody is left to time out. -/
theorem Inv.insert {key : Key} {receipt : TCPSYNSentReceipt} (h : s.Inv)
    (hkey : ∀ seq r, s.receipts.lookup seq = some r → r.key = key → ¬ r.live) :
    (ReceiptRun.setReceipt
      { s with tk :=
          ⟨s.tk.store.insert key { receipt with seq := s.tk.counter }, s.tk.counter + 1⟩ }
      s.tk.counter ⟨key, .marked, false, false⟩).Inv := by
  have hfree : s.tk.store.lookup key = none := by
    cases hl : s.tk.store.lookup key with
    | none => rfl
    | some value =>
      obtain ⟨r, hr, hk⟩ := h.stored key value hl
      have hstored : s.Stored value.seq r := ⟨value, by rw [hk, hl], rfl⟩
      exact absurd ((h.tracked _ r hr).toCome hstored).2.live (hkey _ r hr hk)
  have hnew : s.receipts.lookup s.tk.counter = none := by
    cases hl : s.receipts.lookup s.tk.counter with
    | none => rfl
    | some r => exact absurd (h.fresh _ r hl) (Int.lt_irrefl _)
  have hback : ∀ seq r, (s.receipts.insert s.tk.counter ⟨key, .marked, false, false⟩).lookup seq =
      some r → (seq = s.tk.counter ∧ r = ⟨key, .marked, false, false⟩) ∨
        (seq ≠ s.tk.counter ∧ s.receipts.lookup seq = some r) :=
    fun _ _ => Store.lookup_insert_eq_some
  refine ⟨⟨fun seq r hr => ?_, fun key' value hv => ?_, fun e he => ?_, h.own,
    fun seq₁ r₁ seq₂ r₂ h₁ h₂ heq hl₁ hl₂ => ?_, fun seq r hr => ?_⟩, fun seq r hr => ?_⟩
  · show seq < s.tk.counter + 1
    rcases hback seq r hr with ⟨rfl, _⟩ | ⟨_, hr⟩
    · omega
    · have hlt := h.fresh seq r hr
      omega
  · simp only [ReceiptRun.setReceipt, Store.lookup_insert_eq] at hv ⊢
    split at hv
    next heq =>
      cases hv
      exact ⟨_, if_pos rfl, heq.symm⟩
    next =>
      obtain ⟨r, hr, hk⟩ := h.stored key' value hv
      have hne : value.seq ≠ s.tk.counter := fun he => by
        rw [he, hnew] at hr
        cases hr
      exact ⟨r, (if_neg hne).trans hr, hk⟩
  · show ((s.receipts.insert s.tk.counter _).lookup e.event.details.seq).isSome
    rw [Store.lookup_insert_eq]
    split
    next => rfl
    next => exact h.emitted e he
  · rcases hback seq₁ r₁ h₁ with ⟨rfl, rfl⟩ | ⟨_, h₁⟩
    · rcases hback seq₂ r₂ h₂ with ⟨rfl, rfl⟩ | ⟨_, h₂⟩
      · rfl
      · exact absurd hl₂ (hkey seq₂ r₂ h₂ heq.symm)
    · rcases hback seq₂ r₂ h₂ with ⟨rfl, rfl⟩ | ⟨_, h₂⟩
      · exact absurd hl₁ (hkey seq₁ r₁ h₁ heq)
      · exact h.apart seq₁ r₁ seq₂ r₂ h₁ h₂ heq hl₁ hl₂
  · rcases hback seq r hr with ⟨_, rfl⟩ | ⟨_, hr⟩
    · intro htimeout
      cases htimeout
    · exact h.fired seq r hr
  · rcases hback seq r hr with ⟨rfl, rfl⟩ | ⟨hne, hr⟩
    · have hnil : s.eventsOf s.tk.counter = [] := by
        refine List.filter_eq_nil_iff.2 fun e he heq => ?_
        have hsome := h.emitted e he
        rw [of_decide_eq_true heq, hnew] at hsome
        cases hsome
      refine ⟨fun _ => ⟨hnil, rfl, .inl rfl⟩, fun hst => absurd ?_ hst⟩
      exact ⟨_, AList.lookup_insert _, rfl⟩
    · have htracked := h.tracked seq r hr
      by_cases hk : r.key = key
      · -- its entry was taken out before, so that there is nothing to put the new one over
        have hnot : ¬ s.Stored seq r := fun hst =>
          hkey seq r hr hk (htracked.toCome hst).2.live
        refine ⟨fun hst => absurd hst ?_, fun _ => htracked.sent hnot⟩
        rintro ⟨value, hv, hvseq⟩
        simp only [ReceiptRun.setReceipt, Store.lookup_insert_eq, if_pos hk] at hv
        cases hv
        exact hne hvseq.symm
      · have hsame : Stored (ReceiptRun.setReceipt
            { s with tk :=
                ⟨s.tk.store.insert key { receipt with seq := s.tk.counter },
                  s.tk.counter + 1⟩ }
            s.tk.counter ⟨key, .marked, false, false⟩) seq r ↔ s.Stored seq r := by
          simp only [Stored, ReceiptRun.setReceipt, Store.lookup_insert_eq, if_neg hk]
        exact ⟨fun hst => htracked.toCome (hsame.1 hst),
          fun hst => htracked.sent fun h' => hst (hsame.2 h')⟩

/-! ## The calls of the tracker -/

theorem Inv.panic (h : s.Inv) : s.panic.Inv :=
  ⟨⟨h.fresh, h.stored, h.emitted, h.own, h.apart, h.fired⟩,
    fun seq r hr => ⟨(h.tracked seq r hr).toCome, (h.tracked seq r hr).sent⟩⟩

/-- The listener of a receipt with the key is closed when another packet gets the key. -/
theorem closed_of_not_held {key : Key} (h : ¬ s.held key = true)
    (hr : s.receipts.lookup seq = some r) (hkey : r.key = key) : r.pc = .closed := by
  by_contra hpc
  refine h (List.any_eq_true.2 ⟨⟨seq, r⟩, AList.mem_lookup_iff.1 hr, ?_⟩)
  exact decide_eq_true ⟨hkey, hpc⟩

theorem Inv.send {receipt : TCPSYNSentReceipt} (h : s.Inv)
    (hok : keysFree s (.send receipt)) (hst : s.send receipt = some t) : t.Inv := by
  unfold ReceiptRun.send at hst
  split at hst
  next => cases hst; exact h.panic
  next key hkey =>
    obtain ⟨hheld, hst⟩ := Option.ite_none_left_eq_some.1 hst
    split at hst
    next => cases hst; exact h.panic
    next tk hmark =>
      cases hst
      obtain ⟨hcomparable, hmark⟩ := Option.ite_none_right_eq_some.1 hmark
      cases hmark
      refine h.insert fun seq r hr hk hlive => ?_
      have hpc := closed_of_not_held hheld hr hk
      have htimeout := hok key hkey hcomparable seq r hr hk
      rcases hlive with hlive | hlive
      · exact hlive hpc
      · rw [htimeout] at hlive
        cases hlive

/-- The live receipt of a key is the one whose entry is stored. -/
theorem Inv.owner {key : Key} {value : TCPSYNSentReceipt} (h : s.Inv)
    (hl : s.tk.store.lookup key = some value) (hr : s.receipts.lookup seq = some r)
    (hkey : r.key = key) (hlive : r.live) : value.seq = seq := by
  obtain ⟨r₀, hr₀, hkey₀⟩ := h.stored key value hl
  have hstored : s.Stored value.seq r₀ := ⟨value, by rw [hkey₀, hl], rfl⟩
  have hpending := ((h.tracked _ r₀ hr₀).toCome hstored).2
  exact h.apart _ r₀ _ r hr₀ hr (hkey₀.trans hkey.symm) hpending.live hlive

theorem Inv.handleTimeout (h : s.Inv) (hr : s.receipts.lookup seq = some r)
    (htimeout : r.timeoutC = true) : (s.handleTimeout seq r).Inv := by
  unfold ReceiptRun.handleTimeout
  split
  next => exact h.panic
  next event tk hcall =>
    obtain ⟨ent, hdelete, rfl⟩ := Tracker.handleTimeout_deleted hcall
    obtain ⟨rfl, rfl⟩ := Tracker.delete_eq_some hdelete
    have hfired := h.fired seq r hr htimeout
    cases hl : s.tk.store.lookup r.key with
    | none =>
      -- the event was sent before, and nothing is left under the key
      rw [Store.erase_of_lookup_none hl]
      refine h.setReceipt hr rfl (fun hlive => hlive.elim .inl fun ht => by cases ht)
        (fun ht => by cases ht) (fun hst _ => ?_) (fun _ hpc => absurd hpc hfired)
      obtain ⟨value, hv, _⟩ := hst
      rw [hl] at hv
      cases hv
    | some value =>
      have hseq := h.owner hl hr rfl (.inr htimeout)
      subst hseq
      exact h.deliver ⟨.timeout, value⟩ (some value.seq) hl rfl (fun _ => rfl) hr rfl
        (fun hlive => hlive.elim .inl fun ht => by cases ht)
        (fun ht => by cases ht) (fun hpc => absurd hpc hfired)

theorem Inv.markReceived (receivedPkt : PacketInfo) (h : s.Inv) :
    (s.markReceived receivedPkt).Inv := by
  unfold ReceiptRun.markReceived
  split
  next => exact h.panic
  next tk hcall =>
    obtain ⟨key, _, hcall⟩ := Option.bind_eq_some_iff.1 hcall
    obtain ⟨ent, hdelete, hnone⟩ := Tracker.markReceived_deleted hcall
    obtain ⟨rfl, rfl⟩ := Tracker.delete_eq_some hdelete
    rw [Store.erase_of_lookup_none (Option.map_eq_none_iff.1 hnone)]
    exact h
  next event tk hcall =>
    obtain ⟨key, _, hcall⟩ := Option.bind_eq_some_iff.1 hcall
    obtain ⟨ent, hdelete, hsome⟩ := Tracker.markReceived_deleted hcall
    obtain ⟨rfl, rfl⟩ := Tracker.delete_eq_some hdelete
    obtain ⟨value, hl, rfl⟩ := Option.map_eq_some_iff.1 hsome
    obtain ⟨r, hr, _⟩ := h.stored key value hl
    show Inv (match s.receipts.lookup value.seq with
      | some r => ReceiptRun.setReceipt _ value.seq { r with receivedC := true }
      | none => _)
    rw [hr]
    exact h.deliver ⟨.received, { value with receivedPkt := some receivedPkt }⟩ none hl rfl
      (fun htype => by cases htype) hr rfl id (h.fired _ r hr) fun _ => rfl

/-! ## Steps and runs -/

/-- A step of the goroutines of one receipt moves that receipt. -/
theorem onReceipt_eq_some {f : Receipt → Option Receipt} (h : s.onReceipt seq f = some t) :
    ∃ r r', s.receipts.lookup seq = some r ∧ f r = some r' ∧ t = s.setReceipt seq r' := by
  obtain ⟨r, hr, h⟩ := Option.bind_eq_some_iff.1 h
  obtain ⟨r', hf, rfl⟩ := Option.map_eq_some_iff.1 h
  exact ⟨r, r', hr, hf, rfl⟩

theorem Inv.step (h : s.Inv) (hok : keysFree s a) (hst : s.step a = some t) : t.Inv := by
  obtain ⟨_, hst⟩ := Option.ite_none_left_eq_some.1 hst
  cases a with
  | send receipt => exact h.send hok hst
  | write seq err =>
    obtain ⟨r, r', hr, hf, rfl⟩ := onReceipt_eq_some hst
    obtain ⟨hpc, hf⟩ := Option.ite_none_right_eq_some.1 hf
    cases hf
    have hlive : r.live := .inl (by rw [hpc]; decide)
    cases err with
    | none =>
      refine h.setReceipt hr rfl (fun _ => hlive) (fun _ hpc' => by cases hpc')
        (fun _ hp => ⟨hp.1, .inr (.inl rfl)⟩) fun _ hpc' => by cases hpc'
    | some err =>
      -- its reply has come, so that its event was sent
      refine h.setReceipt hr rfl (fun _ => hlive) (fun _ hpc' => by cases hpc') (fun _ hp => ?_)
        fun _ hpc' => by cases hpc'
      have hreceived := hp.1
      rw [hok r hr] at hreceived
      cases hreceived
  | timerFires seq =>
    obtain ⟨r, r', hr, hf, rfl⟩ := onReceipt_eq_some hst
    obtain ⟨hpc, hf⟩ := Option.ite_none_right_eq_some.1 hf
    cases hf
    exact h.setReceipt hr rfl (fun _ => .inl (by rw [hpc]; decide)) (fun _ hpc' => by cases hpc')
      (fun _ hp => ⟨hp.1, .inr (.inr rfl)⟩) fun _ hpc' => by cases hpc'
  | takeReply seq =>
    obtain ⟨r, r', hr, hf, rfl⟩ := onReceipt_eq_some hst
    obtain ⟨⟨hpc, hreceived⟩, hf⟩ := Option.ite_none_right_eq_some.1 hf
    cases hf
    refine h.setReceipt hr rfl (fun _ => .inl (by rw [hpc]; decide)) (fun _ hpc' => by cases hpc')
      (fun _ hp => ?_) fun _ hpc' => by cases hpc'
    have hnot := hp.1
    rw [hreceived] at hnot
    cases hnot
  | close seq =>
    obtain ⟨r, r', hr, hf, rfl⟩ := onReceipt_eq_some hst
    obtain ⟨hpc, hf⟩ := Option.ite_none_right_eq_some.1 hf
    cases hf
    refine h.setReceipt hr rfl (fun _ => .inl (by rw [hpc]; decide)) (fun _ hpc' => by cases hpc')
      (fun _ hp => ⟨hp.1, ?_⟩) fun _ hpc' => by cases hpc'
    -- a goroutine that is past its select has taken the timer, if the event is to come
    rcases hp.2 with hpc' | hpc' | htimeout
    · cases hpc.symm.trans hpc'
    · cases hpc.symm.trans hpc'
    · exact .inr (.inr htimeout)
  | handleTimeout seq =>
    obtain ⟨r, hr, hst⟩ := Option.bind_eq_some_iff.1 hst
    obtain ⟨htimeout, hst⟩ := Option.ite_none_right_eq_some.1 hst
    cases hst
    exact h.handleTimeout hr htimeout
  | markReceived receivedPkt =>
    cases hst
    exact h.markReceived receivedPkt

theorem inv_of_reachable (h : (system config).Reachable keysFree s) : s.Inv :=
  h.invariant (Inv.start config) fun _ _ _ hs hok hst => hs.step hok hst

/-! ## The exact condition -/

/-- A timeout on its way takes the entry of another packet that got the key. -/
theorem steals {value : TCPSYNSentReceipt} (halive : s.panicked = false)
    (hr : s.receipts.lookup seq = some r) (htimeout : r.timeoutC = true) (hu : s.tk.Uniform)
    (hl : s.tk.store.lookup r.key = some value) (hne : value.seq ≠ seq) :
    ∃ t, s.step (.handleTimeout seq) = some t ∧ ¬ t.Integrity := by
  have hcall : s.tk.handleTimeout r.key =
      some (some ⟨.timeout, value⟩, { s.tk with store := s.tk.store.erase r.key }) := by
    rw [Tracker.handleTimeout, Tracker.delete_of_lookup hu hl]
    rfl
  refine ⟨s.handleTimeout seq r, ?_, fun hi => ?_⟩
  · simp only [step, halive, Bool.false_eq_true, if_false, hr, Option.bind_some, htimeout, if_true]
  · simp only [handleTimeout, hcall] at hi
    have hown := hi.own ⟨⟨.timeout, value⟩, some seq⟩ (List.mem_append_right _ (by simp)) rfl
    exact hne (Option.some.inj hown).symm

theorem stolen_of_send {receipt : TCPSYNSentReceipt} (h : s.Inv)
    (hst : s.step (.send receipt) = some t) (hok : ¬ keysFree s (.send receipt)) :
    ∃ seq u, t.step (.handleTimeout seq) = some u ∧ ¬ u.Integrity := by
  obtain ⟨halive, hst⟩ := Option.ite_none_left_eq_some.1 hst
  simp only [keysFree, not_forall] at hok
  obtain ⟨key, hkey, hcomparable, seq, r, hr, hk, htimeout⟩ := hok
  have hmark : s.tk.markSent key receipt = some
      ⟨s.tk.store.insert key { receipt with seq := s.tk.counter }, s.tk.counter + 1⟩ :=
    if_pos hcomparable
  simp only [send, hkey, hmark] at hst
  obtain ⟨_, hst⟩ := Option.ite_none_left_eq_some.1 hst
  cases hst
  have hne : seq ≠ s.tk.counter := fun he => by
    have hlt := h.fresh seq r hr
    omega
  have hl : (s.tk.store.insert key { receipt with seq := s.tk.counter }).lookup r.key =
      some { receipt with seq := s.tk.counter } :=
    (Store.lookup_insert_eq _ _ _ _).trans (if_pos hk)
  refine ⟨seq, steals (r := r) (Bool.eq_false_iff.2 halive) ?_ (by simpa using htimeout)
    (Tracker.uniform_of_markSent hmark) hl (Ne.symm hne)⟩
  rw [lookup_setReceipt, if_neg hne]
  exact hr

/-- A packet that is not written has no event, and nobody is left to make one. -/
theorem lost_of_write {err : String} (h : s.Inv) (hst : s.step (.write seq (some err)) = some t)
    (hok : ¬ keysFree s (.write seq (some err))) : ¬ t.Integrity := by
  obtain ⟨_, hst⟩ := Option.ite_none_left_eq_some.1 hst
  obtain ⟨r, r', hr, hf, rfl⟩ := onReceipt_eq_some hst
  obtain ⟨hpc, hf⟩ := Option.ite_none_right_eq_some.1 hf
  cases hf
  have hreceived : ¬ r.receivedC = true := fun hreceived =>
    hok fun r' hr' => by cases hr.symm.trans hr'; exact hreceived
  have htracked := h.tracked seq r hr
  have hstored : s.Stored seq r := by
    by_contra hst
    exact hreceived ((htracked.sent hst).2 hpc)
  have htimeout : r.timeoutC = false :=
    Bool.eq_false_iff.2 fun ht => h.fired seq r hr ht hpc
  intro hi
  have hone := hi.finished seq _ ((lookup_setReceipt _ _ _ _).trans (if_pos rfl)) ⟨.inr rfl, htimeout⟩
  have hnil : (s.eventsOf seq).length = 0 := by rw [(htracked.toCome hstored).1]; rfl
  exact absurd (hnil.symm.trans hone) (by decide)

/-- The events are those of their packets exactly as long as no packet gets a key for which
a timeout is on its way, and none fails to be written. -/
theorem integrity_guards (config : TrackerConfig) :
    (system config).Guards keysFree Integrity := by
  refine ⟨fun s hs => (inv_of_reachable hs).integrity, fun s a t hs hst hok => ?_⟩
  have h := inv_of_reachable hs
  cases a with
  | send receipt =>
    obtain ⟨seq, u, hu, hnot⟩ := stolen_of_send h hst hok
    have hnext : (system config).step t (.handleTimeout seq) = some u := hu
    exact ⟨u, .head hnext trivial .refl, hnot⟩
  | write seq err =>
    cases err with
    | none => exact absurd trivial hok
    | some err => exact ⟨t, .refl, lost_of_write h hst hok⟩
  | timerFires | takeReply | close | handleTimeout | markReceived => exact absurd trivial hok

/-- Two packets from one port: the second is marked sent when the timer of the first has
fired, and before `handleTimeout` is served for it. -/
theorem stolen_by_timeout : ¬ ∀ s, (system {}).Reachable .any s → s.Integrity := by
  intro h
  let receipt : TCPSYNSentReceipt :=
    ⟨0, [192, 0, 2, 1], 40000, ⟨[192, 0, 2, 2], 443, 1000000000⟩, none⟩
  obtain ⟨s, hs, hp⟩ := System.exists_of_replay (system {}) .any
    (fun s => s.events.any fun e => e.event.type = .timeout ∧ e.timer ≠ some e.event.details.seq)
    [.send receipt, .write 0 none, .timerFires 0, .close 0, .send receipt, .handleTimeout 0]
    (by decide +kernel)
  obtain ⟨e, he, hp⟩ := List.any_eq_true.1 hp
  obtain ⟨htype, hne⟩ := of_decide_eq_true hp
  exact hne ((h s hs).own e he htype)

end ReceiptRun

end CloudPing.Tcping
