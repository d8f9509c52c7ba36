import CloudPing.Conc.Store
import CloudPing.Raw.Types

/-!
# The ICMP tracker's store

`ICMPTracker` keeps one entry per packet sent.  Each of its operations hands a function to
the goroutine of `Run`, which executes these functions one at a time.  This module has
those functions, as pure functions of the tracker.  `TrackerRun` has the goroutines.

An entry with an empty `receivedAt` is outstanding.  It is acknowledged by its first reply
or by its timeout, and each acknowledgement raises `ackedSeq` by one.  A reply adds one
element to each of four lists of its entry (`raw`, `receivedAt`, `rttNanoSecs`,
`rttMilliSecs`) and yields a copy of the entry as the event to deliver.  A timeout yields
a copy with an empty `receivedAt`.

The lemmas after each function say what it can do, and later modules use only these.
-/

namespace CloudPing.Raw

open Conc

/-! ## Entries -/

/-- What the tracker knows of one packet. -/
structure ICMPTrackerEntry where
  seq : Int
  ttl : Int
  originDstAddr : Option IPAddr
  rttNanoSecs : List Int := []
  rttMilliSecs : List Int := []
  sentAt : Time
  receivedAt : List Time := []
  /-- Whether `Timer` is set: it is from `MarkSent` to the first reply. -/
  timer : Bool
  raw : List ICMPReceiveReply := []
  deriving DecidableEq, Repr

namespace ICMPTrackerEntry

def foundLastHop (itEnt : ICMPTrackerEntry) : Bool := itEnt.raw.any (·.lastHop)

/-- The last positive MTU a reply asks for. -/
def getPMTU (itEnt : ICMPTrackerEntry) : Option Int :=
  itEnt.raw.foldl
    (fun pmtu reply =>
      match reply.setMTUTo with
      | some m => if 0 < m then some m else pmtu
      | none => pmtu)
    none

def readonlyClone (itEnt : ICMPTrackerEntry) : ICMPTrackerEntry := { itEnt with timer := false }

def hasReceived (itEnt : ICMPTrackerEntry) : Bool := 0 < itEnt.receivedAt.length

def hasDup (itEnt : ICMPTrackerEntry) : Bool := 1 < itEnt.receivedAt.length

/-- The packet was neither answered nor timed out. -/
def outstanding (itEnt : ICMPTrackerEntry) : Bool := itEnt.receivedAt.isEmpty

/-- The four lists of an entry grow together. -/
def Even (itEnt : ICMPTrackerEntry) : Prop :=
  itEnt.raw.length = itEnt.receivedAt.length ∧
    itEnt.rttNanoSecs.length = itEnt.receivedAt.length ∧
    itEnt.rttMilliSecs.length = itEnt.receivedAt.length

/-- The entry after one more reply.  The three readings are those of the three calls of
the clock: one for `ReceivedAt`, one for each of the two round trip times. -/
def addReply (itEnt : ICMPTrackerEntry) (raw : ICMPReceiveReply) (now sinceNs sinceMs : Time) :
    ICMPTrackerEntry :=
  { itEnt with
    timer := false
    raw := itEnt.raw ++ [raw]
    receivedAt := itEnt.receivedAt ++ [now]
    rttNanoSecs := itEnt.rttNanoSecs ++ [sinceNs - itEnt.sentAt]
    rttMilliSecs := itEnt.rttMilliSecs ++ [Duration.milliseconds (sinceMs - itEnt.sentAt)] }

@[simp] theorem readonlyClone_seq (e : ICMPTrackerEntry) : e.readonlyClone.seq = e.seq := rfl

section

variable (e : ICMPTrackerEntry) (r : ICMPReceiveReply) (t₁ t₂ t₃ : Time)

theorem addReply_receivedAt : (e.addReply r t₁ t₂ t₃).receivedAt ≠ [] := by
  simp [addReply]

theorem addReply_outstanding : (e.addReply r t₁ t₂ t₃).outstanding = false := by
  simp [addReply, outstanding]

theorem Even.addReply {e : ICMPTrackerEntry} (h : e.Even) : (e.addReply r t₁ t₂ t₃).Even := by
  obtain ⟨h₁, h₂, h₃⟩ := h
  simp [Even, ICMPTrackerEntry.addReply, h₁, h₂, h₃]

end

/-- In an even entry no reply was stored exactly when none was received. -/
theorem Even.raw_eq_nil {e : ICMPTrackerEntry} (h : e.Even) : e.raw = [] ↔ e.receivedAt = [] := by
  rw [← List.length_eq_zero_iff, ← List.length_eq_zero_iff, h.1]

end ICMPTrackerEntry

/-! ## The tracker -/

/-- The part of the tracker the functions below work on. -/
structure ICMPTracker where
  store : Store Int ICMPTrackerEntry
  pktTimeout : Duration
  ackedSeq : Nat
  closed : Bool

namespace ICMPTracker

/-- `NewICMPTracker`. -/
def new (pktTimeout : Duration) : ICMPTracker := ⟨∅, pktTimeout, 0, false⟩

/-- The error every operation returns once the tracker is closed. -/
def engineIsClosed : String := "engine is closed"

/-- The entry `MarkSent` stores. -/
def sentEntry (seq ttl : Int) (dst : Option IPAddr) (now : Time) : ICMPTrackerEntry :=
  { seq := seq, ttl := ttl, originDstAddr := dst, sentAt := now, timer := true }

/-- The function of `MarkSent`. -/
def markSent (it : ICMPTracker) (seq ttl : Int) (dst : Option IPAddr) (now : Time) :
    Except String ICMPTracker :=
  if it.closed then .error engineIsClosed
  else .ok { it with store := it.store.insert seq (sentEntry seq ttl dst now) }

/-- The function of `MarkReceived`: the tracker and the event to deliver, if the packet is
stored. -/
def markReceived (it : ICMPTracker) (seq : Int) (raw : ICMPReceiveReply)
    (now sinceNs sinceMs : Time) : Except String (ICMPTracker × Option ICMPTrackerEntry) :=
  if it.closed then .error engineIsClosed
  else
    match it.store.lookup seq with
    | none => .ok (it, none)
    | some ent =>
      let ent' := ent.addReply raw now sinceNs sinceMs
      let acked := if ent.raw.isEmpty then it.ackedSeq + 1 else it.ackedSeq
      .ok ({ it with store := it.store.insert seq ent', ackedSeq := acked },
        some ent'.readonlyClone)

/-- The function of `handleTimeout` up to the send on `RecvEvC`: the tracker and the event
to send, if the packet is outstanding.  After the send it deletes the entry (`forget`). -/
def handleTimeout (it : ICMPTracker) (seq : Int) :
    Except String (ICMPTracker × Option ICMPTrackerEntry) :=
  if it.closed then .error engineIsClosed
  else
    match it.store.lookup seq with
    | none => .ok (it, none)
    | some ent =>
      if ent.receivedAt.isEmpty then
        .ok ({ it with ackedSeq := it.ackedSeq + 1 }, some ent.readonlyClone)
      else .ok (it, none)

/-- `delete(it.store, seq)`: all of `cleanupEntry`, and the end of `handleTimeout`. -/
def forget (it : ICMPTracker) (seq : Int) : ICMPTracker := { it with store := it.store.erase seq }

/-- The function of `GetUnAcked`. -/
def getUnAcked (it : ICMPTracker) : Nat := Store.count ICMPTrackerEntry.outstanding it.store

/-- The function of `GetAckedSeq`. -/
def getAckedSeq (it : ICMPTracker) : Nat := it.ackedSeq

/-- The function of `ForgetAllAndClose`.  It also stops the timers of all entries. -/
def forgetAll (it : ICMPTracker) : ICMPTracker := { it with closed := true }

/-! ## What the functions can do -/

@[simp] theorem forget_store (it : ICMPTracker) (q : Int) :
    (it.forget q).store = it.store.erase q := rfl

theorem sentEntry_outstanding (q ttl : Int) (dst : Option IPAddr) (now : Time) :
    (sentEntry q ttl dst now).outstanding = true := rfl

theorem sentEntry_even (q ttl : Int) (dst : Option IPAddr) (now : Time) :
    (sentEntry q ttl dst now).Even := ⟨rfl, rfl, rfl⟩

variable {it it' : ICMPTracker} {q ttl : Int} {dst : Option IPAddr} {r : ICMPReceiveReply}
  {t₁ t₂ t₃ : Time} {ev : ICMPTrackerEntry} {oev : Option ICMPTrackerEntry}

theorem markSent_ok (h : it.markSent q ttl dst t₁ = .ok it') :
    it.closed = false ∧ it' = { it with store := it.store.insert q (sentEntry q ttl dst t₁) } := by
  unfold markSent at h
  split at h
  next => cases h
  next hc => cases h; exact ⟨by simpa using hc, rfl⟩

/-- A reply changes nothing, or it is for a stored packet and adds to its entry. -/
theorem markReceived_ok (h : it.markReceived q r t₁ t₂ t₃ = .ok (it', oev)) :
    it.closed = false ∧
      ((it.store.lookup q = none ∧ it' = it ∧ oev = none) ∨
        ∃ ent, it.store.lookup q = some ent ∧ oev = some (ent.addReply r t₁ t₂ t₃).readonlyClone ∧
          it' = { it with
            store := it.store.insert q (ent.addReply r t₁ t₂ t₃)
            ackedSeq := if ent.raw.isEmpty then it.ackedSeq + 1 else it.ackedSeq }) := by
  unfold markReceived at h
  split at h
  next => cases h
  next hc =>
    refine ⟨by simpa using hc, ?_⟩
    split at h
    next hl => cases h; exact Or.inl ⟨hl, rfl, rfl⟩
    next ent hl => cases h; exact Or.inr ⟨ent, hl, rfl, rfl⟩

/-- A timeout yields an event exactly for a stored outstanding packet. -/
theorem handleTimeout_ok (h : it.handleTimeout q = .ok (it', oev)) :
    it.closed = false ∧
      ((oev = none ∧ it' = it ∧ ∀ ent, it.store.lookup q = some ent → ent.outstanding = false) ∨
        ∃ ent, it.store.lookup q = some ent ∧ ent.outstanding = true ∧
          oev = some ent.readonlyClone ∧ it' = { it with ackedSeq := it.ackedSeq + 1 }) := by
  unfold handleTimeout at h
  split at h
  next => cases h
  next hc =>
    refine ⟨by simpa using hc, ?_⟩
    split at h
    next hl =>
      cases h
      refine Or.inl ⟨rfl, rfl, fun ent he => ?_⟩
      rw [hl] at he
      cases he
    next ent hl =>
      split at h
      next ho => cases h; exact Or.inr ⟨ent, hl, ho, rfl, rfl⟩
      next ho =>
        cases h
        refine Or.inl ⟨rfl, rfl, fun ent' he => ?_⟩
        rw [hl] at he
        cases he
        simpa [ICMPTrackerEntry.outstanding] using ho

/-- A fresh packet is one more outstanding packet. -/
theorem getUnAcked_sent (hfresh : it.store.lookup q = none) :
    getUnAcked { it with store := it.store.insert q (sentEntry q ttl dst t₁) } =
      it.getUnAcked + 1 := by
  simp only [getUnAcked]
  rw [Store.count_insert_fresh hfresh,
    Store.weight_of_true (sentEntry_outstanding q ttl dst t₁)]

variable (r t₁ t₂ t₃) in
/-- The first reply of a packet makes one packet less outstanding, a later one none. -/
theorem getUnAcked_reply {ent : ICMPTrackerEntry} (acked : Nat)
    (hl : it.store.lookup q = some ent) :
    getUnAcked { it with store := it.store.insert q (ent.addReply r t₁ t₂ t₃), ackedSeq := acked } +
      (if ent.outstanding then 1 else 0) = it.getUnAcked := by
  have h := Store.count_replace (p := ICMPTrackerEntry.outstanding) (ent.addReply r t₁ t₂ t₃) hl
  rw [Store.weight_of_false (ent.addReply_outstanding r t₁ t₂ t₃)] at h
  simpa [getUnAcked, Store.weight] using h

/-- Deleting an outstanding entry makes one packet less outstanding, any other none. -/
theorem getUnAcked_forget {ent : ICMPTrackerEntry} (hl : it.store.lookup q = some ent) :
    (it.forget q).getUnAcked + (if ent.outstanding then 1 else 0) = it.getUnAcked := by
  have h := Store.count_erase (p := ICMPTrackerEntry.outstanding) hl
  simpa [getUnAcked, Store.weight] using h.symm

theorem forget_of_lookup_none (hl : it.store.lookup q = none) : it.forget q = it := by
  simp [forget, Store.erase_of_lookup_none hl]

end ICMPTracker

end CloudPing.Raw
