import CloudPing.Conc.SlidingLog
import CloudPing.Conc.System
import CloudPing.Raw.Types
import Mathlib.Algebra.Order.Group.Int
import Mathlib.Logic.Function.Basic

/-!
# The sliding window limiter

`SlidingWindowRateLimitPool` maps each key to a cell, an atomic pointer to an immutable
entry with the timestamps of the calls it admitted.  `Consume` takes the cell of its key
(`LoadOrStore`) and then repeats: load the pointer, let `TryAppend` read the clock and
build a pruned entry with one more timestamp, and install it with `CompareAndSwap`.  It
starts again when the swap loses a race.

The system of this module has any number of calls for any number of keys, one action per
atomic step, and a clock that does not go back.  A pointer is the address of an entry:
which call allocated it, and as which of its entries.  The swap compares addresses.  An
entry never changes once it is allocated, so an equal address means equal timestamps, and
the proofs need nothing about the reuse of addresses.

The ghost field `accepted` records each call that returned `true` with its timestamp, in
the order of the swaps.  The invariant relates the pruned timestamps of a cell to this
history by `SlidingLog.Keeps`.
-/

namespace CloudPing.Ratelimit

open Conc
open Conc.SlidingLog

/-! ## Entries -/

/-- One timestamp per request. -/
structure SlidingWindowRateLimitEntry where
  requestTimestamps : List Time
  deriving DecidableEq, Repr

namespace SlidingWindowRateLimitEntry

/-- `none` when the limit is exceeded, and else a new entry with the timestamp inserted.
The receiver may be nil. -/
def tryAppend (swRLEnt : Option SlidingWindowRateLimitEntry) (windowLength : Duration)
    (numRequestsLimit : Int) (now : Time) : Option SlidingWindowRateLimitEntry :=
  match swRLEnt with
  | none => some { requestTimestamps := [now] }
  | some ent =>
    let since := now - windowLength
    match ent.requestTimestamps.findIdx? (fun tx => !decide (tx < since)) with
    | none => some { requestTimestamps := [now] }
    | some firstInWindowTimestampIdx =>
      let numRequests := ent.requestTimestamps.length - firstInWindowTimestampIdx
      if numRequestsLimit ≤ (numRequests : Int) then none
      else
        some { requestTimestamps :=
          ent.requestTimestamps.drop firstInWindowTimestampIdx ++ [now] }

/-- The timestamps of an entry, none for nil. -/
def timestamps : Option SlidingWindowRateLimitEntry → List Time
  | none => []
  | some ent => ent.requestTimestamps

variable {ent : Option SlidingWindowRateLimitEntry} {W : Duration} {L : Int} {now : Time}

/-- On ordered timestamps: rejected when the recent ones reach the limit, and else the
recent ones and `now`. -/
theorem tryAppend_eq (hL : 0 < L) (hs : (timestamps ent).Pairwise (· ≤ ·)) :
    tryAppend ent W L now =
      if L ≤ ((recent W now (timestamps ent)).length : Int) then none
      else some { requestTimestamps := recent W now (timestamps ent) ++ [now] } := by
  cases ent with
  | none =>
    have hnil : recent W now (timestamps none) = [] := rfl
    have hroom : ¬ L ≤ ((recent W now (timestamps none)).length : Int) := by
      simpa [hnil] using hL
    rw [if_neg hroom, hnil]
    rfl
  | some ent =>
    have hs' : ent.requestTimestamps.Pairwise (· ≤ ·) := hs
    cases h : ent.requestTimestamps.findIdx? (fun tx => !decide (tx < now - W)) with
    | none =>
      have hnil : recent W now (timestamps (some ent)) = [] := recent_eq_nil_of_findIdx? h
      have hroom : ¬ L ≤ ((recent W now (timestamps (some ent))).length : Int) := by
        simpa [hnil] using hL
      rw [if_neg hroom, hnil]
      simp only [tryAppend, h, List.nil_append]
    | some i =>
      have hdrop : ent.requestTimestamps.drop i = recent W now (timestamps (some ent)) :=
        drop_findIdx?_eq_recent hs' h
      simp only [tryAppend, h, ← hdrop, List.length_drop]

end SlidingWindowRateLimitEntry

open SlidingWindowRateLimitEntry

/-! ## The pool -/

/-- `SlidingWindowRateLimitPool` without its map.  The bounds are those the constructor
checks. -/
structure SlidingWindowRateLimitPool where
  windowLength : Duration
  numRequestsLimit : Int
  /-- The window is not empty. -/
  window_pos : 0 < windowLength
  /-- At least one request is admitted. -/
  limit_pos : 0 < numRequestsLimit

/-- `NewSlidingWindowRateLimitPool`, with the texts of its errors before the value. -/
def newSlidingWindowRateLimitPool (windowLength : Duration) (numRequestsLimit : Int) :
    Except String SlidingWindowRateLimitPool :=
  if hw : windowLength ≤ 0 then .error "invalid window length: "
  else if hl : numRequestsLimit ≤ 0 then .error "invalid num requests limit: "
  else .ok ⟨windowLength, numRequestsLimit, Int.not_le.1 hw, Int.not_le.1 hl⟩

/-- A call of `Consume`: its key and which of the calls with this key it is. -/
structure CallId where
  key : String
  n : Nat
  deriving DecidableEq, Repr

/-- A pointer to an entry: the call that allocated it and its place among the entries of
that call. -/
structure EntryPtr where
  call : CallId
  idx : Nat
  deriving DecidableEq, Repr

/-- Where a call is.  A cell is named by the call that allocated it. -/
inductive ConsumeState where
  | notCalled
  /-- Before `Load` on the cell. -/
  | loading (cell : CallId)
  /-- Before `TryAppend` on what was loaded. -/
  | appending (cell : CallId) (originStore : Option EntryPtr)
  /-- Before `CompareAndSwap`. -/
  | swapping (cell : CallId) (originStore : Option EntryPtr) (newStore : EntryPtr) (now : Time)
  /-- Returned, with the clock reading of the last `TryAppend`. -/
  | returned (ok : Bool) (now : Time)
  deriving DecidableEq, Repr

/-- The pool, its calls and the clock. -/
structure PoolRun where
  now : Time
  /-- The map from keys to cells. -/
  requestTimestamps : String → Option CallId := fun _ => none
  /-- What the pointer of each cell points to. -/
  pointers : CallId → Option EntryPtr := fun _ => none
  /-- The entries each call allocated. -/
  heap : CallId → List SlidingWindowRateLimitEntry := fun _ => []
  calls : CallId → ConsumeState := fun _ => .notCalled
  /-- The calls that returned `true`, with their timestamps. -/
  accepted : List (CallId × Time) := []

/-- The atomic steps. -/
inductive PoolAction where
  /-- Time passes. -/
  | tick (d : Nat)
  | loadOrStore (c : CallId)
  | load (c : CallId)
  | tryAppend (c : CallId)
  | compareAndSwap (c : CallId)
  deriving DecidableEq, Repr

namespace PoolRun

/-- The entry at an address. -/
def deref (s : PoolRun) (p : EntryPtr) : Option SlidingWindowRateLimitEntry :=
  (s.heap p.call)[p.idx]?

/-- What `Load` returned, as `TryAppend` sees it. -/
def entryOf (s : PoolRun) (p : Option EntryPtr) : Option SlidingWindowRateLimitEntry :=
  p.bind s.deref

def goto (s : PoolRun) (c : CallId) (st : ConsumeState) : PoolRun :=
  { s with calls := Function.update s.calls c st }

/-- `new` of an entry by a call. -/
def alloc (s : PoolRun) (c : CallId) (ent : SlidingWindowRateLimitEntry) : PoolRun :=
  { s with heap := Function.update s.heap c (s.heap c ++ [ent]) }

/-- `LoadOrStore` of a key without a cell: it gets the new cell of the call. -/
def addCell (s : PoolRun) (c : CallId) : PoolRun :=
  { s with
    requestTimestamps := Function.update s.requestTimestamps c.key (some c)
    pointers := Function.update s.pointers c none }

/-- A swap that succeeds: the cell points to the new entry and the call is accepted. -/
def install (s : PoolRun) (c cell : CallId) (newStore : EntryPtr) (now : Time) : PoolRun :=
  { s with
    pointers := Function.update s.pointers cell (some newStore)
    accepted := s.accepted ++ [(c, now)] }.goto c (.returned true now)

/-- One atomic step of the pool. -/
def step (pool : SlidingWindowRateLimitPool) (s : PoolRun) : PoolAction → Option PoolRun
  | .tick d => some { s with now := s.now + d }
  | .loadOrStore c =>
    match s.calls c with
    | .notCalled =>
      match s.requestTimestamps c.key with
      | some cell => some (s.goto c (.loading cell))
      | none => some ((s.addCell c).goto c (.loading c))
    | _ => none
  | .load c =>
    match s.calls c with
    | .loading cell => some (s.goto c (.appending cell (s.pointers cell)))
    | _ => none
  | .tryAppend c =>
    match s.calls c with
    | .appending cell originStore =>
      match SlidingWindowRateLimitEntry.tryAppend (s.entryOf originStore) pool.windowLength
          pool.numRequestsLimit s.now with
      | none => some (s.goto c (.returned false s.now))
      | some ent =>
        some ((s.alloc c ent).goto c
          (.swapping cell originStore ⟨c, (s.heap c).length⟩ s.now))
    | _ => none
  | .compareAndSwap c =>
    match s.calls c with
    | .swapping cell originStore newStore now =>
      if s.pointers cell = originStore then some (s.install c cell newStore now)
      else some (s.goto c (.loading cell))
    | _ => none

/-- The pool with a clock that starts at `start`. -/
def system (pool : SlidingWindowRateLimitPool) (start : Time) : System PoolRun PoolAction where
  init := { now := start }
  step := step pool

/-- The timestamps of the accepted calls of a key, in the order of the swaps. -/
def acceptedOf (s : PoolRun) (k : String) : List Time :=
  (s.accepted.filter fun p => p.1.key = k).map Prod.snd

/-- The timestamps the pool stores for a key. -/
def stored (s : PoolRun) (k : String) : List Time :=
  timestamps ((s.requestTimestamps k).bind fun cell => s.entryOf (s.pointers cell))

variable {pool : SlidingWindowRateLimitPool} {s t : PoolRun} {a : PoolAction} {c : CallId}
variable {k : String} {p : EntryPtr} {cell : CallId} {ent : SlidingWindowRateLimitEntry}

@[simp] theorem goto_requestTimestamps (s : PoolRun) (c st) :
    (s.goto c st).requestTimestamps = s.requestTimestamps := rfl
@[simp] theorem goto_pointers (s : PoolRun) (c st) : (s.goto c st).pointers = s.pointers := rfl
@[simp] theorem goto_accepted (s : PoolRun) (c st) : (s.goto c st).accepted = s.accepted := rfl
@[simp] theorem goto_calls (s : PoolRun) (c st) :
    (s.goto c st).calls = Function.update s.calls c st := rfl

@[simp] theorem alloc_heap (s : PoolRun) (c ent) :
    (s.alloc c ent).heap = Function.update s.heap c (s.heap c ++ [ent]) := rfl

theorem system_step (pool : SlidingWindowRateLimitPool) (start : Time) :
    (system pool start).step = step pool := rfl

/-! ## What a step can do -/

theorem loadOrStore_cases (h : step pool s (.loadOrStore c) = some t) :
    s.calls c = .notCalled ∧
      ((∃ cell, s.requestTimestamps c.key = some cell ∧ t = s.goto c (.loading cell)) ∨
        (s.requestTimestamps c.key = none ∧ t = (s.addCell c).goto c (.loading c))) := by
  simp only [step] at h
  split at h
  next hc =>
    split at h
    next cell hm => exact ⟨hc, .inl ⟨cell, hm, (Option.some.inj h).symm⟩⟩
    next hm => exact ⟨hc, .inr ⟨hm, (Option.some.inj h).symm⟩⟩
  next => cases h

theorem load_cases (h : step pool s (.load c) = some t) :
    ∃ cell, s.calls c = .loading cell ∧ t = s.goto c (.appending cell (s.pointers cell)) := by
  simp only [step] at h
  split at h
  next cell hc => exact ⟨cell, hc, (Option.some.inj h).symm⟩
  next => cases h

theorem tryAppend_cases (h : step pool s (.tryAppend c) = some t) :
    ∃ cell originStore, s.calls c = .appending cell originStore ∧
      ((SlidingWindowRateLimitEntry.tryAppend (s.entryOf originStore) pool.windowLength
            pool.numRequestsLimit s.now = none ∧ t = s.goto c (.returned false s.now)) ∨
        ∃ ent, SlidingWindowRateLimitEntry.tryAppend (s.entryOf originStore) pool.windowLength
            pool.numRequestsLimit s.now = some ent ∧
          t = (s.alloc c ent).goto c
            (.swapping cell originStore ⟨c, (s.heap c).length⟩ s.now)) := by
  simp only [step] at h
  split at h
  next cell originStore hc =>
    refine ⟨cell, originStore, hc, ?_⟩
    split at h
    next ht => exact .inl ⟨ht, (Option.some.inj h).symm⟩
    next ent ht => exact .inr ⟨ent, ht, (Option.some.inj h).symm⟩
  next => cases h

theorem compareAndSwap_cases (h : step pool s (.compareAndSwap c) = some t) :
    ∃ cell originStore newStore now, s.calls c = .swapping cell originStore newStore now ∧
      ((s.pointers cell = originStore ∧ t = s.install c cell newStore now) ∨
        (s.pointers cell ≠ originStore ∧ t = s.goto c (.loading cell))) := by
  simp only [step] at h
  split at h
  next cell originStore newStore now hc =>
    refine ⟨cell, originStore, newStore, now, hc, ?_⟩
    split at h
    next hp => exact .inl ⟨hp, (Option.some.inj h).symm⟩
    next hp => exact .inr ⟨hp, (Option.some.inj h).symm⟩
  next => cases h

/-! ## What no step takes back -/

/-- `t` has all that `s` has: time, cells, entries and accepted calls only grow. -/
structure Extends (s t : PoolRun) : Prop where
  now_le : s.now ≤ t.now
  cells : ∀ k cell, s.requestTimestamps k = some cell → t.requestTimestamps k = some cell
  heap : ∀ c, s.heap c <+: t.heap c
  accepted : s.accepted <+: t.accepted

theorem Extends.goto (s : PoolRun) (c : CallId) (st : ConsumeState) : Extends s (s.goto c st) :=
  ⟨le_rfl, fun _ _ h => h, fun _ => List.prefix_rfl, List.prefix_rfl⟩

theorem Extends.acceptedOf (h : Extends s t) (k : String) : s.acceptedOf k <+: t.acceptedOf k :=
  (h.accepted.filter _).map _

theorem heap_alloc_prefix (s : PoolRun) (c c' : CallId) (ent : SlidingWindowRateLimitEntry) :
    s.heap c' <+: (s.alloc c ent).heap c' := by
  rw [alloc_heap, Function.update_apply]
  split
  next h => subst h; exact List.prefix_append _ _
  next => exact List.prefix_rfl

/-- An action of the pool extends it. -/
theorem extends_of_step (h : step pool s a = some t) : Extends s t := by
  cases a with
  | tick d =>
    cases h
    exact ⟨Int.le_add_of_nonneg_right (Int.natCast_nonneg d), fun _ _ h => h,
      fun _ => List.prefix_rfl, List.prefix_rfl⟩
  | loadOrStore c =>
    obtain ⟨_, ⟨cell, _, rfl⟩ | ⟨hm, rfl⟩⟩ := loadOrStore_cases h
    · exact Extends.goto s c _
    · refine ⟨le_rfl, fun k cell hk => ?_, fun _ => List.prefix_rfl, List.prefix_rfl⟩
      have hne : k ≠ c.key := by rintro rfl; rw [hm] at hk; cases hk
      exact (Function.update_of_ne hne _ _).trans hk
  | load c =>
    obtain ⟨cell, _, rfl⟩ := load_cases h
    exact Extends.goto s c _
  | tryAppend c =>
    obtain ⟨cell, origin, _, ⟨_, rfl⟩ | ⟨ent, _, rfl⟩⟩ := tryAppend_cases h
    · exact Extends.goto s c _
    · exact ⟨le_rfl, fun _ _ h => h, fun c' => heap_alloc_prefix s c c' ent, List.prefix_rfl⟩
  | compareAndSwap c =>
    obtain ⟨cell, origin, new, now, _, ⟨_, rfl⟩ | ⟨_, rfl⟩⟩ := compareAndSwap_cases h
    · exact ⟨le_rfl, fun _ _ h => h, fun _ => List.prefix_rfl, List.prefix_append _ _⟩
    · exact Extends.goto s c _

/-! ## Pointers -/

/-- The pointer is nil or the address of an allocated entry of a call with this key. -/
def Valid (s : PoolRun) (k : String) (p : Option EntryPtr) : Prop :=
  ∀ q, p = some q → q.call.key = k ∧ q.idx < (s.heap q.call).length

theorem Valid.none (s : PoolRun) (k : String) : s.Valid k none := by
  intro q h
  cases h

theorem Valid.extends {p : Option EntryPtr} (h : s.Valid k p) (he : Extends s t) :
    t.Valid k p := by
  intro q hq
  obtain ⟨hk, hi⟩ := h q hq
  exact ⟨hk, hi.trans_le (he.heap q.call).length_le⟩

/-- What a valid pointer points to never changes. -/
theorem Valid.entryOf_eq {p : Option EntryPtr} (h : s.Valid k p) (he : Extends s t) :
    t.entryOf p = s.entryOf p := by
  cases p with
  | none => rfl
  | some q =>
    obtain ⟨_, hi⟩ := h q rfl
    obtain ⟨l, hl⟩ := he.heap q.call
    simp only [entryOf, Option.bind_some, deref, ← hl]
    exact List.getElem?_append_left hi

theorem valid_alloc (s : PoolRun) (c : CallId) (ent : SlidingWindowRateLimitEntry) :
    (s.alloc c ent).Valid c.key (some ⟨c, (s.heap c).length⟩) := by
  rintro q ⟨⟩
  simp

theorem entryOf_alloc (s : PoolRun) (c : CallId) (ent : SlidingWindowRateLimitEntry) :
    (s.alloc c ent).entryOf (some ⟨c, (s.heap c).length⟩) = some ent := by
  simp [entryOf, deref]

/-! ## The invariant -/

/-- What `TryAppend` at `now` makes of the timestamps it was given. -/
structure Appended (pool : SlidingWindowRateLimitPool) (base next : List Time) (now : Time) :
    Prop where
  base_le : ∀ x ∈ base, x ≤ now
  next_eq : next = recent pool.windowLength now base ++ [now]
  room : ((recent pool.windowLength now base).length : Int) < pool.numRequestsLimit

/-- A history that the base was kept from stays ordered and limited with one more call, and
what `TryAppend` made is kept from it. -/
theorem Appended.accept {base next log : List Time} {now : Time}
    (h : Appended pool base next now) (hs : log.Pairwise (· ≤ ·))
    (hk : Keeps pool.windowLength base log)
    (hl : Limited pool.windowLength pool.numRequestsLimit.toNat log) :
    Keeps pool.windowLength next (log ++ [now]) ∧ (log ++ [now]).Pairwise (· ≤ ·) ∧
      Limited pool.windowLength pool.numRequestsLimit.toNat (log ++ [now]) := by
  have hle : ∀ x ∈ log, x ≤ now := hk.le pool.window_pos.le h.base_le
  have hroom : within pool.windowLength now log < pool.numRequestsLimit.toNat := by
    rw [within_eq_length_recent hle, hk.recent_eq h.base_le]
    have := h.room
    omega
  refine ⟨?_, ?_, hl.concat hle hroom⟩
  · rw [h.next_eq]
    exact hk.concat (hs.sublist hk.suffix.sublist) h.base_le
  · rw [List.pairwise_append]
    exact ⟨hs, List.pairwise_singleton _ _, fun x hx y hy => List.mem_singleton.1 hy ▸ hle x hx⟩

/-- What holds of a call by where it is. -/
def CallOk (pool : SlidingWindowRateLimitPool) (s : PoolRun) (c : CallId) : ConsumeState → Prop
  | .notCalled => True
  | .loading cell => s.requestTimestamps c.key = some cell
  | .appending cell originStore =>
    s.requestTimestamps c.key = some cell ∧ s.Valid c.key originStore ∧
      timestamps (s.entryOf originStore) <:+: s.acceptedOf c.key
  | .swapping cell originStore newStore now =>
    s.requestTimestamps c.key = some cell ∧ s.Valid c.key originStore ∧
      s.Valid c.key (some newStore) ∧ now ≤ s.now ∧
      Appended pool (timestamps (s.entryOf originStore))
        (timestamps (s.entryOf (some newStore))) now
  | .returned false now =>
    pool.numRequestsLimit ≤ (within pool.windowLength now (s.acceptedOf c.key) : Int)
  | .returned true now => (c, now) ∈ s.accepted

theorem CallOk.extends {st : ConsumeState} (h : CallOk pool s c st) (he : Extends s t) :
    CallOk pool t c st := by
  cases st with
  | notCalled => trivial
  | loading cell => exact he.cells _ _ h
  | appending cell originStore =>
    obtain ⟨hm, hv, hin⟩ := h
    refine ⟨he.cells _ _ hm, hv.extends he, ?_⟩
    rw [hv.entryOf_eq he]
    exact hin.trans (he.acceptedOf c.key).isInfix
  | swapping cell originStore newStore now =>
    obtain ⟨hm, hv, hn, hle, happ⟩ := h
    refine ⟨he.cells _ _ hm, hv.extends he, hn.extends he, hle.trans he.now_le, ?_⟩
    rw [hv.entryOf_eq he, hn.entryOf_eq he]
    exact happ
  | returned ok now =>
    cases ok with
    | true => exact he.accepted.subset h
    | false =>
      have hle := within_le_of_infix (W := pool.windowLength) (t := now)
        (he.acceptedOf c.key).isInfix
      exact le_trans (α := Int) h (Int.ofNat_le.2 hle)

/-- What holds of a cell of a key. -/
structure CellOk (pool : SlidingWindowRateLimitPool) (s : PoolRun) (k : String) (cell : CallId) :
    Prop where
  key : cell.key = k
  valid : s.Valid k (s.pointers cell)
  keeps : Keeps pool.windowLength (timestamps (s.entryOf (s.pointers cell))) (s.acceptedOf k)

/-- The invariant of a run. -/
structure Inv (pool : SlidingWindowRateLimitPool) (s : PoolRun) : Prop where
  absent : ∀ k, s.requestTimestamps k = none → s.acceptedOf k = []
  cells : ∀ k cell, s.requestTimestamps k = some cell → CellOk pool s k cell
  calls : ∀ c, CallOk pool s c (s.calls c)
  clock : ∀ p ∈ s.accepted, p.2 ≤ s.now
  ordered : ∀ k, (s.acceptedOf k).Pairwise (· ≤ ·)
  limited : ∀ k, Limited pool.windowLength pool.numRequestsLimit.toNat (s.acceptedOf k)
  returned : ∀ p ∈ s.accepted, s.calls p.1 = .returned true p.2
  once : (s.accepted.map Prod.fst).Nodup

theorem Inv.init (pool : SlidingWindowRateLimitPool) (start : Time) :
    Inv pool (system pool start).init where
  absent _ _ := rfl
  cells _ _ h := by cases h
  calls _ := trivial
  clock _ h := by cases h
  ordered _ := List.Pairwise.nil
  limited _ := Limited.nil
  returned _ h := by cases h
  once := List.nodup_nil

theorem Inv.callOk (hi : Inv pool s) {st : ConsumeState} (hc : s.calls c = st) :
    CallOk pool s c st := hc ▸ hi.calls c

theorem mem_acceptedOf {x : Time} :
    x ∈ s.acceptedOf k ↔ ∃ c, (c, x) ∈ s.accepted ∧ c.key = k := by
  simp [acceptedOf]

theorem Inv.acceptedOf_le (hi : Inv pool s) (k : String) : ∀ x ∈ s.acceptedOf k, x ≤ s.now := by
  intro x hx
  obtain ⟨c, hc, _⟩ := mem_acceptedOf.1 hx
  exact hi.clock _ hc

/-- A step that accepts no call: cells keep their pointers or are new, and a call that moves
had not returned. -/
theorem Inv.frame (hi : Inv pool s) (he : Extends s t) (hacc : t.accepted = s.accepted)
    (hcells : ∀ k cell, t.requestTimestamps k = some cell →
      (s.requestTimestamps k = some cell ∧ t.pointers cell = s.pointers cell) ∨
        (s.requestTimestamps k = none ∧ cell.key = k ∧ t.pointers cell = none))
    (hcalls : ∀ c, t.calls c = s.calls c ∨
      (CallOk pool t c (t.calls c) ∧ ∀ ok now, s.calls c ≠ .returned ok now)) :
    Inv pool t := by
  have hof : ∀ k, t.acceptedOf k = s.acceptedOf k := fun k => by
    rw [PoolRun.acceptedOf, hacc, PoolRun.acceptedOf]
  refine ⟨fun k hk => ?_, fun k cell hk => ?_, fun c => ?_, fun p hp => ?_, fun k => ?_,
    fun k => ?_, fun p hp => ?_, ?_⟩
  · rw [hof]
    refine hi.absent k ?_
    cases hm : s.requestTimestamps k with
    | none => rfl
    | some cell => rw [he.cells k cell hm] at hk; cases hk
  · rcases hcells k cell hk with ⟨hm, hp⟩ | ⟨hm, hkey, hp⟩
    · obtain ⟨hkey, hv, hkeep⟩ := hi.cells k cell hm
      refine ⟨hkey, hp ▸ hv.extends he, ?_⟩
      rw [hp, hv.entryOf_eq he, hof]
      exact hkeep
    · refine ⟨hkey, hp ▸ Valid.none t k, ?_⟩
      rw [hp, hof, hi.absent k hm]
      exact Keeps.nil
  · rcases hcalls c with hc | ⟨hok, _⟩
    · rw [hc]
      exact (hi.calls c).extends he
    · exact hok
  · exact (hi.clock p (hacc ▸ hp)).trans he.now_le
  · rw [hof]; exact hi.ordered k
  · rw [hof]; exact hi.limited k
  · have hret := hi.returned p (hacc ▸ hp)
    rcases hcalls p.1 with hc | ⟨_, hne⟩
    · rw [hc, hret]
    · exact absurd hret (hne _ _)
  · rw [hacc]; exact hi.once

/-- The frame lemma for a step that moves one call and leaves map and pointers alone. -/
theorem Inv.move (hi : Inv pool s) {u : PoolRun} {st : ConsumeState}
    (he : Extends s (u.goto c st)) (hacc : u.accepted = s.accepted)
    (hmap : u.requestTimestamps = s.requestTimestamps) (hptr : u.pointers = s.pointers)
    (hcalls : u.calls = s.calls) (hok : CallOk pool (u.goto c st) c st)
    (hne : ∀ ok now, s.calls c ≠ .returned ok now) : Inv pool (u.goto c st) := by
  refine hi.frame he hacc (fun k cell hk => ?_) (fun c' => ?_)
  · rw [goto_requestTimestamps, hmap] at hk
    exact .inl ⟨hk, by rw [goto_pointers, hptr]⟩
  · rw [goto_calls, hcalls, Function.update_apply]
    split
    next h => subst h; exact .inr ⟨hok, hne⟩
    next => exact .inl rfl

/-! ## One step keeps the invariant -/

theorem Inv.tick (hi : Inv pool s) {d : Nat} (h : step pool s (.tick d) = some t) :
    Inv pool t := by
  have he := extends_of_step h
  cases h
  exact hi.frame he rfl (fun _ _ hk => .inl ⟨hk, rfl⟩) (fun _ => .inl rfl)

theorem Inv.loadOrStore (hi : Inv pool s) (h : step pool s (.loadOrStore c) = some t) :
    Inv pool t := by
  have he := extends_of_step h
  obtain ⟨hc, ⟨cell, hm, rfl⟩ | ⟨hm, rfl⟩⟩ := loadOrStore_cases h
  · exact hi.move he rfl rfl rfl rfl hm (by simp [hc])
  · refine hi.frame he rfl (fun k cell hk => ?_) (fun c' => ?_)
    · simp only [goto_requestTimestamps, goto_pointers, addCell, Function.update_apply] at hk ⊢
      split at hk
      next hkey =>
        cases hk
        exact .inr ⟨hkey ▸ hm, hkey.symm, if_pos rfl⟩
      next hkey =>
        -- a cell of another key is not the new one
        have hne : cell ≠ c := fun heq => hkey ((hi.cells k cell hk).key.symm.trans (heq ▸ rfl))
        exact .inl ⟨hk, if_neg hne⟩
    · rw [goto_calls, Function.update_apply]
      split
      next heq =>
        subst heq
        exact .inr ⟨Function.update_self _ _ _, by simp [hc]⟩
      next => exact .inl rfl

theorem Inv.load (hi : Inv pool s) (h : step pool s (.load c) = some t) : Inv pool t := by
  have he := extends_of_step h
  obtain ⟨cell, hc, rfl⟩ := load_cases h
  have hm : s.requestTimestamps c.key = some cell := hi.callOk hc
  obtain ⟨_, hv, hkeep⟩ := hi.cells c.key cell hm
  exact hi.move he rfl rfl rfl rfl ⟨hm, hv, hkeep.suffix.isInfix⟩ (by simp [hc])

theorem Inv.tryAppend (hi : Inv pool s) (h : step pool s (.tryAppend c) = some t) :
    Inv pool t := by
  have he := extends_of_step h
  obtain ⟨cell, originStore, hc, htry⟩ := tryAppend_cases h
  obtain ⟨hm, hv, hin⟩ := hi.callOk hc
  have hsorted : (timestamps (s.entryOf originStore)).Pairwise (· ≤ ·) :=
    (hi.ordered c.key).sublist hin.sublist
  have hle : ∀ x ∈ timestamps (s.entryOf originStore), x ≤ s.now :=
    fun x hx => hi.acceptedOf_le c.key x (hin.subset hx)
  rw [tryAppend_eq pool.limit_pos hsorted] at htry
  obtain ⟨hnone, rfl⟩ | ⟨ent, hsome, rfl⟩ := htry
  · refine hi.move he rfl rfl rfl rfl ?_ (by simp [hc])
    split at hnone
    next hfull =>
      -- the recent timestamps of the entry are accepted calls in the window
      have hcount := within_le_of_infix (W := pool.windowLength) (t := s.now) hin
      rw [within_eq_length_recent hle] at hcount
      exact le_trans (α := Int) hfull (Int.ofNat_le.2 hcount)
    next => cases hnone
  · refine hi.move he rfl rfl rfl rfl ?_ (by simp [hc])
    split at hsome
    next => cases hsome
    next hroom =>
      cases hsome
      refine ⟨hm, hv.extends he, (valid_alloc s c _), le_rfl, ?_⟩
      have hnew := entryOf_alloc s c
        ⟨recent pool.windowLength s.now (timestamps (s.entryOf originStore)) ++ [s.now]⟩
      rw [hv.entryOf_eq he]
      exact ⟨hle, congrArg timestamps hnew, Int.not_le.1 hroom⟩

theorem acceptedOf_install (s : PoolRun) (c cell : CallId) (newStore : EntryPtr) (now : Time)
    (k : String) : (s.install c cell newStore now).acceptedOf k =
      s.acceptedOf k ++ if c.key = k then [now] else [] := by
  simp only [acceptedOf, install, goto_accepted, List.filter_append, List.map_append]
  split
  next hk => rw [List.filter_cons_of_pos (by simpa using hk)]; rfl
  next hk => rw [List.filter_cons_of_neg (by simpa using hk)]; rfl

theorem Inv.install (hi : Inv pool s) {newStore : EntryPtr} {now : Time}
    (he : Extends s (s.install c cell newStore now)) (hm : s.requestTimestamps c.key = some cell)
    (hc : ∀ ok now, s.calls c ≠ .returned ok now) (hn : s.Valid c.key (some newStore))
    (hnow : now ≤ s.now)
    (happ : Appended pool (timestamps (s.entryOf (s.pointers cell)))
      (timestamps (s.entryOf (some newStore))) now) :
    Inv pool (s.install c cell newStore now) := by
  obtain ⟨hkey, _, hkeep⟩ := hi.cells c.key cell hm
  obtain ⟨hkeep', hordered, hlimited⟩ :=
    happ.accept (hi.ordered c.key) hkeep (hi.limited c.key)
  have hsame : (s.install c cell newStore now).acceptedOf c.key = s.acceptedOf c.key ++ [now] := by
    rw [acceptedOf_install, if_pos rfl]
  have hother : ∀ k, c.key ≠ k → (s.install c cell newStore now).acceptedOf k = s.acceptedOf k :=
    fun k hk => by rw [acceptedOf_install, if_neg hk, List.append_nil]
  have hmem : ∀ p ∈ (s.install c cell newStore now).accepted, p ∈ s.accepted ∨ p = (c, now) :=
    fun p hp => by simpa [PoolRun.install] using hp
  have hfresh : ∀ p ∈ s.accepted, p.1 ≠ c := by
    rintro p hp rfl
    exact hc _ _ (hi.returned p hp)
  refine ⟨fun k hk => ?_, fun k cell' hk => ?_, fun c' => ?_, fun p hp => ?_, fun k => ?_,
    fun k => ?_, fun p hp => ?_, ?_⟩
  · have hne : c.key ≠ k := by rintro rfl; cases hm.symm.trans hk
    rw [hother k hne]
    exact hi.absent k hk
  · obtain ⟨hkey', hv', hkeep''⟩ := hi.cells k cell' hk
    by_cases hk' : c.key = k
    · subst hk'
      cases hm.symm.trans hk
      have hptr : (s.install c cell newStore now).pointers cell = some newStore :=
        Function.update_self _ _ _
      refine ⟨hkey, hptr ▸ hn.extends he, ?_⟩
      rw [hptr, hn.entryOf_eq he, hsame]
      exact hkeep'
    · have hne : cell' ≠ cell := by
        rintro rfl
        exact hk' (hkey.symm.trans hkey')
      have hptr : (s.install c cell newStore now).pointers cell' = s.pointers cell' :=
        Function.update_of_ne hne _ _
      refine ⟨hkey', hptr ▸ hv'.extends he, ?_⟩
      rw [hptr, hv'.entryOf_eq he, hother k hk']
      exact hkeep''
  · by_cases hcc : c' = c
    · subst hcc
      have hret : (s.install c' cell newStore now).calls c' = .returned true now :=
        Function.update_self _ _ _
      rw [hret]
      exact List.mem_append_right _ (List.mem_singleton_self _)
    · have hret : (s.install c cell newStore now).calls c' = s.calls c' :=
        Function.update_of_ne hcc _ _
      rw [hret]
      exact (hi.calls c').extends he
  · rcases hmem p hp with hp | rfl
    · exact hi.clock p hp
    · exact hnow
  · by_cases hk : c.key = k
    · subst hk; rw [hsame]; exact hordered
    · rw [hother k hk]; exact hi.ordered k
  · by_cases hk : c.key = k
    · subst hk; rw [hsame]; exact hlimited
    · rw [hother k hk]; exact hi.limited k
  · rcases hmem p hp with hp | rfl
    · exact (Function.update_of_ne (hfresh p hp) _ _).trans (hi.returned p hp)
    · exact Function.update_self _ _ _
  · have hnodup : (s.accepted.map Prod.fst ++ [c]).Nodup := by
      rw [List.nodup_append]
      refine ⟨hi.once, by simp, fun x hx y hy => ?_⟩
      obtain ⟨p, hp, rfl⟩ := List.mem_map.1 hx
      rw [List.mem_singleton.1 hy]
      exact hfresh p hp
    simpa [PoolRun.install] using hnodup

theorem Inv.compareAndSwap (hi : Inv pool s) (h : step pool s (.compareAndSwap c) = some t) :
    Inv pool t := by
  have he := extends_of_step h
  obtain ⟨cell, originStore, newStore, now, hc, hswap⟩ := compareAndSwap_cases h
  obtain ⟨hm, _, hn, hnow, happ⟩ := hi.callOk hc
  obtain ⟨rfl, rfl⟩ | ⟨_, rfl⟩ := hswap
  · exact hi.install he hm (by simp [hc]) hn hnow happ
  · exact hi.move he rfl rfl rfl rfl hm (by simp [hc])

theorem Inv.step (hi : Inv pool s) (h : step pool s a = some t) : Inv pool t := by
  cases a with
  | tick d => exact hi.tick h
  | loadOrStore c => exact hi.loadOrStore h
  | load c => exact hi.load h
  | tryAppend c => exact hi.tryAppend h
  | compareAndSwap c => exact hi.compareAndSwap h

theorem Inv.of_reachable {start : Time} (h : (system pool start).Reachable .any s) :
    Inv pool s :=
  h.invariant (Inv.init pool start) fun _ _ _ hi _ hst => hi.step hst

/-! ## Keys do not interfere -/

/-- The pool as the calls with one key see it. -/
def restrict (k : String) (s : PoolRun) : PoolRun where
  now := s.now
  requestTimestamps k' := if k' = k then s.requestTimestamps k' else none
  pointers cell := if cell.key = k then s.pointers cell else none
  heap c := if c.key = k then s.heap c else []
  calls c := if c.key = k then s.calls c else .notCalled
  accepted := s.accepted.filter fun p => p.1.key = k

/-- The action is one of the clock or of a call with the key. -/
def concerns (k : String) : PoolAction → Bool
  | .tick _ => true
  | .loadOrStore c | .load c | .tryAppend c | .compareAndSwap c => c.key = k

theorem update_restrict {ι β : Type*} [DecidableEq ι] (key : ι → String) (f : ι → β) (z x : β)
    (c : ι) (k : String) :
    (fun c' => if key c' = k then Function.update f c x c' else z) =
      if key c = k then Function.update (fun c' => if key c' = k then f c' else z) c x
      else fun c' => if key c' = k then f c' else z := by
  funext c'
  by_cases hk : key c = k
  · rw [if_pos hk]
    by_cases hc : c' = c
    · subst hc
      rw [if_pos hk, Function.update_self, Function.update_self]
    · rw [Function.update_of_ne hc, Function.update_of_ne hc]
  · rw [if_neg hk]
    by_cases hc : c' = c
    · subst hc
      rw [if_neg hk, if_neg hk]
    · rw [Function.update_of_ne hc]

theorem restrict_goto (s : PoolRun) (c : CallId) (st : ConsumeState) :
    (s.goto c st).restrict k =
      if c.key = k then (s.restrict k).goto c st else s.restrict k := by
  simp only [restrict, goto, update_restrict CallId.key]
  split <;> rfl

theorem restrict_alloc (s : PoolRun) (c : CallId) (ent : SlidingWindowRateLimitEntry) :
    (s.alloc c ent).restrict k =
      if c.key = k then (s.restrict k).alloc c ent else s.restrict k := by
  simp only [restrict, alloc, update_restrict CallId.key]
  split <;> rfl

theorem restrict_addCell (s : PoolRun) (c : CallId) :
    (s.addCell c).restrict k = if c.key = k then (s.restrict k).addCell c else s.restrict k := by
  simp only [restrict, addCell, update_restrict CallId.key, update_restrict fun k' => k']
  split <;> rfl

theorem restrict_install (s : PoolRun) (c : CallId) (newStore : EntryPtr) (now : Time)
    (hkey : cell.key = c.key) :
    (s.install c cell newStore now).restrict k =
      if c.key = k then (s.restrict k).install c cell newStore now else s.restrict k := by
  simp only [install, restrict_goto]
  simp only [restrict, update_restrict CallId.key, hkey, List.filter_append]
  split
  next hk => rw [List.filter_cons_of_pos (by simpa using hk)]; rfl
  next hk => rw [List.filter_cons_of_neg (by simpa using hk)]; simp

theorem Valid.entryOf_restrict {p : Option EntryPtr} (h : s.Valid k p) :
    (s.restrict k).entryOf p = s.entryOf p := by
  cases p with
  | none => rfl
  | some q =>
    have hk := (h q rfl).1
    simp only [entryOf, Option.bind_some, deref, restrict, if_pos hk]

theorem restrict_calls_self (s : PoolRun) (c : CallId) :
    (s.restrict c.key).calls c = s.calls c := if_pos rfl

theorem restrict_pointers (s : PoolRun) (hk : cell.key = k) :
    (s.restrict k).pointers cell = s.pointers cell := if_pos hk

/-- An action of another key changes nothing the calls with the key see. -/
theorem restrict_of_not_concerns (hi : Inv pool s) (h : step pool s a = some t)
    (hk : concerns k a = false) : t.restrict k = s.restrict k := by
  cases a with
  | tick d => cases hk
  | loadOrStore c =>
    have hne : c.key ≠ k := by simpa [concerns] using hk
    obtain ⟨_, ⟨cell, _, rfl⟩ | ⟨hm, rfl⟩⟩ := loadOrStore_cases h
    · rw [restrict_goto, if_neg hne]
    · rw [restrict_goto, if_neg hne, restrict_addCell, if_neg hne]
  | load c =>
    have hne : c.key ≠ k := by simpa [concerns] using hk
    obtain ⟨cell, _, rfl⟩ := load_cases h
    rw [restrict_goto, if_neg hne]
  | tryAppend c =>
    have hne : c.key ≠ k := by simpa [concerns] using hk
    obtain ⟨cell, origin, _, ⟨_, rfl⟩ | ⟨ent, _, rfl⟩⟩ := tryAppend_cases h
    · rw [restrict_goto, if_neg hne]
    · rw [restrict_goto, if_neg hne, restrict_alloc, if_neg hne]
  | compareAndSwap c =>
    have hne : c.key ≠ k := by simpa [concerns] using hk
    obtain ⟨cell, origin, new, now, hc, ⟨_, rfl⟩ | ⟨_, rfl⟩⟩ := compareAndSwap_cases h
    · rw [restrict_install s c new now ((hi.cells _ _ (hi.callOk hc).1).key), if_neg hne]
    · rw [restrict_goto, if_neg hne]

/-- An action of the key does the same with and without the calls of other keys. -/
theorem step_restrict (hi : Inv pool s) (h : step pool s a = some t)
    (hk : concerns k a = true) : step pool (s.restrict k) a = some (t.restrict k) := by
  cases a with
  | tick d => cases h; rfl
  | loadOrStore c =>
    obtain rfl : c.key = k := by simpa [concerns] using hk
    obtain ⟨hc, ⟨cell, hm, rfl⟩ | ⟨hm, rfl⟩⟩ := loadOrStore_cases h
    · have hm' : (s.restrict c.key).requestTimestamps c.key = some cell := (if_pos rfl).trans hm
      simp only [step, restrict_calls_self, hc, hm', restrict_goto, if_pos]
    · have hm' : (s.restrict c.key).requestTimestamps c.key = none := (if_pos rfl).trans hm
      simp only [step, restrict_calls_self, hc, hm', restrict_goto, restrict_addCell, if_pos]
  | load c =>
    obtain rfl : c.key = k := by simpa [concerns] using hk
    obtain ⟨cell, hc, rfl⟩ := load_cases h
    have hkey : cell.key = c.key := (hi.cells _ _ (hi.callOk hc)).key
    simp only [step, restrict_calls_self, hc, restrict_goto, if_pos, restrict_pointers s hkey]
  | tryAppend c =>
    obtain rfl : c.key = k := by simpa [concerns] using hk
    obtain ⟨cell, origin, hc, ⟨ht, rfl⟩ | ⟨ent, ht, rfl⟩⟩ := tryAppend_cases h
    · have hv : s.Valid c.key origin := (hi.callOk hc).2.1
      have hnow : (s.restrict c.key).now = s.now := rfl
      simp only [step, restrict_calls_self, hc, hv.entryOf_restrict, hnow, ht, restrict_goto,
        if_pos]
    · have hv : s.Valid c.key origin := (hi.callOk hc).2.1
      have hnow : (s.restrict c.key).now = s.now := rfl
      have hheap : (s.restrict c.key).heap c = s.heap c := if_pos rfl
      simp only [step, restrict_calls_self, hc, hv.entryOf_restrict, hnow, ht, hheap,
        restrict_goto, restrict_alloc, if_pos]
  | compareAndSwap c =>
    obtain rfl : c.key = k := by simpa [concerns] using hk
    obtain ⟨cell, origin, new, now, hc, ⟨hp, rfl⟩ | ⟨hp, rfl⟩⟩ := compareAndSwap_cases h
    · have hkey : cell.key = c.key := (hi.cells _ _ (hi.callOk hc).1).key
      rw [restrict_install s c new now hkey, if_pos rfl]
      simp only [step, restrict_calls_self, hc, restrict_pointers s hkey, if_pos hp]
    · have hkey : cell.key = c.key := (hi.cells _ _ (hi.callOk hc).1).key
      simp only [step, restrict_calls_self, hc, restrict_pointers s hkey, if_neg hp,
        restrict_goto, if_pos]

theorem restrict_init (pool : SlidingWindowRateLimitPool) (start : Time) (k : String) :
    (system pool start).init.restrict k = (system pool start).init := by
  simp [restrict, system]

/-- A run and the same run without the calls of other keys. -/
theorem replay_filter {start : Time} (as : List PoolAction) (hi : Inv pool s)
    (h : (system pool start).replay .any s as = some t) :
    (system pool start).replay .any (s.restrict k) (as.filter (concerns k)) =
      some (t.restrict k) := by
  induction as generalizing s with
  | nil =>
    cases h
    rfl
  | cons a as ih =>
    rw [System.replay_any_cons, system_step] at h
    obtain ⟨u, hu, htail⟩ := Option.bind_eq_some_iff.1 h
    have hrest := ih (hi.step hu) htail
    cases hk : concerns k a with
    | true =>
      rw [List.filter_cons_of_pos hk, System.replay_any_cons, system_step,
        step_restrict hi hu hk, Option.bind_some, hrest]
    | false =>
      rw [List.filter_cons_of_neg (by simp [hk]), ← restrict_of_not_concerns hi hu hk, hrest]

/-! ## The limiter -/

/-- The stored timestamps of a key are those of its cell, which the accepted calls keep. -/
theorem Inv.keeps_stored (hi : Inv pool s) (k : String) :
    Keeps pool.windowLength (s.stored k) (s.acceptedOf k) := by
  cases hm : s.requestTimestamps k with
  | none =>
    rw [hi.absent k hm, stored, hm]
    exact Keeps.nil
  | some cell =>
    rw [stored, hm]
    exact (hi.cells k cell hm).keeps

/-- Every run of the limiter.  `accepted` lists each call that returned `true` once, with
its timestamp.  The stored timestamps are ordered, no closed window of any key holds more
accepted calls than the limit, a rejected call had a full window before it, and a key's part
of the state is that of the same run without the calls of other keys. -/
theorem sliding_window (pool : SlidingWindowRateLimitPool) (start : Time)
    (as : List PoolAction) (s : PoolRun)
    (h : (system pool start).replay .any (system pool start).init as = some s) :
    (s.accepted.Nodup ∧ ∀ c now, (c, now) ∈ s.accepted ↔ s.calls c = .returned true now) ∧
      (∀ k, (s.stored k).Pairwise (· ≤ ·)) ∧
      (∀ k t, (within pool.windowLength t (s.acceptedOf k) : Int) ≤ pool.numRequestsLimit) ∧
      (∀ c now, s.calls c = .returned false now →
        pool.numRequestsLimit ≤ (within pool.windowLength now (s.acceptedOf c.key) : Int)) ∧
      ∀ k, (system pool start).replay .any (system pool start).init (as.filter (concerns k)) =
        some (s.restrict k) := by
  have hi : Inv pool s := Inv.of_reachable (System.reach_of_replay as h)
  have hnodup : s.accepted.Nodup :=
    List.Pairwise.of_map Prod.fst (fun _ _ hne heq => hne (heq ▸ rfl)) hi.once
  refine ⟨⟨hnodup, fun c now => ⟨hi.returned (c, now), hi.callOk⟩⟩, fun k => ?_,
    fun k t => ?_, fun c now hc => hi.callOk hc, fun k => ?_⟩
  · exact (hi.ordered k).sublist (hi.keeps_stored k).suffix.sublist
  · have hle := hi.limited k t
    have hpos := pool.limit_pos
    omega
  · have hrun := replay_filter as (k := k) (Inv.init pool start) h
    rwa [restrict_init] at hrun

/-- One request in ten nanoseconds. -/
def onePerTen : SlidingWindowRateLimitPool := ⟨10, 1, by decide, by decide⟩

/-- Two calls load the empty cell.  The second one swaps first, and the first one loses the
race, tries again and is rejected. -/
def lostRace : List PoolAction :=
  [.loadOrStore ⟨"a", 0⟩, .loadOrStore ⟨"a", 1⟩, .load ⟨"a", 0⟩, .load ⟨"a", 1⟩,
    .tryAppend ⟨"a", 0⟩, .tick 3, .tryAppend ⟨"a", 1⟩, .compareAndSwap ⟨"a", 1⟩,
    .loadOrStore ⟨"b", 0⟩, .compareAndSwap ⟨"a", 0⟩, .load ⟨"a", 0⟩, .tryAppend ⟨"a", 0⟩]

theorem sliding_window_lostRace :
    ∃ s, (system onePerTen 0).replay .any (system onePerTen 0).init lostRace = some s ∧
      s.calls ⟨"a", 0⟩ = .returned false 3 ∧
      onePerTen.numRequestsLimit ≤ (within onePerTen.windowLength 3 (s.acceptedOf "a") : Int) ∧
      (system onePerTen 0).replay .any (system onePerTen 0).init
        (lostRace.filter (concerns "b")) = some (s.restrict "b") := by
  have hsome : (((system onePerTen 0).replay .any (system onePerTen 0).init lostRace).any
      fun s => s.calls ⟨"a", 0⟩ = .returned false 3) = true := by decide +kernel
  obtain ⟨s, hs, hc⟩ := (Option.any_eq_true _ _).1 hsome
  have hc : s.calls ⟨"a", 0⟩ = .returned false 3 := of_decide_eq_true hc
  obtain ⟨_, _, _, hrejected, hkeys⟩ := sliding_window onePerTen 0 lostRace s hs
  exact ⟨s, hs, hc, hrejected _ _ hc, hkeys "b"⟩

end PoolRun

end CloudPing.Ratelimit
