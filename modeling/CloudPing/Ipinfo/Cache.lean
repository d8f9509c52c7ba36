import CloudPing.Btree.Tree
import CloudPing.Conc.System
import Mathlib.Data.String.Basic

/-!
# The cache of IP infos

`CacheIPInfoProvider.GetIPInfo` answers from the store what it finds there unexpired, and
asks its upstream for the rest.  A result of the upstream is stored in three steps: one
service of the actor hands out a clone of the store, the call puts its entry into the clone,
and a second service makes the clone the store.  The store is read without the actor, so a
read may pick any tree that was ever the store (`published`).  The trees are those of any
package (`OrderedTree`).

The events of a run (`trace`, newest first) are what the results speak about; no step reads
them.

*Soundness.*  Every entry of every tree, published or still private to a call, goes back to an
insertion that followed an error-free result of the upstream for the entry's key
(`Stored`).  So does every hit (`cache_hit_sound`).
-/

namespace CloudPing.Ipinfo

open Conc Btree Btree.OrderedTree

universe u

variable {BTree : (α : Type u) → [Item α] → Type u} {V : Type u}

/-! ## Entries -/

/-- `Value` is a pointer; `ExpiresAt` counts nanoseconds. -/
structure IPInfoCacheEntry (V : Type u) where
  key : String
  value : Option V
  expiresAt : Int
  deriving DecidableEq

namespace IPInfoCacheEntry

def less (entry otherEntry : IPInfoCacheEntry V) : Bool := decide (entry.key < otherEntry.key)

instance : Item (IPInfoCacheEntry V) where
  less := less
  irrefl _ := decide_eq_false (lt_irrefl _)
  trans h h' := decide_eq_true (lt_trans (of_decide_eq_true h) (of_decide_eq_true h'))
  split {a b} c h := by
    rcases lt_or_ge a.key c.key with hc | hc
    · exact Or.inl (decide_eq_true hc)
    · exact Or.inr (decide_eq_true (lt_of_le_of_lt hc (of_decide_eq_true h)))

theorem same_iff_key {a b : IPInfoCacheEntry V} : same a b = true ↔ a.key = b.key := by
  rw [same_iff]
  constructor
  · rintro ⟨hab, hba⟩
    exact le_antisymm (not_lt.1 (of_decide_eq_false hba)) (not_lt.1 (of_decide_eq_false hab))
  · intro h
    exact ⟨decide_eq_false (by rw [h]; exact lt_irrefl _),
      decide_eq_false (by rw [h]; exact lt_irrefl _)⟩

/-- What `getCache` looks up: `&IPInfoCacheEntry{Key: ip}`. -/
def ofKey (ip : String) : IPInfoCacheEntry V := ⟨ip, none, 0⟩

end IPInfoCacheEntry

/-- `ch.store`. -/
abbrev CacheStore (BTree : (α : Type u) → [Item α] → Type u) (V : Type u) :=
  BTree (IPInfoCacheEntry V)

/-- `store.Get(&IPInfoCacheEntry{Key: ip})`. -/
def CacheStore.find [OrderedTree BTree] (store : CacheStore BTree V) (ip : String) :
    Option (IPInfoCacheEntry V) :=
  get store (.ofKey ip)

/-! ## Calls and the actor -/

/-- What the hook is told when a call returns. -/
structure IPInfoRequestStats where
  ip : String
  cacheHit : Bool
  hasError : Bool
  durationMs : Int
  deriving DecidableEq

/-- The two services of `updateCache`. -/
inductive CacheStoreAccess (BTree : (α : Type u) → [Item α] → Type u) (V : Type u)
  | cloneStore
  /-- `ch.store = clonedStore`, where the clone has got `entry`. -/
  | setStore (clonedStore : CacheStore BTree V) (entry : IPInfoCacheEntry V)

/-- Where `updateCache` stands. -/
inductive UpdatePC (BTree : (α : Type u) → [Item α] → Type u) (V : Type u)
  /-- At `<-ch.serviceChan`. -/
  | requesting (access : CacheStoreAccess BTree V)
  /-- At `serviceAccessSubmitter <- serviceAccess`. -/
  | submitting (access : CacheStoreAccess BTree V)
  /-- At `<-serviceAccess.Error`. -/
  | waiting (access : CacheStoreAccess BTree V)
  /-- Before `time.Now()`. -/
  | cloned (clonedStore : CacheStore BTree V)
  /-- Before `ReplaceOrInsert`. -/
  | inserting (clonedStore : CacheStore BTree V) (entry : IPInfoCacheEntry V)
  /-- The second service is done. -/
  | updated

/-- Where a call of `GetIPInfo` stands. -/
inductive CallPC (BTree : (α : Type u) → [Item α] → Type u) (V : Type u)
  | notCalled
  /-- In `getCache`, before it reads `ch.store`. -/
  | reading (ip : String) (startedAt : Int)
  /-- In `getCache`, before it reads the clock. -/
  | checking (ip : String) (startedAt : Int) (item : Option (IPInfoCacheEntry V))
  /-- In `ch.Upstream.GetIPInfo`. -/
  | asking (ip : String) (startedAt : Int)
  | updating (ip : String) (startedAt : Int) (result : V) (pc : UpdatePC BTree V)
  | returned (stats : IPInfoRequestStats) (result : Except String (Option V))

/-- Where the goroutine of `Run` stands. -/
inductive ActorPC
  /-- At the `select`. -/
  | selecting
  /-- At `<-serviceSubmitter`, which the call has. -/
  | receiving (c : Nat)
  /-- Before `serviceAccess.Fn(ctx)`. -/
  | serving (c : Nat)
  /-- It has returned, and `ch.serviceChan` is closed. -/
  | closed
  deriving DecidableEq

/-- What happens in a run. -/
inductive CacheEvent (V : Type u)
  /-- The upstream has answered the call. -/
  | answered (c : Nat) (ip : String) (result : Except String (Option V))
  /-- The call has got its clone of the store. -/
  | cloned (c : Nat)
  /-- The call has put its entry into its clone. -/
  | inserted (c : Nat) (entry : IPInfoCacheEntry V) (t : Int)
  /-- The clone of the call, which has got this entry, is the store. -/
  | stored (c : Nat) (entry : IPInfoCacheEntry V)
  /-- The call returns the value of this entry. -/
  | hit (c : Nat) (entry : IPInfoCacheEntry V) (t : Int)

structure CacheRun (BTree : (α : Type u) → [Item α] → Type u) (V : Type u) where
  now : Int
  store : CacheStore BTree V
  /-- Every tree that is or was the store. -/
  published : List (CacheStore BTree V)
  actor : ActorPC
  calls : Nat → CallPC BTree V
  trace : List (CacheEvent V)

/-- One step: of the clock, of a call of `GetIPInfo`, or of the actor. -/
inductive CacheAction (V : Type u)
  | tick (d : Nat)
  | call (c : Nat) (ip : String)
  /-- `ch.store.Get` reads one of the published trees. -/
  | read (c : Nat) (version : Nat)
  | check (c : Nat)
  | answer (c : Nat) (result : Except String (Option V))
  /-- The actor hands its `serviceSubmitter` to the call. -/
  | accept (c : Nat)
  /-- The call finds `ch.serviceChan` closed. -/
  | refuse (c : Nat)
  | submit (c : Nat)
  | serve
  | stamp (c : Nat)
  | insert (c : Nat)
  | finish (c : Nat)
  /-- `<-ctx.Done()`. -/
  | stop

namespace CacheRun

def start [OrderedTree BTree] (now : Int) : CacheRun BTree V :=
  { now := now, store := new, published := [new], actor := .selecting
    calls := fun _ => .notCalled, trace := [] }

def goto (s : CacheRun BTree V) (c : Nat) (pc : CallPC BTree V) : CacheRun BTree V :=
  { s with calls := Function.update s.calls c pc }

def log (s : CacheRun BTree V) (ev : CacheEvent V) : CacheRun BTree V :=
  { s with trace := ev :: s.trace }

/-- The call returns, and the deferred function reports to the hook. -/
def ret (s : CacheRun BTree V) (c : Nat) (ip : String) (startedAt : Int) (cacheHit hasError : Bool)
    (result : Except String (Option V)) : CacheRun BTree V :=
  s.goto c (.returned ⟨ip, cacheHit, hasError, (s.now - startedAt) / 1000000⟩ result)

/-- `getCache` from the clock on, and the branch on `cached`. -/
def check (s : CacheRun BTree V) (c : Nat) (ip : String) (startedAt : Int) :
    Option (IPInfoCacheEntry V) → CacheRun BTree V
  | none => s.goto c (.asking ip startedAt)
  | some cacheEntry =>
    if s.now < cacheEntry.expiresAt then
      match cacheEntry.value with
      | some cached =>
        (s.log (.hit c cacheEntry s.now)).ret c ip startedAt true false (.ok (some cached))
      | none => s.goto c (.asking ip startedAt)
    else s.goto c (.asking ip startedAt)

/-- `GetIPInfo` from the answer of the upstream on. -/
def answer (s : CacheRun BTree V) (c : Nat) (ip : String) (startedAt : Int) :
    Except String (Option V) → CacheRun BTree V
  | .error err => s.ret c ip startedAt false true (.error err)
  | .ok none => s.ret c ip startedAt false false (.ok none)
  | .ok (some result) => s.goto c (.updating ip startedAt result (.requesting .cloneStore))

/-- `serviceAccess.Fn(ctx)`, and the result of it reaches the call. -/
def serve [OrderedTree BTree] (s : CacheRun BTree V) (c : Nat) (ip : String) (startedAt : Int)
    (result : V) : CacheStoreAccess BTree V → CacheRun BTree V
  | .cloneStore =>
    ({ s with actor := .selecting }.log (.cloned c)).goto c
      (.updating ip startedAt result (.cloned (clone s.store)))
  | .setStore clonedStore entry =>
    ({ s with actor := .selecting, store := clonedStore
              published := clonedStore :: s.published }.log (.stored c entry)).goto c
      (.updating ip startedAt result .updated)

def step [OrderedTree BTree] (maxExpireTime : Int) (s : CacheRun BTree V) :
    CacheAction V → Option (CacheRun BTree V)
  | .tick d => some { s with now := s.now + d }
  | .call c ip =>
    match s.calls c with
    | .notCalled => some (s.goto c (.reading ip s.now))
    | _ => none
  | .read c version =>
    match s.calls c, s.published[version]? with
    | .reading ip startedAt, some store => some (s.goto c (.checking ip startedAt (store.find ip)))
    | _, _ => none
  | .check c =>
    match s.calls c with
    | .checking ip startedAt item => some (s.check c ip startedAt item)
    | _ => none
  | .answer c result =>
    match s.calls c with
    | .asking ip startedAt =>
      some ((s.log (.answered c ip result)).answer c ip startedAt result)
    | _ => none
  | .accept c =>
    match s.calls c, s.actor with
    | .updating ip startedAt result (.requesting access), .selecting =>
      some ({ s with actor := .receiving c }.goto c
        (.updating ip startedAt result (.submitting access)))
    | _, _ => none
  | .refuse c =>
    match s.calls c, s.actor with
    | .updating ip startedAt _ (.requesting _), .closed =>
      some (s.ret c ip startedAt false false (.error "cache is closed"))
    | _, _ => none
  | .submit c =>
    match s.calls c, s.actor with
    | .updating ip startedAt result (.submitting access), .receiving c' =>
      if c' = c then
        some ({ s with actor := .serving c }.goto c
          (.updating ip startedAt result (.waiting access)))
      else none
    | _, _ => none
  | .serve =>
    match s.actor with
    | .serving c =>
      match s.calls c with
      | .updating ip startedAt result (.waiting access) =>
        some (s.serve c ip startedAt result access)
      | _ => none
    | _ => none
  | .stamp c =>
    match s.calls c with
    | .updating ip startedAt result (.cloned clonedStore) =>
      some (s.goto c (.updating ip startedAt result
        (.inserting clonedStore ⟨ip, some result, s.now + maxExpireTime⟩)))
    | _ => none
  | .insert c =>
    match s.calls c with
    | .updating ip startedAt result (.inserting clonedStore entry) =>
      some ((s.log (.inserted c entry s.now)).goto c (.updating ip startedAt result
        (.requesting (.setStore (replaceOrInsert clonedStore entry) entry))))
    | _ => none
  | .finish c =>
    match s.calls c with
    | .updating ip startedAt result .updated =>
      some (s.ret c ip startedAt false false (.ok (some result)))
    | _ => none
  | .stop =>
    match s.actor with
    | .selecting => some { s with actor := .closed }
    | _ => none

end CacheRun

/-- A provider after `Run`, with the calls of `GetIPInfo` it gets. -/
def cacheSystem (BTree : (α : Type u) → [Item α] → Type u) [OrderedTree BTree] (V : Type u)
    (maxExpireTime now : Int) : System (CacheRun BTree V) (CacheAction V) where
  init := .start now
  step := CacheRun.step maxExpireTime

/-! ## What a step does -/

section Moves

variable {maxExpireTime : Int} {s t : CacheRun BTree V} {a : CacheAction V}

namespace CacheRun

@[simp] theorem goto_calls_self (s : CacheRun BTree V) (c : Nat) (pc : CallPC BTree V) :
    (s.goto c pc).calls c = pc := Function.update_self ..

theorem goto_calls_ne {c c' : Nat} (h : c' ≠ c) (s : CacheRun BTree V) (pc : CallPC BTree V) :
    (s.goto c pc).calls c' = s.calls c' := Function.update_of_ne h ..

/-- What holds of the call that goes on, and held of the others, holds of all. -/
theorem forall_calls_goto {P : Nat → CallPC BTree V → Prop} {c : Nat} {pc : CallPC BTree V}
    (hpc : P c pc) (h : ∀ c', c' ≠ c → P c' (s.calls c')) :
    ∀ c', P c' ((s.goto c pc).calls c') := by
  intro c'
  by_cases hc : c' = c
  · subst hc
    rwa [goto_calls_self]
  · rw [goto_calls_ne hc]
    exact h c' hc

variable [OrderedTree BTree]

/-- The steps, with the branches of `check`, `answer` and `serve` told apart. -/
inductive Move (maxExpireTime : Int) (s : CacheRun BTree V) :
    CacheAction V → CacheRun BTree V → Prop
  | ticked (d : Nat) : Move maxExpireTime s (.tick d) { s with now := s.now + d }
  | stopped : s.actor = .selecting → Move maxExpireTime s .stop { s with actor := .closed }
  | called {c ip} : s.calls c = .notCalled →
      Move maxExpireTime s (.call c ip) (s.goto c (.reading ip s.now))
  | read {c ip began version store} : s.calls c = .reading ip began → store ∈ s.published →
      Move maxExpireTime s (.read c version)
        (s.goto c (.checking ip began (CacheStore.find store ip)))
  | hit {c ip began entry value} : s.calls c = .checking ip began (some entry) →
      s.now < entry.expiresAt → entry.value = some value →
      Move maxExpireTime s (.check c)
        ((s.log (.hit c entry s.now)).ret c ip began true false (.ok (some value)))
  | missed {c ip began item} : s.calls c = .checking ip began item →
      Move maxExpireTime s (.check c) (s.goto c (.asking ip began))
  | failed {c ip began err} : s.calls c = .asking ip began →
      Move maxExpireTime s (.answer c (.error err))
        ((s.log (.answered c ip (.error err))).ret c ip began false true (.error err))
  | nothing {c ip began} : s.calls c = .asking ip began →
      Move maxExpireTime s (.answer c (.ok none))
        ((s.log (.answered c ip (.ok none))).ret c ip began false false (.ok none))
  | answered {c ip began result} : s.calls c = .asking ip began →
      Move maxExpireTime s (.answer c (.ok (some result)))
        ((s.log (.answered c ip (.ok (some result)))).goto c
          (.updating ip began result (.requesting .cloneStore)))
  | accepted {c ip began result access} :
      s.calls c = .updating ip began result (.requesting access) →
      Move maxExpireTime s (.accept c) ({ s with actor := .receiving c }.goto c
        (.updating ip began result (.submitting access)))
  | refused {c ip began result access} :
      s.calls c = .updating ip began result (.requesting access) →
      Move maxExpireTime s (.refuse c) (s.ret c ip began false false (.error "cache is closed"))
  | submitted {c ip began result access} :
      s.calls c = .updating ip began result (.submitting access) →
      Move maxExpireTime s (.submit c) ({ s with actor := .serving c }.goto c
        (.updating ip began result (.waiting access)))
  | cloned {c ip began result} : s.actor = .serving c →
      s.calls c = .updating ip began result (.waiting .cloneStore) →
      Move maxExpireTime s .serve (s.serve c ip began result .cloneStore)
  | stored {c ip began result clonedStore entry} : s.actor = .serving c →
      s.calls c = .updating ip began result (.waiting (.setStore clonedStore entry)) →
      Move maxExpireTime s .serve (s.serve c ip began result (.setStore clonedStore entry))
  | stamped {c ip began result clonedStore} :
      s.calls c = .updating ip began result (.cloned clonedStore) →
      Move maxExpireTime s (.stamp c) (s.goto c (.updating ip began result
        (.inserting clonedStore ⟨ip, some result, s.now + maxExpireTime⟩)))
  | inserted {c ip began result clonedStore entry} :
      s.calls c = .updating ip began result (.inserting clonedStore entry) →
      Move maxExpireTime s (.insert c) ((s.log (.inserted c entry s.now)).goto c
        (.updating ip began result
          (.requesting (.setStore (replaceOrInsert clonedStore entry) entry))))
  | finished {c ip began result} : s.calls c = .updating ip began result .updated →
      Move maxExpireTime s (.finish c) (s.ret c ip began false false (.ok (some result)))

theorem check_move {c : Nat} {ip : String} {began : Int} {item : Option (IPInfoCacheEntry V)}
    (h : s.calls c = .checking ip began item) :
    Move maxExpireTime s (.check c) (s.check c ip began item) := by
  cases item with
  | none => exact .missed h
  | some entry =>
    rw [check]
    split
    · next hlt =>
      split
      · next value hv => exact .hit h hlt hv
      · exact .missed h
    · exact .missed h

theorem answer_move {c : Nat} {ip : String} {began : Int} {result : Except String (Option V)}
    (h : s.calls c = .asking ip began) :
    Move maxExpireTime s (.answer c result)
      ((s.log (.answered c ip result)).answer c ip began result) := by
  cases result with
  | error err => exact .failed h
  | ok value =>
    cases value with
    | none => exact .nothing h
    | some value => exact .answered h

theorem step_move (h : s.step maxExpireTime a = some t) : Move maxExpireTime s a t := by
  cases a with
  | tick d =>
    cases h
    exact .ticked d
  | call c ip =>
    simp only [step] at h
    split at h
    · next hc => cases h; exact .called hc
    · cases h
  | read c version =>
    simp only [step] at h
    split at h
    · next hc hv => cases h; exact .read hc (List.mem_of_getElem? hv)
    · cases h
  | check c =>
    simp only [step] at h
    split at h
    · next hc => cases h; exact check_move hc
    · cases h
  | answer c result =>
    simp only [step] at h
    split at h
    · next hc => cases h; exact answer_move hc
    · cases h
  | accept c =>
    simp only [step] at h
    split at h
    · next hc _ => cases h; exact .accepted hc
    · cases h
  | refuse c =>
    simp only [step] at h
    split at h
    · next hc _ => cases h; exact .refused hc
    · cases h
  | submit c =>
    simp only [step] at h
    split at h
    · next hc _ =>
      split at h
      · cases h; exact .submitted hc
      · cases h
    · cases h
  | serve =>
    simp only [step] at h
    split at h
    · next c ha =>
      split at h
      · next access hc =>
        cases h
        cases access with
        | cloneStore => exact .cloned ha hc
        | setStore clonedStore entry => exact .stored ha hc
      · cases h
    · cases h
  | stamp c =>
    simp only [step] at h
    split at h
    · next hc => cases h; exact .stamped hc
    · cases h
  | insert c =>
    simp only [step] at h
    split at h
    · next hc => cases h; exact .inserted hc
    · cases h
  | finish c =>
    simp only [step] at h
    split at h
    · next hc => cases h; exact .finished hc
    · cases h
  | stop =>
    simp only [step] at h
    split at h
    · next ha => cases h; exact .stopped ha
    · cases h

end CacheRun

end Moves

/-! ## Soundness -/

section Soundness

variable [OrderedTree BTree] {maxExpireTime now : Int} {s t : CacheRun BTree V}
  {tr later : List (CacheEvent V)} {entry : IPInfoCacheEntry V}

/-- The entry was inserted by a call for its key that had got its value from the upstream, and
expires at most `maxExpireTime` after that. -/
def Stored (maxExpireTime : Int) (tr : List (CacheEvent V)) (entry : IPInfoCacheEntry V) : Prop :=
  ∃ c value time later earlier, tr = later ++ .inserted c entry time :: earlier ∧
    .answered c entry.key (.ok (some value)) ∈ earlier ∧ entry.value = some value ∧
    entry.expiresAt ≤ time + maxExpireTime

theorem Stored.append (later : List (CacheEvent V)) (h : Stored maxExpireTime tr entry) :
    Stored maxExpireTime (later ++ tr) entry := by
  obtain ⟨c, value, time, later', earlier, rfl, h⟩ := h
  exact ⟨c, value, time, later ++ later', earlier, (List.append_assoc ..).symm, h⟩

/-- Every entry of the tree. -/
def AllStored (maxExpireTime : Int) (tr : List (CacheEvent V)) (store : CacheStore BTree V) :
    Prop :=
  ∀ entry ∈ items store, Stored maxExpireTime tr entry

theorem AllStored.append {store : CacheStore BTree V} (later : List (CacheEvent V))
    (h : AllStored maxExpireTime tr store) : AllStored maxExpireTime (later ++ tr) store :=
  fun entry he => (h entry he).append later

theorem AllStored.clone {store : CacheStore BTree V} (h : AllStored maxExpireTime tr store) :
    AllStored maxExpireTime tr (clone store) := by
  rw [AllStored, items_clone]
  exact h

theorem AllStored.replaceOrInsert {store : CacheStore BTree V}
    (h : AllStored maxExpireTime tr store) (he : Stored maxExpireTime tr entry) :
    AllStored maxExpireTime tr (replaceOrInsert store entry) := by
  intro x hx
  rcases mem_replaceOrInsert.1 hx with rfl | ⟨hx, _⟩
  · exact he
  · exact h x hx

def CacheStoreAccess.Sound (maxExpireTime : Int) (tr : List (CacheEvent V)) :
    CacheStoreAccess BTree V → Prop
  | .cloneStore => True
  | .setStore clonedStore _ => AllStored maxExpireTime tr clonedStore

def UpdatePC.Sound (maxExpireTime now : Int) (tr : List (CacheEvent V)) (ip : String)
    (result : V) : UpdatePC BTree V → Prop
  | .requesting access | .submitting access | .waiting access => access.Sound maxExpireTime tr
  | .cloned clonedStore => AllStored maxExpireTime tr clonedStore
  | .inserting clonedStore entry =>
    AllStored maxExpireTime tr clonedStore ∧ entry.key = ip ∧ entry.value = some result ∧
      entry.expiresAt ≤ now + maxExpireTime
  | .updated => True

def CallPC.Sound (maxExpireTime now : Int) (tr : List (CacheEvent V)) (c : Nat) :
    CallPC BTree V → Prop
  | .notCalled | .reading .. | .asking .. => True
  | .checking ip _ item =>
    ∀ entry, item = some entry → entry.key = ip ∧ Stored maxExpireTime tr entry
  | .updating ip _ result pc =>
    .answered c ip (.ok (some result)) ∈ tr ∧ pc.Sound maxExpireTime now tr ip result
  | .returned stats result =>
    stats.cacheHit = true → ∃ entry value time, .hit c entry time ∈ tr ∧ entry.key = stats.ip ∧
      entry.value = some value ∧ result = .ok (some value)

/-- What holds of a call is not undone by the clock and the other calls. -/
theorem CallPC.Sound.mono {c : Nat} {pc : CallPC BTree V} {now' : Int} (hn : now ≤ now')
    (later : List (CacheEvent V)) (h : pc.Sound maxExpireTime now tr c) :
    pc.Sound maxExpireTime now' (later ++ tr) c := by
  cases pc with
  | notCalled | reading | asking => trivial
  | checking ip began item => exact fun entry he => ⟨(h entry he).1, (h entry he).2.append later⟩
  | updating ip began result pc =>
    refine ⟨List.mem_append_right _ h.1, ?_⟩
    have hpc := h.2
    cases pc with
    | requesting access | submitting access | waiting access =>
      cases access with
      | cloneStore => trivial
      | setStore clonedStore entry => exact AllStored.append later hpc
    | cloned clonedStore => exact AllStored.append later hpc
    | inserting clonedStore entry =>
      obtain ⟨hall, hkey, hvalue, hexp⟩ := hpc
      exact ⟨hall.append later, hkey, hvalue, hexp.trans (by omega)⟩
    | updated => trivial
  | returned stats result =>
    intro hhit
    obtain ⟨entry, value, time, hmem, h⟩ := h hhit
    exact ⟨entry, value, time, List.mem_append_right _ hmem, h⟩

/-- The upstream has answered a call that is here. -/
def CallPC.asked : CallPC BTree V → Bool
  | .updating .. | .returned .. => true
  | _ => false

/-- Once the upstream has answered a call, the call is past its question. -/
def CallPC.Heard (tr : List (CacheEvent V)) (c : Nat) (pc : CallPC BTree V) : Prop :=
  ∀ ip result, .answered c ip result ∈ tr → pc.asked = true

/-- A hit returns what another call has stored for the same key, before it expires. -/
def HitSound (maxExpireTime : Int) (c : Nat) (entry : IPInfoCacheEntry V) (time : Int)
    (earlier : List (CacheEvent V)) : Prop :=
  Stored maxExpireTime earlier entry ∧ time < entry.expiresAt ∧
    ∀ ip result, .answered c ip result ∉ earlier

structure CacheRun.Sound (maxExpireTime : Int) (s : CacheRun BTree V) : Prop where
  store : s.store ∈ s.published
  published : ∀ store ∈ s.published, AllStored maxExpireTime s.trace store
  calls : ∀ c, (s.calls c).Sound maxExpireTime s.now s.trace c
  asked : ∀ c, (s.calls c).Heard s.trace c
  hits : ∀ later c entry time earlier, s.trace = later ++ .hit c entry time :: earlier →
    HitSound maxExpireTime c entry time earlier

namespace CacheRun.Sound

theorem start : (CacheRun.start now : CacheRun BTree V).Sound maxExpireTime where
  store := List.mem_singleton_self _
  published := by
    intro store hs entry he
    rw [List.mem_singleton.1 hs, items_new] at he
    cases he
  calls := fun _ => trivial
  asked := by intro c ip result h; cases h
  hits := by
    intro later c entry began earlier h
    exact absurd h.symm (by simp [CacheRun.start])

theorem withNow (h : s.Sound maxExpireTime) {now' : Int} (hn : s.now ≤ now') :
    ({ s with now := now' } : CacheRun BTree V).Sound maxExpireTime :=
  ⟨h.store, h.published, fun c => (h.calls c).mono hn [], h.asked, h.hits⟩

theorem withActor (h : s.Sound maxExpireTime) (actor : ActorPC) :
    ({ s with actor := actor } : CacheRun BTree V).Sound maxExpireTime :=
  ⟨h.store, h.published, h.calls, h.asked, h.hits⟩

theorem publish (h : s.Sound maxExpireTime) {store : CacheStore BTree V}
    (hs : AllStored maxExpireTime s.trace store) :
    ({ s with store := store, published := store :: s.published } : CacheRun BTree V).Sound
      maxExpireTime := by
  refine ⟨List.mem_cons_self, fun store' h' => ?_, h.calls, h.asked, h.hits⟩
  rcases List.mem_cons.1 h' with rfl | h'
  · exact hs
  · exact h.published store' h'

/-- A call goes on, and nothing else happens. -/
theorem goto (h : s.Sound maxExpireTime) {c : Nat} {pc : CallPC BTree V}
    (hpc : pc.Sound maxExpireTime s.now s.trace c)
    (hasked : (s.calls c).asked = true → pc.asked = true) : (s.goto c pc).Sound maxExpireTime := by
  refine ⟨h.store, h.published, forall_calls_goto hpc fun c' _ => h.calls c',
    forall_calls_goto (fun ip result hmem => hasked (h.asked c ip result hmem))
      fun c' _ => h.asked c', h.hits⟩

/-- A call goes on with an event: the answer to it, or a hit of its own. -/
theorem act (h : s.Sound maxExpireTime) {c : Nat} {pc : CallPC BTree V} {ev : CacheEvent V}
    (hpc : pc.Sound maxExpireTime s.now (ev :: s.trace) c) (hasked : pc.asked = true)
    (hanswered : ∀ c' ip result, ev = .answered c' ip result → c' = c)
    (hhit : ∀ c' entry began, ev = .hit c' entry began →
      HitSound maxExpireTime c' entry began s.trace) :
    ((s.log ev).goto c pc).Sound maxExpireTime := by
  refine ⟨h.store, fun store hs => (h.published store hs).append [ev],
    forall_calls_goto hpc fun c' _ => (h.calls c').mono le_rfl [ev],
    forall_calls_goto (fun _ _ _ => hasked) fun c' hc ip result hmem => ?_,
    fun later c' entry began earlier htr => ?_⟩
  · rcases List.mem_cons.1 hmem with hev | hmem
    · exact absurd (hanswered c' ip result hev.symm) hc
    · exact h.asked c' ip result hmem
  · cases later with
    | nil =>
      obtain ⟨hev, rfl⟩ := List.cons.inj htr
      exact hhit c' entry began hev
    | cons ev' later => exact h.hits later c' entry began earlier (List.cons.inj htr).2

theorem move (h : s.Sound maxExpireTime) (hm : Move maxExpireTime s a t) :
    t.Sound maxExpireTime := by
  cases hm with
  | ticked d => exact h.withNow (by omega)
  | stopped => exact h.withActor _
  | called hc => exact h.goto trivial (by rw [hc]; exact id)
  | @read c ip began version store hc hs =>
    refine h.goto (fun entry he => ?_) (by rw [hc]; exact id)
    exact ⟨(IPInfoCacheEntry.same_iff_key.1 (same_of_get he)).symm,
      h.published store hs entry (mem_of_get he)⟩
  | @hit c ip began entry value hc hlt hv =>
    have hpc := h.calls c
    rw [hc] at hpc
    obtain ⟨hkey, hstored⟩ := hpc entry rfl
    refine h.act ?_ rfl (by rintro _ _ _ ⟨⟩) ?_
    · exact fun _ => ⟨entry, value, s.now, List.mem_cons_self, hkey, hv, rfl⟩
    · rintro _ _ _ ⟨⟩
      refine ⟨hstored, hlt, fun ip result hmem => ?_⟩
      have ha := h.asked c ip result hmem
      rw [hc] at ha
      cases ha
  | missed hc => exact h.goto trivial (by rw [hc]; exact id)
  | failed hc => exact h.act (by rintro ⟨⟩) rfl (by rintro _ _ _ ⟨⟩; rfl) (by rintro _ _ _ ⟨⟩)
  | nothing hc => exact h.act (by rintro ⟨⟩) rfl (by rintro _ _ _ ⟨⟩; rfl) (by rintro _ _ _ ⟨⟩)
  | answered hc =>
    exact h.act ⟨List.mem_cons_self, trivial⟩ rfl (by rintro _ _ _ ⟨⟩; rfl) (by rintro _ _ _ ⟨⟩)
  | @accepted c ip began result access hc =>
    have hpc := h.calls c
    rw [hc] at hpc
    exact (h.withActor _).goto hpc fun _ => rfl
  | refused hc => exact h.goto (by rintro ⟨⟩) fun _ => rfl
  | @submitted c ip began result access hc =>
    have hpc := h.calls c
    rw [hc] at hpc
    exact (h.withActor _).goto hpc fun _ => rfl
  | @cloned c ip began result ha hc =>
    have hpc := h.calls c
    rw [hc] at hpc
    exact (h.withActor _).act
      ⟨List.mem_cons_of_mem _ hpc.1, (h.published s.store h.store).clone.append [_]⟩ rfl
      (by rintro _ _ _ ⟨⟩) (by rintro _ _ _ ⟨⟩)
  | @stored c ip began result clonedStore entry ha hc =>
    have hpc := h.calls c
    rw [hc] at hpc
    have hnew := (h.withActor .selecting).publish hpc.2
    refine hnew.act ?_ rfl (by rintro _ _ _ ⟨⟩) (by rintro _ _ _ ⟨⟩)
    exact ⟨List.mem_cons_of_mem _ hpc.1, trivial⟩
  | @stamped c ip began result clonedStore hc =>
    have hpc := h.calls c
    rw [hc] at hpc
    exact h.goto ⟨hpc.1, hpc.2, rfl, rfl, le_rfl⟩ fun _ => rfl
  | @inserted c ip began result clonedStore entry hc =>
    have hpc := h.calls c
    rw [hc] at hpc
    obtain ⟨hanswered, hall, rfl, hvalue, hexp⟩ := hpc
    refine h.act ⟨List.mem_cons_of_mem _ hanswered, ?_⟩ rfl (by rintro _ _ _ ⟨⟩)
      (by rintro _ _ _ ⟨⟩)
    exact (hall.append [_]).replaceOrInsert
      ⟨c, result, s.now, [], s.trace, rfl, hanswered, hvalue, hexp⟩
  | finished hc => exact h.goto (by rintro ⟨⟩) fun _ => rfl

end CacheRun.Sound

theorem cache_sound (h : (cacheSystem BTree V maxExpireTime now).Reachable .any s) :
    s.Sound maxExpireTime :=
  h.invariant CacheRun.Sound.start fun _ _ _ hs _ hst => hs.move (CacheRun.step_move hst)

/-- A hit is the value that an earlier call got for the same key, and what is in a tree that is
or was the store is a value the upstream gave. -/
theorem cache_hit_sound (maxExpireTime now : Int) (s : CacheRun BTree V)
    (h : (cacheSystem BTree V maxExpireTime now).Reachable .any s) :
    (∀ c stats result, s.calls c = .returned stats result → stats.cacheHit = true →
      ∃ entry value time later earlier, s.trace = later ++ .hit c entry time :: earlier ∧
        entry.key = stats.ip ∧ entry.value = some value ∧ result = .ok (some value) ∧
        HitSound maxExpireTime c entry time earlier) ∧
    ∀ store ∈ s.published, ∀ entry ∈ items store, ∃ c value,
      entry.value = some value ∧ .answered c entry.key (.ok (some value)) ∈ s.trace := by
  have hs := cache_sound h
  constructor
  · intro c stats result hc hhit
    have hpc := hs.calls c
    rw [hc] at hpc
    obtain ⟨entry, value, time, hmem, hkey, hvalue, hresult⟩ := hpc hhit
    obtain ⟨later, earlier, htr⟩ := List.append_of_mem hmem
    exact ⟨entry, value, time, later, earlier, htr, hkey, hvalue, hresult,
      hs.hits later c entry time earlier htr⟩
  · intro store hstore entry he
    obtain ⟨c, value, _, later, earlier, htr, hmem, hvalue, _⟩ := hs.published store hstore entry he
    refine ⟨c, value, hvalue, ?_⟩
    rw [htr]
    exact List.mem_append_right _ (List.mem_cons_of_mem _ hmem)

/-- The steps of a call that misses, up to its clone. -/
def missUntilCloned (c : Nat) (ip value : String) : List (CacheAction String) :=
  [.call c ip, .read c 0, .check c, .answer c (.ok (some value)), .accept c, .submit c, .serve]

/-- The steps from the clone to the end. -/
def storeClone (c : Nat) : List (CacheAction String) :=
  [.stamp c, .insert c, .accept c, .submit c, .serve, .finish c]

/-- The call has returned what it found in the cache. -/
def returnedHit (c : Nat) (s : CacheRun BTree V) : Bool :=
  match s.calls c with
  | .returned stats _ => stats.cacheHit
  | _ => false

/-- The second call for an address hits. -/
theorem cache_hit_sound_second :
    ∃ s, (cacheSystem SortedList String 60 0).Reachable .any s ∧
      (∃ stats result, s.calls 1 = .returned stats result ∧ stats.cacheHit = true) ∧
      (∀ c stats result, s.calls c = .returned stats result → stats.cacheHit = true →
        ∃ entry value time later earlier, s.trace = later ++ .hit c entry time :: earlier ∧
          entry.key = stats.ip ∧ entry.value = some value ∧ result = .ok (some value) ∧
          HitSound 60 c entry time earlier) ∧
      ∀ store ∈ s.published, ∀ entry ∈ items store, ∃ c value,
        entry.value = some value ∧ .answered c entry.key (.ok (some value)) ∈ s.trace := by
  obtain ⟨s, hr, hp⟩ := System.exists_of_replay (cacheSystem SortedList String 60 0) .any
    (returnedHit 1)
    (missUntilCloned 0 "192.0.2.1" "AS64496" ++ storeClone 0 ++
      ([.tick 59, .call 1 "192.0.2.1", .read 1 0, .check 1] : List (CacheAction String)))
    (by decide)
  refine ⟨s, hr, ?_, cache_hit_sound 60 0 s hr⟩
  rw [returnedHit] at hp
  split at hp
  · next stats result hc => exact ⟨stats, result, hc, hp⟩
  · cases hp

end Soundness

end CloudPing.Ipinfo
