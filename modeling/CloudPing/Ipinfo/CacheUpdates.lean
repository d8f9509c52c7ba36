import CloudPing.Ipinfo.Cache

/-!
# Updates of the cache

A call that misses clones the store, puts its entry into the clone and makes the clone the
store.  Between the two services another call can do the same: the clone of the first is then
older than the store it replaces, and the entry of the second is gone (`update_lost`).

`freshClone` forbids just that: when a call makes its clone the store, no entry that was put
in for another address after the clone is still to be found there and unexpired.  In runs that
meet it every update stays until it is overwritten for the same address or expires
(`no_lost_update`).
-/

namespace CloudPing.Ipinfo

open Conc Btree Btree.OrderedTree CacheRun

universe u

variable {BTree : (α : Type u) → [Item α] → Type u} [OrderedTree BTree] {V : Type u}
  {maxExpireTime now : Int} {s t : CacheRun BTree V} {tr : List (CacheEvent V)}
  {ev : CacheEvent V} {c : Nat} {ip : String} {entry : IPInfoCacheEntry V}
  {clonedStore : CacheStore BTree V}

/-! ## What was stored last -/

/-- The entry for the address that was put into the store last. -/
def lastStored (ip : String) : List (CacheEvent V) → Option (IPInfoCacheEntry V)
  | [] => none
  | .stored _ entry :: tr => if entry.key = ip then some entry else lastStored ip tr
  | _ :: tr => lastStored ip tr

def CacheEvent.isCloneOf (c : Nat) : CacheEvent V → Bool
  | .cloned c' => c' == c
  | _ => false

def CacheEvent.storedEntry : CacheEvent V → Option (IPInfoCacheEntry V)
  | .stored _ entry => some entry
  | _ => none

/-- What happened since the call has got its clone. -/
def sinceClone (c : Nat) (tr : List (CacheEvent V)) : List (CacheEvent V) :=
  tr.takeWhile fun ev => !ev.isCloneOf c

theorem sinceClone_cons (h : ev.isCloneOf c = false) :
    sinceClone c (ev :: tr) = ev :: sinceClone c tr := by
  rw [sinceClone, List.takeWhile_cons, h]
  rfl

theorem lastStored_append (later earlier : List (CacheEvent V)) :
    lastStored ip (later ++ earlier) = (lastStored ip later).or (lastStored ip earlier) := by
  induction later with
  | nil => rfl
  | cons ev later ih =>
    cases ev with
    | stored c entry =>
      simp only [List.cons_append, lastStored, ih]
      split <;> rfl
    | answered | cloned | inserted | hit => exact ih

theorem key_of_lastStored (h : lastStored ip tr = some entry) : entry.key = ip := by
  induction tr with
  | nil => cases h
  | cons ev tr ih =>
    cases ev with
    | stored c other =>
      rw [lastStored] at h
      split at h
      · next hk =>
        cases h
        exact hk
      · exact ih h
    | answered | cloned | inserted | hit => exact ih h

theorem mem_of_lastStored (h : lastStored ip tr = some entry) :
    entry ∈ tr.filterMap CacheEvent.storedEntry := by
  induction tr with
  | nil => cases h
  | cons ev tr ih =>
    cases ev with
    | stored c other =>
      rw [lastStored] at h
      have hother : CacheEvent.storedEntry (.stored c other) = some other := rfl
      rw [List.filterMap_cons_some hother]
      split at h
      · cases h
        exact List.mem_cons_self
      · exact List.mem_cons_of_mem _ (ih h)
    | answered | cloned | inserted | hit => exact ih h

/-- The last one since the clone, if there is one, is the last one of all. -/
theorem lastStored_of_since (h : lastStored ip (sinceClone c tr) = some entry) :
    lastStored ip tr = some entry := by
  rw [← List.takeWhile_append_dropWhile (l := tr), lastStored_append]
  rw [sinceClone] at h
  rw [h]
  rfl

theorem find_replaceOrInsert (store : CacheStore BTree V) :
    CacheStore.find (replaceOrInsert store entry) ip =
      if entry.key = ip then some entry else store.find ip := by
  rw [CacheStore.find, get_replaceOrInsert]
  have hsame : same (IPInfoCacheEntry.ofKey ip) entry = true ↔ entry.key = ip :=
    IPInfoCacheEntry.same_iff_key.trans eq_comm
  by_cases hk : entry.key = ip
  · rw [if_pos hk, if_pos (hsame.2 hk)]
  · rw [if_neg hk, if_neg (mt hsame.1 hk)]
    rfl

/-! ## The promise and the condition -/

/-- A call that returned a result it had not found in the cache has put it into the store, and
there it is until it is overwritten or expires. -/
def NoLostUpdate (s : CacheRun BTree V) : Prop :=
  ∀ c stats value, s.calls c = .returned stats (.ok (some value)) → stats.cacheHit = false →
    ∃ entry, .stored c entry ∈ s.trace ∧ entry.key = stats.ip ∧ entry.value = some value ∧
      (s.now < entry.expiresAt → lastStored entry.key s.trace = some entry →
        s.store.find entry.key = some entry)

/-- The call whose clone the actor is about to make the store, and its address. -/
def CacheRun.setting (s : CacheRun BTree V) : Option (Nat × String) :=
  match s.actor with
  | .serving c =>
    match s.calls c with
    | .updating ip _ _ (.waiting (.setStore _ _)) => some (c, ip)
    | _ => none
  | _ => none

/-- A clone becomes the store only if what was put in last for another address, since the
clone, has expired. -/
def freshClone : Policy (CacheRun BTree V) (CacheAction V) := fun s a =>
  match a with
  | .serve =>
    ∀ p ∈ s.setting, ∀ other ∈ (sinceClone p.1 s.trace).filterMap CacheEvent.storedEntry,
      lastStored other.key (sinceClone p.1 s.trace) = some other →
        other.key = p.2 ∨ other.expiresAt ≤ s.now
  | _ => True

instance [DecidableEq V] : ∀ (s : CacheRun BTree V) a, Decidable (freshClone s a) := fun s a =>
  match a with
  | .serve => inferInstanceAs (Decidable (∀ p ∈ s.setting, _))
  | .tick _ | .call .. | .read .. | .check _ | .answer .. | .accept _ | .refuse _ | .submit _
  | .stamp _ | .insert _ | .finish _ | .stop => isTrue trivial

/-! ## The condition is enough -/

/-- The clone of a call has what was put in last before the clone, unless it has expired; for
its own address it need not. -/
def Covers (c : Nat) (ip : String) (tr : List (CacheEvent V)) (now : Int)
    (clonedStore : CacheStore BTree V) : Prop :=
  ∀ other entry, other ≠ ip → lastStored other (sinceClone c tr) = none →
    lastStored other tr = some entry → now < entry.expiresAt →
      clonedStore.find other = some entry

/-- What happens, other than a new clone of the call, takes nothing from its clone. -/
theorem Covers.cons (h : Covers c ip tr now clonedStore) (hev : ev.isCloneOf c = false) :
    Covers c ip (ev :: tr) now clonedStore := by
  intro other entry hne hsince hlast hlive
  rw [sinceClone_cons hev] at hsince
  cases ev with
  | stored c' entry' =>
    simp only [lastStored] at hsince hlast
    split at hsince
    · cases hsince
    · next hk =>
      rw [if_neg hk] at hlast
      exact h other entry hne hsince hlast hlive
  | answered | cloned | inserted | hit => exact h other entry hne hsince hlast hlive

theorem Covers.later (h : Covers c ip tr now clonedStore) {now' : Int} (hn : now ≤ now') :
    Covers c ip tr now' clonedStore :=
  fun other entry hne hsince hlast hlive => h other entry hne hsince hlast (by omega)

theorem Covers.replaceOrInsert (h : Covers c ip tr now clonedStore) (hkey : entry.key = ip) :
    Covers c ip tr now (replaceOrInsert clonedStore entry) := by
  intro other entry' hne hsince hlast hlive
  rw [find_replaceOrInsert, if_neg (by rw [hkey]; exact hne.symm)]
  exact h other entry' hne hsince hlast hlive

/-- The call has put an entry with its result into the store. -/
def Updated (c : Nat) (ip : String) (result : V) (tr : List (CacheEvent V)) : Prop :=
  ∃ entry, .stored c entry ∈ tr ∧ entry.key = ip ∧ entry.value = some result

theorem Updated.cons {result : V} (h : Updated c ip result tr) :
    Updated c ip result (ev :: tr) := by
  obtain ⟨entry, hmem, h⟩ := h
  exact ⟨entry, List.mem_cons_of_mem _ hmem, h⟩

def CacheStoreAccess.Kept (c : Nat) (ip : String) (result : V) (tr : List (CacheEvent V))
    (now : Int) : CacheStoreAccess BTree V → Prop
  | .cloneStore => True
  | .setStore clonedStore entry =>
    Covers c ip tr now clonedStore ∧ clonedStore.find ip = some entry ∧ entry.key = ip ∧
      entry.value = some result

def UpdatePC.Kept (c : Nat) (ip : String) (result : V) (tr : List (CacheEvent V)) (now : Int) :
    UpdatePC BTree V → Prop
  | .requesting access | .submitting access | .waiting access => access.Kept c ip result tr now
  | .cloned clonedStore => Covers c ip tr now clonedStore
  | .inserting clonedStore entry =>
    Covers c ip tr now clonedStore ∧ entry.key = ip ∧ entry.value = some result
  | .updated => Updated c ip result tr

def CallPC.Kept (tr : List (CacheEvent V)) (now : Int) (c : Nat) : CallPC BTree V → Prop
  | .updating ip _ result pc => pc.Kept c ip result tr now
  | .returned stats result =>
    ∀ value, result = .ok (some value) → stats.cacheHit = false → Updated c stats.ip value tr
  | _ => True

theorem CallPC.Kept.later {pc : CallPC BTree V} {now' : Int} (hn : now ≤ now')
    (h : pc.Kept tr now c) : pc.Kept tr now' c := by
  cases pc with
  | notCalled | reading | checking | asking | returned => exact h
  | updating ip began result pc =>
    cases pc with
    | requesting access | submitting access | waiting access =>
      cases access with
      | cloneStore => trivial
      | setStore clonedStore entry => exact ⟨Covers.later h.1 hn, h.2⟩
    | cloned clonedStore => exact Covers.later h hn
    | inserting clonedStore entry => exact ⟨Covers.later h.1 hn, h.2⟩
    | updated => exact h

theorem CallPC.Kept.cons {pc : CallPC BTree V} (hev : ev.isCloneOf c = false)
    (h : pc.Kept tr now c) : pc.Kept (ev :: tr) now c := by
  cases pc with
  | notCalled | reading | checking | asking => trivial
  | updating ip began result pc =>
    cases pc with
    | requesting access | submitting access | waiting access =>
      cases access with
      | cloneStore => trivial
      | setStore clonedStore entry => exact ⟨Covers.cons h.1 hev, h.2⟩
    | cloned clonedStore => exact Covers.cons h hev
    | inserting clonedStore entry => exact ⟨Covers.cons h.1 hev, h.2⟩
    | updated => exact Updated.cons h
  | returned stats result => exact fun value hr hhit => (h value hr hhit).cons

/-- The store has what was put in last, unless it has expired, and so have the clones, but for
what was put in since. -/
structure Kept (s : CacheRun BTree V) : Prop where
  store : ∀ ip entry, lastStored ip s.trace = some entry → s.now < entry.expiresAt →
    s.store.find ip = some entry
  calls : ∀ c, (s.calls c).Kept s.trace s.now c

namespace Kept

theorem start : Kept (CacheRun.start now : CacheRun BTree V) where
  store := by intro ip entry h; cases h
  calls := fun _ => trivial

theorem withActor (h : Kept s) (actor : ActorPC) : Kept { s with actor := actor } :=
  ⟨h.store, h.calls⟩

theorem goto (h : Kept s) {pc : CallPC BTree V} (hpc : pc.Kept s.trace s.now c) :
    Kept (s.goto c pc) :=
  ⟨h.store, forall_calls_goto hpc fun c' _ => h.calls c'⟩

/-- A call goes on with an event that changes no store. -/
theorem act (h : Kept s) {pc : CallPC BTree V} (hpc : pc.Kept (ev :: s.trace) s.now c)
    (hev : ∀ c', c' ≠ c → ev.isCloneOf c' = false)
    (hstored : ∀ c' entry, ev ≠ .stored c' entry) : Kept ((s.log ev).goto c pc) := by
  refine ⟨fun ip entry hlast => h.store ip entry ?_,
    forall_calls_goto hpc fun c' hc => (h.calls c').cons (hev c' hc)⟩
  cases ev with
  | stored c' entry' => exact absurd rfl (hstored c' entry')
  | answered | cloned | inserted | hit => exact hlast

/-- The clone of a call becomes the store. -/
theorem store_clone (h : Kept s) {began : Int} {result : V} (ha : s.actor = .serving c)
    (hc : s.calls c = .updating ip began result (.waiting (.setStore clonedStore entry)))
    (hok : freshClone s .serve) :
    Kept (s.serve c ip began result (.setStore clonedStore entry)) := by
  have hpc := h.calls c
  rw [hc] at hpc
  obtain ⟨hcovers, hown, hkey, hvalue⟩ := hpc
  have hset : s.setting = some (c, ip) := by simp only [setting, ha, hc]
  refine ⟨fun other last hlast hlive => ?_,
    forall_calls_goto ⟨entry, List.mem_cons_self, hkey, hvalue⟩
      fun c' _ => CallPC.Kept.cons rfl (h.calls c')⟩
  show clonedStore.find other = some last
  have hlast : (if entry.key = other then some entry else lastStored other s.trace) =
      some last := hlast
  by_cases ho : entry.key = other
  · rw [if_pos ho] at hlast
    cases hlast
    rw [← ho, hkey]
    exact hown
  · rw [if_neg ho] at hlast
    have hne : other ≠ ip := fun hi => ho (hkey.trans hi.symm)
    refine hcovers other last hne ?_ hlast hlive
    -- what was put in since the clone would be the last one, and is unexpired
    cases hsince : lastStored other (sinceClone c s.trace) with
    | none => rfl
    | some last' =>
      have hlast' := lastStored_of_since hsince
      rw [hlast] at hlast'
      cases hlast'
      have hko := key_of_lastStored hsince
      rcases hok (c, ip) hset last (mem_of_lastStored hsince) (by rw [hko]; exact hsince) with
        hk | hexp
      · exact absurd (hko.symm.trans hk) hne
      · exact absurd hlive (not_lt.2 hexp)

theorem move {a : CacheAction V} (h : Kept s) (hok : freshClone s a)
    (hst : s.step maxExpireTime a = some t) : Kept t := by
  cases step_move hst with
  | ticked d =>
    refine ⟨fun ip entry hlast hlive => h.store ip entry hlast ?_, fun c => ?_⟩
    · exact lt_of_le_of_lt (Int.le_add_of_nonneg_right (Int.natCast_nonneg d)) hlive
    · exact (h.calls c).later (Int.le_add_of_nonneg_right (Int.natCast_nonneg d))
  | stopped => exact h.withActor _
  | called hc => exact h.goto trivial
  | read hc hs => exact h.goto trivial
  | hit hc hlt hv =>
    exact h.act (by rintro _ _ ⟨⟩) (fun _ _ => rfl) (by rintro _ _ ⟨⟩)
  | missed hc => exact h.goto trivial
  | failed hc => exact h.act (by rintro _ ⟨⟩) (fun _ _ => rfl) (by rintro _ _ ⟨⟩)
  | nothing hc => exact h.act (by rintro _ ⟨⟩) (fun _ _ => rfl) (by rintro _ _ ⟨⟩)
  | answered hc => exact h.act trivial (fun _ _ => rfl) (by rintro _ _ ⟨⟩)
  | @accepted c ip began result access hc =>
    have hpc := h.calls c
    rw [hc] at hpc
    exact (h.withActor _).goto hpc
  | refused hc => exact h.goto (by rintro _ ⟨⟩)
  | @submitted c ip began result access hc =>
    have hpc := h.calls c
    rw [hc] at hpc
    exact (h.withActor _).goto hpc
  | @cloned c ip began result ha hc =>
    -- the store itself has what was put in last
    refine (h.withActor .selecting).act (fun other entry _ _ hlast hlive => ?_) ?_
      (by rintro _ _ ⟨⟩)
    · exact get_clone.trans (h.store other entry hlast hlive)
    · intro c' hc'
      simpa [CacheEvent.isCloneOf] using hc'.symm
  | stored ha hc => exact h.store_clone ha hc hok
  | @stamped c ip began result clonedStore hc =>
    have hpc := h.calls c
    rw [hc] at hpc
    exact h.goto ⟨hpc, rfl, rfl⟩
  | @inserted c ip began result clonedStore entry hc =>
    have hpc := h.calls c
    rw [hc] at hpc
    obtain ⟨hcovers, hkey, hvalue⟩ := hpc
    refine h.act ?_ (fun _ _ => rfl) (by rintro _ _ ⟨⟩)
    refine ⟨(hcovers.cons rfl).replaceOrInsert hkey, ?_, hkey, hvalue⟩
    rw [find_replaceOrInsert, if_pos hkey]
  | @finished c ip began result hc =>
    have hpc := h.calls c
    rw [hc] at hpc
    exact h.goto (by rintro _ ⟨⟩ _; exact hpc)

theorem noLostUpdate (h : Kept s) : NoLostUpdate s := by
  intro c stats value hc hhit
  have hpc := h.calls c
  rw [hc] at hpc
  obtain ⟨entry, hmem, hkey, hvalue⟩ := hpc value rfl hhit
  exact ⟨entry, hmem, hkey, hvalue, fun hlive hlast => h.store entry.key entry hlast hlive⟩

end Kept

theorem kept (h : (cacheSystem BTree V maxExpireTime now).Reachable freshClone s) : Kept s :=
  h.invariant Kept.start fun _ _ _ hs hok hst => hs.move hok hst

/-! ## No lost update -/

/-- In a run in which only fresh clones become the store, no update is lost. -/
theorem no_lost_update (maxExpireTime now : Int) (s : CacheRun BTree V)
    (h : (cacheSystem BTree V maxExpireTime now).Reachable freshClone s) : NoLostUpdate s :=
  (kept h).noLostUpdate

/-- The call has returned this value, and not from the cache. -/
def fetched (c : Nat) (value : String) (s : CacheRun SortedList String) : Bool :=
  match s.calls c with
  | .returned stats (.ok result) => result = some value && !stats.cacheHit
  | _ => false

theorem eq_of_fetched {value : String} {s : CacheRun SortedList String}
    (h : fetched c value s = true) :
    ∃ stats, s.calls c = .returned stats (.ok (some value)) ∧ stats.cacheHit = false := by
  rw [fetched] at h
  split at h
  · next stats result hc =>
    obtain ⟨hv, hhit⟩ := Bool.and_eq_true_iff.1 h
    rw [of_decide_eq_true hv] at hc
    exact ⟨stats, hc, by simpa using hhit⟩
  · cases h

/-- Two calls one after the other: both entries are there. -/
theorem no_lost_update_in_turn :
    ∃ s, (cacheSystem SortedList String 60 0).Reachable freshClone s ∧
      (∃ stats, s.calls 1 = .returned stats (.ok (some "AS64497")) ∧ stats.cacheHit = false) ∧
      NoLostUpdate s := by
  obtain ⟨s, hr, hp⟩ := System.exists_of_replay (cacheSystem SortedList String 60 0) freshClone
    (fetched 1 "AS64497")
    (missUntilCloned 0 "192.0.2.1" "AS64496" ++ storeClone 0 ++
      missUntilCloned 1 "192.0.2.2" "AS64497" ++ storeClone 1) (by decide)
  exact ⟨s, hr, eq_of_fetched hp, no_lost_update 60 0 s hr⟩

/-- The call has returned its result, and its entry, unexpired and not overwritten, is not in
the store. -/
def misses (c : Nat) (s : CacheRun SortedList String) : Bool :=
  match s.calls c with
  | .returned stats (.ok (some _)) =>
    !stats.cacheHit && (s.store.find stats.ip).isNone &&
      (s.trace.filterMap CacheEvent.storedEntry).all fun entry =>
        entry.key ≠ stats.ip ||
          (s.now < entry.expiresAt && lastStored entry.key s.trace = some entry)
  | _ => false

theorem not_noLostUpdate_of_misses {s : CacheRun SortedList String} (h : misses c s = true) :
    ¬NoLostUpdate s := by
  intro hs
  rw [misses] at h
  split at h
  · next stats value hc =>
    simp only [Bool.and_eq_true, Bool.not_eq_true', Option.isNone_iff_eq_none] at h
    obtain ⟨⟨hhit, hnone⟩, hall⟩ := h
    obtain ⟨entry, hmem, hkey, _, hfind⟩ := hs c stats value hc hhit
    have hentry := List.all_eq_true.1 hall entry (List.mem_filterMap.2 ⟨_, hmem, rfl⟩)
    simp only [hkey, ne_eq, not_true_eq_false, decide_false, Bool.false_or, Bool.and_eq_true,
      decide_eq_true_eq] at hentry
    have hfound := hfind hentry.1 (by rw [hkey]; exact hentry.2)
    rw [hkey, hnone] at hfound
    cases hfound
  · cases h

/-- Both calls have their clone before either makes it the store: the store of the second does
not have the entry of the first. -/
theorem update_lost :
    ¬∀ s, (cacheSystem SortedList String 60 0).Reachable .any s → NoLostUpdate s := by
  intro h
  obtain ⟨s, hr, hp⟩ := System.exists_of_replay (cacheSystem SortedList String 60 0) .any (misses 0)
    (missUntilCloned 0 "192.0.2.1" "AS64496" ++ missUntilCloned 1 "192.0.2.2" "AS64497" ++
      storeClone 0 ++ storeClone 1) (by decide)
  exact not_noLostUpdate_of_misses hp (h s hr)

end CloudPing.Ipinfo
