import CloudPing.Conc.System
import CloudPing.Nodereg.ConnRegistry

/-!
# The connections do not interfere

The handlers of all connections send their requests to one actor, which runs one of them at a
time.  Any number of requests may wait, for one connection and for different ones, and the
actor may take any of them next.

A request reads and writes the entry of its own key only (`lookup_run`, `lookup_run_of_ne`).  So the
entry of a key is what the requests of this key alone would have made of it (`Isolated.own`),
and a message that comes too late for its connection finds nothing and changes nothing
(`Isolated.closed`).

A request that waits when the map is closed is never run, so it is not here.
-/

namespace CloudPing.Nodereg

open Conc
open CloudPing.Auth

/-! ## Requests -/

inductive RegistryRequest where
  /-- The clock is read before the request is sent. -/
  | openConnection (quicConn : Option Nat) (now : Time)
  | closeConnection
  | register (payload : RegisterPayload) (claims : Option RegisteredClaims)
  | updateHeartbeat
  | setAttributes (announcement : AttributesAnnouncementPayload)

namespace RegistryRequest

def opens : RegistryRequest → Bool
  | .openConnection _ _ => true
  | _ => false

/-- The request comes of a message of the connection. -/
def isMessage : RegistryRequest → Bool
  | .register _ _ | .updateHeartbeat | .setAttributes _ => true
  | .openConnection _ _ | .closeConnection => false

end RegistryRequest

/-- The error of a message whose connection has no entry. -/
def notFound (key : String) : String := "connection from " ++ key ++ " not found in registry"

/-- The map after `Get` with an update, and what the operation returns. -/
def found (key : String) (cr : ConnRegistry) : Option ConnRegistry → ConnRegistry × Option String
  | some cr' => (cr', none)
  | none => (cr, some (notFound key))

/-- What the actor runs, and what the operation returns. -/
def RegistryRequest.run (now : Time) (key : String) (cr : ConnRegistry) :
    RegistryRequest → ConnRegistry × Option String
  | .openConnection quicConn openedAt => (cr.openConnection key quicConn openedAt, none)
  | .closeConnection => (cr.closeConnection key, none)
  | .register payload claims => found key cr (cr.register key payload claims now)
  | .updateHeartbeat => found key cr (cr.updateHeartbeat key now)
  | .setAttributes announcement => found key cr (cr.setAttributes key announcement)

/-! ## Runs of the actor -/

/-- A request that has been run at a time. -/
structure Executed where
  key : String
  req : RegistryRequest
  now : Time
  before : ConnRegistry
  after : ConnRegistry
  err : Option String

inductive ActorCall where
  /-- It waits for the actor. -/
  | waiting (key : String) (req : RegistryRequest)
  | returned (err : Option String)

structure ActorRun where
  store : ConnRegistry
  calls : List ActorCall
  /-- What has been run, in this order. -/
  events : List Executed

inductive ActorAction where
  | issue (key : String) (req : RegistryRequest)
  /-- The actor runs the request of the call. -/
  | serve (n : Nat) (now : Time)

namespace ActorRun

def start : ActorRun := ⟨∅, [], []⟩

def step (s : ActorRun) : ActorAction → Option ActorRun
  | .issue key req => some { s with calls := s.calls ++ [.waiting key req] }
  | .serve n now =>
    match s.calls[n]? with
    | some (.waiting key req) =>
      let result := req.run now key s.store
      some {
        store := result.1
        calls := s.calls.set n (.returned result.2)
        events := s.events ++ [⟨key, req, now, s.store, result.1, result.2⟩] }
    | _ => none

/-- All runs of the actor of a registry. -/
def system : System ActorRun ActorAction := ⟨start, step⟩

/-- The requests of a connection, in the order they were run, and the clock. -/
def requestsOf (s : ActorRun) (key : String) : List (RegistryRequest × Time) :=
  (s.events.filter fun e => e.key = key).map fun e => (e.req, e.now)

end ActorRun

/-- The map that the requests of one connection alone make. -/
def alone (key : String) (requests : List (RegistryRequest × Time)) : ConnRegistry :=
  requests.foldl (fun cr r => (r.1.run r.2 key cr).1) ∅

/-- What holds of the connections at any time. -/
structure Isolated (s : ActorRun) : Prop where
  /-- An entry is what the requests of its connection alone make of it. -/
  own : ∀ key, s.store.lookup key = (alone key (s.requestsOf key)).lookup key
  /-- A request leaves the other entries as they are. -/
  frame : ∀ e ∈ s.events, ∀ key, key ≠ e.key → e.after.lookup key = e.before.lookup key
  /-- An announcement takes the withdrawals away and sets its attributes, and that is all. -/
  announced : ∀ e ∈ s.events, ∀ announcement data, e.req = .setAttributes announcement →
    e.before.lookup e.key = some data →
      ∃ attributes, e.after.lookup e.key = some { data with attributes := attributes } ∧
        ∀ name, attributes.lookup name =
          (announcement.attributes.lookup name).or
            (if name ∈ announcement.withdrawals then none else data.attributes.lookup name)
  /-- A message behind the close of its connection changes nothing and returns an error. -/
  closed : ∀ earlier e later, s.events = earlier ++ e :: later → e.req = .closeConnection →
    (∀ e' ∈ later, e'.key = e.key → e'.req.opens = false) →
      s.store.lookup e.key = none ∧
        ∀ e' ∈ later, e'.key = e.key → e'.req.isMessage = true →
          e'.err = some (notFound e.key) ∧ e'.after = e'.before

/-! ## One request -/

section Request

variable {now : Time} {key key' : String} {cr cr' : ConnRegistry} {req : RegistryRequest}

theorem found_update_some {entry : ConnRegistryData} (op : ConnRegistryData → ConnRegistryData)
    (h : cr.lookup key = some entry) :
    found key cr (cr.update key op) = (cr.insert key (op entry), none) := by
  rw [ConnRegistry.update, h]
  rfl

theorem found_update_none (op : ConnRegistryData → ConnRegistryData) (h : cr.lookup key = none) :
    found key cr (cr.update key op) = (cr, some (notFound key)) := by
  rw [ConnRegistry.update, h]
  rfl

/-- A message updates the entry of its key, if there is one. -/
theorem run_message (h : req.isMessage = true) (now : Time) :
    ∃ op, ∀ key cr, req.run now key cr = found key cr (ConnRegistry.update cr key op) := by
  cases req with
  | openConnection | closeConnection => cases h
  | register payload claims => exact ⟨_, fun key cr => rfl⟩
  | updateHeartbeat => exact ⟨_, fun key cr => rfl⟩
  | setAttributes announcement => exact ⟨_, fun key cr => rfl⟩

/-- A message without an entry changes nothing and returns an error. -/
theorem run_of_none (hm : req.isMessage = true) (h : cr.lookup key = none) :
    req.run now key cr = (cr, some (notFound key)) := by
  obtain ⟨op, hop⟩ := run_message hm now
  rw [hop, found_update_none op h]

/-- What a request does to the entry of its key depends on this entry only. -/
theorem lookup_run_congr (h : cr.lookup key = cr'.lookup key) :
    (req.run now key cr).1.lookup key = (req.run now key cr').1.lookup key := by
  by_cases hm : req.isMessage = true
  · obtain ⟨op, hop⟩ := run_message hm now
    rw [hop, hop]
    cases hentry : cr.lookup key with
    | none =>
      rw [found_update_none op hentry, found_update_none op (h ▸ hentry)]
      exact h
    | some entry =>
      rw [found_update_some op hentry, found_update_some op (h ▸ hentry)]
      exact (AList.lookup_insert cr).trans (AList.lookup_insert cr').symm
  · cases req with
    | openConnection => exact (AList.lookup_insert cr).trans (AList.lookup_insert cr').symm
    | closeConnection => exact (AList.lookup_erase key cr).trans (AList.lookup_erase key cr').symm
    | register | updateHeartbeat | setAttributes => exact absurd rfl hm

/-- A request leaves the other entries as they are. -/
theorem lookup_run_of_ne (h : key' ≠ key) :
    (req.run now key cr).1.lookup key' = cr.lookup key' := by
  by_cases hm : req.isMessage = true
  · obtain ⟨op, hop⟩ := run_message hm now
    rw [hop]
    cases hentry : cr.lookup key with
    | none => rw [found_update_none op hentry]
    | some entry =>
      rw [found_update_some op hentry]
      exact AList.lookup_insert_ne h
  · cases req with
    | openConnection => exact AList.lookup_insert_ne h
    | closeConnection => exact AList.lookup_erase_ne h
    | register | updateHeartbeat | setAttributes => exact absurd rfl hm

/-- A request that opens no connection makes no entry. -/
theorem lookup_run_eq_none (ho : req.opens = false) (h : cr.lookup key = none) :
    (req.run now key cr).1.lookup key = none := by
  by_cases hm : req.isMessage = true
  · rw [run_of_none hm h]
    exact h
  · cases req with
    | openConnection => cases ho
    | closeConnection => exact AList.lookup_erase key cr
    | register | updateHeartbeat | setAttributes => exact absurd rfl hm

end Request

/-! ## Announcements -/

section Announcements

variable {attrs : ConnectionAttributes} {name : String}

theorem lookup_foldl_erase (withdrawals : List String) :
    (withdrawals.foldl (fun attrs k => attrs.erase k) attrs).lookup name =
      if name ∈ withdrawals then none else attrs.lookup name := by
  induction withdrawals generalizing attrs with
  | nil => rfl
  | cons k ks ih =>
    rw [List.foldl_cons, ih, Store.lookup_erase_eq]
    by_cases hk : name = k
    · simp [hk]
    · simp [hk]

theorem lookup_foldl_insert {l : List (Sigma fun _ : String => String)} (hl : l.NodupKeys) :
    (l.foldl (fun attrs e => attrs.insert e.1 e.2) attrs).lookup name =
      (l.dlookup name).or (attrs.lookup name) := by
  induction l generalizing attrs with
  | nil => rfl
  | cons e l ih =>
    obtain ⟨hnot, hl'⟩ := List.nodupKeys_cons.1 hl
    rw [List.foldl_cons, ih hl', Store.lookup_insert_eq]
    by_cases he : name = e.1
    · subst he
      rw [if_pos rfl, List.dlookup_eq_none.2 hnot, List.dlookup_cons_eq]
      rfl
    · rw [if_neg he, List.dlookup_cons_ne _ _ he]

/-- The withdrawals are gone, unless they are set anew, and all other attributes are as they
were. -/
theorem lookup_announced (announcement : AttributesAnnouncementPayload) :
    (ConnRegistry.announced announcement attrs).lookup name =
      (announcement.attributes.lookup name).or
        (if name ∈ announcement.withdrawals then none else attrs.lookup name) := by
  rw [ConnRegistry.announced, lookup_foldl_insert announcement.attributes.nodupKeys,
    lookup_foldl_erase]
  rfl

end Announcements

/-! ## All requests -/

/-- The requests were run one after the other. -/
def Chained : ConnRegistry → List Executed → ConnRegistry → Prop
  | cr, [], cr' => cr' = cr
  | cr, e :: es, cr' =>
    e.before = cr ∧ (e.after, e.err) = e.req.run e.now e.key cr ∧ Chained e.after es cr'

section Chained

variable {cr cr' cr₀ : ConnRegistry} {es : List Executed} {key : String}

theorem Chained.append {e : Executed} (h : Chained cr es e.before)
    (he : (e.after, e.err) = e.req.run e.now e.key e.before) :
    Chained cr (es ++ [e]) e.after := by
  induction es generalizing cr with
  | nil =>
    obtain rfl : e.before = cr := h
    exact ⟨rfl, he, rfl⟩
  | cons e' es ih => exact ⟨h.1, h.2.1, ih h.2.2⟩

theorem Chained.split {later : List Executed} {e : Executed}
    (h : Chained cr (es ++ e :: later) cr') :
    (e.after, e.err) = e.req.run e.now e.key e.before ∧ Chained e.after later cr' := by
  induction es generalizing cr with
  | nil =>
    obtain ⟨hb, he, hl⟩ := h
    exact ⟨hb.symm ▸ he, hl⟩
  | cons e' es ih => exact ih h.2.2

theorem Chained.mem {e : Executed} (h : Chained cr es cr') (he : e ∈ es) :
    (e.after, e.err) = e.req.run e.now e.key e.before := by
  obtain ⟨earlier, later, rfl⟩ := List.append_of_mem he
  exact h.split.1

/-- An entry is what the requests of its key make of it. -/
theorem Chained.own (h : Chained cr es cr') (hkey : cr.lookup key = cr₀.lookup key) :
    cr'.lookup key =
      (((es.filter fun e => e.key = key).map fun e => (e.req, e.now)).foldl
        (fun cr r => (r.1.run r.2 key cr).1) cr₀).lookup key := by
  induction es generalizing cr cr₀ with
  | nil =>
    obtain rfl : cr' = cr := h
    exact hkey
  | cons e es ih =>
    obtain ⟨hb, he, hes⟩ := h
    have hafter : e.after = (e.req.run e.now e.key cr).1 := congrArg Prod.fst he
    by_cases hk : e.key = key
    · rw [List.filter_cons_of_pos (by simpa using hk), List.map_cons, List.foldl_cons]
      refine ih hes ?_
      rw [hafter, hk]
      exact lookup_run_congr hkey
    · rw [List.filter_cons_of_neg (by simpa using hk)]
      refine ih hes ?_
      rw [hafter, lookup_run_of_ne (Ne.symm hk)]
      exact hkey

/-- Without an entry, messages come too late until the connection is opened again. -/
theorem Chained.late (h : Chained cr es cr') (hkey : cr.lookup key = none)
    (hopen : ∀ e ∈ es, e.key = key → e.req.opens = false) :
    cr'.lookup key = none ∧ ∀ e ∈ es, e.key = key → e.req.isMessage = true →
      e.err = some (notFound key) ∧ e.after = e.before := by
  induction es generalizing cr with
  | nil =>
    obtain rfl : cr' = cr := h
    exact ⟨hkey, fun _ he => (List.not_mem_nil he).elim⟩
  | cons e es ih =>
    obtain ⟨hb, he, hes⟩ := h
    have hafter : e.after = (e.req.run e.now e.key cr).1 := congrArg Prod.fst he
    have hnone : e.after.lookup key = none := by
      by_cases hk : e.key = key
      · rw [hafter, hk]
        exact lookup_run_eq_none (hopen e List.mem_cons_self hk) hkey
      · rw [hafter, lookup_run_of_ne (Ne.symm hk)]
        exact hkey
    obtain ⟨hlast, hall⟩ := ih hes hnone fun e' he' => hopen e' (List.mem_cons_of_mem _ he')
    refine ⟨hlast, fun e' he' hk hm => ?_⟩
    rcases List.mem_cons.1 he' with rfl | he'
    · rw [hk, run_of_none hm hkey] at he
      exact ⟨congrArg Prod.snd he, (congrArg Prod.fst he).trans hb.symm⟩
    · exact hall e' he' hk hm

end Chained

/-! ## All runs -/

theorem chained_of_reachable {s : ActorRun} (h : ActorRun.system.Reachable .any s) :
    Chained ∅ s.events s.store := by
  have hstart : Chained ∅ ActorRun.start.events ActorRun.start.store := rfl
  refine System.Reachable.invariant (I := fun s : ActorRun => Chained ∅ s.events s.store) h hstart
    fun s a t hs _ hst => ?_
  cases a with
  | issue key req =>
    cases Option.some.inj hst
    exact hs
  | serve n now =>
    simp only [ActorRun.system, ActorRun.step] at hst
    split at hst
    · cases Option.some.inj hst
      exact hs.append (e := ⟨_, _, now, s.store, _, _⟩) rfl
    · cases hst

theorem isolated_of_chained {s : ActorRun} (h : Chained ∅ s.events s.store) : Isolated s where
  own key := h.own rfl
  frame e he key hkey := by
    have hafter : e.after = (e.req.run e.now e.key e.before).1 := congrArg Prod.fst (h.mem he)
    rw [hafter, lookup_run_of_ne hkey]
  announced e he announcement data hreq hdata := by
    have hafter : e.after = (e.req.run e.now e.key e.before).1 := congrArg Prod.fst (h.mem he)
    refine ⟨ConnRegistry.announced announcement data.attributes, ?_, fun name => lookup_announced _⟩
    rw [hafter, hreq]
    have hrun := found_update_some (fun entry : ConnRegistryData =>
      { entry with attributes := ConnRegistry.announced announcement entry.attributes }) hdata
    rw [RegistryRequest.run, ConnRegistry.setAttributes, hrun]
    exact AList.lookup_insert e.before
  closed earlier e later hevents hreq hopen := by
    rw [hevents] at h
    obtain ⟨he, hlater⟩ := h.split
    refine hlater.late ?_ hopen
    have hafter : e.after = (e.req.run e.now e.key e.before).1 := congrArg Prod.fst he
    rw [hafter, hreq]
    exact AList.lookup_erase e.key e.before

/-- In every run the connections are isolated, and two runs with the same requests of a connection
have the same entry for it. -/
theorem registry_isolated :
    (∀ s, ActorRun.system.Reachable .any s → Isolated s) ∧
      ∀ s s', ActorRun.system.Reachable .any s → ActorRun.system.Reachable .any s' →
        ∀ key, s.requestsOf key = s'.requestsOf key → s.store.lookup key = s'.store.lookup key := by
  refine ⟨fun s h => isolated_of_chained (chained_of_reachable h), fun s s' h h' key hkey => ?_⟩
  rw [(isolated_of_chained (chained_of_reachable h)).own key, hkey]
  exact ((isolated_of_chained (chained_of_reachable h')).own key).symm

end CloudPing.Nodereg
