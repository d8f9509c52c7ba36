import CloudPing.Conc.System
import Mathlib.Data.String.Basic
import Mathlib.Logic.Function.Basic

/-!
# Reloads of the MMDB files

`doRun` owns the two readers of a `MaxMindMMDBAdapter`.  At its `select` it offers each of them
on a channel of its own, from which the calls take them.  When a file is moved over a database
it closes the reader and opens the file anew, and when it ends it closes both.

A call uses a reader after it has taken it, outside the loop, and nothing tells the loop when
it has done so.  So the loop can close a reader that a call still has.  `closesUnused` forbids
that, and it is the exact condition of what the calls rely on (`reload_guards`).  No call takes a
reader that is nil.

`errChan` has room for the one error of a run and nothing reads it, so it is left out.
-/

namespace CloudPing.Ipinfo

open Conc

/-! ## File system events -/

/-- `fsnotify.Event`, with the two flags of its operation that are looked at. -/
structure FSEvent where
  name : String
  create : Bool
  rename : Bool
  deriving DecidableEq, Repr

inductive Database where
  | asn
  | city
  deriving DecidableEq, Repr

/-- The paths of an adapter, and what is used of `path/filepath`. -/
structure MMDBConfig where
  dbPath : Database → String
  /-- `filepath.Dir`. -/
  dir : String → String
  /-- `filepath.Abs`. -/
  abs : String → Option String

def evsBufDepth : Nat := 1024

/-- The buffer with an event more, the newest first. -/
def pushEvent (evsBuf : List FSEvent) (event : FSEvent) : List FSEvent :=
  (event :: evsBuf).take evsBufDepth

/-- The file that was created is one that another was renamed from with `.tmp` behind it. -/
def moveDetected (evsBuf : List FSEvent) (event : FSEvent) : Bool :=
  event.create && (pushEvent evsBuf event).tail.any fun ev =>
    ev.rename && event.name ++ ".tmp" == ev.name

/-! ## The loop -/

/-- Where `doRun` is. -/
inductive DoRunPC where
  /-- At `fsnotify.NewWatcher`. -/
  | creatingWatcher
  /-- Before `watcher.Add`. -/
  | watching
  /-- In `loadDBs`. -/
  | loading (db : Database)
  | selecting
  /-- Before the reader is closed. -/
  | closingOld (db : Database)
  /-- Before the database is opened again. -/
  | reopening (db : Database)
  /-- The ASN database could not be opened, and the reader of the other one is to be closed. -/
  | asnFailed
  /-- In the deferred calls. -/
  | closingWatcher
  | closingChan (db : Database)
  | releasing (db : Database)
  | returned
  deriving DecidableEq, Repr

namespace DoRunPC

/-- The channel is closed. -/
def chanClosed : DoRunPC → Database → Bool
  | .closingChan .asn, .city => true
  | .releasing _, _ => true
  | .returned, _ => true
  | _, _ => false

/-- The database that is opened next. -/
def opens : DoRunPC → Option Database
  | .loading db => some db
  | .reopening db => some db
  | _ => none

/-- After it has been opened. -/
def opened : DoRunPC → DoRunPC
  | .loading .city => .loading .asn
  | _ => .selecting

/-- After it could not be opened. -/
def notOpened : DoRunPC → DoRunPC
  | .loading .asn => .asnFailed
  | .reopening .asn => .asnFailed
  | _ => .closingWatcher

/-- The database whose reader is closed next. -/
def closes : DoRunPC → Option Database
  | .closingOld db => some db
  | .asnFailed => some .city
  | .releasing db => some db
  | _ => none

/-- After it has been closed. -/
def closed : DoRunPC → DoRunPC
  | .closingOld db => .reopening db
  | .releasing .city => .releasing .asn
  | .releasing .asn => .returned
  | _ => .closingWatcher

/-- The reader is not nil here. -/
def loaded : DoRunPC → Database → Bool
  | .selecting, _ => true
  | .closingOld _, _ => true
  | .reopening db, db' => decide (db' ≠ db)
  | .loading .asn, .city => true
  | _, _ => false

end DoRunPC

/-- Where the loop goes on an event. -/
def onEvent (cfg : MMDBConfig) (evsBuf : List FSEvent) (event : FSEvent) : DoRunPC :=
  if moveDetected evsBuf event then
    match cfg.abs event.name, cfg.abs (cfg.dbPath .asn), cfg.abs (cfg.dbPath .city) with
    | none, _, _ => .selecting
    | some eventAbs, some asnAbs, some cityAbs =>
      if eventAbs = asnAbs then .closingOld .asn
      else if eventAbs = cityAbs then .closingOld .city
      else .selecting
    | some _, _, _ => .closingWatcher
  else .selecting

/-! ## The calls -/

/-- Where a call of `GetASNRecord` or `GetCityRecord` is.  A reader is the number of the `Open`
that made it. -/
inductive LookupPC (R : Type*) where
  | notCalled
  /-- At the receive of `getASNDB` or `getCityDB`. -/
  | receiving (db : Database) (addr : String)
  /-- It has received, with what the channel says of it. -/
  | received (db : Database) (addr : String) (reader : Option Nat) (ok : Bool)
  /-- In `db.Lookup`. -/
  | lookingUp (db : Database) (addr : String) (reader : Nat)
  /-- In `Decode`. -/
  | decoding (db : Database) (addr : String) (reader : Nat)
  | returned (result : Except String R)

namespace LookupPC

variable {R : Type*}

/-- The reader that the call is using. -/
def uses : LookupPC R → Option Nat
  | .lookingUp _ _ r => some r
  | .decoding _ _ r => some r
  | _ => none

/-- The reader that the call has and has not done with. -/
def has : LookupPC R → Option Nat
  | .received _ _ r true => r
  | .lookingUp _ _ r => some r
  | .decoding _ _ r => some r
  | _ => none

end LookupPC

def notLoaded : Database → String
  | .asn => "maxmind: asn database not loaded (or the adapter is likely closed)"
  | .city => "maxmind: city database not loaded"

def lookupFailed (addr err : String) : Database → String
  | .asn => "maxmind: asn lookup failed for " ++ addr ++ ": " ++ err
  | .city => "maxmind: city lookup failed for " ++ addr ++ ": " ++ err

/-! ## Runs -/

structure MMDBRun (R : Type*) where
  run : DoRunPC
  /-- `ia.asnDB` and `ia.cityDB`. -/
  reader : Database → Option Nat
  evsBuf : List FSEvent
  /-- So many readers have been opened. -/
  opened : Nat
  /-- The readers that have been closed. -/
  closed : List Nat
  calls : Nat → LookupPC R

inductive MMDBAction (R : Type*) where
  | newWatcher (ok : Bool)
  | watch (ok : Bool)
  | openDB (ok : Bool)
  | closeDB
  | ctxDone
  /-- The call takes the reader that the loop offers. -/
  | hand (c : Nat)
  | event (event : FSEvent)
  | eventsClosed
  | watcherError
  | errorsClosed
  | closeWatcher
  | closeChan
  | call (c : Nat) (db : Database) (addr : String)
  | foundClosed (c : Nat)
  | test (c : Nat)
  | lookup (c : Nat)
  | decode (c : Nat) (result : Except String R)

namespace MMDBRun

variable {R : Type*}

def start : MMDBRun R where
  run := .creatingWatcher
  reader := fun _ => none
  evsBuf := []
  opened := 0
  closed := []
  calls := fun _ => .notCalled

def goto (s : MMDBRun R) (c : Nat) (pc : LookupPC R) : MMDBRun R :=
  { s with calls := Function.update s.calls c pc }

def stepLoop (cfg : MMDBConfig) (s : MMDBRun R) : MMDBAction R → Option (MMDBRun R)
  | .newWatcher ok =>
    if s.run = .creatingWatcher then
      some { s with run := if ok then .watching else .closingChan .city }
    else none
  | .watch ok =>
    if s.run = .watching then
      let cityDir := cfg.dir (cfg.dbPath .city)
      let asnDir := cfg.dir (cfg.dbPath .asn)
      if cityDir = asnDir ∧ (cfg.abs cityDir).isSome ∧ ok then
        some { s with run := .loading .city }
      else some { s with run := .closingWatcher }
    else none
  | .openDB ok =>
    match s.run.opens with
    | some db =>
      if ok then
        some { s with
          run := s.run.opened, reader := Function.update s.reader db (some s.opened)
          opened := s.opened + 1 }
      else some { s with run := s.run.notOpened, reader := Function.update s.reader db none }
    | none => none
  | .closeDB =>
    match s.run.closes with
    | some db =>
      some { s with
        run := s.run.closed, reader := Function.update s.reader db none
        closed := (s.reader db).toList ++ s.closed }
    | none => none
  | .event event =>
    if s.run = .selecting then
      some { s with run := onEvent cfg s.evsBuf event, evsBuf := pushEvent s.evsBuf event }
    else none
  | .ctxDone | .eventsClosed | .errorsClosed =>
    if s.run = .selecting then some { s with run := .closingWatcher } else none
  | .watcherError => if s.run = .selecting then some s else none
  | .closeWatcher =>
    if s.run = .closingWatcher then some { s with run := .closingChan .city } else none
  | .closeChan =>
    match s.run with
    | .closingChan .city => some { s with run := .closingChan .asn }
    | .closingChan .asn => some { s with run := .releasing .city }
    | _ => none
  | _ => none

def stepCall (s : MMDBRun R) : MMDBAction R → Option (MMDBRun R)
  | .call c db addr =>
    match s.calls c with
    | .notCalled => some (s.goto c (.receiving db addr))
    | _ => none
  | .hand c =>
    match s.run, s.calls c with
    | .selecting, .receiving db addr => some (s.goto c (.received db addr (s.reader db) true))
    | _, _ => none
  | .foundClosed c =>
    match s.calls c with
    | .receiving db addr =>
      if s.run.chanClosed db then some (s.goto c (.received db addr none false)) else none
    | _ => none
  | .test c =>
    match s.calls c with
    | .received db addr (some r) true => some (s.goto c (.lookingUp db addr r))
    | .received db _ _ _ => some (s.goto c (.returned (.error (notLoaded db))))
    | _ => none
  | .lookup c =>
    match s.calls c with
    | .lookingUp db addr r => some (s.goto c (.decoding db addr r))
    | _ => none
  | .decode c result =>
    match s.calls c with
    | .decoding db addr _ =>
      match result with
      | .ok record => some (s.goto c (.returned (.ok record)))
      | .error err => some (s.goto c (.returned (.error (lookupFailed addr err db))))
    | _ => none
  | _ => none

def step (cfg : MMDBConfig) (s : MMDBRun R) (a : MMDBAction R) : Option (MMDBRun R) :=
  match a with
  | .call .. | .hand _ | .foundClosed _ | .test _ | .lookup _ | .decode .. => s.stepCall a
  | .newWatcher _ | .watch _ | .openDB _ | .closeDB | .ctxDone | .event _ | .eventsClosed
  | .watcherError | .errorsClosed | .closeWatcher | .closeChan => s.stepLoop cfg a

/-- All runs of an adapter and of the calls to it. -/
def system (R : Type*) (cfg : MMDBConfig) : System (MMDBRun R) (MMDBAction R) := ⟨start, step cfg⟩

/-! ## The promise and the condition -/

/-- What the calls rely on: the reader that a call uses is open, and one that has been taken is
not nil. -/
structure ReloadSafe (s : MMDBRun R) : Prop where
  inUse : ∀ c r, (s.calls c).uses = some r → r ∉ s.closed
  taken : ∀ c db addr r, s.calls c = .received db addr r true → r ≠ none

/-- A reader is closed only when no call has it. -/
def closesUnused : Policy (MMDBRun R) (MMDBAction R) := fun s a =>
  match a with
  | .closeDB =>
    ∀ db r, s.run.closes = some db → s.reader db = some r → ∀ c, (s.calls c).has ≠ some r
  | _ => True

/-! ## What a step does -/

variable {cfg : MMDBConfig} {s t : MMDBRun R} {a : MMDBAction R}

/-- The readers that are there later were there before. -/
def Keeps (run run' : DoRunPC) : Prop := ∀ db, run'.loaded db = true → run.loaded db = true

inductive Move (s : MMDBRun R) : MMDBAction R → MMDBRun R → Prop
  | went {a run' evsBuf'} : Keeps s.run run' →
      Move s a { s with run := run', evsBuf := evsBuf' }
  | opened {db} : s.run.opens = some db →
      Move s (.openDB true) { s with
        run := s.run.opened, reader := Function.update s.reader db (some s.opened)
        opened := s.opened + 1 }
  | notOpened {db} : s.run.opens = some db →
      Move s (.openDB false) { s with
        run := s.run.notOpened, reader := Function.update s.reader db none }
  | closed {db} : s.run.closes = some db →
      Move s .closeDB { s with
        run := s.run.closed, reader := Function.update s.reader db none
        closed := (s.reader db).toList ++ s.closed }
  | handed {c db addr} : s.run = .selecting → s.calls c = .receiving db addr →
      Move s (.hand c) (s.goto c (.received db addr (s.reader db) true))
  | called {a c pc} : pc.has = none → (∀ db addr r, pc ≠ .received db addr r true) →
      Move s a (s.goto c pc)
  | used {a c pc r} : (s.calls c).has = some r → pc.has = some r →
      (∀ db addr r, pc ≠ .received db addr r true) → Move s a (s.goto c pc)

theorem keeps_onEvent (evsBuf : List FSEvent) (event : FSEvent) :
    Keeps .selecting (onEvent cfg evsBuf event) := fun _ _ => rfl

theorem stepLoop_move (h : s.stepLoop cfg a = some t) : Move s a t := by
  cases a with
  | newWatcher ok =>
    obtain ⟨hrun, h⟩ := Option.ite_none_right_eq_some.1 h
    cases h
    refine .went fun db hl => ?_
    cases ok <;> cases hl
  | watch ok =>
    obtain ⟨hrun, h⟩ := Option.ite_none_right_eq_some.1 h
    split at h
    · cases h
      exact .went fun db hl => nomatch hl
    · cases h
      exact .went fun db hl => nomatch hl
  | openDB ok =>
    simp only [stepLoop] at h
    split at h
    · next db hdb =>
      cases ok with
      | true => cases h; exact .opened hdb
      | false => cases h; exact .notOpened hdb
    · cases h
  | closeDB =>
    simp only [stepLoop] at h
    split at h
    · next db hdb => cases h; exact .closed hdb
    · cases h
  | event event =>
    obtain ⟨hrun, h⟩ := Option.ite_none_right_eq_some.1 h
    cases h
    exact .went (hrun ▸ keeps_onEvent _ _)
  | ctxDone | eventsClosed | errorsClosed =>
    obtain ⟨hrun, h⟩ := Option.ite_none_right_eq_some.1 h
    cases h
    exact .went fun db hl => nomatch hl
  | watcherError =>
    obtain ⟨hrun, h⟩ := Option.ite_none_right_eq_some.1 h
    cases h
    exact .went fun db hl => hl
  | closeWatcher =>
    obtain ⟨hrun, h⟩ := Option.ite_none_right_eq_some.1 h
    cases h
    exact .went fun db hl => nomatch hl
  | closeChan =>
    simp only [stepLoop] at h
    split at h
    · cases h
      exact .went fun db hl => nomatch hl
    · cases h
      exact .went fun db hl => nomatch hl
    · cases h
  | _ => cases h

theorem stepCall_move (h : s.stepCall a = some t) : Move s a t := by
  cases a with
  | call c db addr =>
    simp only [stepCall] at h
    split at h
    · cases h
      exact .called rfl (by rintro _ _ _ ⟨⟩)
    · cases h
  | hand c =>
    simp only [stepCall] at h
    split at h
    · next hrun hc => cases h; exact .handed hrun hc
    · cases h
  | foundClosed c =>
    simp only [stepCall] at h
    split at h
    · obtain ⟨hclosed, h⟩ := Option.ite_none_right_eq_some.1 h
      cases h
      exact .called rfl (by rintro _ _ _ ⟨⟩)
    · cases h
  | test c =>
    simp only [stepCall] at h
    split at h
    · next hc =>
      cases h
      exact .used (by rw [hc]; rfl) rfl (by rintro _ _ _ ⟨⟩)
    · cases h
      exact .called rfl (by rintro _ _ _ ⟨⟩)
    · cases h
  | lookup c =>
    simp only [stepCall] at h
    split at h
    · next hc =>
      cases h
      exact .used (by rw [hc]; rfl) rfl (by rintro _ _ _ ⟨⟩)
    · cases h
  | decode c result =>
    simp only [stepCall] at h
    split at h
    · split at h
      · cases h
        exact .called rfl (by rintro _ _ _ ⟨⟩)
      · cases h
        exact .called rfl (by rintro _ _ _ ⟨⟩)
    · cases h
  | _ => cases h

theorem step_move (h : s.step cfg a = some t) : Move s a t := by
  cases a with
  | call | hand | foundClosed | test | lookup | decode => exact stepCall_move h
  | newWatcher | watch | openDB | closeDB | ctxDone | event | eventsClosed | watcherError
  | errorsClosed | closeWatcher | closeChan => exact @stepLoop_move _ cfg _ _ _ h

/-! ## The condition is enough -/

/-- Who has which reader in a run that meets the condition. -/
structure Owned (s : MMDBRun R) : Prop where
  /-- The loop has its readers, once it has loaded them. -/
  loaded : ∀ db, s.run.loaded db = true → s.reader db ≠ none
  current : ∀ db r, s.reader db = some r → r < s.opened ∧ r ∉ s.closed
  distinct : ∀ db db' r, s.reader db = some r → s.reader db' = some r → db = db'
  closed : ∀ r ∈ s.closed, r < s.opened
  has : ∀ c r, (s.calls c).has = some r → r < s.opened ∧ r ∉ s.closed
  taken : ∀ c db addr r, s.calls c = .received db addr r true → r ≠ none

theorem uses_has {pc : LookupPC R} {r : Nat} (h : pc.uses = some r) : pc.has = some r := by
  cases pc with
  | lookingUp | decoding => exact h
  | notCalled | receiving | received | returned => cases h

theorem Owned.safe (h : Owned s) : ReloadSafe s :=
  ⟨fun c r hc => (h.has c r (uses_has hc)).2, h.taken⟩

theorem owned_start : Owned (start : MMDBRun R) where
  loaded db h := by cases h
  current db r h := by cases h
  distinct db db' r h := by cases h
  closed r h := by cases h
  has c r h := by cases h
  taken c db addr r h := by cases h

/-- What holds of the call that goes on, and held of all, holds of all. -/
theorem forall_goto {P : LookupPC R → Prop} {c : Nat} {pc : LookupPC R} (h : ∀ c, P (s.calls c))
    (hpc : P pc) : ∀ c', P ((s.goto c pc).calls c') := by
  intro c'
  by_cases hc : c' = c
  · subst hc
    simp only [goto, Function.update_self]
    exact hpc
  · simp only [goto, Function.update_of_ne hc]
    exact h c'

theorem Owned.goto {c : Nat} {pc : LookupPC R} (h : Owned s)
    (hhas : ∀ r, pc.has = some r → r < s.opened ∧ r ∉ s.closed)
    (htaken : ∀ db addr r, pc = .received db addr r true → r ≠ none) : Owned (s.goto c pc) where
  loaded := h.loaded
  current := h.current
  distinct := h.distinct
  closed := h.closed
  has := forall_goto (P := fun pc => ∀ r, pc.has = some r → r < s.opened ∧ r ∉ s.closed) h.has hhas
  taken := forall_goto (P := fun pc => ∀ db addr r, pc = .received db addr r true → r ≠ none)
    h.taken htaken

theorem loaded_opened {run : DoRunPC} {db db' : Database} (h : run.opens = some db)
    (hl : run.opened.loaded db' = true) (hne : db' ≠ db) : run.loaded db' = true := by
  cases run with
  | loading db₀ =>
    obtain rfl := Option.some.inj h
    cases db₀ with
    | asn =>
      cases db' with
      | asn => exact absurd rfl hne
      | city => rfl
    | city =>
      cases db' with
      | asn => cases hl
      | city => exact absurd rfl hne
  | reopening db₀ =>
    obtain rfl := Option.some.inj h
    exact decide_eq_true hne
  | _ => cases h

theorem loaded_notOpened {run : DoRunPC} {db : Database} : run.notOpened.loaded db = false := by
  cases run with
  | loading db₀ | reopening db₀ => cases db₀ <;> rfl
  | _ => rfl

theorem loaded_closed {run : DoRunPC} {db db' : Database} (h : run.closes = some db)
    (hl : run.closed.loaded db' = true) : db' ≠ db ∧ run.loaded db' = true := by
  cases run with
  | closingOld db₀ =>
    obtain rfl := Option.some.inj h
    exact ⟨of_decide_eq_true hl, rfl⟩
  | releasing db₀ => cases db₀ <;> cases hl
  | asnFailed => cases hl
  | _ => cases h

/-- A reader that is still there when another is dropped. -/
theorem reader_of_update {reader : Database → Option Nat} {db db' : Database} {r : Nat}
    (h : Function.update reader db none db' = some r) : db' ≠ db ∧ reader db' = some r := by
  rw [Function.update_apply] at h
  split at h
  · cases h
  · next hne => exact ⟨hne, h⟩

theorem Owned.step (h : Owned s) (hok : closesUnused s a) (hm : Move s a t) : Owned t := by
  cases hm with
  | went hkeeps =>
    exact ⟨fun db hl => h.loaded db (hkeeps db hl), h.current, h.distinct, h.closed, h.has, h.taken⟩
  | @opened db hdb =>
    refine ⟨fun db' hl => ?_, fun db' r hr => ?_, fun db₁ db₂ r h₁ h₂ => ?_, fun r hr => ?_,
      fun c r hc => ?_, h.taken⟩
    · by_cases hdb' : db' = db
      · subst hdb'
        simp
      · simp only [Function.update_of_ne hdb']
        exact h.loaded db' (loaded_opened hdb hl hdb')
    · by_cases hdb' : db' = db
      · subst hdb'
        simp only [Function.update_self, Option.some.injEq] at hr
        subst hr
        exact ⟨Nat.lt_succ_self _, fun hc => Nat.lt_irrefl _ (h.closed _ hc)⟩
      · simp only [Function.update_of_ne hdb'] at hr
        have hcur := h.current db' r hr
        exact ⟨Nat.lt_succ_of_lt hcur.1, hcur.2⟩
    · -- the new reader has a number that no other has
      have hnew : ∀ db', db' ≠ db → s.reader db' ≠ some s.opened := fun db' _ hr =>
        Nat.lt_irrefl _ (h.current db' _ hr).1
      by_cases hdb₁ : db₁ = db
      · by_cases hdb₂ : db₂ = db
        · rw [hdb₁, hdb₂]
        · simp only [hdb₁, Function.update_self, Option.some.injEq] at h₁
          simp only [Function.update_of_ne hdb₂] at h₂
          exact absurd (h₁ ▸ h₂) (hnew db₂ hdb₂)
      · by_cases hdb₂ : db₂ = db
        · simp only [hdb₂, Function.update_self, Option.some.injEq] at h₂
          simp only [Function.update_of_ne hdb₁] at h₁
          exact absurd (h₂ ▸ h₁) (hnew db₁ hdb₁)
        · simp only [Function.update_of_ne hdb₁] at h₁
          simp only [Function.update_of_ne hdb₂] at h₂
          exact h.distinct db₁ db₂ r h₁ h₂
    · exact Nat.lt_succ_of_lt (h.closed r hr)
    · have hcall := h.has c r hc
      exact ⟨Nat.lt_succ_of_lt hcall.1, hcall.2⟩
  | @notOpened db hdb =>
    refine ⟨fun db' hl => ?_, fun db' r hr => h.current db' r (reader_of_update hr).2,
      fun db₁ db₂ r h₁ h₂ =>
        h.distinct db₁ db₂ r (reader_of_update h₁).2 (reader_of_update h₂).2,
      h.closed, h.has, h.taken⟩
    simp only [loaded_notOpened] at hl
    cases hl
  | @closed db hdb =>
    have hclosed : ∀ r, r ∈ (s.reader db).toList ++ s.closed →
        s.reader db = some r ∨ r ∈ s.closed := by
      intro r hr
      rcases List.mem_append.1 hr with hr | hr
      · exact Or.inl (Option.mem_toList.1 hr)
      · exact Or.inr hr
    refine ⟨fun db' hl => ?_, fun db' r hr => ?_, fun db₁ db₂ r h₁ h₂ => ?_, fun r hr => ?_,
      fun c r hc => ?_, h.taken⟩
    · obtain ⟨hne, hl'⟩ := loaded_closed hdb hl
      simp only [Function.update_of_ne hne]
      exact h.loaded db' hl'
    · obtain ⟨hne, hr'⟩ := reader_of_update hr
      have hcur := h.current db' r hr'
      refine ⟨hcur.1, fun hmem => ?_⟩
      rcases hclosed r hmem with heq | hmem
      · exact hne (h.distinct db' db r hr' heq)
      · exact hcur.2 hmem
    · exact h.distinct db₁ db₂ r (reader_of_update h₁).2 (reader_of_update h₂).2
    · rcases hclosed r hr with heq | hmem
      · exact (h.current db r heq).1
      · exact h.closed r hmem
    · -- no call has the reader that is closed
      have hcall := h.has c r hc
      refine ⟨hcall.1, fun hmem => ?_⟩
      rcases hclosed r hmem with heq | hmem
      · exact hok db r hdb heq c hc
      · exact hcall.2 hmem
  | @handed c db addr hrun hc =>
    refine h.goto (fun r hr => h.current db r hr) ?_
    rintro _ _ _ ⟨rfl, rfl, rfl⟩
    exact h.loaded db (by rw [hrun]; rfl)
  | called hhas hrec =>
    refine h.goto (fun r hr => ?_) fun db addr r hr => absurd hr (hrec db addr r)
    rw [hhas] at hr
    cases hr
  | @used a c pc r hc hhas hrec =>
    refine h.goto (fun r' hr => ?_) fun db addr r hr => absurd hr (hrec db addr r)
    rw [hhas] at hr
    exact Option.some.inj hr ▸ h.has c r hc

/-! ## The condition is exact -/

theorem goto_calls (s : MMDBRun R) (c : Nat) (pc : LookupPC R) : (s.goto c pc).calls c = pc := by
  rw [goto]
  exact Function.update_self ..

/-- A call that has a closed reader comes to use it. -/
theorem unsafe_of_has {c r : Nat} (hc : (s.calls c).has = some r)
    (hclosed : r ∈ t.closed) (hcalls : t.calls = s.calls) :
    ∃ u, (system R cfg).Reach closesUnused t u ∧ ¬ReloadSafe u := by
  cases hpc : s.calls c with
  | notCalled | receiving | returned =>
    rw [hpc] at hc
    cases hc
  | lookingUp db addr r' =>
    refine ⟨t, .refl, fun hsafe => hsafe.inUse c r ?_ hclosed⟩
    rw [hcalls, hpc]
    rw [hpc] at hc
    exact hc
  | decoding db addr r' =>
    refine ⟨t, .refl, fun hsafe => hsafe.inUse c r ?_ hclosed⟩
    rw [hcalls, hpc]
    rw [hpc] at hc
    exact hc
  | received db addr r' ok =>
    rw [hpc] at hc
    cases ok with
    | false => cases hc
    | true =>
      obtain rfl : r' = some r := hc
      refine ⟨t.goto c (.lookingUp db addr r), .head (a := .test c) ?_ trivial .refl,
        fun hsafe => hsafe.inUse c r ?_ hclosed⟩
      · show t.stepCall (.test c) = _
        simp only [stepCall, hcalls, hpc]
      · rw [goto_calls]
        rfl

/-- The condition is exactly what keeps the readers of the calls open. -/
theorem reload_guards (R : Type*) (cfg : MMDBConfig) :
    (system R cfg).Guards closesUnused ReloadSafe where
  safe s h := by
    have howned : Owned s := h.invariant owned_start fun s a t ho hok hst =>
      ho.step hok (step_move hst)
    exact howned.safe
  tight s a t h hst hnot := by
    cases a with
    | closeDB =>
      have hex : ∃ db r, s.run.closes = some db ∧ s.reader db = some r ∧
          ∃ c, (s.calls c).has = some r := by
        by_contra hno
        exact hnot fun db r hdb hr c hc => hno ⟨db, r, hdb, hr, c, hc⟩
      obtain ⟨db, r, hdb, hr, c, hc⟩ := hex
      have ht : s.stepLoop cfg .closeDB = some t := hst
      simp only [stepLoop, hdb, hr] at ht
      cases ht
      exact unsafe_of_has hc List.mem_cons_self rfl
    | _ => exact absurd trivial hnot

/-- A directory with both databases. -/
def exampleConfig : MMDBConfig where
  dbPath
    | .asn => "/mmdb/asn.mmdb"
    | .city => "/mmdb/city.mmdb"
  dir := fun _ => "/mmdb"
  abs := some

/-- A new file is moved over the ASN database when a call has taken its reader. -/
theorem lookup_after_close :
    ∃ s, (system Unit exampleConfig).Reachable .any s ∧ ¬ReloadSafe s := by
  obtain ⟨s, hs, hp⟩ := System.exists_of_replay (system Unit exampleConfig) .any
    (fun s => (s.calls 0).uses.any fun r => decide (r ∈ s.closed))
    [.newWatcher true, .watch true, .openDB true, .openDB true, .call 0 .asn "192.0.2.1", .hand 0,
      .event ⟨"/mmdb/asn.mmdb.tmp", false, true⟩, .event ⟨"/mmdb/asn.mmdb", true, false⟩, .closeDB,
      .test 0] (by decide)
  rw [Option.any_eq_true] at hp
  obtain ⟨r, hr, hclosed⟩ := hp
  exact ⟨s, hs, fun hsafe => hsafe.inUse 0 r hr (of_decide_eq_true hclosed)⟩

end MMDBRun

end CloudPing.Ipinfo
