import CloudPing.Conc.System
import CloudPing.Ecma.Record
import CloudPing.Web.StreamConsumer
import Mathlib.Data.List.Basic

/-!
# The pages of MRT entries of the browser

`useMRTEntriesReadByProvider` reads a first page from each provider, and `loadMore` one more from a
provider that is not running.  A provider that is running waits for a stream of its own to stop it
(`Paged`).

An aborted stream stops nothing.  The streams of one effect share an `AbortController`, and all
calls of `loadMore` share one slot for theirs, so that a call for one provider aborts the stream of
another.  `keepsStream` is the exact condition under which no running provider loses its last
stream.

The map is the one with all updates applied that were dispatched so far.  What `loadMore` looks at
is the map of the last render.
-/

namespace CloudPing.Web

open Conc Ecma

/-! ## Events and states -/

structure MRTEntryDataEvent (E : Type) where
  err : Option String := none
  data : Option E := none

/-- `ResumableResponseStreamEvent`. -/
structure ResumableEvent (E : Type) where
  data : MRTEntryDataEvent E := {}
  cursorId : Option String := none

structure ProviderMRTEntriesState (E : Type) where
  entries : List E := []
  isRunning : Bool := true
  error : Option String := none
  cursorId : Option String := none
  pageEvents : List (ResumableEvent E) := []

abbrev ProviderEntriesMap (E : Type) := Record (ProviderMRTEntriesState E)

variable {E : Type}

def ProviderMRTEntriesState.addEvent (cur : ProviderMRTEntriesState E) (event : ResumableEvent E) :
    ProviderMRTEntriesState E :=
  { cur with
    entries := cur.entries ++ event.data.data.toList
    error := event.data.err <|> cur.error
    cursorId := event.cursorId <|> cur.cursorId
    pageEvents := cur.pageEvents ++ [event] }

/-- `processMRTStream`. -/
def processMRTStream (E : Type) (provider : String) :
    Consumer (ProviderEntriesMap E) (ResumableEvent E) where
  noReader prev := prev.modify provider fun cur => { cur with isRunning := false }
  done prev := prev.modify provider fun cur => { cur with isRunning := false }
  value event prev := prev.modify provider fun cur => cur.addEvent event
  readError _ prev := prev.modify provider fun cur => { cur with isRunning := false }
  rejected message prev :=
    prev.modify provider fun cur => { cur with error := some message, isRunning := false }

/-! ## Runs -/

structure MRTStream where
  provider : String
  /-- The controller whose signal the stream has. -/
  ac : Nat
  phase : StreamPhase := .fetching

structure MRTRun (E : Type) where
  providerMap : ProviderEntriesMap E := Record.empty
  providerMapRef : ProviderEntriesMap E := Record.empty
  loadMoreAcRef : Option Nat := none
  /-- The controller that the cleanup of the last effect aborts. -/
  abortController : Option Nat := none
  nextAc : Nat := 0
  aborted : List Nat := []
  streams : List MRTStream := []

inductive MRTAction (E : Type) where
  /-- The effect, with the cleanup of the one before it. -/
  | effect (target : Option String) (providers : List String)
  | loadMore (provider : String)
  | render
  | stream (i : Nat) (ev : StreamEvent (ResumableEvent E))

/-- What `trim` takes off. -/
def isWhiteSpace (c : Char) : Bool :=
  c.toNat ∈ [0x9, 0xA, 0xB, 0xC, 0xD, 0x20, 0xA0, 0x1680, 0x2028, 0x2029, 0x202F, 0x205F, 0x3000,
    0xFEFF] || decide (0x2000 ≤ c.toNat ∧ c.toNat ≤ 0x200A)

/-- `!target || target.trim() === ""`. -/
def noTarget (target : Option String) : Bool :=
  target.all fun target => target.toList.all isWhiteSpace

namespace MRTRun

def start : MRTRun E := {}

/-- `abort` of a controller, if there is one. -/
def abort (s : MRTRun E) (ac : Option Nat) : MRTRun E :=
  { s with aborted := ac.toList ++ s.aborted }

/-- `loadMore` returns at once. -/
def ignores (s : MRTRun E) (provider : String) : Bool :=
  match s.providerMapRef provider with
  | none => true
  | some state => state.cursorId.getD "" = "" || state.isRunning

/-- The body of the effect, behind the cleanup. -/
def query (s : MRTRun E) (target : Option String) (providers : List String) : MRTRun E :=
  if noTarget target then { s with providerMap := Record.empty }
  else if providers.length = 0 then s
  else
    { s.abort s.loadMoreAcRef with
      loadMoreAcRef := none
      providerMap := Record.fromKeys providers {}
      abortController := some s.nextAc
      nextAc := s.nextAc + 1
      streams := s.streams ++ providers.map fun provider => { provider := provider, ac := s.nextAc } }

def loadMore (s : MRTRun E) (provider : String) : MRTRun E :=
  if s.ignores provider then s
  else
    { s.abort s.loadMoreAcRef with
      loadMoreAcRef := some s.nextAc
      nextAc := s.nextAc + 1
      providerMap := s.providerMap.set provider {}
      streams := s.streams ++ [{ provider := provider, ac := s.nextAc }] }

def alive (s : MRTRun E) (stream : MRTStream) : Bool := !s.aborted.contains stream.ac

def step (s : MRTRun E) : MRTAction E → Option (MRTRun E)
  | .effect target providers =>
    some ({ s.abort s.abortController with abortController := none }.query target providers)
  | .loadMore provider => some (s.loadMore provider)
  | .render => some { s with providerMapRef := s.providerMap }
  | .stream i ev =>
    match s.streams[i]? with
    | none => none
    | some stream =>
      ((processMRTStream E stream.provider).step (s.alive stream) stream.phase ev
        s.providerMap).map fun next =>
          { s with
            streams := s.streams.set i { stream with phase := next.1 }
            providerMap := next.2 }

def system (E : Type) : System (MRTRun E) (MRTAction E) := ⟨start, step⟩

/-! ## The promise and the condition -/

def Runs (s : MRTRun E) (provider : String) : Prop :=
  ∃ state, s.providerMap provider = some state ∧ state.isRunning = true

/-- The stream of an index is one of the provider that has not ended and has not been aborted. -/
def Live (s : MRTRun E) (provider : String) (i : Nat) (stream : MRTStream) : Prop :=
  s.streams[i]? = some stream ∧ stream.provider = provider ∧ stream.phase ≠ .ended ∧
    s.alive stream = true

/-- Every provider that is running has a live stream. -/
def Paged (s : MRTRun E) : Prop :=
  ∀ provider, s.Runs provider → ∃ i stream, s.Live provider i stream

/-- The provider is running, and all its live streams are among these. -/
def RunsOn (s : MRTRun E) (P : Nat → MRTStream → Prop) (provider : String) : Prop :=
  s.Runs provider ∧ ∀ i stream, s.Live provider i stream → P i stream

/-- No running provider loses its last live stream without being restarted: not to a `loadMore` of
another provider, not to an effect without providers, and not to an `AbortError` of a stream that
has not been aborted. -/
def keepsStream : Policy (MRTRun E) (MRTAction E) := fun s a =>
  match a with
  | .loadMore provider => s.ignores provider = true ∨
      ∀ ac, s.loadMoreAcRef = some ac → ∀ other, other ≠ provider →
        ¬s.RunsOn (fun _ stream => stream.ac = ac) other
  | .effect target providers => noTarget target = true ∨ providers ≠ [] ∨
      ∀ ac, s.abortController = some ac → ∀ provider,
        ¬s.RunsOn (fun _ stream => stream.ac = ac) provider
  | .stream i (.rejected "AbortError" _) => ∀ provider, ¬s.RunsOn (fun j _ => j = i) provider
  | _ => True

variable {s t : MRTRun E} {a : MRTAction E} {provider : String} {i j : Nat}
  {stream stream' : MRTStream} {ac : Option Nat} {P : Nat → MRTStream → Prop}

theorem keepsStream_rejected {name message : String} :
    keepsStream s (.stream i (.rejected name message)) ↔
      (name = "AbortError" → ∀ provider, ¬s.RunsOn (fun j _ => j = i) provider) := by
  unfold keepsStream
  split
  next heq => cases heq
  next heq => cases heq
  next heq =>
    cases heq
    exact ⟨fun h _ => h, fun h => h rfl⟩
  next hno => exact iff_of_true trivial fun hname => absurd (hname ▸ rfl) (hno i message)

/-! ## Controllers -/

theorem alive_abort : (s.abort ac).alive stream = true ↔
    s.alive stream = true ∧ ac ≠ some stream.ac := by
  cases ac with
  | none => exact (and_iff_left nofun).symm
  | some n =>
    simp only [alive, abort, Option.toList_some, List.singleton_append, List.contains_cons,
      Bool.not_or, Bool.and_eq_true, ne_eq, Option.some.injEq, Bool.not_eq_true',
      beq_eq_false_iff_ne]
    exact and_comm.trans (and_congr_right fun _ => not_congr eq_comm)

/-- A controller that is aborted or may be is an old one. -/
structure Fresh (s : MRTRun E) : Prop where
  aborted : ∀ ac ∈ s.aborted, ac < s.nextAc
  loadMoreAcRef : ∀ ac ∈ s.loadMoreAcRef, ac < s.nextAc
  abortController : ∀ ac ∈ s.abortController, ac < s.nextAc

namespace Fresh

theorem abort (h : s.Fresh) (hac : ∀ n ∈ ac, n < s.nextAc) : (s.abort ac).Fresh where
  aborted n hn := by
    rcases List.mem_append.1 hn with hn | hn
    · exact hac n (Option.mem_toList.1 hn)
    · exact h.aborted n hn
  loadMoreAcRef := h.loadMoreAcRef
  abortController := h.abortController

theorem cleanup (h : s.Fresh) :
    { s.abort s.abortController with abortController := none }.Fresh where
  aborted := (h.abort h.abortController).aborted
  loadMoreAcRef := h.loadMoreAcRef
  abortController := nofun

/-- A stream of the next controller is alive. -/
theorem alive (h : s.Fresh) (hstream : stream.ac = s.nextAc) : s.alive stream = true := by
  rw [MRTRun.alive, Bool.not_eq_true', List.contains_eq_mem, decide_eq_false_iff_not, hstream]
  exact fun hin => Nat.lt_irrefl _ (h.aborted _ hin)

/-- The next controller is made, and put into a slot. -/
theorem next (h : s.Fresh) (haborted : t.aborted = s.aborted) (hnext : t.nextAc = s.nextAc + 1)
    (hmore : ∀ ac ∈ t.loadMoreAcRef, ac = s.nextAc ∨ ac ∈ s.loadMoreAcRef)
    (hmain : ∀ ac ∈ t.abortController, ac = s.nextAc ∨ ac ∈ s.abortController) : t.Fresh := by
  refine ⟨fun ac hac => ?_, fun ac hac => ?_, fun ac hac => ?_⟩ <;> rw [hnext, Nat.lt_succ_iff]
  · exact Nat.le_of_lt (h.aborted ac (haborted ▸ hac))
  · exact (hmore ac hac).elim Nat.le_of_eq fun hac => Nat.le_of_lt (h.loadMoreAcRef ac hac)
  · exact (hmain ac hac).elim Nat.le_of_eq fun hac => Nat.le_of_lt (h.abortController ac hac)

theorem query (h : s.Fresh) (target : Option String) (providers : List String) :
    (s.query target providers).Fresh := by
  unfold MRTRun.query
  split
  next => exact ⟨h.aborted, h.loadMoreAcRef, h.abortController⟩
  next =>
    split
    next => exact h
    next =>
      refine (h.abort h.loadMoreAcRef).next rfl rfl nofun fun ac hac => .inl ?_
      exact (Option.mem_some.1 hac).symm

theorem loadMore (h : s.Fresh) (provider : String) : (s.loadMore provider).Fresh := by
  unfold MRTRun.loadMore
  split
  next => exact h
  next =>
    refine (h.abort h.loadMoreAcRef).next rfl rfl (fun ac hac => .inl ?_) fun ac => .inr
    exact (Option.mem_some.1 hac).symm

end Fresh

theorem fresh_of_reachable (h : (system E).Reachable keepsStream s) : s.Fresh := by
  refine h.invariant ⟨nofun, nofun, nofun⟩ fun s a t hs _ hst => ?_
  cases a with
  | effect target providers => cases hst; exact hs.cleanup.query target providers
  | loadMore provider => cases hst; exact hs.loadMore provider
  | render => cases hst; exact ⟨hs.aborted, hs.loadMoreAcRef, hs.abortController⟩
  | stream i ev =>
    simp only [system, step] at hst
    split at hst
    next => cases hst
    next =>
      obtain ⟨next, _, rfl⟩ := Option.map_eq_some_iff.1 hst
      exact ⟨hs.aborted, hs.loadMoreAcRef, hs.abortController⟩

/-! ## What a step does to the live streams -/

/-- A running provider that does not only run on some streams has a live one that is not among
them. -/
theorem Runs.live (hp : s.Runs provider) (h : ¬s.RunsOn P provider) :
    ∃ i stream, s.Live provider i stream ∧ ¬P i stream := by
  by_contra hno
  refine h ⟨hp, fun i stream hlive => ?_⟩
  by_contra hP
  exact hno ⟨i, stream, hlive, hP⟩

/-- It stops being paged if it loses them. -/
theorem RunsOn.not_paged (h : s.RunsOn P provider) (hp : t.Runs provider)
    (ht : ∀ i stream, t.Live provider i stream → s.Live provider i stream ∧ ¬P i stream) :
    ¬t.Paged := by
  intro hpaged
  obtain ⟨i, stream, hlive⟩ := hpaged provider hp
  obtain ⟨hlive, hP⟩ := ht i stream hlive
  exact hP (h.2 i stream hlive)

theorem live_abort : (s.abort ac).Live provider i stream ↔
    s.Live provider i stream ∧ ac ≠ some stream.ac := by
  simp only [Live, alive_abort, and_assoc]
  rfl

/-- With a controller aborted, a running provider goes on with another stream. -/
theorem Paged.abort (h : s.Paged) (hp : s.Runs provider)
    (hok : ∀ n, ac = some n → ¬s.RunsOn (fun _ stream => stream.ac = n) provider) :
    ∃ i stream, (s.abort ac).Live provider i stream := by
  cases ac with
  | none =>
    obtain ⟨i, stream, hlive⟩ := h provider hp
    exact ⟨i, stream, live_abort.2 ⟨hlive, nofun⟩⟩
  | some n =>
    obtain ⟨i, stream, hlive, hne⟩ := hp.live (hok n rfl)
    exact ⟨i, stream, live_abort.2 ⟨hlive, fun heq => hne (Option.some.inj heq).symm⟩⟩

theorem RunsOn.not_paged_abort {n : Nat} (h : s.RunsOn (fun _ stream => stream.ac = n) provider) :
    ¬(s.abort (some n)).Paged :=
  h.not_paged h.1 fun _ _ hlive =>
    ⟨(live_abort.1 hlive).1, fun heq => (live_abort.1 hlive).2 (congrArg some heq.symm)⟩

/-- Streams that are started leave the others where they are. -/
theorem Live.append {streams : List MRTStream} (h : s.Live provider i stream)
    (hstreams : t.streams = s.streams ++ streams) (haborted : t.aborted = s.aborted) :
    t.Live provider i stream := by
  obtain ⟨hi, hprovider, hphase, halive⟩ := h
  refine ⟨?_, hprovider, hphase, ?_⟩
  · obtain ⟨hlt, _⟩ := List.getElem?_eq_some_iff.1 hi
    rw [hstreams, List.getElem?_append_left hlt, hi]
  · rw [← halive, alive, alive, haborted]

/-- No other stream of the provider has become live. -/
theorem Live.of_append {streams : List MRTStream} (h : t.Live provider i stream)
    (hstreams : t.streams = s.streams ++ streams) (haborted : t.aborted = s.aborted)
    (hne : ∀ stream ∈ streams, stream.provider ≠ provider) : s.Live provider i stream := by
  obtain ⟨hi, hprovider, hphase, halive⟩ := h
  rw [hstreams, List.getElem?_append] at hi
  split at hi
  next => exact ⟨hi, hprovider, hphase, by rw [← halive, alive, alive, haborted]⟩
  next => exact absurd hprovider (hne stream (List.mem_of_getElem? hi))

/-- A provider for which a stream has been started has a live one. -/
theorem live_of_mem {n : Nat} {streams streams' : List MRTStream}
    (hstreams : t.streams = streams ++ streams') (hmem : ⟨provider, n, .fetching⟩ ∈ streams')
    (halive : t.alive ⟨provider, n, .fetching⟩ = true) : ∃ i stream, t.Live provider i stream := by
  obtain ⟨i, hi⟩ := List.mem_iff_getElem?.1 (List.mem_append_right streams hmem)
  refine ⟨i, ⟨provider, n, .fetching⟩, ?_, rfl, nofun, halive⟩
  rw [hstreams, hi]

/-! ## A turn of a stream -/

section Turn

variable {f : ProviderMRTEntriesState E → ProviderMRTEntriesState E} {name : String}
  {m : ProviderEntriesMap E} {ev : StreamEvent (ResumableEvent E)} {phase : StreamPhase}

theorem Runs.of_modify (h : t.Runs provider) (ht : t.providerMap = s.providerMap.modify name f)
    (hf : ∀ cur, (f cur).isRunning = cur.isRunning) : s.Runs provider := by
  obtain ⟨state, hstate, hrunning⟩ := h
  rw [ht] at hstate
  by_cases heq : provider = name
  · subst heq
    rw [Record.modify_same] at hstate
    obtain ⟨cur, hcur, rfl⟩ := Option.map_eq_some_iff.1 hstate
    exact ⟨cur, hcur, (hf cur).symm.trans hrunning⟩
  · rw [Record.modify_of_ne f heq] at hstate
    exact ⟨state, hstate, hrunning⟩

theorem Runs.of_stop (h : t.Runs provider) (ht : t.providerMap = s.providerMap.modify name f)
    (hf : ∀ cur, (f cur).isRunning = false) : s.Runs provider ∧ provider ≠ name := by
  obtain ⟨state, hstate, hrunning⟩ := h
  rw [ht] at hstate
  by_cases heq : provider = name
  · subst heq
    rw [Record.modify_same] at hstate
    obtain ⟨cur, _, rfl⟩ := Option.map_eq_some_iff.1 hstate
    rw [hf cur] at hrunning
    cases hrunning
  · rw [Record.modify_of_ne f heq] at hstate
    exact ⟨⟨state, hstate, hrunning⟩, heq⟩

theorem live_set_of_ne (hne : j ≠ i) :
    Live { s with streams := s.streams.set i stream', providerMap := m } provider j stream ↔
      s.Live provider j stream := by
  simp only [Live, List.getElem?_set_ne hne.symm]
  rfl

/-- The stream goes on, and starts no provider. -/
theorem Paged.goes_on (h : s.Paged) (hi : s.streams[i]? = some stream)
    (halive : s.alive stream = true) (hphase : phase ≠ .ended)
    (hruns : ∀ provider,
      Runs { s with streams := s.streams.set i { stream with phase := phase }, providerMap := m }
        provider → s.Runs provider) :
    Paged { s with
      streams := s.streams.set i { stream with phase := phase }, providerMap := m } := by
  intro provider hp
  obtain ⟨j, stream', hlive⟩ := h provider (hruns provider hp)
  by_cases heq : j = i
  · subst heq
    obtain ⟨hlt, _⟩ := List.getElem?_eq_some_iff.1 hi
    have hprovider : stream.provider = provider := by
      rw [← Option.some.inj (hlive.1.symm.trans hi), hlive.2.1]
    exact ⟨j, _, List.getElem?_set_self hlt, hprovider, hphase, halive⟩
  · exact ⟨j, stream', (live_set_of_ne heq).2 hlive⟩

/-- The stream ends, and each provider that is still running has another one. -/
theorem paged_of_ne
    (h : ∀ provider,
      Runs { s with streams := s.streams.set i stream', providerMap := m } provider →
        ∃ j stream, s.Live provider j stream ∧ j ≠ i) :
    Paged { s with streams := s.streams.set i stream', providerMap := m } := by
  intro provider hp
  obtain ⟨j, stream, hlive, hne⟩ := h provider hp
  exact ⟨j, stream, (live_set_of_ne hne).2 hlive⟩

/-- The stream ends, and with it the provider. -/
theorem Paged.stops (h : s.Paged) (hi : s.streams[i]? = some stream)
    (hf : ∀ cur, (f cur).isRunning = false) :
    Paged { s with
      streams := s.streams.set i stream'
      providerMap := s.providerMap.modify stream.provider f } := by
  refine paged_of_ne fun provider hp => ?_
  obtain ⟨hp, hne⟩ := hp.of_stop rfl hf
  obtain ⟨j, stream', hlive⟩ := h provider hp
  refine ⟨j, stream', hlive, fun heq => hne ?_⟩
  subst heq
  rw [← Option.some.inj (hlive.1.symm.trans hi), hlive.2.1]

theorem Paged.turn (h : s.Paged) (hi : s.streams[i]? = some stream)
    (hok : keepsStream s (.stream i ev))
    (houtcome : Consumer.Outcome (processMRTStream E stream.provider) (s.alive stream) stream.phase ev
      s.providerMap phase m) :
    Paged { s with
      streams := s.streams.set i { stream with phase := phase }, providerMap := m } := by
  generalize hmap : s.providerMap = map at houtcome
  generalize halive : s.alive stream = alive at houtcome
  generalize stream.phase = before at houtcome
  cases houtcome with
  | aborted =>
    subst hmap
    refine paged_of_ne fun provider hp => ?_
    obtain ⟨j, stream', hlive⟩ := h provider hp
    refine ⟨j, stream', hlive, fun heq => ?_⟩
    subst heq
    have hstream := Option.some.inj (hlive.1.symm.trans hi)
    rw [← hstream, hlive.2.2.2] at halive
    cases halive
  | opened => subst hmap; exact h.goes_on hi halive nofun fun _ hp => hp
  | started => subst hmap; exact h.goes_on hi halive nofun fun _ hp => hp
  | value =>
    subst hmap
    exact h.goes_on hi halive nofun fun _ hp => hp.of_modify rfl fun _ => rfl
  | noReader | done | readError | rejected => subst hmap; exact h.stops hi fun _ => rfl
  | abortError =>
    subst hmap
    exact paged_of_ne fun provider hp => Runs.live hp (keepsStream_rejected.1 hok rfl provider)

end Turn

/-! ## The condition is exact -/

theorem paged_loadMore (hfresh : s.Fresh) (h : s.Paged)
    (hok : keepsStream s (.loadMore provider)) : (s.loadMore provider).Paged := by
  unfold loadMore
  split
  next => exact h
  next hno =>
    have hothers := hok.resolve_left hno
    rintro other ⟨state, hstate, hrunning⟩
    by_cases heq : other = provider
    · subst heq
      exact live_of_mem rfl List.mem_cons_self ((hfresh.abort hfresh.loadMoreAcRef).alive rfl)
    · have hstate := (Record.set_of_ne heq).symm.trans hstate
      obtain ⟨i, stream, hlive⟩ :=
        h.abort ⟨state, hstate, hrunning⟩ fun ac hac => hothers ac hac other heq
      exact ⟨i, stream, hlive.append rfl rfl⟩

theorem paged_effect {target : Option String} {providers : List String} (hfresh : s.Fresh)
    (h : s.Paged) (hok : keepsStream s (.effect target providers)) :
    ({ s.abort s.abortController with abortController := none }.query target providers).Paged := by
  unfold query
  split
  next =>
    rintro provider ⟨state, hstate, -⟩
    cases hstate
  next htarget =>
    split
    next hlength =>
      have hnone := List.length_eq_zero_iff.1 hlength
      exact fun provider hp => h.abort hp fun ac hac =>
        ((hok.resolve_left htarget).resolve_left (not_not.2 hnone)) ac hac provider
    next =>
      rintro provider ⟨state, hstate, -⟩
      obtain ⟨hmem, _⟩ :=
        Option.ite_none_right_eq_some.1 ((Record.fromKeys_apply ..).symm.trans hstate)
      exact live_of_mem rfl (List.mem_map_of_mem hmem)
        ((hfresh.cleanup.abort hfresh.loadMoreAcRef).alive rfl)

theorem paged_of_reachable (h : (system E).Reachable keepsStream s) : s.Paged := by
  refine h.invariant_with (I := Paged) (fun _ => fresh_of_reachable) ?_ ?_
  · rintro provider ⟨state, hstate, -⟩
    cases hstate
  · intro s a t hfresh hs hok hst
    cases a with
    | effect target providers => cases hst; exact paged_effect hfresh hs hok
    | loadMore provider => cases hst; exact paged_loadMore hfresh hs hok
    | render => cases hst; exact hs
    | stream i ev =>
      simp only [system, step] at hst
      split at hst
      next => cases hst
      next stream hi =>
        obtain ⟨next, hstep, rfl⟩ := Option.map_eq_some_iff.1 hst
        exact hs.turn hi hok (Consumer.step_outcome hstep).2

/-- `loadMore` for one provider takes the last stream of another. -/
theorem not_paged_loadMore (hno : ¬keepsStream s (.loadMore provider)) :
    ¬(s.loadMore provider).Paged := by
  simp only [keepsStream, not_or, not_forall, not_not] at hno
  obtain ⟨hignores, ac, hac, other, hne, hruns⟩ := hno
  rw [loadMore, if_neg hignores]
  refine hruns.not_paged ?_ fun i stream hlive => ?_
  · obtain ⟨state, hstate, hrunning⟩ := hruns.1
    exact ⟨state, (Record.set_of_ne hne).trans hstate, hrunning⟩
  · have hlive : (s.abort s.loadMoreAcRef).Live other i stream :=
      hlive.of_append rfl rfl fun stream hstream heq =>
        hne (heq.symm.trans (congrArg MRTStream.provider (List.mem_singleton.1 hstream)))
    obtain ⟨hlive, hne⟩ := live_abort.1 hlive
    exact ⟨hlive, fun heq => hne (hac.trans (congrArg some heq.symm))⟩

/-- The cleanup of an effect takes the last stream of a provider, and the effect starts none. -/
theorem not_paged_effect {target : Option String} {providers : List String}
    (hno : ¬keepsStream s (.effect target providers)) :
    ¬({ s.abort s.abortController with abortController := none }.query target providers).Paged := by
  simp only [keepsStream, not_or, not_forall, not_not] at hno
  obtain ⟨htarget, hproviders, ac, hac, provider, hruns⟩ := hno
  rw [query, if_neg htarget, if_pos (List.length_eq_zero_iff.2 hproviders), hac]
  exact hruns.not_paged_abort

/-- An `AbortError` takes the last stream of a provider without stopping it. -/
theorem not_paged_abortError {ev : StreamEvent (ResumableEvent E)}
    (hst : (system E).step s (.stream i ev) = some t) (hno : ¬keepsStream s (.stream i ev)) :
    ¬t.Paged := by
  cases ev with
  | rejected name message =>
    simp only [keepsStream_rejected, not_forall, not_not] at hno
    obtain ⟨rfl, provider, hruns⟩ := hno
    simp only [system, step] at hst
    split at hst
    next => cases hst
    next stream hi =>
      obtain ⟨⟨phase, m⟩, hstep, rfl⟩ := Option.map_eq_some_iff.1 hst
      obtain ⟨rfl, rfl⟩ := Consumer.step_abortError hstep
      refine hruns.not_paged hruns.1 fun j stream' hlive => ?_
      have hne : j ≠ i := by
        rintro rfl
        obtain ⟨hlt, _⟩ := List.getElem?_eq_some_iff.1 hi
        rw [Live, List.getElem?_set_self hlt] at hlive
        obtain ⟨heq, -, hphase, -⟩ := hlive
        cases heq
        exact hphase rfl
      exact ⟨(live_set_of_ne hne).1 hlive, hne⟩
  | _ => exact absurd trivial hno

/-- `keepsStream` is the exact condition under which every running provider has a live stream. -/
theorem keepsStream_guards : (system E).Guards keepsStream Paged where
  safe := fun _ => paged_of_reachable
  tight := by
    intro s a t _ hst hno
    refine ⟨t, .refl, ?_⟩
    cases a with
    | effect target providers => cases hst; exact not_paged_effect hno
    | loadMore provider => cases hst; exact not_paged_loadMore hno
    | render => exact absurd trivial hno
    | stream i ev => exact not_paged_abortError hst hno

/-- Two providers have sent a first page each.  `loadMore` for the second aborts the page of the
first, which goes on running without a stream. -/
theorem loadMore_stalls : ¬∀ s, (system String).Reachable Policy.any s → s.Paged := by
  intro h
  obtain ⟨s, hr, hp⟩ := System.exists_of_replay (system String) Policy.any
    (fun s => (s.providerMap "a").any ProviderMRTEntriesState.isRunning &&
      s.streams.all fun stream => stream.provider ≠ "a" || stream.phase = .ended || !s.alive stream)
    [.effect (some "192.0.2.0/24") ["a", "b"],
      .stream 0 .opened, .stream 0 .started, .stream 0 (.value { cursorId := some "1" }),
      .stream 0 .done,
      .stream 1 .opened, .stream 1 .started, .stream 1 (.value { cursorId := some "2" }),
      .stream 1 .done,
      .render, .loadMore "a", .render, .loadMore "b"]
    (by decide +kernel)
  obtain ⟨hrunning, hstreams⟩ := (Bool.and_eq_true _ _).mp hp
  obtain ⟨state, hstate, hrunning⟩ := Option.any_eq_true _ _ |>.1 hrunning
  obtain ⟨i, stream, hi, hprovider, hphase, halive⟩ := h s hr "a" ⟨state, hstate, hrunning⟩
  have hended := List.all_eq_true.1 hstreams stream (List.mem_of_getElem? hi)
  simp [hprovider, hphase, halive] at hended

end MRTRun

end CloudPing.Web
