import CloudPing.Conc.System
import CloudPing.Handler.PingTask
import Mathlib.Logic.Function.Basic

/-!
# Which agents the hub uses

An agent sends JSON messages over the streams of its QUIC connection.  `handleMessage` does
up to three things with a message, in this order: it registers the connection, after the
validation of the token, it answers an echo, and it announces attributes.  Each is one
operation on the registry, and the streams of all connections run at the same time.

The three parts are independent.  A lookup for an agent to use looks at the announced
attributes and not at the registration.  `validatedFirst` is the condition on the messages
that makes the lookup find registered connections only.

The ghost field `accepted` has the connections on which a `Register` with an accepted token
was processed.
-/

namespace CloudPing.Handler

open Conc
open CloudPing.Auth CloudPing.Nodereg

/-! ## The handler -/

/-- What `handleMessage` uses of its `QUICHandler`. -/
structure MessageHandler where
  shouldValidateJWT : Bool
  /-- `JWTValidator.ParseToken` at a time. -/
  parseToken : Time → String → Except String RegisteredClaims

/-- A stream of a connection. -/
structure StreamId where
  key : String
  id : Nat
  deriving DecidableEq, Repr

/-- Where the goroutine of a stream is. -/
inductive StreamPC where
  /-- Before the next message. -/
  | scanning
  /-- Before the validation of the token. -/
  | validating (payload : MessagePayload)
  /-- Before `Register`. -/
  | registering (register : RegisterPayload) (claims : Option RegisteredClaims)
      (payload : MessagePayload)
  /-- Before the answer to an echo. -/
  | echoing (payload : MessagePayload)
  /-- Before `SetAttributes`. -/
  | announcing (payload : MessagePayload)
  | returned

/-- The registry, the streams and the connections accepted so far. -/
structure RegistryRun where
  registry : ConnRegistry := ∅
  /-- The keys of all connections so far. -/
  opened : List String := []
  streams : StreamId → StreamPC := fun _ => .scanning
  /-- The connections with an accepted token. -/
  accepted : List String := []

inductive RegistryAction where
  /-- A connection is accepted under a fresh key. -/
  | openConnection (key : String) (quicConn : Nat) (now : Time)
  | closeConnection (key : String)
  /-- A line comes in that parses, or one that does not. -/
  | scan (stream : StreamId) (msg : Option MessagePayload)
  | validate (stream : StreamId) (now : Time)
  | register (stream : StreamId) (now : Time)
  /-- The echo is answered, or its answer cannot be written. -/
  | echo (stream : StreamId) (now : Time) (written : Bool)
  | announce (stream : StreamId)

namespace RegistryRun

def goto (s : RegistryRun) (stream : StreamId) (pc : StreamPC) : RegistryRun :=
  { s with streams := Function.update s.streams stream pc }

/-- The step of `handleMessage` that validates a token. -/
def validated (h : MessageHandler) (now : Time) (payload : MessagePayload) : StreamPC :=
  match payload.register with
  | none => .echoing payload
  | some register =>
    if h.shouldValidateJWT then
      match register.token with
      | none => .returned
      | some tokenString =>
        match h.parseToken now tokenString with
        | .ok registeredClaims => .registering register (some registeredClaims) payload
        | .error _ => .returned
    else .registering register none payload

/-- The step of `handleMessage` that answers an echo. -/
def echoed (s : RegistryRun) (stream : StreamId) (now : Time) (written : Bool)
    (payload : MessagePayload) : RegistryRun :=
  match payload.echo with
  | some echo =>
    if echo.direction = .c2s then
      let registry := (s.registry.updateHeartbeat stream.key now).getD s.registry
      { s with registry := registry }.goto stream
        (if written then .announcing payload else .returned)
    else s.goto stream (.announcing payload)
  | none => s.goto stream (.announcing payload)

/-- The step of `handleMessage` that announces attributes. -/
def announced (s : RegistryRun) (stream : StreamId) (payload : MessagePayload) : RegistryRun :=
  match payload.attributesAnnouncement with
  | some announcement =>
    { s with
      registry := (s.registry.setAttributes stream.key announcement).getD s.registry }.goto
        stream .scanning
  | none => s.goto stream .scanning

def step (h : MessageHandler) (s : RegistryRun) : RegistryAction → Option RegistryRun
  | .openConnection key quicConn now =>
    if key ∈ s.opened then none
    else
      some { s with
        registry := s.registry.openConnection key (some quicConn) now
        opened := key :: s.opened }
  | .closeConnection key => some { s with registry := s.registry.closeConnection key }
  | .scan stream msg =>
    match s.streams stream, msg with
    | .scanning, some payload =>
      if stream.key ∈ s.opened then some (s.goto stream (.validating payload)) else none
    | .scanning, none => some (s.goto stream .returned)
    | _, _ => none
  | .validate stream now =>
    match s.streams stream with
    | .validating payload => some (s.goto stream (validated h now payload))
    | _ => none
  | .register stream now =>
    match s.streams stream with
    | .registering register claims payload =>
      match s.registry.register stream.key register claims now with
      | some registry =>
        some ({ s with
          registry := registry
          accepted := if claims.isSome then stream.key :: s.accepted else s.accepted }.goto
            stream (.echoing payload))
      | none => some (s.goto stream .returned)
    | _ => none
  | .echo stream now written =>
    match s.streams stream with
    | .echoing payload => some (s.echoed stream now written payload)
    | _ => none
  | .announce stream =>
    match s.streams stream with
    | .announcing payload => some (s.announced stream payload)
    | _ => none

def system (h : MessageHandler) : System RegistryRun RegistryAction := ⟨{}, step h⟩

/-! ## Which connections are used -/

/-- Some search of the registry returns the entry of the connection. -/
def CanReturn (s : RegistryRun) (key : String) : Prop :=
  ∃ entry, s.registry.lookup key = some entry ∧
    ∃ walk from_ capability, (entry :: walk).Perm (s.registry.entries.map Sigma.snd) ∧
      getConnWithCapability (some (entry :: walk)) from_ capability = some entry.clone

/-- Only connections with an accepted token are used. -/
def Authenticated (s : RegistryRun) : Prop := ∀ key, s.CanReturn key → key ∈ s.accepted

/-- The attributes are those of an agent that pings and has a name. -/
def Usable (attrs : ConnectionAttributes) : Prop :=
  attrs.lookup attributeKeyPingCapability = some "true" ∧
    ∃ from_, attrs.lookup attributeKeyNodeName = some from_

/-- Before an accepted `Register` on the connection, no announcement leaves it with the
capability to ping and a name. -/
def validatedFirst : Policy RegistryRun RegistryAction := fun s a =>
  ∀ stream payload announcement entry,
    a = .announce stream → s.streams stream = .announcing payload →
    payload.attributesAnnouncement = some announcement →
    s.registry.lookup stream.key = some entry → stream.key ∉ s.accepted →
    ¬ Usable (ConnRegistry.announced announcement entry.attributes)

variable {h : MessageHandler} {s t : RegistryRun} {stream : StreamId} {key : String}

@[simp] theorem goto_registry (s : RegistryRun) (stream pc) :
    (s.goto stream pc).registry = s.registry := rfl
@[simp] theorem goto_accepted (s : RegistryRun) (stream pc) :
    (s.goto stream pc).accepted = s.accepted := rfl

theorem system_step (h : MessageHandler) : (system h).step = step h := rfl

/-! ## What a lookup finds -/

theorem testAgainstAttributes_iff {entry : ConnRegistryData} {from_ : String} :
    entry.testAgainstAttributes
        [(attributeKeyPingCapability, "true"), (attributeKeyNodeName, from_)] = true ↔
      entry.attributes.lookup attributeKeyPingCapability = some "true" ∧
        entry.attributes.lookup attributeKeyNodeName = some from_ := by
  simp [ConnRegistryData.testAgainstAttributes]

/-- A search can return an entry exactly if its attributes are usable. -/
theorem canReturn_iff :
    s.CanReturn key ↔ ∃ entry, s.registry.lookup key = some entry ∧ Usable entry.attributes := by
  constructor
  · rintro ⟨entry, hl, walk, from_, capability, _, hget⟩
    simp only [getConnWithCapability, ConnRegistry.searchByAttributes, Option.bind_some,
      Option.map_map, Option.map_eq_some_iff] at hget
    obtain ⟨found, hfound, hclone⟩ := hget
    have hattrs : found.attributes = entry.attributes :=
      congrArg (fun regData => regData.attributes) hclone
    have htest := List.find?_some hfound
    obtain ⟨hping, hname⟩ := testAgainstAttributes_iff.1 htest
    rw [hattrs] at hping hname
    exact ⟨entry, hl, hping, from_, hname⟩
  · rintro ⟨entry, hl, hping, from_, hname⟩
    have hmem : entry ∈ s.registry.entries.map Sigma.snd :=
      List.mem_map.2 ⟨⟨key, entry⟩, AList.mem_lookup_iff.1 hl, rfl⟩
    obtain ⟨l₁, l₂, hsplit⟩ := List.append_of_mem hmem
    refine ⟨entry, hl, l₁ ++ l₂, from_, attributeKeyPingCapability, ?_, ?_⟩
    · rw [hsplit]
      exact List.perm_middle.symm
    have htest := testAgainstAttributes_iff.2 ⟨hping, hname⟩
    simp only [getConnWithCapability, Option.bind_some, ConnRegistry.searchByAttributes,
      List.find?_cons, htest, Option.map_some]
    rfl

/-! ## The invariant -/

/-- Connections with usable attributes have an accepted token. -/
def Inv (s : RegistryRun) : Prop :=
  ∀ key entry, s.registry.lookup key = some entry → Usable entry.attributes → key ∈ s.accepted

theorem not_usable_empty : ¬ Usable (∅ : ConnectionAttributes) := by
  rintro ⟨hping, _⟩
  rw [AList.lookup_empty] at hping
  cases hping

theorem lookup_update {cr cr' : ConnRegistry} {op : ConnRegistryData → ConnRegistryData}
    (h : cr.update key op = some cr') (key' : String) :
    cr'.lookup key' = if key' = key then (cr.lookup key).map op else cr.lookup key' := by
  obtain ⟨entry, hl, rfl⟩ := Option.map_eq_some_iff.1 h
  rw [Store.lookup_insert_eq, hl]
  rfl

/-- An update that leaves the attributes alone. -/
theorem Inv.update {cr : ConnRegistry} {op : ConnRegistryData → ConnRegistryData}
    (hi : Inv s) (hu : s.registry.update key op = some cr)
    (hop : ∀ entry, (op entry).attributes = entry.attributes) (hreg : t.registry = cr)
    (hacc : s.accepted ⊆ t.accepted) : Inv t := by
  intro key' entry hl hus
  rw [hreg, lookup_update hu] at hl
  split at hl
  next hkey =>
    subst hkey
    obtain ⟨entry', hl', rfl⟩ := Option.map_eq_some_iff.1 hl
    rw [hop] at hus
    exact hacc (hi key' entry' hl' hus)
  next => exact hacc (hi key' entry hl hus)

theorem Inv.same (hi : Inv s) (hreg : t.registry = s.registry)
    (hacc : t.accepted = s.accepted) : Inv t := by
  intro key entry hl hus
  rw [hreg] at hl
  rw [hacc]
  exact hi key entry hl hus

/-! ## One step -/

theorem Inv.echoed (hi : Inv s) (now : Time) (written : Bool) (payload : MessagePayload) :
    Inv (s.echoed stream now written payload) := by
  simp only [RegistryRun.echoed]
  split
  next echo _ =>
    split
    next =>
      cases hu : s.registry.updateHeartbeat stream.key now with
      | none => exact hi.same rfl rfl
      | some cr => exact hi.update hu (fun _ => rfl) rfl (List.Subset.refl _)
    next => exact hi.same rfl rfl
  next => exact hi.same rfl rfl

theorem Inv.announced (hi : Inv s) (payload : MessagePayload)
    (hok : ∀ announcement entry, payload.attributesAnnouncement = some announcement →
      s.registry.lookup stream.key = some entry → stream.key ∉ s.accepted →
      ¬ Usable (ConnRegistry.announced announcement entry.attributes)) :
    Inv (s.announced stream payload) := by
  simp only [RegistryRun.announced]
  split
  next announcement hann =>
    cases hu : s.registry.setAttributes stream.key announcement with
    | none => exact hi.same rfl rfl
    | some cr =>
      intro key entry hl hus
      rw [goto_registry, Option.getD_some, lookup_update hu] at hl
      split at hl
      next hkey =>
        subst hkey
        obtain ⟨entry', hl', rfl⟩ := Option.map_eq_some_iff.1 hl
        by_contra hacc
        exact hok announcement entry' hann hl' hacc hus
      next => exact hi key entry hl hus
  next => exact hi.same rfl rfl

theorem Inv.step {a : RegistryAction} (hi : Inv s) (hok : validatedFirst s a)
    (hst : step h s a = some t) : Inv t := by
  cases a with
  | openConnection key quicConn now =>
    simp only [RegistryRun.step] at hst
    split at hst
    next => cases hst
    next =>
      cases hst
      intro key' entry hl hus
      rcases Store.lookup_insert_eq_some hl with ⟨-, rfl⟩ | ⟨-, hl⟩
      · exact absurd hus not_usable_empty
      · exact hi key' entry hl hus
  | closeConnection key =>
    cases hst
    intro key' entry hl hus
    exact hi key' entry (Store.lookup_erase_eq_some hl).2 hus
  | scan stream msg =>
    simp only [RegistryRun.step] at hst
    split at hst
    next =>
      split at hst
      next => cases hst; exact hi.same rfl rfl
      next => cases hst
    next => cases hst; exact hi.same rfl rfl
    next => cases hst
  | validate stream now =>
    simp only [RegistryRun.step] at hst
    split at hst
    next => cases hst; exact hi.same rfl rfl
    next => cases hst
  | register stream now =>
    simp only [RegistryRun.step] at hst
    split at hst
    next register claims payload _ =>
      split at hst
      next cr hu =>
        cases hst
        refine hi.update hu (fun _ => rfl) rfl ?_
        rw [goto_accepted]
        split
        next => exact List.subset_cons_self _ _
        next => exact List.Subset.refl _
      next => cases hst; exact hi.same rfl rfl
    next => cases hst
  | echo stream now written =>
    simp only [RegistryRun.step] at hst
    split at hst
    next payload _ => cases hst; exact hi.echoed now written payload
    next => cases hst
  | announce stream =>
    simp only [RegistryRun.step] at hst
    split at hst
    next payload hpc =>
      cases hst
      exact hi.announced payload fun announcement entry => hok stream payload announcement entry
        rfl hpc
    next => cases hst

/-- The agents a lookup finds are authenticated, exactly if no announcement makes an agent
usable before its connection has an accepted token. -/
theorem only_authenticated (h : MessageHandler) :
    (system h).Guards validatedFirst Authenticated := by
  refine ⟨fun s hr => ?_, fun s a t _ hst hok => ?_⟩
  · have hi : Inv s := hr.invariant (fun _ _ hl => by cases hl) fun _ _ _ hi hok hst =>
      hi.step hok hst
    intro key hkey
    obtain ⟨entry, hl, hus⟩ := canReturn_iff.1 hkey
    exact hi key entry hl hus
  · simp only [validatedFirst, not_forall, not_not] at hok
    obtain ⟨stream, payload, announcement, entry, rfl, hpc, hann, hl, hacc, hus⟩ := hok
    have ht : t = s.announced stream payload := by
      rw [system_step, step, hpc] at hst
      exact (Option.some.inj hst).symm
    have hlookup : t.registry.lookup stream.key = some { entry with
        attributes := ConnRegistry.announced announcement entry.attributes } := by
      simp only [ht, RegistryRun.announced, hann, ConnRegistry.setAttributes,
        ConnRegistry.update, hl, Option.map_some, Option.getD_some, goto_registry,
        Store.lookup_insert_eq, if_pos]
    have hacc' : stream.key ∉ t.accepted := by
      simpa only [ht, RegistryRun.announced, hann, goto_accepted] using hacc
    exact ⟨t, .refl, fun hsafe => hacc' (hsafe _ (canReturn_iff.2 ⟨_, hlookup, hus⟩))⟩

/-- The attributes of an agent that pings and is called `node`. -/
def nodeAttributes : AttributesAnnouncementPayload where
  attributes := (∅ : ConnectionAttributes)
    |>.insert attributeKeyPingCapability "true"
    |>.insert attributeKeyNodeName "node"

/-- A handler that asks for tokens and accepts none. -/
def closedHandler : MessageHandler where
  shouldValidateJWT := true
  parseToken _ _ := .error "invalid token"

/-- A connection on which one message is sent, an announcement without a registration. -/
def announceOnly : List RegistryAction :=
  [.openConnection "conn" 1 0,
    .scan ⟨"conn", 0⟩ (some { attributesAnnouncement := some nodeAttributes }),
    .validate ⟨"conn", 0⟩ 0, .echo ⟨"conn", 0⟩ 0 true, .announce ⟨"conn", 0⟩]

theorem unregistered_agent_used :
    ∃ s, (system closedHandler).Reachable .any s ∧ s.CanReturn "conn" ∧ s.accepted = [] := by
  obtain ⟨s, hr, hs⟩ := System.exists_of_replay (system closedHandler) .any
    (fun s => (s.registry.lookup "conn").any (fun entry => entry.testAgainstAttributes
      [(attributeKeyPingCapability, "true"), (attributeKeyNodeName, "node")]) &&
        s.accepted.isEmpty) announceOnly (by decide +kernel)
  obtain ⟨hfound, hacc⟩ := Bool.and_eq_true_iff.1 hs
  obtain ⟨entry, hl, htest⟩ := (Option.any_eq_true _ _).1 hfound
  obtain ⟨hping, hname⟩ := testAgainstAttributes_iff.1 htest
  exact ⟨s, hr, canReturn_iff.2 ⟨entry, hl, hping, "node", hname⟩, List.isEmpty_iff.1 hacc⟩

end RegistryRun

end CloudPing.Handler
