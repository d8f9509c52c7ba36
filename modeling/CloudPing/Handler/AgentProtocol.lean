import CloudPing.Handler.HandleMessage
import CloudPing.Nodereg.Isolation

/-!
# Agents and the hub

An agent opens one stream, registers itself and announces its attributes in one message, and then
sends an echo at each tick.  The hub handles the messages of each stream in order, while those of
other connections, of which nothing is known, go on at the same time.  It answers an echo on the
stream it came from, and the agent logs the replies that it reads.  A reply may be lost on the way
(`recvMsgPayload` makes a decoder for each message).

The marks of the echoes that an agent has logged, of the replies on their way, of the echo that the
hub is at, and of those on their way to it are in this order part of the marks of its ticks
(`Connected.echoes`).  What the hub has of the connection is what the agent announced, once its
token was accepted, or nothing (`Shown`).
-/

namespace CloudPing.Handler

open Conc
open CloudPing.Auth CloudPing.Nodereg

/-! ## The agent -/

/-- What a `NodeRegistrationAgent` is set to. -/
structure NodeRegistrationAgent where
  nodeName : String
  correlationID : String
  token : Option String := none
  nodeAttributes : Option ConnectionAttributes := none

namespace NodeRegistrationAgent

def getRegisterPayload (agent : NodeRegistrationAgent) : MessagePayload where
  register := some { nodeName := agent.nodeName, token := agent.token }
  attributesAnnouncement := agent.nodeAttributes.map fun attributes => { attributes }

def getTickMsg (agent : NodeRegistrationAgent) (now seqID : UInt64) : EchoPayload where
  direction := .c2s
  correlationID := agent.correlationID
  serverTimestamp := 0
  timestamp := now
  seqID := seqID

/-- The condition of `runReceiver`. -/
def logs (agent : NodeRegistrationAgent) (echo : EchoPayload) : Bool :=
  echo.correlationID = agent.correlationID ∧ echo.direction = .s2c

end NodeRegistrationAgent

/-- Where `doRun` is, once there is a stream. -/
inductive AgentPC where
  | registering
  | ticking
  | returned
  deriving DecidableEq, Repr

/-- A connection of an agent. -/
structure AgentConn where
  agent : NodeRegistrationAgent
  pc : AgentPC := .registering
  /-- The sequence number with which the connection began. -/
  first : UInt64
  seqID : UInt64
  /-- Messages on their way to the hub. -/
  up : List MessagePayload := []
  /-- Replies on their way to the agent. -/
  down : List EchoPayload := []
  ticks : List EchoPayload := []
  logged : List EchoPayload := []

/-! ## Runs -/

structure ProtocolRun where
  hub : RegistryRun := {}
  agents : String → Option AgentConn := fun _ => none

inductive ProtocolAction where
  /-- An agent opens a connection and its stream. -/
  | dial (key : String) (agent : NodeRegistrationAgent) (seqID : UInt64) (quicConn : Nat)
      (now : Time)
  | sendRegister (key : String)
  | tick (key : String) (now : UInt64)
  | leave (key : String)
  /-- The next message of an agent is at the hub. -/
  | scan (key : String)
  /-- The stream of an agent has ended. -/
  | hangUp (key : String)
  | echo (stream : StreamId) (now : Time) (serverTimestamp : UInt64) (written : Bool)
  | recv (key : String)
  | lose (key : String)
  /-- Another step of the hub, or one for a connection that is none of an agent. -/
  | hub (a : RegistryAction)

/-- The reply to an echo. -/
def pong (echo : EchoPayload) (serverTimestamp : UInt64) : EchoPayload :=
  { echo with direction := .s2c, serverTimestamp := serverTimestamp }

/-- What the hub writes at an echo. -/
def pongs (payload : MessagePayload) (serverTimestamp : UInt64) (written : Bool) :
    List EchoPayload :=
  match payload.echo with
  | some echo => if echo.direction = .c2s ∧ written then [pong echo serverTimestamp] else []
  | none => []

namespace ProtocolRun

/-- A step of an agent. -/
def onAgent (s : ProtocolRun) (key : String) (f : AgentConn → Option AgentConn) :
    Option ProtocolRun :=
  ((s.agents key).bind f).map fun c => { s with agents := Function.update s.agents key (some c) }

/-- What only the hub does, with messages of its own choice only from connections that are none of
an agent. -/
def hubOnly (s : ProtocolRun) : RegistryAction → Bool
  | .scan stream _ => (s.agents stream.key).isNone
  | .echo .. => false
  | _ => true

def step (h : MessageHandler) (s : ProtocolRun) : ProtocolAction → Option ProtocolRun
  | .dial key agent seqID quicConn now =>
    (s.hub.step h (.openConnection key quicConn now)).map fun hub =>
      { hub, agents := Function.update s.agents key (some { agent, first := seqID, seqID }) }
  | .sendRegister key => s.onAgent key fun c =>
    if c.pc = .registering then
      some { c with pc := .ticking, up := c.up ++ [c.agent.getRegisterPayload] }
    else none
  | .tick key now => s.onAgent key fun c =>
    if c.pc = .ticking then
      let msg := c.agent.getTickMsg now c.seqID
      some { c with
        seqID := c.seqID + 1, up := c.up ++ [{ echo := some msg }], ticks := c.ticks ++ [msg] }
    else none
  | .leave key => s.onAgent key fun c => some { c with pc := .returned }
  | .scan key =>
    match s.agents key with
    | some c =>
      match c.up with
      | payload :: up =>
        (s.hub.step h (.scan ⟨key, 0⟩ (some payload))).map fun hub =>
          { hub, agents := Function.update s.agents key (some { c with up := up }) }
      | [] => none
    | none => none
  | .hangUp key =>
    if (s.agents key).isSome then
      (s.hub.step h (.scan ⟨key, 0⟩ none)).map fun hub => { s with hub := hub }
    else none
  | .echo stream now serverTimestamp written =>
    match s.hub.streams stream with
    | .echoing payload =>
      (s.hub.step h (.echo stream now written)).map fun hub =>
        { hub
          agents := Function.update s.agents stream.key ((s.agents stream.key).map fun c =>
            { c with down := c.down ++ pongs payload serverTimestamp written }) }
    | _ => none
  | .recv key => s.onAgent key fun c =>
    match c.down with
    | echo :: down =>
      some { c with
        down := down, logged := if c.agent.logs echo then c.logged ++ [echo] else c.logged }
    | [] => none
  | .lose key => s.onAgent key fun c =>
    match c.down with
    | _ :: down => some { c with down := down }
    | [] => none
  | .hub a =>
    if s.hubOnly a then (s.hub.step h a).map fun hub => { s with hub := hub } else none

def system (h : MessageHandler) : System ProtocolRun ProtocolAction := ⟨{}, step h⟩

end ProtocolRun

/-! ## What a connection promises -/

/-- The token of the agent is valid at the time of some check. -/
def ValidToken (h : MessageHandler) (agent : NodeRegistrationAgent) : Prop :=
  ∃ token now claims, agent.token = some token ∧ h.parseToken now token = .ok claims

/-- The hub asks for no token, or has accepted that of the agent on the connection. -/
def Admitted (h : MessageHandler) (accepted : List String) (key : String)
    (agent : NodeRegistrationAgent) : Prop :=
  h.shouldValidateJWT = true → key ∈ accepted ∧ ValidToken h agent

/-- An entry of the registry shows nothing of an agent, or what it announced after it was
admitted. -/
structure Shown (h : MessageHandler) (accepted : List String) (key : String)
    (agent : NodeRegistrationAgent) (entry : ConnRegistryData) : Prop where
  nodeName : ∀ name, entry.nodeName = some name →
    name = agent.nodeName ∧ Admitted h accepted key agent
  attributes : entry.attributes = ∅ ∨ Admitted h accepted key agent ∧
    ∀ name, entry.attributes.lookup name = (agent.nodeAttributes.getD ∅).lookup name

/-- What a reply has of the echo that it answers. -/
def mark (echo : EchoPayload) : String × UInt64 × UInt64 :=
  (echo.correlationID, echo.timestamp, echo.seqID)

/-- The ticks are numbered one after another, and what is logged are replies to some of them, in
their order and each at most once. -/
structure Answered (c : AgentConn) : Prop where
  numbered : c.ticks.map EchoPayload.seqID =
    (List.range c.ticks.length).map fun i => c.first + UInt64.ofNat i
  logged : (c.logged.map mark).Sublist (c.ticks.map mark)
  replies : ∀ echo ∈ c.logged, echo.direction = .s2c ∧ echo.correlationID = c.agent.correlationID

/-! ## The invariant of a connection -/

/-- A message of an agent. -/
def Own (agent : NodeRegistrationAgent) (payload : MessagePayload) : Prop :=
  payload = agent.getRegisterPayload ∨
    ∃ now seqID, payload = { echo := some (agent.getTickMsg now seqID) }

/-- The messages that the hub is at are those of the agent, and what registers has a valid token,
with which the agent is admitted. -/
def OwnPC (h : MessageHandler) (accepted : List String) (key : String)
    (agent : NodeRegistrationAgent) : StreamPC → Prop
  | .scanning | .returned => True
  | .validating payload => Own agent payload
  | .registering register claims payload => payload = agent.getRegisterPayload ∧
      register.nodeName = agent.nodeName ∧
        (h.shouldValidateJWT = true → claims.isSome = true ∧ ValidToken h agent)
  | .echoing payload | .announcing payload => Own agent payload ∧
      (payload.register.isSome = true → Admitted h accepted key agent)

/-- The echo that the hub has not answered yet. -/
def pendingEcho : StreamPC → List EchoPayload
  | .validating payload | .registering _ _ payload | .echoing payload => payload.echo.toList
  | _ => []

/-- No message is handled. -/
def Idle (pc : StreamPC) : Prop := pc = .scanning ∨ pc = .returned

/-- The marks of the echoes on their way, the oldest first. -/
def echoMarks (hub : RegistryRun) (key : String) (c : AgentConn) : List (String × UInt64 × UInt64) :=
  (c.logged ++ c.down ++ pendingEcho (hub.streams ⟨key, 0⟩) ++
    c.up.flatMap fun payload => payload.echo.toList).map mark

structure Connected (h : MessageHandler) (hub : RegistryRun) (key : String) (c : AgentConn) :
    Prop where
  opened : key ∈ hub.opened
  next : c.seqID = c.first + UInt64.ofNat c.ticks.length
  numbered : c.ticks.map EchoPayload.seqID =
    (List.range c.ticks.length).map fun i => c.first + UInt64.ofNat i
  up : ∀ payload ∈ c.up, Own c.agent payload
  others : ∀ id, id ≠ 0 → Idle (hub.streams ⟨key, id⟩)
  stream : OwnPC h hub.accepted key c.agent (hub.streams ⟨key, 0⟩)
  echoes : (echoMarks hub key c).Sublist (c.ticks.map mark)
  replies : ∀ echo ∈ c.logged, echo.direction = .s2c ∧ echo.correlationID = c.agent.correlationID
  shown : ∀ entry, hub.registry.lookup key = some entry →
    Shown h hub.accepted key c.agent entry

/-- The agents are at connections of the hub, and nothing is handled on one that was not opened. -/
structure Protocol (h : MessageHandler) (s : ProtocolRun) : Prop where
  connected : ∀ key c, s.agents key = some c → Connected h s.hub key c
  fresh : ∀ key id, key ∉ s.hub.opened → Idle (s.hub.streams ⟨key, id⟩)

/-! ## Steps of the hub -/

/-- The connection that a step is about. -/
def RegistryAction.key : RegistryAction → String
  | .openConnection key _ _ | .closeConnection key => key
  | .scan stream _ | .validate stream _ | .register stream _ | .echo stream _ _
  | .announce stream => stream.key

/-- The hub has the same of a connection. -/
structure SameAt (key : String) (hub hub' : RegistryRun) : Prop where
  opened : key ∈ hub'.opened ↔ key ∈ hub.opened
  streams : ∀ id, hub'.streams ⟨key, id⟩ = hub.streams ⟨key, id⟩
  registry : hub'.registry.lookup key = hub.registry.lookup key

/-- No other connection is touched, and what was accepted stays accepted. -/
structure Touches (key : String) (hub hub' : RegistryRun) : Prop where
  others : ∀ {key'}, key' ≠ key → SameAt key' hub hub'
  accepted : hub.accepted ⊆ hub'.accepted

variable {h : MessageHandler} {hub hub' : RegistryRun} {key : String} {c : AgentConn}
  {s t : ProtocolRun}

namespace RegistryRun

theorem streams_goto (s : RegistryRun) (stream stream' : StreamId) (pc : StreamPC) :
    (s.goto stream pc).streams stream' = if stream' = stream then pc else s.streams stream' := by
  rw [goto]
  exact Function.update_apply _ _ _ _

/-- Streams of another connection. -/
theorem streams_goto_of_ne {stream : StreamId} (hne : key ≠ stream.key) (s : RegistryRun)
    (pc : StreamPC) (id : Nat) : (s.goto stream pc).streams ⟨key, id⟩ = s.streams ⟨key, id⟩ := by
  rw [streams_goto, if_neg fun heq => hne (congrArg StreamId.key heq)]

theorem lookup_update_of_ne {cr cr' : ConnRegistry} {key' : String}
    {op : ConnRegistryData → ConnRegistryData} (hu : cr.update key' op = some cr')
    (hne : key ≠ key') : cr'.lookup key = cr.lookup key := by
  rw [lookup_update hu, if_neg hne]

theorem lookup_getD_update_of_ne {cr : ConnRegistry} {key' : String}
    {op : ConnRegistryData → ConnRegistryData} (hne : key ≠ key') :
    ((cr.update key' op).getD cr).lookup key = cr.lookup key := by
  cases hu : cr.update key' op with
  | none => rfl
  | some cr' => exact lookup_update_of_ne hu hne

section Touches

variable {stream : StreamId}

/-- A stream goes on, with what it has done to the entry of its connection. -/
theorem touches_goto {registry : ConnRegistry} {accepted : List String}
    (hreg : ∀ key, key ≠ stream.key → registry.lookup key = hub.registry.lookup key)
    (hacc : hub.accepted ⊆ accepted) (pc : StreamPC) :
    Touches stream.key hub
      ({ hub with registry := registry, accepted := accepted }.goto stream pc) where
  others hne := ⟨Iff.rfl, streams_goto_of_ne hne _ pc, hreg _ hne⟩
  accepted := hacc

theorem touches_stream (pc : StreamPC) : Touches stream.key hub (hub.goto stream pc) :=
  touches_goto (fun _ _ => rfl) (List.Subset.refl _) pc

theorem touches_echoed (now : Time) (written : Bool) (payload : MessagePayload) :
    Touches stream.key hub (hub.echoed stream now written payload) := by
  simp only [RegistryRun.echoed]
  split
  next =>
    split
    next =>
      exact touches_goto (fun _ hne => lookup_getD_update_of_ne hne) (List.Subset.refl _) _
    next => exact touches_stream _
  next => exact touches_stream _

theorem touches_announced (payload : MessagePayload) :
    Touches stream.key hub (hub.announced stream payload) := by
  simp only [RegistryRun.announced]
  split
  next => exact touches_goto (fun _ hne => lookup_getD_update_of_ne hne) (List.Subset.refl _) _
  next => exact touches_stream _

end Touches

/-- A step touches the connection it is about only. -/
theorem step_touches {a : RegistryAction} (hst : hub.step h a = some hub') :
    Touches a.key hub hub' := by
  cases a with
  | openConnection key quicConn now =>
    obtain ⟨-, hst⟩ := Option.ite_none_left_eq_some.1 hst
    cases hst
    exact ⟨fun hne => ⟨List.mem_cons.trans (or_iff_right hne), fun _ => rfl,
      AList.lookup_insert_ne hne⟩, List.Subset.refl _⟩
  | closeConnection key =>
    cases hst
    exact ⟨fun hne => ⟨Iff.rfl, fun _ => rfl, AList.lookup_erase_ne hne⟩, List.Subset.refl _⟩
  | scan stream msg =>
    simp only [RegistryRun.step] at hst
    split at hst
    next =>
      obtain ⟨-, hst⟩ := Option.ite_none_right_eq_some.1 hst
      cases hst
      exact touches_stream _
    next =>
      cases hst
      exact touches_stream _
    next => cases hst
  | validate stream now =>
    simp only [RegistryRun.step] at hst
    split at hst
    next =>
      cases hst
      exact touches_stream _
    next => cases hst
  | register stream now =>
    simp only [RegistryRun.step] at hst
    split at hst
    next =>
      split at hst
      next registry hu =>
        cases hst
        refine touches_goto (fun _ hne => lookup_update_of_ne hu hne) ?_ _
        split_ifs
        · exact List.subset_cons_self _ _
        · exact List.Subset.refl _
      next =>
        cases hst
        exact touches_stream _
    next => cases hst
  | echo stream now written =>
    simp only [RegistryRun.step] at hst
    split at hst
    next payload _ =>
      cases hst
      exact touches_echoed now written payload
    next => cases hst
  | announce stream =>
    simp only [RegistryRun.step] at hst
    split at hst
    next payload _ =>
      cases hst
      exact touches_announced payload
    next => cases hst

end RegistryRun

/-! ## What was admitted -/

section Mono

variable {accepted accepted' : List String} {agent : NodeRegistrationAgent}

theorem Admitted.mono (hadmitted : Admitted h accepted key agent) (hacc : accepted ⊆ accepted') :
    Admitted h accepted' key agent := fun hv =>
  ⟨hacc (hadmitted hv).1, (hadmitted hv).2⟩

theorem Shown.mono {entry : ConnRegistryData} (hshown : Shown h accepted key agent entry)
    (hacc : accepted ⊆ accepted') : Shown h accepted' key agent entry where
  nodeName name hn := (hshown.nodeName name hn).imp_right fun hadmitted => hadmitted.mono hacc
  attributes := hshown.attributes.imp_right fun hattrs =>
    hattrs.imp_left fun hadmitted => hadmitted.mono hacc

theorem OwnPC.mono {pc : StreamPC} (hpc : OwnPC h accepted key agent pc)
    (hacc : accepted ⊆ accepted') : OwnPC h accepted' key agent pc := by
  cases pc with
  | scanning | returned => trivial
  | validating payload => exact hpc
  | registering register claims payload => exact hpc
  | echoing payload | announcing payload =>
    exact hpc.imp_right fun hadmitted hregister => (hadmitted hregister).mono hacc

end Mono

theorem Connected.frame (hc : Connected h hub key c) (hsame : SameAt key hub hub')
    (hacc : hub.accepted ⊆ hub'.accepted) : Connected h hub' key c where
  opened := hsame.opened.2 hc.opened
  next := hc.next
  numbered := hc.numbered
  up := hc.up
  others id hid := by
    rw [hsame.streams]
    exact hc.others id hid
  stream := by
    rw [hsame.streams]
    exact hc.stream.mono hacc
  echoes := by
    rw [echoMarks, hsame.streams]
    exact hc.echoes
  replies := hc.replies
  shown entry hl := (hc.shown entry (hsame.registry ▸ hl)).mono hacc

/-- A step about the connection itself: its stream is at another place, and what is on its way has
moved on or is lost. -/
theorem Connected.moved (hc : Connected h hub key c) (pc : StreamPC) (up : List MessagePayload)
    (down : List EchoPayload) (hopened : hub'.opened = hub.opened)
    (hstreams : ∀ id, hub'.streams ⟨key, id⟩ = if id = 0 then pc else hub.streams ⟨key, id⟩)
    (hup : ∀ payload ∈ up, Own c.agent payload) (hpc : OwnPC h hub'.accepted key c.agent pc)
    (hechoes : ((down ++ pendingEcho pc ++ up.flatMap fun payload => payload.echo.toList).map
        mark).Sublist
      ((c.down ++ pendingEcho (hub.streams ⟨key, 0⟩) ++
        c.up.flatMap fun payload => payload.echo.toList).map mark))
    (hshown : ∀ entry, hub'.registry.lookup key = some entry →
      Shown h hub'.accepted key c.agent entry) :
    Connected h hub' key { c with up := up, down := down } where
  opened := hopened ▸ hc.opened
  next := hc.next
  numbered := hc.numbered
  up := hup
  others id hid := by
    rw [hstreams, if_neg hid]
    exact hc.others id hid
  stream := by
    rw [hstreams, if_pos rfl]
    exact hpc
  echoes := by
    refine List.Sublist.trans ?_ hc.echoes
    simp only [echoMarks, hstreams, if_true, List.append_assoc, List.map_append] at hechoes ⊢
    exact List.Sublist.append_left hechoes _
  replies := hc.replies
  shown := hshown

/-- The stream is at another place, and the entry of the connection is what it was or shows no
more than it may. -/
theorem Connected.goto (hc : Connected h hub key c) {hub₁ : RegistryRun} {pc : StreamPC}
    (hopened : hub₁.opened = hub.opened) (hstreams : hub₁.streams = hub.streams)
    (hpc : OwnPC h hub₁.accepted key c.agent pc)
    (hpending : (pendingEcho pc).Sublist (pendingEcho (hub.streams ⟨key, 0⟩)))
    (hshown : ∀ entry, hub₁.registry.lookup key = some entry →
      Shown h hub₁.accepted key c.agent entry) :
    Connected h (hub₁.goto ⟨key, 0⟩ pc) key c := by
  refine hc.moved pc c.up c.down hopened (fun id => ?_) hc.up hpc ?_ hshown
  · rw [RegistryRun.streams_goto, hstreams]
    simp only [StreamId.mk.injEq, true_and]
  · exact (((List.Sublist.refl _).append hpending).append (List.Sublist.refl _)).map mark

/-! ## The handler at a message of an agent -/

theorem register_of_own {agent : NodeRegistrationAgent} {payload : MessagePayload}
    (hown : Own agent payload) {register : RegisterPayload}
    (hr : payload.register = some register) :
    payload = agent.getRegisterPayload ∧ register = ⟨agent.nodeName, agent.token⟩ := by
  rcases hown with rfl | ⟨now, seqID, rfl⟩
  · exact ⟨rfl, (Option.some.inj hr).symm⟩
  · cases hr

theorem announcement_of_own {agent : NodeRegistrationAgent} {payload : MessagePayload}
    (hown : Own agent payload) {announcement : AttributesAnnouncementPayload}
    (ha : payload.attributesAnnouncement = some announcement) :
    payload.register.isSome = true ∧
      ∃ attributes, agent.nodeAttributes = some attributes ∧ announcement = { attributes } := by
  rcases hown with rfl | ⟨now, seqID, rfl⟩
  · obtain ⟨attributes, hattrs, rfl⟩ := Option.map_eq_some_iff.1 ha
    exact ⟨rfl, attributes, hattrs, rfl⟩
  · cases ha

/-- The token is validated. -/
theorem ownPC_validated {agent : NodeRegistrationAgent} {payload : MessagePayload}
    (hown : Own agent payload) (accepted : List String) (key : String) (now : Time) :
    OwnPC h accepted key agent (RegistryRun.validated h now payload) ∧
      (pendingEcho (RegistryRun.validated h now payload)).Sublist payload.echo.toList := by
  rw [RegistryRun.validated]
  cases hr : payload.register with
  | none => exact ⟨⟨hown, fun hsome => by rw [hr] at hsome; cases hsome⟩, List.Sublist.refl _⟩
  | some register =>
    obtain ⟨hpayload, hregister⟩ := register_of_own hown hr
    have hname : register.nodeName = agent.nodeName := congrArg RegisterPayload.nodeName hregister
    have htoken : register.token = agent.token := congrArg RegisterPayload.token hregister
    dsimp only
    split_ifs with hvalidate
    · cases ht : register.token with
      | none => exact ⟨trivial, List.nil_sublist _⟩
      | some token =>
        dsimp only
        cases hp : h.parseToken now token with
        | error err => exact ⟨trivial, List.nil_sublist _⟩
        | ok claims =>
          exact ⟨⟨hpayload, hname, fun _ => ⟨rfl, token, now, claims, htoken ▸ ht, hp⟩⟩,
            List.Sublist.refl _⟩
    · exact ⟨⟨hpayload, hname, fun hv => absurd hv hvalidate⟩, List.Sublist.refl _⟩

/-- The entry after an update of it. -/
theorem shown_update {cr cr' : ConnRegistry} {op : ConnRegistryData → ConnRegistryData}
    {accepted : List String} {agent : NodeRegistrationAgent} (hu : cr.update key op = some cr')
    (hop : ∀ entry, Shown h accepted key agent entry → Shown h accepted key agent (op entry))
    (hshown : ∀ entry, cr.lookup key = some entry → Shown h accepted key agent entry) :
    ∀ entry, cr'.lookup key = some entry → Shown h accepted key agent entry := by
  intro entry hl
  rw [RegistryRun.lookup_update hu, if_pos rfl] at hl
  obtain ⟨entry', hl', rfl⟩ := Option.map_eq_some_iff.1 hl
  exact hop entry' (hshown entry' hl')

theorem shown_announced {accepted : List String} {agent : NodeRegistrationAgent}
    {attributes : ConnectionAttributes} (hattrs : agent.nodeAttributes = some attributes)
    (hadmitted : Admitted h accepted key agent) {entry : ConnRegistryData}
    (hshown : Shown h accepted key agent entry) :
    Shown h accepted key agent { entry with
      attributes := ConnRegistry.announced { attributes } entry.attributes } := by
  refine ⟨hshown.nodeName, .inr ⟨hadmitted, fun name => ?_⟩⟩
  rw [lookup_announced, if_neg List.not_mem_nil, hattrs, Option.getD_some]
  rcases hshown.attributes with hnil | ⟨-, hsame⟩
  · rw [hnil, AList.lookup_empty, Option.or_none]
  · rw [hsame, hattrs, Option.getD_some, Option.or_self]

/-- A step of the hub at the connection, other than a message and an answer. -/
theorem Connected.hubStep (hc : Connected h hub key c) {a : RegistryAction}
    (hst : hub.step h a = some hub') (hkey : a.key = key)
    (hscan : ∀ stream msg, a ≠ .scan stream msg)
    (hecho : ∀ stream now written, a ≠ .echo stream now written) : Connected h hub' key c := by
  have hidle : ∀ {id : Nat}, ¬ Idle (hub.streams ⟨key, id⟩) → id = 0 := fun {id} hbusy => by
    by_contra hid
    exact hbusy (hc.others id hid)
  cases a with
  | openConnection key' quicConn now =>
    obtain ⟨hnot, -⟩ := Option.ite_none_left_eq_some.1 hst
    exact absurd hc.opened (hkey ▸ hnot)
  | closeConnection key' =>
    obtain rfl : key' = key := hkey
    cases hst
    refine ⟨hc.opened, hc.next, hc.numbered, hc.up, hc.others, hc.stream, hc.echoes, hc.replies,
      fun entry hl => ?_⟩
    rw [ConnRegistry.closeConnection, AList.lookup_erase] at hl
    cases hl
  | scan stream msg => exact absurd rfl (hscan stream msg)
  | echo stream now written => exact absurd rfl (hecho stream now written)
  | validate stream now =>
    obtain ⟨key', id⟩ := stream
    obtain rfl : key' = key := hkey
    simp only [RegistryRun.step] at hst
    split at hst
    next payload hpc =>
      cases hst
      obtain rfl := hidle fun hi => by rw [hpc] at hi; rcases hi with hi | hi <;> cases hi
      have hown := hc.stream
      rw [hpc] at hown
      obtain ⟨hvalidated, hpending⟩ := ownPC_validated (h := h) hown hub.accepted key' now
      exact hc.goto rfl rfl hvalidated (by rw [hpc]; exact hpending) hc.shown
    next => cases hst
  | register stream now =>
    obtain ⟨key', id⟩ := stream
    obtain rfl : key' = key := hkey
    simp only [RegistryRun.step] at hst
    split at hst
    next register claims payload hpc =>
      obtain rfl := hidle fun hi => by rw [hpc] at hi; rcases hi with hi | hi <;> cases hi
      have hown := hc.stream
      rw [hpc] at hown
      obtain ⟨hpayload, hname, hvalid⟩ := hown
      split at hst
      next registry hu =>
        cases hst
        have hacc : hub.accepted ⊆ if claims.isSome then key' :: hub.accepted else hub.accepted := by
          split_ifs
          · exact List.subset_cons_self _ _
          · exact List.Subset.refl _
        have hadmitted : Admitted h (if claims.isSome then key' :: hub.accepted else hub.accepted)
            key' c.agent := by
          intro hv
          rw [if_pos (hvalid hv).1]
          exact ⟨List.mem_cons_self, (hvalid hv).2⟩
        refine hc.goto rfl rfl ⟨.inl hpayload, fun _ => hadmitted⟩ (by rw [hpc]; exact .refl _) ?_
        refine shown_update hu (fun entry hshown => ⟨fun name hn => ?_, hshown.attributes⟩)
          fun entry hl => (hc.shown entry hl).mono hacc
        exact ⟨(Option.some.inj hn).symm.trans hname, hadmitted⟩
      next =>
        cases hst
        exact hc.goto rfl rfl trivial (List.nil_sublist _) hc.shown
    next => cases hst
  | announce stream =>
    obtain ⟨key', id⟩ := stream
    obtain rfl : key' = key := hkey
    simp only [RegistryRun.step] at hst
    split at hst
    next payload hpc =>
      cases hst
      obtain rfl := hidle fun hi => by rw [hpc] at hi; rcases hi with hi | hi <;> cases hi
      have hown := hc.stream
      rw [hpc] at hown
      obtain ⟨hown, hadmitted⟩ := hown
      simp only [RegistryRun.announced]
      split
      next announcement ha =>
        obtain ⟨hregister, attributes, hattrs, rfl⟩ := announcement_of_own hown ha
        refine hc.goto rfl rfl trivial (List.nil_sublist _) ?_
        cases hu : hub.registry.setAttributes key' { attributes } with
        | none => exact hc.shown
        | some registry =>
          exact shown_update hu (fun entry hshown =>
            shown_announced hattrs (hadmitted hregister) hshown) hc.shown
      next => exact hc.goto rfl rfl trivial (List.nil_sublist _) hc.shown
    next => cases hst

/-- Only a connection that is opened becomes one. -/
theorem opened_eq {a : RegistryAction} (hst : hub.step h a = some hub')
    (hopen : ∀ key quicConn now, a ≠ .openConnection key quicConn now) :
    hub'.opened = hub.opened := by
  cases a with
  | openConnection key quicConn now => exact absurd rfl (hopen key quicConn now)
  | closeConnection key =>
    cases hst
    rfl
  | scan stream msg =>
    simp only [RegistryRun.step] at hst
    split at hst
    next =>
      obtain ⟨-, hst⟩ := Option.ite_none_right_eq_some.1 hst
      cases hst
      rfl
    next =>
      cases hst
      rfl
    next => cases hst
  | validate stream now =>
    simp only [RegistryRun.step] at hst
    split at hst
    next =>
      cases hst
      rfl
    next => cases hst
  | register stream now =>
    simp only [RegistryRun.step] at hst
    split at hst
    next => split at hst <;> cases hst <;> rfl
    next => cases hst
  | echo stream now written =>
    simp only [RegistryRun.step] at hst
    split at hst
    next =>
      cases hst
      simp only [RegistryRun.echoed]
      split
      next => split <;> rfl
      next => rfl
    next => cases hst
  | announce stream =>
    simp only [RegistryRun.step] at hst
    split at hst
    next =>
      cases hst
      simp only [RegistryRun.announced]
      split <;> rfl
    next => cases hst

/-- A stream on which nothing is handled sees a message or its end next. -/
theorem step_of_idle {stream : StreamId} (hidle : Idle (hub.streams stream)) (now : Time)
    (written : Bool) : hub.step h (.validate stream now) = none ∧
      hub.step h (.register stream now) = none ∧ hub.step h (.echo stream now written) = none ∧
        hub.step h (.announce stream) = none := by
  rcases hidle with hpc | hpc <;> simp only [RegistryRun.step, hpc, and_self]

/-- Nothing is handled on a connection that was not opened. -/
theorem fresh_hubStep {a : RegistryAction}
    (hfresh : ∀ key id, key ∉ hub.opened → Idle (hub.streams ⟨key, id⟩))
    (hst : hub.step h a = some hub') (key : String) (id : Nat) (hnot : key ∉ hub'.opened) :
    Idle (hub'.streams ⟨key, id⟩) := by
  by_cases hkey : key = a.key
  · cases a with
    | openConnection key' quicConn now =>
      obtain ⟨-, hst⟩ := Option.ite_none_left_eq_some.1 hst
      cases hst
      exact absurd (hkey ▸ List.mem_cons_self) hnot
    | closeConnection key' =>
      cases hst
      exact hfresh key id hnot
    | scan stream msg =>
      obtain ⟨key', id'⟩ := stream
      obtain rfl : key = key' := hkey
      simp only [RegistryRun.step] at hst
      split at hst
      next =>
        obtain ⟨hin, hst⟩ := Option.ite_none_right_eq_some.1 hst
        cases hst
        exact absurd hin hnot
      next =>
        cases hst
        rw [RegistryRun.streams_goto]
        split_ifs
        · exact .inr rfl
        · exact hfresh key id hnot
      next => cases hst
    | validate stream now =>
      rw [opened_eq hst (fun _ _ _ heq => by cases heq), hkey] at hnot
      cases (step_of_idle (hfresh stream.key stream.id hnot) now true).1.symm.trans hst
    | register stream now =>
      rw [opened_eq hst (fun _ _ _ heq => by cases heq), hkey] at hnot
      cases (step_of_idle (hfresh stream.key stream.id hnot) now true).2.1.symm.trans hst
    | echo stream now written =>
      rw [opened_eq hst (fun _ _ _ heq => by cases heq), hkey] at hnot
      cases (step_of_idle (hfresh stream.key stream.id hnot) now written).2.2.1.symm.trans hst
    | announce stream =>
      rw [opened_eq hst (fun _ _ _ heq => by cases heq), hkey] at hnot
      cases (step_of_idle (hfresh stream.key stream.id hnot) 0 true).2.2.2.symm.trans hst
  · have hsame := (RegistryRun.step_touches hst).others hkey
    rw [hsame.streams]
    exact hfresh key id fun hin => hnot (hsame.opened.2 hin)

/-! ## Steps of the protocol -/

theorem connected_dial {agent : NodeRegistrationAgent} {seqID : UInt64} {quicConn : Nat}
    {now : Time} (hfresh : ∀ id, key ∉ hub.opened → Idle (hub.streams ⟨key, id⟩))
    (hst : hub.step h (.openConnection key quicConn now) = some hub') :
    Connected h hub' key { agent, first := seqID, seqID } := by
  obtain ⟨hnot, hst⟩ := Option.ite_none_left_eq_some.1 hst
  cases hst
  have hidle := hfresh 0 hnot
  refine ⟨List.mem_cons_self, ?_, rfl, nofun, fun id _ => hfresh id hnot, ?_, ?_, nofun,
    fun entry hl => ?_⟩
  · exact (UInt64.add_zero seqID).symm
  · rcases hidle with hpc | hpc <;> rw [hpc] <;> trivial
  · rcases hidle with hpc | hpc <;> rw [echoMarks, hpc] <;> exact .refl _
  · rw [ConnRegistry.openConnection, AList.lookup_insert] at hl
    cases hl
    exact ⟨nofun, .inl rfl⟩

/-- The echo that is answered goes on as its reply. -/
theorem pongs_sublist (payload : MessagePayload) (serverTimestamp : UInt64) (written : Bool) :
    ((pongs payload serverTimestamp written).map mark).Sublist (payload.echo.toList.map mark) := by
  rw [pongs]
  cases payload.echo with
  | none => exact .refl _
  | some echo =>
    dsimp only
    split_ifs
    · exact .refl _
    · exact List.nil_sublist _

/-- The hub answers an echo of the agent. -/
theorem connected_echo (hc : Connected h hub key c) {id : Nat} {payload : MessagePayload}
    (hpc : hub.streams ⟨key, id⟩ = .echoing payload) {now : Time} {written : Bool}
    (hst : hub.step h (.echo ⟨key, id⟩ now written) = some hub') (serverTimestamp : UInt64) :
    Connected h hub' key { c with down := c.down ++ pongs payload serverTimestamp written } := by
  obtain rfl : id = 0 := by
    by_contra hid
    rcases hc.others id hid with hidle | hidle <;> rw [hpc] at hidle <;> cases hidle
  have hown := hc.stream
  rw [hpc] at hown
  simp only [RegistryRun.step, hpc] at hst
  cases hst
  have hmoved : ∀ {hub₁ : RegistryRun} {pc : StreamPC}, hub₁.opened = hub.opened →
      hub₁.streams = hub.streams → OwnPC h hub₁.accepted key c.agent pc → pendingEcho pc = [] →
      (∀ entry, hub₁.registry.lookup key = some entry →
        Shown h hub₁.accepted key c.agent entry) →
      Connected h (hub₁.goto ⟨key, 0⟩ pc) key
        { c with down := c.down ++ pongs payload serverTimestamp written } := by
    intro hub₁ pc hopened hstreams hpc' hpending hshown
    refine hc.moved pc c.up _ hopened (fun id => ?_) hc.up hpc' ?_ hshown
    · rw [RegistryRun.streams_goto, hstreams]
      simp only [StreamId.mk.injEq, true_and]
    · rw [hpending, hpc]
      simp only [pendingEcho, List.append_nil, List.map_append]
      exact ((List.Sublist.refl _).append (pongs_sublist payload serverTimestamp written)).append
        (.refl _)
  simp only [RegistryRun.echoed]
  split
  next echo _ =>
    split
    next =>
      have hshown : ∀ entry, ((hub.registry.updateHeartbeat key now).getD hub.registry).lookup key =
          some entry → Shown h hub.accepted key c.agent entry := by
        cases hu : hub.registry.updateHeartbeat key now with
        | none => exact hc.shown
        | some registry =>
          exact shown_update hu (fun entry hs => ⟨hs.nodeName, hs.attributes⟩) hc.shown
      cases written with
      | true => exact hmoved rfl rfl hown rfl hshown
      | false => exact hmoved rfl rfl trivial rfl hshown
    next => exact hmoved rfl rfl hown rfl hc.shown
  next => exact hmoved rfl rfl hown rfl hc.shown

/-- A message of the agent is at the hub. -/
theorem connected_scan (hc : Connected h hub key c) {payload : MessagePayload}
    {up : List MessagePayload} (hup : c.up = payload :: up)
    (hst : hub.step h (.scan ⟨key, 0⟩ (some payload)) = some hub') :
    Connected h hub' key { c with up := up } := by
  simp only [RegistryRun.step] at hst
  split at hst
  next _ payload' hpc heq =>
    cases heq
    obtain ⟨-, hst⟩ := Option.ite_none_right_eq_some.1 hst
    cases hst
    refine hc.moved (.validating payload) up c.down rfl (fun id => ?_)
      (fun p hp => hc.up p (hup ▸ List.mem_cons_of_mem _ hp))
      (hc.up payload (hup ▸ List.mem_cons_self)) ?_ hc.shown
    · rw [RegistryRun.streams_goto]
      simp only [StreamId.mk.injEq, true_and]
    · rw [hpc, hup]
      simp only [pendingEcho, List.append_nil, List.flatMap_cons, List.append_assoc]
      exact .refl _
  next _ _ heq => cases heq
  next => cases hst

/-- The stream of the agent has ended. -/
theorem connected_hangUp (hc : Connected h hub key c)
    (hst : hub.step h (.scan ⟨key, 0⟩ none) = some hub') : Connected h hub' key c := by
  simp only [RegistryRun.step] at hst
  split at hst
  next _ _ _ heq => cases heq
  next =>
    cases hst
    exact hc.goto rfl rfl trivial (List.nil_sublist _) hc.shown
  next => cases hst

/-- A tick is sent. -/
theorem connected_tick (hc : Connected h hub key c) (now : UInt64) :
    Connected h hub key { c with
      seqID := c.seqID + 1
      up := c.up ++ [{ echo := some (c.agent.getTickMsg now c.seqID) }]
      ticks := c.ticks ++ [c.agent.getTickMsg now c.seqID] } where
  opened := hc.opened
  next := by
    rw [List.length_append, List.length_singleton, hc.next, UInt64.ofNat_add, UInt64.add_assoc]
    rfl
  numbered := by
    rw [List.map_append, List.length_append, List.length_singleton, List.range_succ,
      List.map_append, hc.numbered]
    exact congrArg _ (congrArg (fun seqID => [seqID]) hc.next)
  up payload hp := by
    rcases List.mem_append.1 hp with hp | hp
    · exact hc.up payload hp
    · exact .inr ⟨now, c.seqID, List.mem_singleton.1 hp⟩
  others := hc.others
  stream := hc.stream
  echoes := by
    have hechoes := hc.echoes
    simp only [echoMarks, List.flatMap_append, List.flatMap_singleton, List.map_append,
      ← List.append_assoc] at hechoes ⊢
    exact hechoes.append (.refl _)
  replies := hc.replies
  shown := hc.shown

/-- A reply is read, or lost. -/
theorem connected_reply (hc : Connected h hub key c) {echo : EchoPayload} {down : List EchoPayload}
    (hdown : c.down = echo :: down) {logged : List EchoPayload}
    (hlogged : logged = c.logged ∨ c.agent.logs echo = true ∧ logged = c.logged ++ [echo]) :
    Connected h hub key { c with down := down, logged := logged } := by
  have hechoes := hc.echoes
  rw [echoMarks, hdown] at hechoes
  refine ⟨hc.opened, hc.next, hc.numbered, hc.up, hc.others, hc.stream, ?_, ?_, hc.shown⟩
  · refine List.Sublist.trans ?_ hechoes
    simp only [echoMarks, List.append_assoc, List.cons_append]
    refine List.Sublist.map mark ?_
    rcases hlogged with rfl | ⟨-, rfl⟩
    · exact (List.Sublist.refl _).append (List.sublist_cons_self _ _)
    · rw [List.append_assoc, List.singleton_append]
  · rcases hlogged with rfl | ⟨hlogs, rfl⟩
    · exact hc.replies
    · intro e he
      rcases List.mem_append.1 he with he | he
      · exact hc.replies e he
      · obtain rfl := List.mem_singleton.1 he
        obtain ⟨hcorr, hdir⟩ := of_decide_eq_true hlogs
        exact ⟨hdir, hcorr⟩

namespace Protocol

/-- A step of an agent. -/
theorem onAgent (hp : Protocol h s) {f : AgentConn → Option AgentConn}
    (hst : s.onAgent key f = some t)
    (hf : ∀ c c', Connected h s.hub key c → f c = some c' → Connected h s.hub key c') :
    Protocol h t := by
  obtain ⟨c', hbind, rfl⟩ := Option.map_eq_some_iff.1 hst
  obtain ⟨c, hc, hfc⟩ := Option.bind_eq_some_iff.1 hbind
  refine ⟨fun key' c'' hc'' => ?_, hp.fresh⟩
  by_cases hkey : key' = key
  · subst hkey
    have hself : Function.update s.agents key' (some c') key' = some c' := Function.update_self ..
    obtain rfl := Option.some.inj (hself.symm.trans hc'')
    exact hf c c' (hp.connected key' c hc) hfc
  · have hsame : Function.update s.agents key (some c') key' = s.agents key' :=
      Function.update_of_ne hkey ..
    exact hp.connected key' c'' (hsame.symm.trans hc'')

/-- A step of the hub about a connection, and what comes of the agent at it. -/
theorem onHub (hp : Protocol h s) {a : RegistryAction} (hst : s.hub.step h a = some hub')
    {agents : String → Option AgentConn} (hagents : ∀ key, key ≠ a.key → agents key = s.agents key)
    (hown : ∀ c, agents a.key = some c → Connected h hub' a.key c) :
    Protocol h ⟨hub', agents⟩ where
  connected key c hc := by
    by_cases hkey : key = a.key
    · subst hkey
      exact hown c hc
    · have hc' : s.agents key = some c := (hagents key hkey) ▸ hc
      have htouches := RegistryRun.step_touches hst
      exact (hp.connected key c hc').frame (htouches.others hkey) htouches.accepted
  fresh := fresh_hubStep hp.fresh hst

theorem step {a : ProtocolAction} (hp : Protocol h s) (hst : s.step h a = some t) :
    Protocol h t := by
  cases a with
  | dial key agent seqID quicConn now =>
    obtain ⟨hub', hhub, rfl⟩ := Option.map_eq_some_iff.1 hst
    refine hp.onHub hhub (fun key' hkey => Function.update_of_ne hkey _ _) fun c hc => ?_
    have hself : Function.update s.agents key (some { agent, first := seqID, seqID }) key =
        some { agent, first := seqID, seqID } := Function.update_self _ _ _
    obtain rfl := Option.some.inj (hself.symm.trans hc)
    exact connected_dial (fun id hnot => hp.fresh key id hnot) hhub
  | sendRegister key =>
    refine hp.onAgent hst fun c c' hc hf => ?_
    obtain ⟨-, hf⟩ := Option.ite_none_right_eq_some.1 hf
    obtain rfl := Option.some.inj hf
    refine ⟨hc.opened, hc.next, hc.numbered, fun p hmem => ?_, hc.others, hc.stream, ?_, hc.replies,
      hc.shown⟩
    · rcases List.mem_append.1 hmem with hmem | hmem
      · exact hc.up p hmem
      · exact .inl (List.mem_singleton.1 hmem)
    · have hechoes := hc.echoes
      have hnone : ([c.agent.getRegisterPayload].flatMap fun payload => payload.echo.toList) = [] :=
        rfl
      simp only [echoMarks, List.flatMap_append, hnone, List.append_nil] at hechoes ⊢
      exact hechoes
  | tick key now =>
    refine hp.onAgent hst fun c c' hc hf => ?_
    obtain ⟨-, hf⟩ := Option.ite_none_right_eq_some.1 hf
    obtain rfl := Option.some.inj hf
    exact connected_tick hc now
  | leave key =>
    refine hp.onAgent hst fun c c' hc hf => ?_
    obtain rfl := Option.some.inj hf
    exact ⟨hc.opened, hc.next, hc.numbered, hc.up, hc.others, hc.stream, hc.echoes, hc.replies,
      hc.shown⟩
  | scan key =>
    simp only [ProtocolRun.step] at hst
    split at hst
    next c hc =>
      split at hst
      next payload up hup =>
        obtain ⟨hub', hhub, rfl⟩ := Option.map_eq_some_iff.1 hst
        refine hp.onHub hhub (fun key' hkey => Function.update_of_ne hkey _ _) fun c' hc' => ?_
        have hself : Function.update s.agents key (some { c with up := up }) key =
            some { c with up := up } := Function.update_self _ _ _
        obtain rfl := Option.some.inj (hself.symm.trans hc')
        exact connected_scan (hp.connected key c hc) hup hhub
      next => cases hst
    next => cases hst
  | hangUp key =>
    obtain ⟨-, hst⟩ := Option.ite_none_right_eq_some.1 hst
    obtain ⟨hub', hhub, rfl⟩ := Option.map_eq_some_iff.1 hst
    exact hp.onHub hhub (fun _ _ => rfl) fun c hc => connected_hangUp (hp.connected key c hc) hhub
  | echo stream now serverTimestamp written =>
    simp only [ProtocolRun.step] at hst
    split at hst
    next payload hpc =>
      obtain ⟨hub', hhub, rfl⟩ := Option.map_eq_some_iff.1 hst
      refine hp.onHub hhub (fun key' hkey => Function.update_of_ne hkey _ _) fun c' hc' => ?_
      have hself : Function.update s.agents stream.key ((s.agents stream.key).map fun c =>
          { c with down := c.down ++ pongs payload serverTimestamp written }) stream.key =
            (s.agents stream.key).map fun c =>
              { c with down := c.down ++ pongs payload serverTimestamp written } :=
        Function.update_self _ _ _
      obtain ⟨c, hc, rfl⟩ := Option.map_eq_some_iff.1 (hself.symm.trans hc')
      exact connected_echo (hp.connected stream.key c hc) hpc hhub serverTimestamp
    next => cases hst
  | recv key =>
    refine hp.onAgent hst fun c c' hc hf => ?_
    split at hf
    next echo down hdown =>
      obtain rfl := Option.some.inj hf
      refine connected_reply hc hdown ?_
      split_ifs with hlogs
      · exact .inr ⟨hlogs, rfl⟩
      · exact .inl rfl
    next => cases hf
  | lose key =>
    refine hp.onAgent hst fun c c' hc hf => ?_
    split at hf
    next echo down hdown =>
      obtain rfl := Option.some.inj hf
      exact connected_reply hc hdown (.inl rfl)
    next => cases hf
  | hub a =>
    obtain ⟨honly, hst⟩ := Option.ite_none_right_eq_some.1 hst
    obtain ⟨hub', hhub, rfl⟩ := Option.map_eq_some_iff.1 hst
    refine hp.onHub hhub (fun _ _ => rfl) fun c hc => ?_
    refine (hp.connected a.key c hc).hubStep hhub rfl (fun stream msg ha => ?_)
      fun stream now written ha => ?_
    · subst ha
      have hnone : (s.agents stream.key).isNone = true := honly
      have hsome : s.agents stream.key = some c := hc
      rw [hsome] at hnone
      cases hnone
    · subst ha
      cases honly

end Protocol

namespace ProtocolRun

theorem protocol_of_reachable (hr : (system h).Reachable .any s) : Protocol h s :=
  hr.invariant ⟨nofun, fun _ _ _ => .inl rfl⟩ fun _ _ _ hp _ hst => hp.step hst

/-- Whatever happens on other connections: the replies that an agent logs answer its own ticks, in
order, each at most once; and the registry shows of it what it announced, after its token was
accepted, or nothing. -/
theorem agents_served (hr : (system h).Reachable .any s) (hc : s.agents key = some c) :
    Answered c ∧ ∀ entry, s.hub.registry.lookup key = some entry →
      Shown h s.hub.accepted key c.agent entry := by
  have hconnected := (protocol_of_reachable hr).connected key c hc
  refine ⟨⟨hconnected.numbered, ?_, hconnected.replies⟩, hconnected.shown⟩
  refine List.Sublist.trans ?_ hconnected.echoes
  simp only [echoMarks, List.append_assoc, List.map_append]
  exact List.sublist_append_left _ _

/-- A handler that accepts one token. -/
def tokenHandler : MessageHandler where
  shouldValidateJWT := true
  parseToken _ token := if token = "token" then .ok {} else .error "invalid token"

def sampleAgent : NodeRegistrationAgent where
  nodeName := "node"
  correlationID := "agent"
  token := some "token"
  nodeAttributes := some RegistryRun.nodeAttributes.attributes

/-- An agent registers, and reads the reply to its first tick. -/
def firstTick : List ProtocolAction :=
  [.dial "conn" sampleAgent 5 1 0, .sendRegister "conn", .scan "conn",
    .hub (.validate ⟨"conn", 0⟩ 1), .hub (.register ⟨"conn", 0⟩ 1), .echo ⟨"conn", 0⟩ 1 0 true,
    .hub (.announce ⟨"conn", 0⟩), .tick "conn" 10, .scan "conn", .hub (.validate ⟨"conn", 0⟩ 2),
    .echo ⟨"conn", 0⟩ 2 12 true, .hub (.announce ⟨"conn", 0⟩), .recv "conn"]

theorem agents_served_firstTick :
    ∃ (s : ProtocolRun) (c : AgentConn), s.agents "conn" = some c ∧
      c.logged.map EchoPayload.seqID = [5] ∧ Answered c ∧
        ∀ entry, s.hub.registry.lookup "conn" = some entry →
          Shown tokenHandler s.hub.accepted "conn" c.agent entry := by
  obtain ⟨s, hr, hp⟩ := System.exists_of_replay (system tokenHandler) .any
    (fun s => (s.agents "conn").any fun c => c.logged.map EchoPayload.seqID = [5]) firstTick
    (by decide +kernel)
  obtain ⟨c, hc, hlogged⟩ := (Option.any_eq_true _ _).1 hp
  exact ⟨s, c, hc, of_decide_eq_true hlogged, agents_served hr hc⟩

/-- A search finds an agent under no other name than the one it announced, and only if its token
was accepted. -/
theorem found_as_announced (hr : (system h).Reachable .any s) (hc : s.agents key = some c)
    (hfound : s.hub.CanReturn key) : Admitted h s.hub.accepted key c.agent ∧
      ∃ attributes, c.agent.nodeAttributes = some attributes ∧ RegistryRun.Usable attributes := by
  obtain ⟨entry, hl, hping, name, hname⟩ := RegistryRun.canReturn_iff.1 hfound
  have hshown := ((protocol_of_reachable hr).connected key c hc).shown entry hl
  rcases hshown.attributes with hnil | ⟨hadmitted, hsame⟩
  · rw [hnil, AList.lookup_empty] at hping
    cases hping
  · refine ⟨hadmitted, ?_⟩
    rw [hsame] at hping hname
    cases hattrs : c.agent.nodeAttributes with
    | none =>
      rw [hattrs, Option.getD_none, AList.lookup_empty] at hping
      cases hping
    | some attributes =>
      rw [hattrs, Option.getD_some] at hping hname
      exact ⟨attributes, rfl, hping, name, hname⟩

theorem found_as_announced_firstTick :
    ∃ (s : ProtocolRun) (c : AgentConn), s.agents "conn" = some c ∧
      s.hub.CanReturn "conn" ∧ Admitted tokenHandler s.hub.accepted "conn" c.agent ∧
        ∃ attributes, c.agent.nodeAttributes = some attributes ∧
          RegistryRun.Usable attributes := by
  obtain ⟨s, hr, hp⟩ := System.exists_of_replay (system tokenHandler) .any
    (fun s => (s.agents "conn").isSome &&
      (s.hub.registry.lookup "conn").any fun entry => entry.testAgainstAttributes
        [(attributeKeyPingCapability, "true"), (attributeKeyNodeName, "node")]) firstTick
    (by decide +kernel)
  obtain ⟨hagent, hentry⟩ := Bool.and_eq_true_iff.1 hp
  obtain ⟨c, hc⟩ := Option.isSome_iff_exists.1 hagent
  obtain ⟨entry, hl, htest⟩ := (Option.any_eq_true _ _).1 hentry
  obtain ⟨hping, hname⟩ := RegistryRun.testAgainstAttributes_iff.1 htest
  have hfound := RegistryRun.canReturn_iff.2 ⟨entry, hl, hping, "node", hname⟩
  exact ⟨s, c, hc, hfound, found_as_announced hr hc hfound⟩

end ProtocolRun

end CloudPing.Handler
