import CloudPing.Rpc.Responder
import Mathlib.Data.List.Infix
import Mathlib.Data.List.Nodup

/-!
# Remote calls

A caller declares a queue for the replies, publishes its message to the queue of the responder, and
reads the replies: those with another correlation id are skipped, and an empty one is the end.  The
responder runs a task for each message.  Replies of all tasks go through one goroutine.

The broker names the queues, keeps each in order, and drops what is published to a queue that does
not exist.  It gives no name twice.  Its connections to the responder stay up; a caller may lose
its own.

`call_answered` says of a call, in every run, what its reader gets: what the handler of the one
task for it has written, in order, up to the end.

A handler is assumed to answer its own task (`answersOwn`).
-/

namespace CloudPing.Rpc

open Conc

/-- What the update goroutine has done with an update of a task. -/
structure Handled where
  task : Nat
  taskUpdate : TaskUpdate
  published : Bool

/-- The message that the broker has put in the queue. -/
def Handled.msgFor (h : Handled) (queue : String) : Option Publishing :=
  match h.taskUpdate.reply with
  | some (key, msg) => if h.published ∧ key = queue then some msg else none
  | none => none

/-! ## A call -/

structure RBMQCallUpdate where
  err : Option String := none
  message : List UInt8 := []
  deriving DecidableEq

inductive CallPC where
  /-- Before the message is published. -/
  | setup
  | waiting
  /-- At the send of an update to the reader. -/
  | offering (update : RBMQCallUpdate)
  /-- `evChan` is closed, after the end of the replies or without it. -/
  | closed (ended : Bool)
  deriving DecidableEq

def CallPC.isSetup : CallPC → Bool
  | .setup => true
  | _ => false

def CallPC.isClosed : CallPC → Bool
  | .closed _ => true
  | _ => false

/-- A run of `RabbitMQRemoteCaller.Call`. -/
structure Call where
  routingKey : String
  msgBody : List UInt8
  pc : CallPC := .setup
  /-- The queue for the replies. -/
  queue : Option String := none
  corrId : String := ""
  /-- The replies in the queue. -/
  msgs : List Publishing := []
  /-- The replies that were read. -/
  taken : List Publishing := []
  /-- The updates that the reader has. -/
  updates : List RBMQCallUpdate := []

namespace Call

/-- `respondWithError`. -/
def respondWithError (c : Call) (err : String) : Option Call :=
  match c.pc with
  | .setup => some { c with pc := .offering { err := some err } }
  | _ => none

/-- The body of the loop. -/
def receive (c : Call) : Option Call :=
  match c.pc, c.msgs with
  | .waiting, msg :: msgs =>
    let c := { c with msgs, taken := c.taken ++ [msg] }
    if msg.correlationId ≠ c.corrId then some c
    else if msg.body = [] then some { c with pc := .closed true }
    else some { c with pc := .offering { message := msg.body } }
  | _, _ => none

/-- The reader takes the update. -/
def take (c : Call) : Option Call :=
  match c.pc with
  | .offering update =>
    let pc := if update.err.isSome then .closed false else .waiting
    some { c with updates := c.updates ++ [update], pc }
  | _ => none

/-- The connection is lost. -/
def msgsClosed (c : Call) : Option Call :=
  match c.pc with
  | .waiting => some { c with pc := .closed false }
  | _ => none

/-- The message is in the queue, which goes with its consumer. -/
def arrive (c : Call) (h : Handled) : Call :=
  if c.pc.isClosed then c else { c with msgs := c.msgs ++ (c.queue.bind h.msgFor).toList }

/-- What the reader has of the replies. -/
def messages (c : Call) : List (List UInt8) :=
  c.updates.filterMap fun update => if update.err.isSome then none else some update.message

end Call

/-! ## Calls and the responder -/

/-- A message in the queue of the responder. -/
structure TaskMsg where
  delivery : Delivery
  body : List UInt8

structure RPCRun where
  responder : ResponderRun := .start
  /-- The queue of the responder. -/
  queueName : Option String := none
  taskMsgs : List TaskMsg := []
  /-- The task messages of the task goroutines. -/
  started : List TaskMsg := []
  /-- The updates that the handlers have written, with their tasks. -/
  wrote : List (Nat × TaskUpdate) := []
  /-- The task whose update is being published. -/
  sender : Nat := 0
  handled : List Handled := []
  /-- The names that the broker has given. -/
  names : List String := []
  calls : List Call := []

inductive RPCAction where
  | responder (a : ResponderAction)
  | setQueueName (name : String)
  | deliver
  | update (i : Nat) (taskUpdate : TaskUpdate)
  | send (i : Nat)
  | publish (published : Bool)
  | call (routingKey : String) (msgBody : List UInt8)
  | declare (i : Nat) (name : String)
  | respondWithError (i : Nat) (err : String)
  | request (i : Nat) (corrId : String)
  | receive (i : Nat)
  | take (i : Nat)
  | msgsClosed (i : Nat)

namespace RPCRun

/-- A step of one call. -/
def atCall (s : RPCRun) (i : Nat) (f : Call → Option Call) : Option RPCRun :=
  match s.calls[i]? with
  | some c => (f c).map fun c => { s with calls := s.calls.set i c }
  | none => none

/-- The queue for the replies of a call. -/
def declare (s : RPCRun) (i : Nat) (name : String) : Option RPCRun :=
  match s.calls[i]? with
  | some c =>
    if c.pc.isSetup ∧ c.queue = none ∧ name ∉ s.names then
      some { s with names := name :: s.names, calls := s.calls.set i { c with queue := some name } }
    else none
  | none => none

/-- The queue of the responder with a message that is published with the routing key. -/
def route (s : RPCRun) (routingKey : String) (taskMsg : TaskMsg) : List TaskMsg :=
  if s.queueName = some routingKey ∧ s.responder.serve ≠ .returned then s.taskMsgs ++ [taskMsg]
  else s.taskMsgs

/-- A call publishes its message. -/
def request (s : RPCRun) (i : Nat) (corrId : String) : Option RPCRun :=
  match s.calls[i]? with
  | some c =>
    match c.pc, c.queue with
    | .setup, some replyTo =>
      some { s with
        taskMsgs := s.route c.routingKey ⟨⟨replyTo, corrId⟩, c.msgBody⟩
        calls := s.calls.set i { c with corrId, pc := .waiting } }
    | _, _ => none
  | none => none

/-- The update goroutine publishes, or fails to. -/
def publish (s : RPCRun) (published : Bool) : Option RPCRun :=
  match s.responder.updater with
  | .publishing taskUpdate =>
    (s.responder.step .publish).map fun responder =>
      { s with
        responder
        handled := s.handled ++ [⟨s.sender, taskUpdate, published⟩]
        calls := s.calls.map fun c => c.arrive ⟨s.sender, taskUpdate, published⟩ }
  | _ => none

/-- The steps of the responder that no call sees. -/
def stepResponder (s : RPCRun) (a : ResponderAction) : Option RPCRun :=
  match a with
  | .shutdown | .setupErr | .consume | .closeCh | .handled _ | .closer =>
    (s.responder.step a).map fun responder => { s with responder }
  | _ => none

def step (s : RPCRun) : RPCAction → Option RPCRun
  | .responder a => s.stepResponder a
  | .setQueueName name =>
    if s.responder.serve = .setup ∧ s.queueName = none ∧ name ∉ s.names then
      some { s with queueName := some name, names := name :: s.names }
    else none
  | .deliver =>
    match s.taskMsgs with
    | taskMsg :: taskMsgs =>
      (s.responder.step (.taskMsg taskMsg.delivery)).map fun responder =>
        { s with responder, taskMsgs, started := s.started ++ [taskMsg] }
    | [] => none
  | .update i taskUpdate =>
    (s.responder.step (.update i taskUpdate)).map fun responder =>
      { s with responder, wrote := s.wrote ++ [(i, taskUpdate)] }
  | .send i =>
    (s.responder.step (.send i)).map fun responder => { s with responder, sender := i }
  | .publish published => s.publish published
  | .call routingKey msgBody => some { s with calls := s.calls ++ [{ routingKey, msgBody }] }
  | .declare i name => s.declare i name
  | .respondWithError i err => s.atCall i fun c => c.respondWithError err
  | .request i corrId => s.request i corrId
  | .receive i => s.atCall i Call.receive
  | .take i => s.atCall i Call.take
  | .msgsClosed i => s.atCall i Call.msgsClosed

def system : System RPCRun RPCAction := ⟨{}, step⟩

/-- A handler answers the message of its own task. -/
def answersOwn : Policy RPCRun RPCAction := fun s a =>
  match a with
  | .update i taskUpdate => taskUpdate.taskMsg = s.started[i]?.map TaskMsg.delivery
  | _ => True

deriving instance DecidableEq for Delivery

instance : ∀ (s : RPCRun) (a : RPCAction), Decidable (answersOwn s a)
  | _, .update _ _ => inferInstanceAs (Decidable (_ = _))
  | _, .responder _ | _, .setQueueName _ | _, .deliver | _, .send _ | _, .publish _ | _, .call _ _
  | _, .declare _ _ | _, .respondWithError _ _ | _, .request _ _ | _, .receive _ | _, .take _
  | _, .msgsClosed _ => isTrue trivial

end RPCRun

/-! ## What is said of a call -/

/-- The update at the send of a task goroutine. -/
def TaskPC.pending : TaskPC → List TaskUpdate
  | .sending _ taskUpdate => [taskUpdate]
  | _ => []

/-- The update that the update goroutine has. -/
def UpdaterPC.pending : UpdaterPC → List TaskUpdate
  | .publishing taskUpdate => [taskUpdate]
  | _ => []

/-- The replies to updates. -/
def replies (taskUpdates : List TaskUpdate) : List Publishing :=
  taskUpdates.filterMap fun taskUpdate => taskUpdate.reply.map Prod.snd

/-- The bodies with the correlation id. -/
def bodies (corrId : String) (msgs : List Publishing) : List (List UInt8) :=
  (msgs.filter fun msg => msg.correlationId = corrId).map Publishing.body

/-- The bodies before the first empty one. -/
def upToEnd (bodies : List (List UInt8)) : List (List UInt8) :=
  bodies.takeWhile fun body => body ≠ []

namespace RPCRun

/-- The task answers to the queue. -/
def Serves (s : RPCRun) (i : Nat) (queue : String) : Prop :=
  s.started[i]?.map (fun taskMsg => taskMsg.delivery.replyTo) = some queue

instance (s : RPCRun) (i : Nat) (queue : String) : Decidable (s.Serves i queue) :=
  inferInstanceAs (Decidable (_ = _))

/-- The messages of the tasks that answer to the queue. -/
def tasksFor (s : RPCRun) (queue : String) : List TaskMsg :=
  s.started.filter fun taskMsg => taskMsg.delivery.replyTo = queue

/-- What their handlers have written. -/
def wroteFor (s : RPCRun) (queue : String) : List TaskUpdate :=
  s.wrote.filterMap fun w => if s.Serves w.1 queue then some w.2 else none

/-- The replies that could not be published. -/
def lostFor (s : RPCRun) (queue : String) : List Handled :=
  s.handled.filter fun h => !h.published && h.taskUpdate.reply.isSome && s.Serves h.task queue

/-- The update of the task that is at its send. -/
def atTask (s : RPCRun) (i : Nat) : List TaskUpdate := s.responder.tasks[i]?.elim [] TaskPC.pending

/-- The update of the task that is being published. -/
def atUpdater (s : RPCRun) (i : Nat) : List TaskUpdate :=
  if s.sender = i then s.responder.updater.pending else []

/-- No update for the queue is under way. -/
def Quiet (s : RPCRun) (queue : String) : Prop :=
  ∀ i, s.Serves i queue → s.atUpdater i = [] ∧ s.atTask i = []

/-- The bodies that the handlers have written to the call. -/
def answersTo (s : RPCRun) (queue corrId : String) : List (List UInt8) :=
  bodies corrId (replies (s.wroteFor queue))

/-- What the reader of a call has, and why. -/
structure Answered (s : RPCRun) (c : Call) (queue : String) : Prop where
  /-- There is one task for the call at most, with its message. -/
  task : s.tasksFor queue = [] ∨ s.tasksFor queue = [⟨⟨queue, c.corrId⟩, c.msgBody⟩]
  /-- Nothing comes from another task, twice, or out of order. -/
  messages : c.messages.Sublist (s.answersTo queue c.corrId)
  /-- Nothing is skipped, and nothing comes after the end. -/
  inOrder : s.lostFor queue = [] → c.messages <+: upToEnd (s.answersTo queue c.corrId)
  /-- The call has ended: the handler has written the end, and the reader has all before it. -/
  ended : c.pc = .closed true → [] ∈ s.answersTo queue c.corrId ∧
    (s.lostFor queue = [] → c.messages = upToEnd (s.answersTo queue c.corrId))
  /-- The call waits, and nothing is under way: the reader has all that the handler has written. -/
  quiet : c.pc = .waiting → c.msgs = [] → s.Quiet queue → s.lostFor queue = [] →
    c.messages = s.answersTo queue c.corrId

end RPCRun

/-! ## One call -/

namespace Call

/-- The bodies that were read, with the correlation id of the call. -/
def heard (c : Call) : List (List UInt8) := bodies c.corrId c.taken

/-- The reader has what was read, but for what it is offered and the end. -/
def Sound (c : Call) : Prop :=
  match c.pc with
  | .setup => c.taken = [] ∧ c.messages = []
  | .offering update =>
    if update.err.isSome then c.taken = [] ∧ c.messages = []
    else c.heard = c.messages ++ [update.message] ∧ [] ∉ c.heard
  | .closed true => c.heard = c.messages ++ [[]] ∧ [] ∉ c.messages
  | _ => c.heard = c.messages ∧ [] ∉ c.heard

/-- A step after which the call is the same, with the same replies. -/
structure Continues (c d : Call) : Prop where
  msgBody : d.msgBody = c.msgBody
  queue : d.queue = c.queue
  corrId : d.corrId = c.corrId
  setup : c.pc.isSetup = false → d.pc.isSetup = false
  live : d.pc.isClosed = false → c.pc.isClosed = false
  msgs : d.taken ++ d.msgs = c.taken ++ c.msgs
  sound : c.Sound → d.Sound

section Arrive

variable (c : Call) (h : Handled)

@[simp] theorem arrive_pc : (c.arrive h).pc = c.pc := by
  rw [arrive]
  split_ifs <;> rfl

@[simp] theorem arrive_queue : (c.arrive h).queue = c.queue := by
  rw [arrive]
  split_ifs <;> rfl

@[simp] theorem arrive_corrId : (c.arrive h).corrId = c.corrId := by
  rw [arrive]
  split_ifs <;> rfl

@[simp] theorem arrive_msgBody : (c.arrive h).msgBody = c.msgBody := by
  rw [arrive]
  split_ifs <;> rfl

/-- What has arrived. -/
theorem arrive_msgs : (c.arrive h).taken ++ (c.arrive h).msgs =
    c.taken ++ c.msgs ++ if c.pc.isClosed then [] else (c.queue.bind h.msgFor).toList := by
  rw [arrive]
  split_ifs
  · exact (List.append_nil _).symm
  · exact (List.append_assoc _ _ _).symm

theorem sound_arrive (hs : c.Sound) : (c.arrive h).Sound := by
  rw [arrive]
  split_ifs
  · exact hs
  · exact hs

end Arrive

variable {c d : Call}

theorem bodies_concat (corrId : String) (msgs : List Publishing) (msg : Publishing) :
    bodies corrId (msgs ++ [msg]) =
      bodies corrId msgs ++ if msg.correlationId = corrId then [msg.body] else [] := by
  rw [bodies, List.filter_append, List.map_append]
  split_ifs with h
  · rw [List.filter_cons_of_pos (by simpa using h)]
    rfl
  · rw [List.filter_cons_of_neg (by simpa using h)]
    rfl

theorem continues_respondWithError {err : String} (h : c.respondWithError err = some d) :
    Continues c d := by
  rw [respondWithError] at h
  split at h
  next hpc =>
    cases h
    refine ⟨rfl, rfl, rfl, fun _ => rfl, fun _ => by rw [hpc]; rfl, rfl, fun hs => ?_⟩
    simp only [Sound, hpc] at hs
    exact hs
  next => cases h

theorem continues_take (h : c.take = some d) : Continues c d := by
  rw [take] at h
  split at h
  next update hpc =>
    cases h
    have hmessages : ∀ pc, messages { c with updates := c.updates ++ [update], pc } =
        c.messages ++ if update.err.isSome then [] else [update.message] := by
      intro pc
      simp only [messages, List.filterMap_append]
      split_ifs with herr <;> simp [herr]
    refine ⟨rfl, rfl, rfl, fun _ => ?_, fun _ => by rw [hpc]; rfl, rfl, fun hs => ?_⟩
    · dsimp only
      split_ifs <;> rfl
    · simp only [Sound, hpc] at hs
      by_cases herr : update.err.isSome = true
      · rw [if_pos herr] at hs
        simp only [Sound, herr, if_true, hmessages, List.append_nil]
        rw [heard, hs.1, hs.2]
        exact ⟨rfl, List.not_mem_nil⟩
      · rw [if_neg herr] at hs
        simp only [Sound, herr, Bool.false_eq_true, if_false, hmessages]
        exact hs
  next => cases h

theorem continues_msgsClosed (h : c.msgsClosed = some d) : Continues c d := by
  rw [msgsClosed] at h
  split at h
  next hpc =>
    cases h
    refine ⟨rfl, rfl, rfl, fun _ => rfl, fun _ => by rw [hpc]; rfl, rfl, fun hs => ?_⟩
    simp only [Sound, hpc] at hs
    exact hs
  next => cases h

theorem continues_receive (h : c.receive = some d) : Continues c d := by
  rw [receive] at h
  split at h
  next msg msgs hpc hmsgs =>
    have hheard : ∀ pc, heard { c with pc, msgs, taken := c.taken ++ [msg] } =
        c.heard ++ if msg.correlationId = c.corrId then [msg.body] else [] :=
      fun _ => bodies_concat c.corrId c.taken msg
    have hlist : c.taken ++ [msg] ++ msgs = c.taken ++ c.msgs := by rw [hmsgs, List.append_assoc]; rfl
    have hsound : c.Sound → c.heard = c.messages ∧ [] ∉ c.heard := by
      intro hs
      simpa only [Sound, hpc] using hs
    dsimp only at h
    split_ifs at h with hother hend
    · cases h
      refine ⟨rfl, rfl, rfl, fun hno => hno, fun hno => hno, hlist, fun hs => ?_⟩
      simp only [Sound, hpc]
      have hsame := hheard .waiting
      rw [if_neg hother, List.append_nil] at hsame
      rw [hsame]
      exact hsound hs
    · cases h
      rw [not_not] at hother
      refine ⟨rfl, rfl, rfl, fun _ => rfl, fun _ => by rw [hpc]; rfl, hlist, fun hs => ?_⟩
      obtain ⟨hmessages, hne⟩ := hsound hs
      rw [Sound]
      dsimp only
      rw [hheard, if_pos hother, hend, hmessages]
      exact ⟨rfl, hmessages ▸ hne⟩
    · cases h
      rw [not_not] at hother
      refine ⟨rfl, rfl, rfl, fun _ => rfl, fun _ => by rw [hpc]; rfl, hlist, fun hs => ?_⟩
      obtain ⟨hmessages, hne⟩ := hsound hs
      rw [Sound]
      dsimp only
      rw [if_neg (by decide), hheard, if_pos hother]
      refine ⟨by rw [hmessages]; rfl, fun hmem => ?_⟩
      rcases List.mem_append.1 hmem with hmem | hmem
      · exact hne hmem
      · exact hend (List.mem_singleton.1 hmem).symm
  next => cases h

end Call

/-! ## What a step does -/

namespace ResponderRun

variable {r r' : ResponderRun}

/-- The state of a task goroutine that has changed. -/
theorem elim_set {pcs : List TaskPC} {i : Nat} (pc : TaskPC) (hi : i < pcs.length) (j : Nat) :
    (pcs.set i pc)[j]?.elim [] TaskPC.pending =
      if i = j then pc.pending else pcs[j]?.elim [] TaskPC.pending := by
  rw [List.getElem?_set]
  split_ifs <;> rfl

/-- No update goes on. -/
structure Idles (r r' : ResponderRun) : Prop where
  length : r'.tasks.length = r.tasks.length
  tasks : ∀ i : Nat, r'.tasks[i]?.elim [] TaskPC.pending = r.tasks[i]?.elim [] TaskPC.pending
  updater : r'.updater.pending = r.updater.pending
  closed : (r.taskUpdatesChClosed = true → r.updater = .returned) →
    r'.taskUpdatesChClosed = true → r'.updater = .returned

theorem Idles.of_eq (htasks : r'.tasks = r.tasks) (hupdater : r'.updater = r.updater)
    (hclosed : r'.taskUpdatesChClosed = r.taskUpdatesChClosed) : Idles r r' where
  length := by rw [htasks]
  tasks _ := by rw [htasks]
  updater := by rw [hupdater]
  closed := by rw [hupdater, hclosed]; exact id

/-- A step of a task goroutine, or of the others. -/
def OfTask : ResponderAction → Bool
  | .update .. | .handled _ | .send _ => true
  | _ => false

theorem stepTask_of_step {a : ResponderAction} (ha : OfTask a = true) (h : r.step a = some r') :
    r.stepTask a = some r' := by
  have halive := alive_of_step h
  cases a with
  | update | handled | send => simpa [step, halive] using h
  | _ => cases ha

theorem stepServe_of_step {a : ResponderAction} (ha : OfTask a = false) (h : r.step a = some r') :
    r.stepServe a = some r' := by
  have halive := alive_of_step h
  cases a with
  | update | handled | send => cases ha
  | _ => simpa [step, halive] using h

/-- A step that neither takes, passes on nor publishes an update. -/
def Aside : ResponderAction → Prop
  | .shutdown | .setupErr | .consume | .closeCh | .handled _ | .closer => True
  | _ => False

theorem idles_of_step {a : ResponderAction} (ha : Aside a) (h : r.step a = some r') :
    Idles r r' := by
  cases a with
  | shutdown =>
    obtain ⟨_, h⟩ := Option.ite_none_left_eq_some.1 (stepServe_of_step rfl h)
    cases h
    exact .of_eq rfl rfl rfl
  | setupErr | consume | closeCh =>
    obtain ⟨_, h⟩ := Option.ite_none_right_eq_some.1 (stepServe_of_step rfl h)
    cases h
    exact .of_eq rfl rfl rfl
  | handled i =>
    have h := stepTask_of_step rfl h
    simp only [stepTask] at h
    split at h
    next d hi =>
      cases h
      obtain ⟨hlt, _⟩ := List.getElem?_eq_some_iff.1 hi
      refine ⟨List.length_set, fun j => ?_, rfl, id⟩
      rw [elim_set _ hlt]
      split_ifs with hj
      · subst hj
        rw [hi]
        rfl
      · rfl
    next => cases h
  | closer =>
    have h := stepServe_of_step rfl h
    simp only [stepServe] at h
    split at h
    next hselecting =>
      obtain ⟨_, h⟩ := Option.ite_none_right_eq_some.1 h
      cases h
      exact ⟨rfl, fun _ => rfl, by rw [hselecting]; rfl, fun _ _ => rfl⟩
    next => cases h
  | taskMsg | update | send | publish => exact ha.elim

theorem step_taskMsg {d : Delivery} (h : r.step (.taskMsg d) = some r') :
    r' = { r with tasks := r.tasks ++ [.handling d] } := by
  obtain ⟨_, h⟩ := Option.ite_none_right_eq_some.1 (stepServe_of_step rfl h)
  exact (Option.some.inj h).symm

theorem step_update {i : Nat} {taskUpdate : TaskUpdate} (h : r.step (.update i taskUpdate) = some r') :
    ∃ d, r.tasks[i]? = some (.handling d) ∧
      r' = { r with tasks := r.tasks.set i (.sending d taskUpdate) } := by
  have h := stepTask_of_step rfl h
  simp only [stepTask] at h
  split at h
  next d hi =>
    obtain ⟨_, h⟩ := Option.ite_none_right_eq_some.1 h
    exact ⟨d, hi, (Option.some.inj h).symm⟩
  next => cases h

/-- The update goes on to the update goroutine, or ends the program. -/
theorem step_send {i : Nat} (h : r.step (.send i) = some r') :
    (r.taskUpdatesChClosed = true ∧ r' = { r with panicked := true }) ∨
    ∃ d taskUpdate, r.tasks[i]? = some (.sending d taskUpdate) ∧ r.updater = .selecting ∧
      r.taskUpdatesChClosed = false ∧
      r' = { r with tasks := r.tasks.set i (.handling d), updater := .publishing taskUpdate } := by
  have h := stepTask_of_step rfl h
  simp only [stepTask] at h
  split at h
  next d u hi =>
    rw [sendUpdate] at h
    split at h
    next hc => exact .inl ⟨hc, (Option.some.inj h).symm⟩
    next hc =>
      split at h
      next hup =>
        exact .inr ⟨d, u, hi, hup, Bool.eq_false_iff.2 hc, (Option.some.inj h).symm⟩
      next => cases h
  next => cases h

theorem step_publish {taskUpdate : TaskUpdate} (hup : r.updater = .publishing taskUpdate)
    (h : r.step .publish = some r') :
    r' = { r with updater := .selecting, published := r.published ++ taskUpdate.reply.toList } := by
  have h := stepServe_of_step rfl h
  simp only [stepServe, hup] at h
  exact (Option.some.inj h).symm

end ResponderRun

namespace RPCRun

variable {s t : RPCRun} {a : RPCAction} {i : Nat} {c d : Call} {queue : String}

inductive Move (s : RPCRun) : RPCAction → RPCRun → Prop where
  | aside {a : ResponderAction} {responder : ResponderRun} (h : s.responder.Idles responder) :
      Move s (.responder a) { s with responder }
  | named {name : String} :
      Move s (.setQueueName name) { s with queueName := some name, names := name :: s.names }
  | delivered {m : TaskMsg} {ms : List TaskMsg} (hm : s.taskMsgs = m :: ms) :
      Move s .deliver { s with
        responder := { s.responder with tasks := s.responder.tasks ++ [.handling m.delivery] }
        taskMsgs := ms
        started := s.started ++ [m] }
  | updated {i : Nat} {u : TaskUpdate} {m : Delivery}
      (hi : s.responder.tasks[i]? = some (.handling m)) :
      Move s (.update i u) { s with
        responder := { s.responder with tasks := s.responder.tasks.set i (.sending m u) }
        wrote := s.wrote ++ [(i, u)] }
  /-- The send meets the closed channel. -/
  | panicked {i : Nat} (hc : s.responder.taskUpdatesChClosed = true) :
      Move s (.send i) { s with responder := { s.responder with panicked := true }, sender := i }
  | sent {i : Nat} {u : TaskUpdate} {m : Delivery}
      (hi : s.responder.tasks[i]? = some (.sending m u)) (hup : s.responder.updater = .selecting)
      (hc : s.responder.taskUpdatesChClosed = false) :
      Move s (.send i) { s with
        responder := { s.responder with
          tasks := s.responder.tasks.set i (.handling m)
          updater := .publishing u }
        sender := i }
  | published {u : TaskUpdate} {ok : Bool} {published : List (String × Publishing)}
      (hup : s.responder.updater = .publishing u) :
      Move s (.publish ok) { s with
        responder := { s.responder with updater := .selecting, published }
        handled := s.handled ++ [⟨s.sender, u, ok⟩]
        calls := s.calls.map fun c => c.arrive ⟨s.sender, u, ok⟩ }
  | called {routingKey : String} {msgBody : List UInt8} :
      Move s (.call routingKey msgBody) { s with calls := s.calls ++ [{ routingKey, msgBody }] }
  | declared {i : Nat} {c : Call} {name : String} (hc : s.calls[i]? = some c)
      (hsetup : c.pc.isSetup = true) (hq : c.queue = none) (hn : name ∉ s.names) :
      Move s (.declare i name) { s with
        names := name :: s.names
        calls := s.calls.set i { c with queue := some name } }
  | requested {i : Nat} {c : Call} {corrId replyTo : String} {ms : List TaskMsg}
      (hc : s.calls[i]? = some c) (hsetup : c.pc = .setup) (hq : c.queue = some replyTo)
      (hms : ms = s.taskMsgs ∨ ms = s.taskMsgs ++ [⟨⟨replyTo, corrId⟩, c.msgBody⟩]) :
      Move s (.request i corrId) { s with
        taskMsgs := ms
        calls := s.calls.set i { c with corrId, pc := .waiting } }
  | went {a : RPCAction} {i : Nat} {c d : Call} (hc : s.calls[i]? = some c)
      (hd : Call.Continues c d) : Move s a { s with calls := s.calls.set i d }

theorem atCall_move {f : Call → Option Call} (hf : ∀ c d, f c = some d → Call.Continues c d)
    (h : s.atCall i f = some t) : Move s a t := by
  rw [atCall] at h
  split at h
  next c hc =>
    obtain ⟨d, hd, rfl⟩ := Option.map_eq_some_iff.1 h
    exact .went hc (hf c d hd)
  next => cases h

theorem stepResponder_move {a : ResponderAction} (h : s.stepResponder a = some t) :
    Move s (.responder a) t := by
  have haside : ResponderRun.Aside a := by
    cases a <;> first | exact trivial | cases h
  have hstep : (s.responder.step a).map (fun responder => { s with responder }) = some t := by
    cases a <;> first | exact h | exact haside.elim
  obtain ⟨responder, hr, rfl⟩ := Option.map_eq_some_iff.1 hstep
  exact .aside (ResponderRun.idles_of_step haside hr)

theorem step_move (h : s.step a = some t) : Move s a t := by
  cases a with
  | responder a => exact stepResponder_move h
  | setQueueName name =>
    obtain ⟨_, h⟩ := Option.ite_none_right_eq_some.1 h
    cases h
    exact .named
  | deliver =>
    simp only [step] at h
    split at h
    next m ms hm =>
      obtain ⟨responder, hr, rfl⟩ := Option.map_eq_some_iff.1 h
      obtain rfl := ResponderRun.step_taskMsg hr
      exact .delivered hm
    next => cases h
  | update i u =>
    obtain ⟨responder, hr, rfl⟩ := Option.map_eq_some_iff.1 h
    obtain ⟨m, hi, rfl⟩ := ResponderRun.step_update hr
    exact .updated hi
  | send i =>
    obtain ⟨responder, hr, rfl⟩ := Option.map_eq_some_iff.1 h
    rcases ResponderRun.step_send hr with ⟨hc, rfl⟩ | ⟨m, u, hi, hup, hc, rfl⟩
    · exact .panicked hc
    · exact .sent hi hup hc
  | publish ok =>
    simp only [step, publish] at h
    split at h
    next u hup =>
      obtain ⟨responder, hr, rfl⟩ := Option.map_eq_some_iff.1 h
      obtain rfl := ResponderRun.step_publish hup hr
      exact .published hup
    next => cases h
  | call routingKey msgBody =>
    cases h
    exact .called
  | declare i name =>
    simp only [step, declare] at h
    split at h
    next c hc =>
      obtain ⟨⟨hsetup, hq, hn⟩, h⟩ := Option.ite_none_right_eq_some.1 h
      cases h
      exact .declared hc hsetup hq hn
    next => cases h
  | request i corrId =>
    simp only [step, request] at h
    split at h
    next c hc =>
      split at h
      next replyTo hsetup hq =>
        cases h
        refine .requested hc hsetup hq ?_
        rw [route]
        split_ifs
        · exact .inr rfl
        · exact .inl rfl
      next => cases h
    next => cases h
  | respondWithError i err => exact atCall_move (fun _ _ => Call.continues_respondWithError) h
  | receive i => exact atCall_move (fun _ _ => Call.continues_receive) h
  | take i => exact atCall_move (fun _ _ => Call.continues_take) h
  | msgsClosed i => exact atCall_move (fun _ _ => Call.continues_msgsClosed) h

/-! ## Through the responder -/

/-- What the handler of the task has written. -/
def written (s : RPCRun) (i : Nat) : List TaskUpdate :=
  s.wrote.filterMap fun w => if w.1 = i then some w.2 else none

/-- What the update goroutine has done with the updates of the task. -/
def done (s : RPCRun) (i : Nat) : List Handled := s.handled.filter fun h => h.task = i

/-- The updates of a task are published in the order in which they were written. -/
structure Flow (s : RPCRun) : Prop where
  closed : s.responder.taskUpdatesChClosed = true → s.responder.updater = .returned
  length : s.responder.tasks.length = s.started.length
  flow : ∀ i, s.written i = (s.done i).map Handled.taskUpdate ++ s.atUpdater i ++ s.atTask i
  own : ∀ w ∈ s.wrote, ∃ m, s.started[w.1]? = some m ∧ w.2.taskMsg = some m.delivery

theorem flow_start : Flow {} where
  closed h := by cases h
  length := rfl
  flow _ := by simp [written, done, atUpdater, atTask, ResponderRun.start, UpdaterPC.pending]
  own _ hw := by cases hw

/-- Nothing changes for the updates. -/
theorem Flow.congr (h : Flow s) (hr : s.responder.Idles t.responder) (hsender : t.sender = s.sender)
    (hstarted : t.started = s.started) (hwrote : t.wrote = s.wrote)
    (hhandled : t.handled = s.handled) : Flow t where
  closed := hr.closed h.closed
  length := by rw [hr.length, h.length, hstarted]
  flow i := by
    have hflow := h.flow i
    rw [written, done, atUpdater, atTask] at hflow ⊢
    rw [hwrote, hhandled, hsender, hr.updater, hr.tasks, hflow]
  own := by
    rw [hwrote, hstarted]
    exact h.own

theorem Flow.same (h : Flow s) (hr : t.responder = s.responder) (hsender : t.sender = s.sender)
    (hstarted : t.started = s.started) (hwrote : t.wrote = s.wrote)
    (hhandled : t.handled = s.handled) : Flow t :=
  h.congr (.of_eq (by rw [hr]) (by rw [hr]) (by rw [hr])) hsender hstarted hwrote hhandled

theorem Flow.delivered (h : Flow s) (m : TaskMsg) (ms : List TaskMsg) : Flow { s with
    responder := { s.responder with tasks := s.responder.tasks ++ [.handling m.delivery] }
    taskMsgs := ms
    started := s.started ++ [m] } where
  closed := h.closed
  length := by simp [h.length]
  flow i := by
    have htask : (s.responder.tasks ++ [.handling m.delivery])[i]?.elim [] TaskPC.pending =
        s.responder.tasks[i]?.elim [] TaskPC.pending := by
      rw [List.getElem?_append]
      split_ifs with hi
      · rfl
      · rw [List.getElem?_eq_none (Nat.le_of_not_lt hi), List.getElem?_singleton]
        split_ifs <;> rfl
    exact (h.flow i).trans (by rw [atTask, atTask, htask]; rfl)
  own w hw := by
    obtain ⟨m', hm', hown⟩ := h.own w hw
    obtain ⟨hlt, _⟩ := List.getElem?_eq_some_iff.1 hm'
    exact ⟨m', by rw [List.getElem?_append_left hlt]; exact hm', hown⟩

theorem written_concat (s : RPCRun) (i j : Nat) (u : TaskUpdate) :
    written { s with wrote := s.wrote ++ [(i, u)] } j =
      s.written j ++ if i = j then [u] else [] := by
  rw [written, List.filterMap_append]
  split_ifs with hj
  · simp [written, hj]
  · simp [written, hj]

theorem Flow.updated (h : Flow s) {i : Nat} {u : TaskUpdate} {m : Delivery}
    (hi : s.responder.tasks[i]? = some (.handling m))
    (hown : u.taskMsg = s.started[i]?.map TaskMsg.delivery) : Flow { s with
      responder := { s.responder with tasks := s.responder.tasks.set i (.sending m u) }
      wrote := s.wrote ++ [(i, u)] } := by
  obtain ⟨hlt, _⟩ := List.getElem?_eq_some_iff.1 hi
  refine ⟨h.closed, by rw [← h.length]; exact List.length_set, fun j => ?_, fun w hw => ?_⟩
  · have hwritten := written_concat { s with responder :=
      { s.responder with tasks := s.responder.tasks.set i (.sending m u) } } i j u
    have hflow := h.flow j
    rw [hwritten]
    rw [written, atTask] at hflow
    rw [atTask, ResponderRun.elim_set _ hlt]
    change s.written j ++ _ = (s.done j).map Handled.taskUpdate ++ s.atUpdater j ++ _
    rw [written, hflow]
    split_ifs with hj
    · subst hj
      rw [hi, List.append_assoc]
      rfl
    · rw [List.append_nil]
  · rcases List.mem_append.1 hw with hw | hw
    · exact h.own w hw
    · obtain rfl := List.mem_singleton.1 hw
      have hlt' : i < s.started.length := h.length ▸ hlt
      refine ⟨s.started[i], List.getElem?_eq_getElem hlt', ?_⟩
      rw [hown, List.getElem?_eq_getElem hlt', Option.map_some]

theorem Flow.sent (h : Flow s) {i : Nat} {u : TaskUpdate} {m : Delivery}
    (hi : s.responder.tasks[i]? = some (.sending m u)) (hup : s.responder.updater = .selecting)
    (hc : s.responder.taskUpdatesChClosed = false) : Flow { s with
      responder := { s.responder with
        tasks := s.responder.tasks.set i (.handling m)
        updater := .publishing u }
      sender := i } := by
  obtain ⟨hlt, _⟩ := List.getElem?_eq_some_iff.1 hi
  refine ⟨fun hclosed => ?_, by rw [← h.length]; exact List.length_set, fun j => ?_, h.own⟩
  · rw [show s.responder.taskUpdatesChClosed = true from hclosed] at hc
    cases hc
  · have hflow := h.flow j
    have hnone : (if s.sender = j then UpdaterPC.selecting.pending else []) = [] := by
      split_ifs <;> rfl
    rw [atUpdater, hup, hnone, atTask, List.append_nil] at hflow
    rw [atUpdater, atTask, ResponderRun.elim_set _ hlt]
    change s.written j = (s.done j).map Handled.taskUpdate ++ _ ++ _
    rw [hflow]
    dsimp only
    split_ifs with hj
    · rw [← hj, hi]
      simp [TaskPC.pending, UpdaterPC.pending]
    · rw [List.append_nil]

theorem done_concat (s : RPCRun) (h : Handled) (j : Nat) :
    done { s with handled := s.handled ++ [h] } j =
      s.done j ++ if h.task = j then [h] else [] := by
  rw [done, List.filter_append]
  split_ifs with hj
  · rw [List.filter_cons_of_pos (by simpa using hj)]
    rfl
  · rw [List.filter_cons_of_neg (by simpa using hj)]
    rfl

theorem Flow.published (h : Flow s) {u : TaskUpdate} (hup : s.responder.updater = .publishing u)
    (ok : Bool) (published : List (String × Publishing)) (calls : List Call) : Flow { s with
      responder := { s.responder with updater := .selecting, published }
      handled := s.handled ++ [⟨s.sender, u, ok⟩]
      calls } := by
  refine ⟨fun hclosed => ?_, h.length, fun j => ?_, h.own⟩
  · rw [h.closed hclosed] at hup
    cases hup
  · have hflow := h.flow j
    have hdone := done_concat { s with
      responder := { s.responder with updater := .selecting, published }, calls } ⟨s.sender, u, ok⟩ j
    rw [atUpdater, hup] at hflow
    rw [hdone, List.map_append]
    change s.written j = (s.done j).map Handled.taskUpdate ++ _ ++ _ ++ s.atTask j
    rw [hflow]
    dsimp only [atUpdater]
    split_ifs <;> simp [UpdaterPC.pending]

theorem Flow.move (h : Flow s) (hok : answersOwn s a) (hm : Move s a t) : Flow t := by
  cases hm with
  | aside hr => exact h.congr hr rfl rfl rfl rfl
  | named | called | declared | requested | went => exact h.same rfl rfl rfl rfl rfl
  | delivered => exact h.delivered _ _
  | updated hi => exact h.updated hi hok
  | panicked hc =>
    refine ⟨h.closed, h.length, fun j => (h.flow j).trans ?_, h.own⟩
    -- The update goroutine has returned.
    simp only [atUpdater, h.closed hc, UpdaterPC.pending, ite_self]
    rfl
  | sent hi hup hc => exact h.sent hi hup hc
  | published hup => exact h.published hup _ _ _

theorem mem_wrote (h : Flow s) {x : Handled} (hx : x ∈ s.handled) :
    (x.task, x.taskUpdate) ∈ s.wrote := by
  have hdone : x.taskUpdate ∈ s.written x.task := by
    rw [h.flow, List.append_assoc]
    refine List.mem_append_left _ (List.mem_map_of_mem ?_)
    exact List.mem_filter.2 ⟨hx, decide_eq_true rfl⟩
  obtain ⟨w, hw, hsome⟩ := List.mem_filterMap.1 hdone
  obtain ⟨htask, hupdate⟩ := Option.ite_none_right_eq_some.1 hsome
  rw [← htask, ← Option.some.inj hupdate]
  exact hw

/-- A reply goes to the queue of the task message. -/
theorem reply_key {u : TaskUpdate} {m : Delivery} {key : String} {msg : Publishing}
    (hm : u.taskMsg = some m) (hr : u.reply = some (key, msg)) : key = m.replyTo := by
  rw [TaskUpdate.reply] at hr
  split at hr
  next => cases hr
  next =>
    split at hr <;>
    · rw [hm] at hr
      cases hr
      rfl

theorem msgFor_eq_some {x : Handled} {msg : Publishing} (h : x.msgFor queue = some msg) :
    x.taskUpdate.reply = some (queue, msg) ∧ x.published = true := by
  rw [Handled.msgFor] at h
  split at h
  next key msg' hr =>
    obtain ⟨⟨hp, hkey⟩, h⟩ := Option.ite_none_right_eq_some.1 h
    cases h
    subst hkey
    exact ⟨hr, hp⟩
  next => cases h

/-- What the broker has put in a queue comes from a task that answers to it. -/
theorem serves_of_msgFor (h : Flow s) {x : Handled} {msg : Publishing} (hx : x ∈ s.handled)
    (hmsg : x.msgFor queue = some msg) : s.Serves x.task queue := by
  obtain ⟨m, hm, hown⟩ := h.own _ (mem_wrote h hx)
  rw [Serves, hm, Option.map_some, reply_key hown (msgFor_eq_some hmsg).1]

/-! ## Through the broker -/

/-- The task messages and the calls belong together. -/
structure Asked (s : RPCRun) : Prop where
  distinct : ((s.started ++ s.taskMsgs).map fun m => m.delivery.replyTo).Nodup
  asked : ∀ m ∈ s.started ++ s.taskMsgs, ∃ (i : Nat) (c : Call), s.calls[i]? = some c ∧
    c.pc.isSetup = false ∧ c.queue = some m.delivery.replyTo ∧
      m = ⟨⟨m.delivery.replyTo, c.corrId⟩, c.msgBody⟩
  named : ∀ (i : Nat) (c : Call) (q : String), s.calls[i]? = some c → c.queue = some q → q ∈ s.names
  queues : ∀ (i j : Nat) (c d : Call) (q : String), s.calls[i]? = some c → s.calls[j]? = some d →
    c.queue = some q → d.queue = some q → i = j

theorem asked_start : Asked {} where
  distinct := List.nodup_nil
  asked _ hm := by cases hm
  named _ _ _ hc := by cases hc
  queues _ _ _ _ _ hc := by cases hc

/-- Each call is as it was, or has gone on. -/
theorem Asked.congr (h : Asked s) (hmsgs : t.started ++ t.taskMsgs = s.started ++ s.taskMsgs)
    (hnames : s.names ⊆ t.names)
    (hback : ∀ (i : Nat) (d : Call), t.calls[i]? = some d → d.queue = none ∨
      ∃ c, s.calls[i]? = some c ∧ d.queue = c.queue)
    (hon : ∀ (i : Nat) (c : Call), s.calls[i]? = some c → c.pc.isSetup = false →
      ∃ d, t.calls[i]? = some d ∧ d.pc.isSetup = false ∧ d.queue = c.queue ∧
        d.corrId = c.corrId ∧ d.msgBody = c.msgBody) : Asked t where
  distinct := by rw [hmsgs]; exact h.distinct
  asked m hm := by
    rw [hmsgs] at hm
    obtain ⟨i, c, hc, hpc, hq, hmc⟩ := h.asked m hm
    obtain ⟨d, hd, hpc', hq', hcorr, hbody⟩ := hon i c hc hpc
    exact ⟨i, d, hd, hpc', hq'.trans hq, by rw [hcorr, hbody]; exact hmc⟩
  named i d q hd hq := by
    rcases hback i d hd with hnone | ⟨c, hc, hqueue⟩
    · rw [hnone] at hq
      cases hq
    · exact hnames (h.named i c q hc (hqueue ▸ hq))
  queues i j d d' q hd hd' hq hq' := by
    rcases hback i d hd with hnone | ⟨c, hc, hqueue⟩
    · rw [hnone] at hq
      cases hq
    · rcases hback j d' hd' with hnone | ⟨c', hc', hqueue'⟩
      · rw [hnone] at hq'
        cases hq'
      · exact h.queues i j c c' q hc hc' (hqueue ▸ hq) (hqueue' ▸ hq')

theorem Asked.same (h : Asked s) (hmsgs : t.started ++ t.taskMsgs = s.started ++ s.taskMsgs)
    (hnames : s.names ⊆ t.names) (hcalls : t.calls = s.calls) : Asked t := by
  refine h.congr hmsgs hnames (fun i d hd => .inr ⟨d, hcalls ▸ hd, rfl⟩) fun i c hc hpc => ?_
  exact ⟨c, by rw [hcalls]; exact hc, hpc, rfl, rfl, rfl⟩

/-- A call in a list in which one call has changed. -/
theorem getElem?_set_call {calls : List Call} {i j : Nat} {c d : Call} (hc : calls[i]? = some c) :
    (calls.set i d)[j]? = if i = j then some d else calls[j]? := by
  obtain ⟨hlt, _⟩ := List.getElem?_eq_some_iff.1 hc
  rw [List.getElem?_set, if_pos hlt]

theorem Asked.went (h : Asked s) (hc : s.calls[i]? = some c) (hd : Call.Continues c d) :
    Asked { s with calls := s.calls.set i d } := by
  refine h.congr rfl (List.Subset.refl _) (fun j d' hd' => .inr ?_) fun j c' hc' hpc => ?_
  · rw [getElem?_set_call hc] at hd'
    split_ifs at hd' with hj
    · cases hd'
      exact ⟨c, hj ▸ hc, hd.queue⟩
    · exact ⟨d', hd', rfl⟩
  · rw [getElem?_set_call hc]
    split_ifs with hj
    · subst hj
      obtain rfl := Option.some.inj (hc.symm.trans hc')
      exact ⟨d, rfl, hd.setup hpc, hd.queue, hd.corrId, hd.msgBody⟩
    · exact ⟨c', hc', hpc, rfl, rfl, rfl⟩

theorem Asked.declared (h : Asked s) {name : String} (hc : s.calls[i]? = some c)
    (hsetup : c.pc.isSetup = true) (hn : name ∉ s.names) : Asked { s with
      names := name :: s.names
      calls := s.calls.set i { c with queue := some name } } where
  distinct := h.distinct
  asked m hm := by
    obtain ⟨j, c', hc', hpc, hq, hmc⟩ := h.asked m hm
    have hj : i ≠ j := by
      rintro rfl
      obtain rfl := Option.some.inj (hc.symm.trans hc')
      rw [hsetup] at hpc
      cases hpc
    exact ⟨j, c', by rw [getElem?_set_call hc, if_neg hj]; exact hc', hpc, hq, hmc⟩
  named j d q hd hq := by
    rw [getElem?_set_call hc] at hd
    split_ifs at hd with hj
    · cases hd
      cases hq
      exact List.mem_cons_self
    · exact List.mem_cons_of_mem _ (h.named j d q hd hq)
  queues j k d d' q hd hd' hq hq' := by
    rw [getElem?_set_call hc] at hd hd'
    split_ifs at hd with hj <;> split_ifs at hd' with hk
    · exact hj.symm.trans hk
    · cases hd
      cases hq
      exact absurd (h.named k d' _ hd' hq') hn
    · cases hd'
      cases hq'
      exact absurd (h.named j d _ hd hq) hn
    · exact h.queues j k d d' q hd hd' hq hq'

theorem Asked.requested (h : Asked s) {corrId replyTo : String} {ms : List TaskMsg}
    (hc : s.calls[i]? = some c) (hsetup : c.pc = .setup) (hq : c.queue = some replyTo)
    (hms : ms = s.taskMsgs ∨ ms = s.taskMsgs ++ [⟨⟨replyTo, corrId⟩, c.msgBody⟩]) : Asked { s with
      taskMsgs := ms
      calls := s.calls.set i { c with corrId, pc := .waiting } } := by
  -- The messages so far are from other calls.
  have hothers : ∀ m ∈ s.started ++ s.taskMsgs, ∀ j c', s.calls[j]? = some c' →
      c'.pc.isSetup = false → i ≠ j := by
    rintro m - j c' hc' hpc rfl
    obtain rfl := Option.some.inj (hc.symm.trans hc')
    rw [hsetup] at hpc
    cases hpc
  have hfresh : replyTo ∉ (s.started ++ s.taskMsgs).map fun m => m.delivery.replyTo := by
    intro hmem
    obtain ⟨m, hm, rfl⟩ := List.mem_map.1 hmem
    obtain ⟨j, c', hc', hpc, hq', -⟩ := h.asked m hm
    exact hothers m hm j c' hc' hpc (h.queues i j c c' _ hc hc' hq hq')
  have hkept : ∀ m ∈ s.started ++ s.taskMsgs, ∃ (j : Nat) (c' : Call),
      (s.calls.set i { c with corrId, pc := .waiting })[j]? = some c' ∧ c'.pc.isSetup = false ∧
        c'.queue = some m.delivery.replyTo ∧
          m = ⟨⟨m.delivery.replyTo, c'.corrId⟩, c'.msgBody⟩ := by
    intro m hm
    obtain ⟨j, c', hc', hpc, hq', hmc⟩ := h.asked m hm
    exact ⟨j, c', by rw [getElem?_set_call hc, if_neg (hothers m hm j c' hc' hpc)]; exact hc', hpc,
      hq', hmc⟩
  refine ⟨?_, ?_, fun j d q hd hq' => ?_, fun j k d d' q hd hd' hq' hq'' => ?_⟩
  · rcases hms with rfl | rfl
    · exact h.distinct
    · rw [← List.append_assoc, List.map_append]
      refine h.distinct.append (List.nodup_singleton _) fun q hmem hmem' => ?_
      rw [List.mem_singleton.1 hmem'] at hmem
      exact hfresh hmem
  · rcases hms with rfl | rfl
    · exact hkept
    · intro m hm
      rw [← List.append_assoc] at hm
      rcases List.mem_append.1 hm with hm | hm
      · exact hkept m hm
      · obtain rfl := List.mem_singleton.1 hm
        exact ⟨i, { c with corrId, pc := .waiting }, by rw [getElem?_set_call hc, if_pos rfl], rfl,
          hq, rfl⟩
  · rw [getElem?_set_call hc] at hd
    split_ifs at hd with hj
    · cases hd
      exact h.named i c q hc hq'
    · exact h.named j d q hd hq'
  · rw [getElem?_set_call hc] at hd hd'
    split_ifs at hd with hj <;> split_ifs at hd' with hk
    · exact hj.symm.trans hk
    · cases hd
      exact hj ▸ h.queues i k c d' q hc hd' hq' hq''
    · cases hd'
      exact hk ▸ h.queues j i d c q hd hc hq' hq''
    · exact h.queues j k d d' q hd hd' hq' hq''

theorem Asked.move (h : Asked s) (hm : Move s a t) : Asked t := by
  cases hm with
  | aside | updated | panicked | sent => exact h.same rfl (List.Subset.refl _) rfl
  | named => exact h.same rfl (List.subset_cons_self _ _) rfl
  | delivered hm =>
    refine h.same ?_ (List.Subset.refl _) rfl
    dsimp only
    rw [hm, List.append_assoc]
    rfl
  | published =>
    refine h.congr rfl (List.Subset.refl _) (fun j d hd => .inr ?_) fun j c hc hpc => ?_
    · rw [List.getElem?_map] at hd
      obtain ⟨c, hc, rfl⟩ := Option.map_eq_some_iff.1 hd
      exact ⟨c, hc, c.arrive_queue _⟩
    · exact ⟨_, by rw [List.getElem?_map, hc]; rfl, by rw [Call.arrive_pc]; exact hpc,
        c.arrive_queue _, c.arrive_corrId _, c.arrive_msgBody _⟩
  | called =>
    refine h.congr rfl (List.Subset.refl _) (fun j d hd => ?_) fun j c hc hpc => ?_
    · rw [List.getElem?_append] at hd
      split_ifs at hd
      · exact .inr ⟨d, hd, rfl⟩
      · rw [List.getElem?_singleton] at hd
        split_ifs at hd
        cases hd
        exact .inl rfl
    · obtain ⟨hlt, _⟩ := List.getElem?_eq_some_iff.1 hc
      exact ⟨c, by rw [List.getElem?_append_left hlt]; exact hc, hpc, rfl, rfl, rfl⟩
  | declared hc hsetup hq hn => exact h.declared hc hsetup hn
  | requested hc hsetup hq hms => exact h.requested hc hsetup hq hms
  | went hc hd => exact h.went hc hd

/-- What the broker has put in the queue. -/
def routed (s : RPCRun) (queue : String) : List Publishing :=
  s.handled.filterMap fun h => h.msgFor queue

/-- The replies that have arrived at a call. -/
def arrivals (s : RPCRun) (queue : Option String) : List Publishing := queue.elim [] s.routed

structure Hears (s : RPCRun) (c : Call) : Prop where
  arrived : c.taken ++ c.msgs <+: s.arrivals c.queue
  live : c.pc.isClosed = false → c.taken ++ c.msgs = s.arrivals c.queue
  sound : c.Sound

/-- Nothing is in a queue before it is named. -/
theorem routed_fresh (hf : Flow s) (ha : Asked s) {name : String} (hn : name ∉ s.names) :
    s.routed name = [] := by
  refine List.filterMap_eq_nil_iff.2 fun x hx => ?_
  by_contra hsome
  obtain ⟨msg, hmsg⟩ := Option.ne_none_iff_exists'.1 hsome
  have hserves := serves_of_msgFor hf hx hmsg
  rw [Serves] at hserves
  obtain ⟨m, hm, hkey⟩ := Option.map_eq_some_iff.1 hserves
  obtain ⟨j, c, hc, -, hq, -⟩ := ha.asked m (List.mem_append_left _ (List.mem_of_getElem? hm))
  exact hn (ha.named j c name hc (hkey ▸ hq))

theorem routed_concat (s : RPCRun) (h : Handled) (queue : Option String) :
    arrivals { s with handled := s.handled ++ [h] } queue =
      s.arrivals queue ++ (queue.bind h.msgFor).toList := by
  cases queue with
  | none => rfl
  | some q =>
    rw [arrivals, Option.elim_some, routed, List.filterMap_append]
    rfl

theorem Hears.arrive (h : Hears s c) (x : Handled) (responder : ResponderRun) (calls : List Call) :
    Hears { s with responder, handled := s.handled ++ [x], calls } (c.arrive x) := by
  have harrivals := routed_concat { s with responder, calls } x c.queue
  refine ⟨?_, fun hlive => ?_, c.sound_arrive x h.sound⟩
  · rw [c.arrive_msgs, c.arrive_queue, harrivals]
    split_ifs with hclosed
    · rw [List.append_nil]
      exact h.arrived.trans (List.prefix_append _ _)
    · rw [h.live (Bool.eq_false_iff.2 hclosed)]
      exact List.prefix_rfl
  · rw [c.arrive_pc] at hlive
    rw [c.arrive_msgs, c.arrive_queue, harrivals, if_neg (by simp [hlive]), h.live hlive]
    rfl

theorem Hears.went (h : Hears s c) (hd : Call.Continues c d) : Hears s d where
  arrived := by
    rw [hd.msgs, hd.queue]
    exact h.arrived
  live hlive := by
    rw [hd.msgs, hd.queue]
    exact h.live (hd.live hlive)
  sound := hd.sound h.sound

theorem Hears.declared (h : Hears s c) (hf : Flow s) (ha : Asked s) (hq : c.queue = none)
    {name : String} (hn : name ∉ s.names) : Hears s { c with queue := some name } := by
  have hnil : c.taken ++ c.msgs = [] := by
    have harrived := h.arrived
    rw [hq] at harrived
    exact List.prefix_nil.1 harrived
  have harrivals : s.arrivals (some name) = [] := routed_fresh hf ha hn
  exact ⟨by rw [harrivals, hnil], fun _ => by rw [harrivals, hnil], h.sound⟩

theorem Hears.requested (h : Hears s c) (hsetup : c.pc = .setup) (corrId : String) :
    Hears s { c with corrId, pc := .waiting } := by
  have hsound := h.sound
  simp only [Call.Sound, hsetup] at hsound
  refine ⟨h.arrived, fun _ => h.live (by rw [hsetup]; rfl), ?_⟩
  simp only [Call.Sound, Call.heard]
  rw [hsound.1]
  exact ⟨hsound.2.symm, List.not_mem_nil⟩

/-- All of this holds in every run. -/
structure Consistent (s : RPCRun) : Prop where
  flow : Flow s
  asked : Asked s
  hears : ∀ (i : Nat) (c : Call), s.calls[i]? = some c → Hears s c

theorem hears_set {d' : Call} (h : ∀ (j : Nat) (c : Call), s.calls[j]? = some c → Hears s c)
    (hc : s.calls[i]? = some c) (hd : Hears s d) {j : Nat} (hd' : (s.calls.set i d)[j]? = some d') :
    Hears s d' := by
  rw [getElem?_set_call hc] at hd'
  split_ifs at hd'
  · cases hd'
    exact hd
  · exact h j d' hd'

theorem Consistent.move (h : Consistent s) (hok : answersOwn s a) (hm : Move s a t) :
    Consistent t := by
  refine ⟨h.flow.move hok hm, h.asked.move hm, fun j d hd => ?_⟩
  cases hm with
  | aside | named | delivered | updated | panicked | sent =>
    obtain ⟨harrived, hlive, hsound⟩ := h.hears j d hd
    exact ⟨harrived, hlive, hsound⟩
  | published =>
    rw [List.getElem?_map] at hd
    obtain ⟨c, hc, rfl⟩ := Option.map_eq_some_iff.1 hd
    exact (h.hears j c hc).arrive _ _ _
  | called =>
    rw [List.getElem?_append] at hd
    split_ifs at hd
    · obtain ⟨harrived, hlive, hsound⟩ := h.hears j d hd
      exact ⟨harrived, hlive, hsound⟩
    · rw [List.getElem?_singleton] at hd
      split_ifs at hd
      cases hd
      exact ⟨List.prefix_rfl, fun _ => rfl, rfl, rfl⟩
  | declared hc hsetup hq hn =>
    obtain ⟨harrived, hlive, hsound⟩ :=
      hears_set h.hears hc ((h.hears _ _ hc).declared h.flow h.asked hq hn) hd
    exact ⟨harrived, hlive, hsound⟩
  | requested hc hsetup =>
    obtain ⟨harrived, hlive, hsound⟩ :=
      hears_set h.hears hc ((h.hears _ _ hc).requested hsetup _) hd
    exact ⟨harrived, hlive, hsound⟩
  | went hc hgo =>
    obtain ⟨harrived, hlive, hsound⟩ := hears_set h.hears hc ((h.hears _ _ hc).went hgo) hd
    exact ⟨harrived, hlive, hsound⟩

theorem consistent_of_reachable (h : system.Reachable answersOwn s) : Consistent s :=
  h.invariant ⟨flow_start, asked_start, fun _ _ hc => by cases hc⟩
    fun _ _ _ hs hok hst => hs.move hok (step_move hst)

/-! ## The task of a call -/

/-- Where no key stands twice, a filter by a key leaves one element. -/
theorem filter_key {α β : Type} [DecidableEq β] {f : α → β} {x : α} :
    ∀ {l : List α}, (l.map f).Nodup → x ∈ l → (l.filter fun y => f y = f x) = [x]
  | y :: l, hnodup, hx => by
    obtain ⟨hy, hl⟩ := List.nodup_cons.1 hnodup
    rcases List.mem_cons.1 hx with rfl | hx
    · rw [List.filter_cons_of_pos (by simp), List.filter_eq_nil_iff.2]
      intro z hz hzx
      exact hy (of_decide_eq_true hzx ▸ List.mem_map_of_mem hz)
    · have hne : f y ≠ f x := fun he => hy (he ▸ List.mem_map_of_mem hx)
      rw [List.filter_cons_of_neg (by simpa using hne), filter_key hl hx]

section Task

variable (hf : Flow s) (ha : Asked s)
include ha

theorem nodup_started : (s.started.map fun m => m.delivery.replyTo).Nodup := by
  have hdistinct := ha.distinct
  rw [List.map_append] at hdistinct
  exact hdistinct.of_append_left

theorem serves_unique {j : Nat} (hi : s.Serves i queue) (hj : s.Serves j queue) : i = j := by
  rw [Serves, ← List.getElem?_map] at hi hj
  obtain ⟨hlt, _⟩ := List.getElem?_eq_some_iff.1 hi
  exact (List.getElem?_inj hlt (nodup_started ha)).1 (hi.trans hj.symm)

/-- What is filtered by the queue is filtered by its task. -/
theorem serves_iff (hi : s.Serves i queue) (j : Nat) : s.Serves j queue ↔ j = i :=
  ⟨fun hj => serves_unique ha hj hi, fun h => h ▸ hi⟩

theorem tasksFor_eq (hi : s.Serves i queue) {m : TaskMsg} (hm : s.started[i]? = some m) :
    s.tasksFor queue = [m] := by
  have hkey : m.delivery.replyTo = queue := by
    rw [Serves, hm] at hi
    exact Option.some.inj hi
  rw [tasksFor, ← hkey]
  exact filter_key (nodup_started ha) (List.mem_of_getElem? hm)

include hf

/-- The replies to a call, and what its handler has written. -/
theorem routed_eq (hi : s.Serves i queue) : s.routed queue =
    ((s.done i).filter Handled.published).filterMap fun x => x.taskUpdate.reply.map Prod.snd := by
  rw [done, List.filter_filter, List.filterMap_filter, routed]
  refine List.filterMap_congr fun x hx => ?_
  split_ifs with hboth
  · obtain ⟨hp, htask⟩ := Bool.and_eq_true_iff.1 hboth
    obtain ⟨m, hm, hown⟩ := hf.own _ (mem_wrote hf hx)
    have hserves : s.Serves x.task queue := of_decide_eq_true htask ▸ hi
    rw [Serves, hm] at hserves
    rw [Handled.msgFor]
    split
    next key msg hr =>
      have hkey : key = queue := (reply_key hown hr).trans (Option.some.inj hserves)
      rw [if_pos ⟨hp, hkey⟩, hr]
      rfl
    next hr => rw [hr]; rfl
  · by_contra hsome
    obtain ⟨msg, hmsg⟩ := Option.ne_none_iff_exists'.1 hsome
    refine hboth (Bool.and_eq_true_iff.2 ⟨(msgFor_eq_some hmsg).2, decide_eq_true ?_⟩)
    exact (serves_iff ha hi _).1 (serves_of_msgFor hf hx hmsg)

theorem replies_wroteFor (hi : s.Serves i queue) : replies (s.wroteFor queue) =
    ((s.done i).filterMap fun x => x.taskUpdate.reply.map Prod.snd) ++
      replies (s.atUpdater i ++ s.atTask i) := by
  have hwrote : s.wroteFor queue = s.written i := by
    refine List.filterMap_congr fun w _ => ?_
    simp only [serves_iff ha hi]
  rw [hwrote, hf.flow, replies, List.append_assoc, List.filterMap_append, List.filterMap_map]
  rfl

theorem routed_sublist (hi : s.Serves i queue) :
    (s.routed queue).Sublist (replies (s.wroteFor queue)) := by
  rw [routed_eq hf ha hi, replies_wroteFor hf ha hi]
  exact (List.filter_sublist.filterMap _).trans (List.sublist_append_left _ _)

theorem routed_of_nothing_lost (hi : s.Serves i queue) (hlost : s.lostFor queue = []) :
    s.routed queue = (s.done i).filterMap fun x => x.taskUpdate.reply.map Prod.snd := by
  rw [routed_eq hf ha hi, List.filterMap_filter]
  refine List.filterMap_congr fun x hx => ?_
  split_ifs with hp
  · rfl
  · obtain ⟨hx, htask⟩ := List.mem_filter.1 hx
    have hkept := List.filter_eq_nil_iff.1 hlost x hx
    have hserves : s.Serves x.task queue := of_decide_eq_true htask ▸ hi
    rw [Bool.eq_false_iff.2 hp, decide_eq_true hserves, Bool.not_false, Bool.true_and,
      Bool.and_true] at hkept
    rw [Option.not_isSome_iff_eq_none.1 hkept]
    rfl

end Task

/-- The replies to a queue that no task answers to. -/
theorem routed_unserved (hf : Flow s) (hno : ∀ i, ¬s.Serves i queue) :
    s.routed queue = [] ∧ s.wroteFor queue = [] ∧ s.tasksFor queue = [] := by
  refine ⟨List.filterMap_eq_nil_iff.2 fun x hx => ?_, List.filterMap_eq_nil_iff.2 fun w _ =>
    if_neg (hno w.1), List.filter_eq_nil_iff.2 fun m hm hkey => ?_⟩
  · by_contra hsome
    obtain ⟨msg, hmsg⟩ := Option.ne_none_iff_exists'.1 hsome
    exact hno _ (serves_of_msgFor hf hx hmsg)
  · obtain ⟨i, hi⟩ := List.getElem?_of_mem hm
    refine hno i ?_
    rw [Serves, hi, Option.map_some, of_decide_eq_true hkey]

/-! ## The answers -/

theorem bodies_sublist {corrId : String} {l l' : List Publishing} (h : l.Sublist l') :
    (bodies corrId l).Sublist (bodies corrId l') := (h.filter _).map _

theorem bodies_prefix {corrId : String} {l l' : List Publishing} (h : l <+: l') :
    bodies corrId l <+: bodies corrId l' := (h.filter _).map _

theorem upToEnd_append {l : List (List UInt8)} (h : [] ∉ l) (l' : List (List UInt8)) :
    upToEnd (l ++ l') = l ++ upToEnd l' := by
  refine List.takeWhile_append_of_pos fun body hbody => decide_eq_true ?_
  rintro rfl
  exact h hbody

/-- The reader has a beginning of what was read, and no end. -/
theorem messages_of_sound (h : c.Sound) : c.messages <+: c.heard ∧ [] ∉ c.messages := by
  rw [Call.Sound] at h
  split at h
  next =>
    rw [h.2]
    exact ⟨List.nil_prefix, List.not_mem_nil⟩
  next update _ =>
    split_ifs at h
    · rw [h.2]
      exact ⟨List.nil_prefix, List.not_mem_nil⟩
    · have hpfx : c.messages <+: c.heard := ⟨_, h.1.symm⟩
      exact ⟨hpfx, fun hmem => h.2 (hpfx.subset hmem)⟩
  next => exact ⟨⟨_, h.1.symm⟩, h.2⟩
  next => exact ⟨⟨[], by rw [h.1, List.append_nil]⟩, h.1 ▸ h.2⟩

/-- What was read of the replies to a call, and what its handler has written. -/
theorem heard_spec (hf : Flow s) (ha : Asked s) (hh : Hears s c) (hq : c.queue = some queue) :
    c.heard.Sublist (s.answersTo queue c.corrId) ∧
    (s.lostFor queue = [] → c.heard <+: s.answersTo queue c.corrId) ∧
    (c.pc.isClosed = false → c.msgs = [] → s.Quiet queue → s.lostFor queue = [] →
      c.heard = s.answersTo queue c.corrId) := by
  have htaken : c.taken <+: s.routed queue := by
    have harrived := hh.arrived
    rw [hq] at harrived
    exact (List.prefix_append _ _).trans harrived
  have hall : c.pc.isClosed = false → c.msgs = [] → c.taken = s.routed queue := by
    intro hlive hnil
    have harrived := hh.live hlive
    rwa [hq, hnil, List.append_nil] at harrived
  by_cases hserved : ∃ i, s.Serves i queue
  · obtain ⟨i, hi⟩ := hserved
    refine ⟨bodies_sublist (htaken.sublist.trans (routed_sublist hf ha hi)), fun hlost => ?_,
      fun hlive hnil hquiet hlost => ?_⟩
    · refine bodies_prefix (htaken.trans ?_)
      rw [routed_of_nothing_lost hf ha hi hlost, replies_wroteFor hf ha hi]
      exact List.prefix_append _ _
    · obtain ⟨hupdater, htask⟩ := hquiet i hi
      rw [Call.heard, answersTo, hall hlive hnil, replies_wroteFor hf ha hi, hupdater, htask,
        routed_of_nothing_lost hf ha hi hlost]
      exact congrArg _ (List.append_nil _).symm
  · obtain ⟨hrouted, hwrote, -⟩ := routed_unserved hf (not_exists.1 hserved)
    rw [hrouted] at htaken
    have hnil : c.heard = [] := by rw [Call.heard, List.prefix_nil.1 htaken]; rfl
    have hnone : s.answersTo queue c.corrId = [] := by rw [answersTo, hwrote]; rfl
    rw [hnil, hnone]
    exact ⟨List.Sublist.refl _, fun _ => List.prefix_rfl, fun _ _ _ _ => rfl⟩

/-- Whatever other calls and tasks do, the reader of a call has what the handler of its own task has
written to it, in order, each message once, and nothing after the end; and what it does not have is
under way, or could not be published. -/
theorem call_answered (hr : system.Reachable answersOwn s) (hc : c ∈ s.calls)
    (hq : c.queue = some queue) : s.Answered c queue := by
  obtain ⟨hf, ha, hhears⟩ := consistent_of_reachable hr
  obtain ⟨i, hi⟩ := List.getElem?_of_mem hc
  have hh := hhears i c hi
  obtain ⟨hsublist, hpfx, hquiet⟩ := heard_spec hf ha hh hq
  obtain ⟨hmessages, hne⟩ := messages_of_sound hh.sound
  refine ⟨?_, hmessages.sublist.trans hsublist, fun hlost => ?_, fun hclosed => ?_,
    fun hwaiting hnil hall hlost => ?_⟩
  · by_cases hserved : ∃ j, s.Serves j queue
    · obtain ⟨j, hj⟩ := hserved
      obtain ⟨m, hm, hkey⟩ := Option.map_eq_some_iff.1 hj
      obtain ⟨k, d, hd, -, hdq, hmd⟩ :=
        ha.asked m (List.mem_append_left _ (List.mem_of_getElem? hm))
      rw [hkey] at hdq hmd
      obtain rfl := ha.queues i k c d queue hi hd hq hdq
      obtain rfl := Option.some.inj (hi.symm.trans hd)
      rw [tasksFor_eq ha hj hm, hmd]
      exact .inr rfl
    · exact .inl (routed_unserved hf (not_exists.1 hserved)).2.2
  · obtain ⟨rest, hrest⟩ := hmessages.trans (hpfx hlost)
    rw [← hrest, upToEnd_append hne]
    exact List.prefix_append _ _
  · have hsound := hh.sound
    rw [Call.Sound, hclosed] at hsound
    refine ⟨hsublist.subset ?_, fun hlost => ?_⟩
    · rw [hsound.1]
      exact List.mem_append_right _ (List.mem_singleton_self _)
    · obtain ⟨rest, hrest⟩ := hpfx hlost
      rw [← hrest, hsound.1, List.append_assoc, upToEnd_append hne]
      exact (List.append_nil _).symm
  · have hsound := hh.sound
    rw [Call.Sound, hwaiting] at hsound
    rw [← hsound.1]
    exact hquiet (by rw [hwaiting]; rfl) hnil hall hlost

/-! ### Two calls -/

def update (replyTo corrId : String) (body : List UInt8) : TaskUpdate where
  taskMsg := some ⟨replyTo, corrId⟩
  envelope := some ⟨"application/json", corrId, body⟩

/-- Two callers; their tasks answer at the same time, and the first one ends. -/
def twoCalls : List RPCAction :=
  [.setQueueName "tasks", .responder .consume, .call "tasks" [1], .call "tasks" [2],
    .declare 0 "a", .declare 1 "b", .request 1 "y", .request 0 "x", .deliver, .deliver,
    .update 1 (update "a" "x" [10]), .update 0 (update "b" "y" [20]), .send 1, .publish true,
    .send 0, .publish true, .update 1 ⟨some ⟨"a", "x"⟩, none, none⟩, .send 1, .receive 0, .take 0,
    .publish true, .receive 0]

theorem call_answered_twoCalls : ∃ (s : RPCRun) (c : Call), c ∈ s.calls ∧ c.pc = .closed true ∧
    c.messages = [[10]] ∧ s.Answered c "a" := by
  obtain ⟨s, hr, hp⟩ := System.exists_of_replay system answersOwn
    (fun s => s.calls.any fun c =>
      c.queue = some "a" ∧ c.pc = .closed true ∧ c.messages = [[10]]) twoCalls (by decide)
  obtain ⟨c, hc, hcall⟩ := List.any_eq_true.1 hp
  obtain ⟨hq, hclosed, hmessages⟩ := of_decide_eq_true hcall
  exact ⟨s, c, hc, hclosed, hmessages, call_answered hr hc hq⟩

end RPCRun

end CloudPing.Rpc
