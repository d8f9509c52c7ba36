import CloudPing.Nodereg.ConnRegistry
import CloudPing.Wire.ValueStream
import Mathlib.Data.Countable.Basic
import Mathlib.Logic.Equiv.List
import Mathlib.Tactic.DeriveCountable

/-!
# How an agent reads its control stream

The hub writes messages to a stream with a JSON encoder, which puts a newline behind each.
`runReceiver` calls `recvMsgPayload` over and over, and each call makes a new decoder.  A
decoder reads from the stream until it has a value, and keeps in a buffer of its own what it
read behind it.  The buffer goes when the call returns.

So the messages arrive if the transport ends a read between each two of them
(`CutBetween`).  Otherwise the start of a message is lost.  What the loop then finds in the
rest cannot make up for it, because what was read weighs less than what was written.

The transport is the list of what the reads return.  At its end the loop waits for more.

What the JSON encoder and decoder do is a `ValueStream` of messages.  A Go map has no order,
and the encoder writes its keys sorted, so a message here is a `MessagePayload` with its
attributes in that order.
-/

namespace CloudPing.Nodereg

open Wire Wire.ValueStream

/-- A payload in the one form that stands for a Go value. -/
structure MessagePayload.Canonical (payload : MessagePayload) : Prop where
  attributes : ∀ a, payload.attributesAnnouncement = some a → a.attributes.keys.Pairwise (· < ·)
  direction : ∀ e text, payload.echo = some e → e.direction = .other text →
    text ≠ "ping" ∧ text ≠ "pong"

/-- The values of the Go type `MessagePayload`. -/
abbrev ControlMessage := { payload : MessagePayload // payload.Canonical }

variable (json : ValueStream ControlMessage)

/-! ## The loop -/

/-- What a call of `recvMsgPayload` comes to. -/
inductive RecvResult where
  | payload (payload : ControlMessage) (reads : List (List UInt8))
  /-- The call waits for the next read. -/
  | waiting
  /-- `failed to read or decode message from QUIC stream`. -/
  | failed

/-- `recvMsgPayload`, with what its decoder has buffered and the reads to come. -/
def recvMsgPayload (buf : List UInt8) : List (List UInt8) → RecvResult
  | [] => .waiting
  | read :: reads =>
    match json.scan (buf ++ read) with
    | .incomplete => recvMsgPayload (buf ++ read) reads
    -- the decoder goes, and with it what it has buffered
    | .value payload _ => .payload payload reads
    | .invalid => .failed

/-- What the loop of `runReceiver` has done. -/
structure Received where
  payloads : List ControlMessage
  /-- The loop ended with an error. -/
  failed : Bool

def Received.cons (payload : ControlMessage) (r : Received) : Received :=
  { r with payloads := payload :: r.payloads }

theorem Received.cons_inj {payload : ControlMessage} {r : Received}
    {payloads : List ControlMessage} {failed : Bool}
    (h : r.cons payload = ⟨payload :: payloads, failed⟩) : r = ⟨payloads, failed⟩ := by
  cases r
  simpa [Received.cons] using h

/-- The loop of `runReceiver`, in a call of `recvMsgPayload` that has buffered `buf`. -/
def runReceiver (buf : List UInt8) : List (List UInt8) → Received
  | [] => ⟨[], false⟩
  | read :: reads =>
    match json.scan (buf ++ read) with
    | .incomplete => runReceiver (buf ++ read) reads
    | .value payload _ => (runReceiver [] reads).cons payload
    | .invalid => ⟨[], true⟩

/-- The loop is one call and then the loop again. -/
theorem runReceiver_eq (buf : List UInt8) (reads : List (List UInt8)) :
    runReceiver json buf reads =
      match recvMsgPayload json buf reads with
      | .payload payload reads => (runReceiver json [] reads).cons payload
      | .waiting => ⟨[], false⟩
      | .failed => ⟨[], true⟩ := by
  induction reads generalizing buf with
  | nil => rfl
  | cons read reads ih =>
    rw [runReceiver, recvMsgPayload]
    cases json.scan (buf ++ read) with
    | incomplete => exact ih (buf ++ read)
    | value payload surplus => rfl
    | invalid => rfl

/-! ## The condition -/

/-- Some read ends between the end of the text and the newline behind it, or right behind
this newline. -/
def EndsAt (buf : List UInt8) (reads : List (List UInt8)) (text : List UInt8) : Prop :=
  ∃ A B, reads = A ++ B ∧ (buf ++ A.flatten = text ∨ buf ++ A.flatten = text ++ [newline])

/-- No read has a part of a message together with the end of the message before it. -/
def CutBetween (buf : List UInt8) (reads : List (List UInt8)) (pre : List UInt8)
    (msgs : List ControlMessage) : Prop :=
  ∀ before x y after, msgs = before ++ x :: y :: after →
    EndsAt buf reads (pre ++ json.frame before ++ json.encode x)

variable {json} {buf pre : List UInt8} {reads : List (List UInt8)} {msgs : List ControlMessage}

/-! ### How the condition moves with the loop -/

/-- What was read already ends before the text does, so the cut is in a later read. -/
theorem endsAt_cons {read text : List UInt8} (hlt : buf.length < text.length) :
    EndsAt buf (read :: reads) text ↔ EndsAt (buf ++ read) reads text := by
  constructor
  · rintro ⟨A, B, hAB, htext⟩
    cases A with
    | nil =>
      exfalso
      rcases htext with h | h <;> have := congrArg List.length h <;> simp at this <;> omega
    | cons r A =>
      obtain ⟨rfl, rfl⟩ := List.cons.inj hAB
      exact ⟨A, B, rfl, by simpa using htext⟩
  · rintro ⟨A, B, rfl, htext⟩
    exact ⟨read :: A, B, rfl, by simpa using htext⟩

theorem endsAt_append {p text : List UInt8} :
    EndsAt (p ++ buf) reads (p ++ text) ↔ EndsAt buf reads text := by
  simp only [EndsAt, List.append_assoc, List.append_cancel_left_eq]

variable {x : ControlMessage} {xs : List ControlMessage} {surplus pre' : List UInt8}

/-- A read that does not complete the message. -/
theorem cutBetween_read {read : List UInt8} (hlt : buf.length < (pre ++ json.encode x).length) :
    CutBetween json buf (read :: reads) pre (x :: xs) ↔
      CutBetween json (buf ++ read) reads pre (x :: xs) := by
  have hlt' : ∀ before x' y after, x :: xs = before ++ x' :: y :: after →
      buf.length < (pre ++ json.frame before ++ json.encode x').length := by
    intro before x' y after heq
    cases before with
    | nil =>
      obtain ⟨rfl, _⟩ := List.cons.inj heq
      simpa [frame_nil] using hlt
    | cons z before =>
      obtain ⟨rfl, _⟩ := List.cons.inj heq
      rw [json.frame_cons]
      simp only [List.length_append, List.length_cons] at hlt ⊢
      omega
  constructor
  · exact fun h before x' y after heq =>
      (endsAt_cons (hlt' before x' y after heq)).1 (h before x' y after heq)
  · exact fun h before x' y after heq =>
      (endsAt_cons (hlt' before x' y after heq)).2 (h before x' y after heq)

/-- A read that completes the message and has no part of the next one. -/
theorem cutBetween_next (hs : surplus ++ pre' = [newline]) :
    CutBetween json (pre ++ json.encode x ++ surplus) reads pre (x :: xs) ↔
      CutBetween json [] reads pre' xs := by
  have htext : ∀ before x', pre ++ json.frame (x :: before) ++ json.encode x' =
      (pre ++ json.encode x ++ surplus) ++ (pre' ++ json.frame before ++ json.encode x') := by
    intro before x'
    have hnl : ∀ l, newline :: l = surplus ++ (pre' ++ l) := fun l => by
      rw [← List.append_assoc, hs]
      rfl
    rw [json.frame_cons, hnl]
    simp only [List.append_assoc]
  constructor
  · intro h before x' y after heq
    have hends := h (x :: before) x' y after (by rw [heq]; rfl)
    rw [htext, ← List.append_nil (pre ++ json.encode x ++ surplus), List.append_assoc _ [],
      endsAt_append] at hends
    exact hends
  · intro h before x' y after heq
    cases before with
    | nil =>
      obtain ⟨rfl, rfl⟩ := List.cons.inj heq
      refine ⟨[], reads, rfl, ?_⟩
      rcases surplus with _ | ⟨c, surplus⟩
      · exact .inl (by simp [frame_nil])
      · obtain ⟨rfl, hnil⟩ := List.cons.inj hs
        obtain ⟨rfl, -⟩ := List.append_eq_nil_iff.1 hnil
        exact .inr (by simp [frame_nil])
    | cons z before =>
      obtain ⟨rfl, rfl⟩ := List.cons.inj heq
      have hends := h before x' y after rfl
      rw [htext, ← List.append_nil (pre ++ json.encode x ++ surplus), List.append_assoc _ [],
        endsAt_append]
      exact hends

/-! ## Enough -/

/-- The loop over newlines finds nothing. -/
theorem runReceiver_blank (h : Blank (buf ++ reads.flatten)) :
    runReceiver json buf reads = ⟨[], false⟩ := by
  induction reads generalizing buf with
  | nil => rfl
  | cons read reads ih =>
    rw [List.flatten_cons, ← List.append_assoc] at h
    have hscan := json.scan_blank fun c hc => h c (List.mem_append_left _ hc)
    rw [runReceiver, hscan]
    exact ih h

/-- The surplus of a read that ends between two messages. -/
theorem surplus_of_endsAt (h : EndsAt surplus reads []) : ∃ pre', surplus ++ pre' = [newline] := by
  obtain ⟨A, B, _, hA | hA⟩ := h
  · obtain ⟨rfl, _⟩ := List.append_eq_nil_iff.1 hA
    exact ⟨[newline], rfl⟩
  · exact ⟨A.flatten, hA⟩

/-- What is left to read behind such a surplus. -/
theorem rest_of_surplus {rest text : List UInt8} (hs : surplus ++ pre' = [newline])
    (h : surplus ++ rest = newline :: text) : rest = pre' ++ text := by
  have hcat : surplus ++ rest = surplus ++ (pre' ++ text) := by
    rw [h, ← List.append_assoc, hs]
    rfl
  exact List.append_cancel_left hcat

theorem runReceiver_of_cutBetween (hpre : Blank pre)
    (h : buf ++ reads.flatten = pre ++ json.frame msgs)
    (hbuf : ∀ x xs, msgs = x :: xs → buf.length < (pre ++ json.encode x).length)
    (hcut : CutBetween json buf reads pre msgs) :
    runReceiver json buf reads = ⟨msgs, false⟩ := by
  induction reads generalizing buf pre msgs with
  | nil =>
    cases msgs with
    | nil => rfl
    | cons x xs =>
      have hlen := congrArg List.length h
      have hlt := hbuf x xs rfl
      simp only [List.flatten_nil, List.append_nil, json.frame_cons, List.length_append,
        List.length_cons] at hlen hlt
      omega
  | cons read reads ih =>
    cases msgs with
    | nil =>
      refine runReceiver_blank ?_
      rw [h, frame_nil, List.append_nil]
      exact hpre
    | cons x xs =>
      have hlt := hbuf x xs rfl
      rw [cutBetween_read hlt] at hcut
      rw [List.flatten_cons, ← List.append_assoc] at h
      rcases json.scan_of_prefix hpre h with ⟨surplus, hl, hrest, hscan⟩ | ⟨hlt', hscan⟩
      · rw [runReceiver, hscan]
        rw [hl] at hcut
        suffices hnext : runReceiver json [] reads = ⟨xs, false⟩ by rw [hnext]; rfl
        cases xs with
        | nil =>
          refine runReceiver_blank fun c hc => ?_
          have hc : c ∈ [newline] := hrest ▸ List.mem_append_right _ hc
          exact List.mem_singleton.1 hc
        | cons y xs =>
          have hends := hcut [] x y xs rfl
          rw [frame_nil, List.append_nil] at hends
          have hends' : EndsAt (pre ++ json.encode x ++ surplus) reads
              (pre ++ json.encode x ++ []) := by rwa [List.append_nil]
          obtain ⟨pre', hs⟩ := surplus_of_endsAt (endsAt_append.1 hends')
          have hnl : Blank pre' := fun c hc =>
            List.mem_singleton.1 (hs ▸ List.mem_append_right _ hc)
          refine ih hnl (rest_of_surplus hs hrest) (fun x' xs' _ => ?_)
            ((cutBetween_next hs).1 hcut)
          have hne := List.length_pos_iff.2 (json.encode_ne_nil x')
          rw [List.length_append, List.length_nil]
          omega
      · rw [runReceiver, hscan]
        refine ih hpre h (fun x' xs' heq => ?_) hcut
        obtain ⟨rfl, rfl⟩ := List.cons.inj heq
        exact hlt'

/-! ## Necessary -/

/-- What the loop finds anywhere in a stream weighs no more than what it read. -/
theorem weight_received {all : List ControlMessage}
    (h : buf ++ reads.flatten <:+: json.frame all) :
    ((runReceiver json buf reads).payloads.map fun y => (json.encode y).length).sum ≤
      weight (buf ++ reads.flatten) := by
  induction reads generalizing buf with
  | nil => exact Nat.zero_le _
  | cons read reads ih =>
    rw [List.flatten_cons, ← List.append_assoc] at h ⊢
    rw [runReceiver]
    cases hscan : json.scan (buf ++ read) with
    | incomplete => exact ih h
    | invalid => exact Nat.zero_le _
    | value y rest =>
      have hread : buf ++ read <:+: json.frame all := (List.infix_append' [] _ _).trans h
      have hrest : [] ++ reads.flatten <:+: json.frame all := (List.suffix_append _ _).isInfix.trans h
      have hy := json.scan_infix all _ y rest hread hscan
      have hys := ih hrest
      rw [weight_append]
      simp only [Received.cons, List.map_cons, List.sum_cons]
      rw [List.nil_append] at hys
      omega

/-- A surplus of newlines is at most the newline between the two messages. -/
theorem surplus_of_blank {rest : List UInt8} (hb : Blank surplus)
    (h : surplus ++ rest = newline :: json.frame (x :: xs)) : ∃ pre', surplus ++ pre' = [newline] := by
  cases surplus with
  | nil => exact ⟨[newline], rfl⟩
  | cons c surplus =>
    obtain ⟨rfl, htail⟩ := List.cons.inj h
    cases surplus with
    | nil => exact ⟨[], rfl⟩
    | cons d surplus =>
      exfalso
      have hd : d = newline := hb d (List.mem_cons_of_mem _ List.mem_cons_self)
      rw [json.frame_cons] at htail
      cases henc : json.encode x with
      | nil => exact json.encode_ne_nil x henc
      | cons e enc =>
        rw [henc] at htail
        have hde : d = e := (List.cons.inj htail).1
        refine json.newline_notMem x ?_
        rw [henc, ← hde, hd]
        exact List.mem_cons_self

theorem cutBetween_of_runReceiver {all : List ControlMessage} (hpre : Blank pre)
    (h : buf ++ reads.flatten = pre ++ json.frame msgs)
    (hbuf : ∀ x xs, msgs = x :: xs → buf.length < (pre ++ json.encode x).length)
    (hall : pre ++ json.frame msgs <:+: json.frame all)
    (hrun : runReceiver json buf reads = ⟨msgs, false⟩) : CutBetween json buf reads pre msgs := by
  induction reads generalizing buf pre msgs with
  | nil =>
    obtain rfl : msgs = [] := (congrArg Received.payloads hrun).symm
    intro before x y after heq
    simp at heq
  | cons read reads ih =>
    cases msgs with
    | nil =>
      intro before x y after heq
      simp at heq
    | cons x xs =>
      have hlt := hbuf x xs rfl
      rw [cutBetween_read hlt]
      rw [List.flatten_cons, ← List.append_assoc] at h
      rcases json.scan_of_prefix hpre h with ⟨surplus, hl, hrest, hscan⟩ | ⟨hlt', hscan⟩
      · rw [runReceiver, hscan] at hrun
        have hnext : runReceiver json [] reads = ⟨xs, false⟩ := Received.cons_inj hrun
        cases xs with
        | nil =>
          intro before z y after heq
          have hlen := congrArg List.length heq
          simp at hlen
          omega
        | cons y xs =>
          have hinfix : reads.flatten <:+: json.frame all := by
            refine List.IsInfix.trans ?_ (h ▸ hall)
            exact (List.suffix_append _ _).isInfix
          -- the loop got all values from these reads, so none of their text is in the surplus
          have hgot : ((runReceiver json [] reads).payloads.map fun y =>
              (json.encode y).length).sum ≤ weight reads.flatten := weight_received hinfix
          have hblank : Blank surplus := by
            have hsum := congrArg weight hrest
            have hnl : weight (newline :: json.frame (y :: xs)) = weight (json.frame (y :: xs)) :=
              List.countP_cons_of_neg (by decide)
            rw [weight_append, hnl, json.weight_frame] at hsum
            rw [hnext] at hgot
            rw [← weight_eq_zero]
            change (List.map _ (y :: xs)).sum ≤ _ at hgot
            omega
          obtain ⟨pre', hs⟩ := surplus_of_blank hblank hrest
          have hnl : Blank pre' := fun c hc =>
            List.mem_singleton.1 (hs ▸ List.mem_append_right _ hc)
          have hflat := rest_of_surplus hs hrest
          rw [hl, cutBetween_next hs]
          refine ih hnl hflat (fun x' xs' _ => ?_) (hflat ▸ hinfix) hnext
          have hne := List.length_pos_iff.2 (json.encode_ne_nil x')
          rw [List.length_append, List.length_nil]
          omega
      · rw [runReceiver, hscan] at hrun
        refine ih hpre h (fun x' xs' heq => ?_) hall hrun
        obtain ⟨rfl, rfl⟩ := List.cons.inj heq
        exact hlt'

/-! ## The result -/

/-- The loop yields the messages that were written if and only if no read has a part of a
message together with the end of the message before it. -/
theorem messages_received (json : ValueStream ControlMessage) (msgs : List ControlMessage)
    (reads : List (List UInt8)) (h : reads.flatten = json.frame msgs) :
    runReceiver json [] reads = ⟨msgs, false⟩ ↔ CutBetween json [] reads [] msgs := by
  have hpre : Blank ([] : List UInt8) := fun c hc => absurd hc List.not_mem_nil
  have hbuf : ∀ x xs, msgs = x :: xs →
      ([] : List UInt8).length < ([] ++ json.encode x).length := fun x _ _ =>
    List.length_pos_iff.2 (json.encode_ne_nil x)
  constructor
  · exact cutBetween_of_runReceiver hpre h hbuf List.infix_rfl
  · exact runReceiver_of_cutBetween hpre h hbuf

/-! ### On a stream of empty messages

The format of the example has the number of a message in unary.  The empty message has the
number zero, so its text is `{}`, as in JSON.
-/

instance countableChar : Countable Char :=
  Function.Injective.countable (f := Char.toNat) fun _ _ h => Char.toNat_inj.1 h

instance countableString : Countable String :=
  Function.Injective.countable (f := String.toList) fun _ _ h => String.toList_inj.1 h

instance countableUInt64 : Countable UInt64 :=
  Function.Injective.countable (f := UInt64.toNat) fun _ _ h => UInt64.toNat_inj.1 h

instance countableAttributes : Countable ConnectionAttributes :=
  Function.Injective.countable (f := AList.entries) fun _ _ h => AList.ext h

deriving instance Countable for RegisterPayload
deriving instance Countable for EchoDirection
deriving instance Countable for EchoPayload
deriving instance Countable for AttributesAnnouncementPayload
deriving instance Countable for MessagePayload

def emptyMessage : ControlMessage := ⟨{}, by constructor <;> simp⟩

open Classical in
/-- A number for each message, and zero for the empty one. -/
noncomputable def messageNumber (m : ControlMessage) : Nat :=
  if m = emptyMessage then 0 else (Countable.exists_injective_nat ControlMessage).choose m + 1

theorem messageNumber_injective : messageNumber.Injective := by
  intro a b h
  have hinj := (Countable.exists_injective_nat ControlMessage).choose_spec
  unfold messageNumber at h
  split at h <;> split at h
  next ha hb => rw [ha, hb]
  next => simp at h
  next => simp at h
  next => exact hinj (Nat.succ.inj h)

noncomputable def numberedMessages : ValueStream ControlMessage :=
  Numbered.stream messageNumber messageNumber_injective

theorem encode_emptyMessage : numberedMessages.encode emptyMessage = [123, 125] := by
  have hzero : messageNumber emptyMessage = 0 := if_pos rfl
  change Numbered.encode messageNumber emptyMessage = _
  rw [Numbered.encode, hzero]
  rfl

/-- Two empty messages, each in a read of its own. -/
theorem messages_received_split :
    runReceiver numberedMessages [] [[123, 125, 10], [123, 125, 10]] =
      ⟨[emptyMessage, emptyMessage], false⟩ := by
  have hframe : ([[123, 125, 10], [123, 125, 10]] : List (List UInt8)).flatten =
      numberedMessages.frame [emptyMessage, emptyMessage] := by
    simp only [frame_cons, frame_nil, encode_emptyMessage]
    decide
  refine (messages_received numberedMessages _ _ hframe).2 fun before x y after heq => ?_
  cases before with
  | nil =>
    obtain ⟨rfl, _⟩ := List.cons.inj heq
    refine ⟨[[123, 125, 10]], [[123, 125, 10]], rfl, .inr ?_⟩
    rw [frame_nil, encode_emptyMessage]
    rfl
  | cons z before =>
    have hlen := congrArg List.length heq
    simp at hlen
    omega

/-- Two empty messages in one read: the second is lost. -/
theorem second_message_lost :
    ¬ (∀ (json : ValueStream ControlMessage) (msgs : List ControlMessage)
        (reads : List (List UInt8)), reads.flatten = json.frame msgs →
          runReceiver json [] reads = ⟨msgs, false⟩) := by
  intro h
  have hframe : ([[123, 125, 10, 123, 125, 10]] : List (List UInt8)).flatten =
      numberedMessages.frame [emptyMessage, emptyMessage] := by
    simp only [frame_cons, frame_nil, encode_emptyMessage]
    decide
  have hscan : numberedMessages.scan [123, 125, 10, 123, 125, 10] =
      .value emptyMessage [10, 123, 125, 10] := by
    have := numberedMessages.scan_encode emptyMessage [10, 123, 125, 10]
    rwa [encode_emptyMessage] at this
  have hrun := h numberedMessages _ _ hframe
  rw [runReceiver, List.nil_append, hscan] at hrun
  have hlen := congrArg (fun r => r.payloads.length) hrun
  simp [Received.cons, runReceiver] at hlen

end CloudPing.Nodereg
