import CloudPing.Ecma.TransformStream
import CloudPing.Wire.Splitter
import Mathlib.Data.List.Basic

/-!
# The word stream of the browser

`newUint32StreamParser` keeps the chunks that have come since the last word, with their total size.
As soon as there are enough bytes for a word it merges them, reads the words, and keeps one chunk
with the bytes behind the last word (`doConsume_eq`).

The buffer that the chunks are merged into has the size that was counted.  As the count is right
(`ParseRef.Good`), no byte is written and no word is read outside of it.
-/

namespace CloudPing.Web

open Wire Ecma

abbrev ArrayBuffer := List UInt8

/-- A chunk of the stream. -/
inductive Chunk where
  | arrayBuffer (buffer : ArrayBuffer)
  | other

inductive StreamError where
  | error (message : String)
  | rangeError

def wordSize : Nat := 4

/-! ## Views of a buffer -/

def setUint8 (dv : ArrayBuffer) (byteOffset : Nat) (value : UInt8) :
    Except StreamError ArrayBuffer :=
  if byteOffset < dv.length then .ok (dv.set byteOffset value) else .error .rangeError

def getUint32 (dv : ArrayBuffer) (byteOffset : Nat) (littleEndian : Bool) :
    Except StreamError Nat :=
  if byteOffset + 4 ≤ dv.length then
    let bytes := (dv.drop byteOffset).take 4
    .ok (bigEndian (if littleEndian then bytes.reverse else bytes))
  else .error .rangeError

/-- The octets of a chunk are written from an offset on. -/
def setOctets (dv : ArrayBuffer) (byteOffset : Nat) : List UInt8 → Except StreamError ArrayBuffer
  | [] => .ok dv
  | octet :: octets => do
    let dv ← setUint8 dv byteOffset octet
    setOctets dv (byteOffset + 1) octets

def mergeFrom (dv : ArrayBuffer) (offset : Nat) :
    List ArrayBuffer → Except StreamError ArrayBuffer
  | [] => .ok dv
  | chunk :: chunks => do
    let dv ← setOctets dv offset chunk
    mergeFrom dv (offset + chunk.length) chunks

def mergeArrayBuffers (chunks : List ArrayBuffer) (totalSize : Nat) :
    Except StreamError ArrayBuffer :=
  mergeFrom (List.replicate totalSize 0) 0 chunks

/-! ## The parser -/

/-- `feedBackParseRef`. -/
structure ParseRef where
  chunks : List ArrayBuffer
  totalSize : Nat

/-- The words that are enqueued from the `i`-th one on. -/
def readWords (dv : ArrayBuffer) (i : Nat) : Nat → List Nat × Except StreamError Unit
  | 0 => ([], .ok ())
  | n + 1 =>
    match getUint32 dv (i * wordSize) false with
    | .error err => ([], .error err)
    | .ok word => (word :: (readWords dv (i + 1) n).1, (readWords dv (i + 1) n).2)

def doConsume (ref : ParseRef) : List Nat × Except StreamError ParseRef :=
  if ref.totalSize ≥ wordSize then
    let nWords := ref.totalSize / wordSize
    let restSize := ref.totalSize % wordSize
    match mergeArrayBuffers ref.chunks ref.totalSize with
    | .error err => ([], .error err)
    | .ok mergedBuffer =>
      match readWords mergedBuffer 0 nWords with
      | (words, .error err) => (words, .error err)
      | (words, .ok ()) =>
        if restSize > 0 then
          let restChunk := mergedBuffer.drop (mergedBuffer.length - restSize)
          (words, .ok { chunks := [restChunk], totalSize := restSize })
        else (words, .ok { chunks := [], totalSize := 0 })
  else ([], .ok ref)

def newUint32StreamParser : Transformer StreamError ParseRef Chunk Nat where
  start := { chunks := [], totalSize := 0 }
  transform ref chunk :=
    match chunk with
    | .other => ([], .error (.error "chunk has unknown binary type"))
    | .arrayBuffer buffer =>
      doConsume
        { chunks := ref.chunks ++ [buffer], totalSize := ref.totalSize + buffer.length }
  flush ref := ((doConsume ref).1, (doConsume ref).2.map fun _ => ())

/-! ## Merged buffers -/

/-- The octets take the place of as many bytes. -/
theorem setOctets_eq (front octets old back : List UInt8) (h : old.length = octets.length) :
    setOctets (front ++ old ++ back) front.length octets = .ok (front ++ octets ++ back) := by
  induction octets generalizing front old with
  | nil =>
    rw [List.eq_nil_of_length_eq_zero h]
    rfl
  | cons octet octets ih =>
    cases old with
    | nil => cases h
    | cons x old =>
      have hset : setUint8 (front ++ x :: old ++ back) front.length octet =
          .ok (front ++ [octet] ++ old ++ back) := by
        rw [setUint8, if_pos (by simp)]
        simp
      have htail := ih (front ++ [octet]) old (Nat.succ.inj h)
      rw [List.length_append, List.length_singleton] at htail
      rw [setOctets, hset]
      change setOctets (front ++ [octet] ++ old ++ back) (front.length + 1) octets = _
      rw [htail]
      simp

theorem mergeFrom_eq (front : List UInt8) (chunks : List ArrayBuffer) :
    mergeFrom (front ++ List.replicate chunks.flatten.length 0) front.length chunks =
      .ok (front ++ chunks.flatten) := by
  induction chunks generalizing front with
  | nil => rfl
  | cons chunk chunks ih =>
    have hset := setOctets_eq front chunk (List.replicate chunk.length 0)
      (List.replicate chunks.flatten.length 0) List.length_replicate
    have htail := ih (front ++ chunk)
    rw [List.length_append] at htail
    rw [List.flatten_cons, List.length_append, List.replicate_add, ← List.append_assoc, mergeFrom,
      hset]
    change mergeFrom (front ++ chunk ++ List.replicate chunks.flatten.length 0)
      (front.length + chunk.length) chunks = _
    rw [htail, List.append_assoc]

/-- The merged buffer is the chunks, one behind the other. -/
theorem mergeArrayBuffers_eq (chunks : List ArrayBuffer) :
    mergeArrayBuffers chunks chunks.flatten.length = .ok chunks.flatten := mergeFrom_eq [] chunks

/-! ## Words -/

theorem readWords_eq (dv : ArrayBuffer) (i n : Nat) (h : (i + n) * wordSize ≤ dv.length) :
    readWords dv i n =
      ((List.range n).map fun k => bigEndian (wordAt wordSize dv (i + k)), .ok ()) := by
  induction n generalizing i with
  | zero => rfl
  | succ n ih =>
    have hread : getUint32 dv (i * wordSize) false = .ok (bigEndian (wordAt wordSize dv i)) := by
      rw [getUint32, if_pos (by rw [wordSize] at h ⊢; omega)]
      rfl
    have htail := ih (i + 1) (by rw [Nat.add_right_comm, Nat.add_assoc]; exact h)
    have hshift : ((fun k => bigEndian (wordAt wordSize dv (i + k))) ∘ Nat.succ) =
        fun k => bigEndian (wordAt wordSize dv (i + 1 + k)) := by
      funext k
      rw [Function.comp_apply, Nat.succ_eq_add_one, Nat.add_right_comm, Nat.add_assoc]
    rw [readWords, hread, htail, List.range_succ_eq_map, List.map_cons, List.map_map, hshift]
    rfl

/-- The size that is counted is that of the chunks. -/
def ParseRef.Good (ref : ParseRef) : Prop := ref.totalSize = ref.chunks.flatten.length

/-- The words are read, and the bytes behind them are kept. -/
theorem doConsume_eq {ref : ParseRef} (h : ref.Good) :
    ∃ ref', doConsume ref = (wordsOf wordSize ref.chunks.flatten, .ok ref') ∧
      ref'.chunks.flatten = partialWord wordSize ref.chunks.flatten ∧ ref'.Good := by
  by_cases hsize : ref.totalSize ≥ wordSize
  · have hmerge : mergeArrayBuffers ref.chunks ref.totalSize = .ok ref.chunks.flatten := by
      rw [h, mergeArrayBuffers_eq]
    have hread : readWords ref.chunks.flatten 0 (ref.totalSize / wordSize) =
        (wordsOf wordSize ref.chunks.flatten, .ok ()) := by
      rw [readWords_eq _ _ _ (by rw [Nat.zero_add, h]; exact Nat.div_mul_le_self _ _), wordsOf, h]
      simp only [Nat.zero_add]
    have hrest : (partialWord wordSize ref.chunks.flatten).length = ref.totalSize % wordSize := by
      rw [length_partialWord, h]
    simp only [doConsume, if_pos hsize, hmerge, hread]
    split
    next hpos =>
      have hdrop : ref.chunks.flatten.drop
          (ref.chunks.flatten.length - ref.totalSize % wordSize) =
            partialWord wordSize ref.chunks.flatten := by
        rw [partialWord, h]
        congr 1
        have hdiv := Nat.div_add_mod' ref.chunks.flatten.length wordSize
        omega
      rw [hdrop]
      refine ⟨_, rfl, List.flatten_singleton, ?_⟩
      rw [ParseRef.Good, List.flatten_singleton, hrest]
    next hzero =>
      refine ⟨_, rfl, ?_, rfl⟩
      exact (List.eq_nil_of_length_eq_zero (hrest.trans (Nat.eq_zero_of_not_pos hzero))).symm
  · have hlt : ref.chunks.flatten.length < wordSize := by
      rw [← h]
      exact Nat.lt_of_not_le hsize
    refine ⟨ref, ?_, (partialWord_of_lt hlt).symm, h⟩
    rw [doConsume, if_neg hsize, wordsOf_of_lt hlt]

theorem newUint32StreamParser_follows : newUint32StreamParser.Follows
    (Splitter.words wordSize (by decide)) id Chunk.arrayBuffer (fun ref => ref.chunks.flatten)
    ParseRef.Good where
  good_start := rfl
  held_start := rfl
  step ref buffer hgood := by
    have hgood' : (ParseRef.mk (ref.chunks ++ [buffer]) (ref.totalSize + buffer.length)).Good := by
      rw [ParseRef.Good, List.flatten_append, List.flatten_singleton, List.length_append, ← hgood]
    obtain ⟨ref', hconsume, hrest, hgood''⟩ := doConsume_eq hgood'
    rw [List.flatten_append, List.flatten_singleton] at hconsume hrest
    refine ⟨ref', ?_, hrest, hgood''⟩
    rw [List.map_id]
    exact hconsume

/-! ## The stream -/

/-- The words of the bytes are enqueued, each of them once, and what is kept is what no word has
taken yet. -/
theorem newUint32StreamParser_exact (buffers : List ArrayBuffer) :
    (∃ ref, newUint32StreamParser.feed newUint32StreamParser.start
        (buffers.map Chunk.arrayBuffer) = (wordsOf wordSize buffers.flatten, .ok ref) ∧
      ref.chunks.flatten = partialWord wordSize buffers.flatten ∧
      ref.chunks.flatten.length = buffers.flatten.length % wordSize ∧
      ref.totalSize = buffers.flatten.length % wordSize) ∧
    newUint32StreamParser.run (buffers.map Chunk.arrayBuffer) =
      (wordsOf wordSize buffers.flatten, .ok ()) := by
  obtain ⟨ref, hfeed, hheld, hgood⟩ := newUint32StreamParser_follows.feed_eq buffers
  rw [List.map_id] at hfeed
  have hrest : ref.chunks.flatten = partialWord wordSize buffers.flatten := hheld
  have hlen : ref.chunks.flatten.length = buffers.flatten.length % wordSize := by
    rw [hrest, length_partialWord]
  refine ⟨⟨ref, hfeed, hrest, hlen, hgood.trans hlen⟩, ?_⟩
  -- Fewer bytes than a word has are left, so that nothing is flushed.
  have hsmall : ¬ref.totalSize ≥ wordSize := by
    rw [hgood.trans hlen]
    exact Nat.not_le_of_lt (Nat.mod_lt _ (by decide))
  have hflush : newUint32StreamParser.flush ref = ([], .ok ()) := by
    change ((doConsume ref).1, (doConsume ref).2.map fun _ => ()) = _
    rw [doConsume, if_neg hsmall]
    rfl
  rw [Transformer.run, hfeed]
  simp only [hflush, List.append_nil]
  rfl

end CloudPing.Web
