import CloudPing.Httpprobe.Events

/-!
# What is captured of a body

`sendRequest` reads a body in a loop.  It logs every part in base64, and at the end how many
bytes it has read.  `Calls` says which calls of `Read` it makes of a reader that keeps to its
contract: a call returns no more than the buffer has room for, maybe nothing, and maybe an
error with it.

The loop breaks on an error before it looks at the bytes that came with it.  So it captures
the body exactly if there are none (`captured_iff`).
-/

namespace CloudPing.Httpprobe

/-! ## Base64 -/

def base64Value (c : Char) : Option Nat :=
  if c ∈ base64Alphabet then some (base64Alphabet.idxOf c) else none

/-- `base64.StdEncoding.DecodeString`. -/
def decodeString : List Char → Option (List UInt8)
  | [] => some []
  | a :: b :: c :: d :: rest => do
    let a ← base64Value a
    let b ← base64Value b
    if d = '=' then
      if rest = [] then
        if c = '=' then some [UInt8.ofNat (a * 4 + b / 16)]
        else do
          let c ← base64Value c
          some [UInt8.ofNat (a * 4 + b / 16), UInt8.ofNat (b * 16 + c / 4)]
      else none
    else do
      let c ← base64Value c
      let d ← base64Value d
      let bytes ← decodeString rest
      some (UInt8.ofNat (a * 4 + b / 16) :: UInt8.ofNat (b * 16 + c / 4) ::
        UInt8.ofNat (c * 64 + d) :: bytes)
  | _ => none

theorem base64Digit_mod (n : Nat) :
    base64Value (base64Digit n) = some (n % 64) ∧ base64Digit n ≠ '=' := by
  have hall : ∀ v : Fin 64, base64Value (base64Digit v.val) = some v.val ∧
      base64Digit v.val ≠ '=' := by decide +kernel
  have hn := hall ⟨n % 64, Nat.mod_lt n (by decide)⟩
  simpa only [base64Digit, Nat.mod_mod] using hn

@[simp] theorem base64Value_base64Digit (n : Nat) :
    base64Value (base64Digit n) = some (n % 64) := (base64Digit_mod n).1

@[simp] theorem base64Digit_ne (n : Nat) : base64Digit n ≠ '=' := (base64Digit_mod n).2

theorem ofNat_of_mod {b : UInt8} {n : Nat} (h : n % 256 = b.toNat) : UInt8.ofNat n = b := by
  apply UInt8.toNat_inj.1
  rw [UInt8.toNat_ofNat', h]

/-- Four digits of six bits are three bytes. -/
theorem bytes_of_digits (a b c : UInt8) {n : Nat}
    (hn : n = a.toNat * 65536 + b.toNat * 256 + c.toNat) :
    UInt8.ofNat (n / 262144 % 64 * 4 + n / 4096 % 64 / 16) = a ∧
      UInt8.ofNat (n / 4096 % 64 * 16 + n / 64 % 64 / 4) = b ∧
        UInt8.ofNat (n / 64 % 64 * 64 + n % 64) = c := by
  have ha := a.toNat_lt
  have hb := b.toNat_lt
  have hc := c.toNat_lt
  exact ⟨ofNat_of_mod (by omega), ofNat_of_mod (by omega), ofNat_of_mod (by omega)⟩

/-- What is encoded is decoded. -/
theorem decodeString_encodeToString (bs : List UInt8) :
    decodeString (encodeToString bs) = some bs := by
  induction bs using encodeToString.induct with
  | case1 => rfl
  | case2 a =>
    obtain ⟨h₁, -⟩ := bytes_of_digits a 0 0 (n := a.toNat * 65536) (by simp)
    simp only [encodeToString, decodeString, base64Value_base64Digit, Option.bind_eq_bind,
      Option.bind_some, if_true, h₁]
  | case3 a b =>
    obtain ⟨h₁, h₂, -⟩ := bytes_of_digits a b 0 (n := a.toNat * 65536 + b.toNat * 256) (by simp)
    simp only [encodeToString, decodeString, base64Value_base64Digit, Option.bind_eq_bind,
      Option.bind_some, if_true, base64Digit_ne, if_false, h₁, h₂]
  | case4 a b c rest ih =>
    obtain ⟨h₁, h₂, h₃⟩ := bytes_of_digits a b c rfl
    simp only [encodeToString, decodeString, base64Value_base64Digit, Option.bind_eq_bind,
      Option.bind_some, base64Digit_ne, if_false, ih, h₁, h₂, h₃]

/-! ## The loop over a body -/

/-- What a call of `Read` returns: the bytes in the buffer, and maybe an error. -/
structure Read where
  buf : List UInt8
  err : Option String
  deriving DecidableEq, Repr

/-- The events of the loop, when so many bytes have been read and the next calls return this.  A
loop that waits for a call to return has logged nothing more. -/
def bodyLoop (sizeLimit : Option Int) : List Read → Int → List TransportEvent
  | [], bodyBytesRead => if bufSize sizeLimit bodyBytesRead ≤ 0 then bodyEnd bodyBytesRead else []
  | ⟨buf, err⟩ :: reads, bodyBytesRead =>
    if bufSize sizeLimit bodyBytesRead ≤ 0 then bodyEnd bodyBytesRead
    else if err.isSome then bodyEnd bodyBytesRead
    else
      chunkEvents sizeLimit (bodyBytesRead + buf.length) buf ++
        if truncated sizeLimit (bodyBytesRead + buf.length) then
          bodyEnd (bodyBytesRead + buf.length)
        else bodyLoop sizeLimit reads (bodyBytesRead + buf.length)

/-- The calls that the loop makes, from so many bytes on, of a reader that keeps to its
contract. -/
inductive Calls (sizeLimit : Option Int) : Int → List Read → Prop where
  | nil {n : Int} : Calls sizeLimit n []
  | failed {n : Int} {buf : List UInt8} {err : String} :
      0 < bufSize sizeLimit n → (buf.length : Int) ≤ bufSize sizeLimit n →
        Calls sizeLimit n [⟨buf, some err⟩]
  | cons {n : Int} {buf : List UInt8} {reads : List Read} :
      0 < bufSize sizeLimit n → (buf.length : Int) ≤ bufSize sizeLimit n →
        Calls sizeLimit (n + buf.length) reads → Calls sizeLimit n (⟨buf, none⟩ :: reads)

/-! ## What is captured -/

/-- The bytes that a reader has delivered. -/
def delivered (reads : List Read) : List UInt8 := reads.flatMap Read.buf

/-- The bytes up to the limit. -/
def upTo (sizeLimit : Option Int) (bs : List UInt8) : List UInt8 :=
  match sizeLimit with
  | some limit => bs.take limit.toNat
  | none => bs

/-- The values of the events of a name. -/
def valuesOf (name : String) (evs : List TransportEvent) : List String :=
  (evs.filter (·.name = name)).map TransportEvent.value

/-- The parts of the body, decoded and put together. -/
def decodedChunks (evs : List TransportEvent) : Option (List UInt8) :=
  ((valuesOf "body-chunk-base64" evs).mapM fun value => decodeString value.toList).map List.flatten

/-- The limit is reached, or there was an error. -/
def Over (sizeLimit : Option Int) (reads : List Read) : Prop :=
  truncated sizeLimit (delivered reads).length = true ∨ ∃ r ∈ reads, r.err.isSome = true

/-- The events have the delivered bytes up to the limit, their number once the loop is over, and
a mark of truncation only where the limit is reached. -/
structure Captured (sizeLimit : Option Int) (reads : List Read) (evs : List TransportEvent) :
    Prop where
  chunks : decodedChunks evs = some (upTo sizeLimit (delivered reads))
  bytesRead : ∀ value ∈ valuesOf "body-bytes-read" evs,
    ∃ bs, decodedChunks evs = some bs ∧ value = toString (bs.length : Int)
  reported : Over sizeLimit reads → (valuesOf "body-bytes-read" evs).length = 1
  truncated : valuesOf "body-read-truncated" evs ≠ [] →
    ∃ limit, sizeLimit = some limit ∧ limit ≤ (delivered reads).length

/-! ### The events of the loop -/

section Events

variable {sizeLimit : Option Int} {n : Int} {reads : List Read} {buf : List UInt8}

theorem valuesOf_append (name : String) (evs evs' : List TransportEvent) :
    valuesOf name (evs ++ evs') = valuesOf name evs ++ valuesOf name evs' := by
  rw [valuesOf, List.filter_append, List.map_append]
  rfl

/-- What a part of the body logs under each name. -/
theorem valuesOf_chunkEvents :
    valuesOf "body-chunk-base64" (chunkEvents sizeLimit n buf) =
        [String.ofList (encodeToString buf)] ∧
      valuesOf "body-bytes-read" (chunkEvents sizeLimit n buf) = [] ∧
        (valuesOf "body-read-truncated" (chunkEvents sizeLimit n buf) ≠ [] →
          ∃ limit, sizeLimit = some limit ∧ limit ≤ n) := by
  cases sizeLimit with
  | none => exact ⟨rfl, rfl, fun h => absurd rfl h⟩
  | some limit =>
    simp only [chunkEvents]
    split
    · next hle => exact ⟨rfl, rfl, fun _ => ⟨limit, rfl, hle⟩⟩
    · exact ⟨rfl, rfl, fun h => absurd rfl h⟩

/-- The bytes read stay within the limit. -/
def Within (sizeLimit : Option Int) (n : Int) : Prop := ∀ limit, sizeLimit = some limit → n ≤ limit

/-- There is no room left exactly if the limit is reached. -/
theorem bufSize_le_zero_iff (hn : Within sizeLimit n) :
    bufSize sizeLimit n ≤ 0 ↔ truncated sizeLimit n = true := by
  cases sizeLimit with
  | none => exact iff_of_false (by simp [bufSize, defaultBufSize]) (by simp [truncated])
  | some limit =>
    have hle := hn limit rfl
    have hsize : defaultBufSize = 1024 := rfl
    simp only [bufSize, truncated, Option.any_some, decide_eq_true_eq]
    split <;> omega

theorem Within.add (hn : Within sizeLimit n) (hbuf : (buf.length : Int) ≤ bufSize sizeLimit n) :
    Within sizeLimit (n + buf.length) := by
  rintro limit rfl
  have hle := hn limit rfl
  have hsize : defaultBufSize = 1024 := rfl
  simp only [bufSize] at hbuf
  split at hbuf <;> omega

theorem bodyLoop_failed (hpos : 0 < bufSize sizeLimit n) (err : String) :
    bodyLoop sizeLimit [⟨buf, some err⟩] n = bodyEnd n := by
  rw [bodyLoop, if_neg (Int.not_le.2 hpos)]
  rfl

/-- A part of the body is logged, and the loop goes on: to its end, where the limit is reached. -/
theorem bodyLoop_cons (hpos : 0 < bufSize sizeLimit n) (hn : Within sizeLimit (n + buf.length)) :
    bodyLoop sizeLimit (⟨buf, none⟩ :: reads) n =
      chunkEvents sizeLimit (n + buf.length) buf ++ bodyLoop sizeLimit reads (n + buf.length) := by
  rw [bodyLoop, if_neg (Int.not_le.2 hpos), if_neg (by simp)]
  split
  · next htrunc =>
    have hfull := (bufSize_le_zero_iff hn).2 htrunc
    cases reads with
    | nil => rw [bodyLoop, if_pos hfull]
    | cons r reads => rw [bodyLoop, if_pos hfull]
  · rfl

/-! ### What the loop logs -/

/-- The parts that come without an error. -/
def kept (reads : List Read) : List (List UInt8) :=
  (reads.filter fun r => r.err.isNone).map Read.buf

theorem length_kept_cons (buf : List UInt8) (reads : List Read) :
    ((kept (⟨buf, none⟩ :: reads)).flatten.length : Int) =
      buf.length + (kept reads).flatten.length := by
  have hkept : kept (⟨buf, none⟩ :: reads) = buf :: kept reads := rfl
  rw [hkept, List.flatten_cons, List.length_append]
  push_cast
  rfl

/-- The calls deliver no more than there is room for. -/
theorem Calls.within (h : Calls sizeLimit n reads) (hn : Within sizeLimit n) :
    Within sizeLimit (n + (delivered reads).length) := by
  induction h with
  | nil => simpa [delivered] using hn
  | failed hpos hbuf => simpa [delivered] using hn.add hbuf
  | cons hpos hbuf _ ih =>
    have hwithin := ih (hn.add hbuf)
    simp only [delivered, List.flatMap_cons, List.length_append] at hwithin ⊢
    push_cast
    rwa [← Int.add_assoc]

/-- Every part that comes without an error is logged. -/
theorem chunks_bodyLoop (h : Calls sizeLimit n reads) (hn : Within sizeLimit n) :
    valuesOf "body-chunk-base64" (bodyLoop sizeLimit reads n) =
      (kept reads).map fun buf => String.ofList (encodeToString buf) := by
  induction h with
  | nil =>
    rw [bodyLoop]
    split <;> rfl
  | failed hpos hbuf =>
    rw [bodyLoop_failed hpos]
    rfl
  | cons hpos hbuf _ ih =>
    rw [bodyLoop_cons hpos (hn.add hbuf), valuesOf_append, valuesOf_chunkEvents.1, ih (hn.add hbuf)]
    rfl

/-- The number of bytes is logged when the loop is over. -/
theorem bytesRead_bodyLoop (h : Calls sizeLimit n reads) (hn : Within sizeLimit n) :
    valuesOf "body-bytes-read" (bodyLoop sizeLimit reads n) =
      if truncated sizeLimit (n + (kept reads).flatten.length) = true ∨
          ∃ r ∈ reads, r.err.isSome = true then
        [toString (n + (kept reads).flatten.length)]
      else [] := by
  induction h with
  | @nil n =>
    have hzero : n + ((kept []).flatten.length : Int) = n := Int.add_zero n
    rw [bodyLoop, hzero]
    simp only [bufSize_le_zero_iff hn, List.not_mem_nil, false_and, exists_false, or_false]
    split <;> rfl
  | @failed n buf err hpos hbuf =>
    have hzero : n + ((kept [⟨buf, some err⟩]).flatten.length : Int) = n := Int.add_zero n
    rw [bodyLoop_failed hpos, hzero, if_pos (Or.inr ⟨_, List.mem_singleton_self _, rfl⟩)]
    rfl
  | cons hpos hbuf _ ih =>
    rw [bodyLoop_cons hpos (hn.add hbuf), valuesOf_append, valuesOf_chunkEvents.2.1,
      List.nil_append, ih (hn.add hbuf), length_kept_cons, ← Int.add_assoc]
    simp

/-- A mark of truncation is logged where the limit is reached. -/
theorem truncated_bodyLoop (h : Calls sizeLimit n reads) (hn : Within sizeLimit n)
    (hmark : valuesOf "body-read-truncated" (bodyLoop sizeLimit reads n) ≠ []) :
    ∃ limit, sizeLimit = some limit ∧ limit ≤ n + (kept reads).flatten.length := by
  induction h with
  | nil =>
    rw [bodyLoop] at hmark
    split at hmark <;> exact absurd rfl hmark
  | failed hpos hbuf =>
    rw [bodyLoop_failed hpos] at hmark
    exact absurd rfl hmark
  | @cons n buf reads hpos hbuf _ ih =>
    rw [bodyLoop_cons hpos (hn.add hbuf), valuesOf_append] at hmark
    rw [length_kept_cons, ← Int.add_assoc]
    by_cases hchunk : valuesOf "body-read-truncated"
        (chunkEvents sizeLimit (n + buf.length) buf) = []
    · rw [hchunk, List.nil_append] at hmark
      exact ih (hn.add hbuf) hmark
    · obtain ⟨limit, hlimit, hle⟩ := valuesOf_chunkEvents.2.2 hchunk
      exact ⟨limit, hlimit, by omega⟩

theorem mapM_decodeString (parts : List (List UInt8)) :
    ((parts.map fun buf => String.ofList (encodeToString buf)).mapM fun value =>
      decodeString value.toList) = some parts := by
  induction parts with
  | nil => rfl
  | cons buf parts ih =>
    rw [List.map_cons, List.mapM_cons, String.toList_ofList, decodeString_encodeToString, ih]
    rfl

theorem decodedChunks_bodyLoop (h : Calls sizeLimit n reads) (hn : Within sizeLimit n) :
    decodedChunks (bodyLoop sizeLimit reads n) = some (kept reads).flatten := by
  rw [decodedChunks, chunks_bodyLoop h hn, mapM_decodeString]
  rfl

/-! ### What is lost -/

theorem kept_sublist (reads : List Read) : (kept reads).flatten.Sublist (delivered reads) := by
  induction reads with
  | nil => exact .refl _
  | cons r reads ih =>
    obtain ⟨buf, err⟩ := r
    cases err with
    | none => exact (List.Sublist.refl buf).append ih
    | some err => exact ih.trans (List.sublist_append_right buf _)

/-- All that is delivered is kept exactly if there are no bytes with an error. -/
theorem kept_eq_delivered_iff (reads : List Read) :
    (kept reads).flatten = delivered reads ↔
      ∀ r ∈ reads, r.err.isSome = true → r.buf = [] := by
  induction reads with
  | nil => exact iff_of_true rfl (List.forall_mem_nil _)
  | cons r reads ih =>
    obtain ⟨buf, err⟩ := r
    rw [List.forall_mem_cons, ← ih]
    cases err with
    | none =>
      have hkept : (kept (⟨buf, none⟩ :: reads)).flatten = buf ++ (kept reads).flatten := rfl
      have hdelivered : delivered (⟨buf, none⟩ :: reads) = buf ++ delivered reads := rfl
      rw [hkept, hdelivered, List.append_cancel_left_eq]
      simp
    | some err =>
      have hkept : (kept (⟨buf, some err⟩ :: reads)).flatten = (kept reads).flatten := rfl
      have hdelivered : delivered (⟨buf, some err⟩ :: reads) = buf ++ delivered reads := rfl
      rw [hkept, hdelivered]
      constructor
      · intro h
        have hle := (kept_sublist reads).length_le
        have hlen := congrArg List.length h
        rw [List.length_append] at hlen
        have hnil : buf = [] := List.eq_nil_of_length_eq_zero (by omega)
        exact ⟨fun _ => hnil, by rw [h, hnil, List.nil_append]⟩
      · rintro ⟨hbuf, h⟩
        have hnil : buf = [] := hbuf rfl
        rw [hnil, h, List.nil_append]

theorem upTo_delivered (h : Calls sizeLimit 0 reads) (hlimit : Within sizeLimit 0) :
    upTo sizeLimit (delivered reads) = delivered reads := by
  have hwithin := h.within hlimit
  cases sizeLimit with
  | none => rfl
  | some limit =>
    have hle := hwithin limit rfl
    exact List.take_of_length_le (by omega)

/-- A body is captured exactly if no bytes come with an error. -/
theorem captured_iff (sizeLimit : Option Int) (hlimit : ∀ limit, sizeLimit = some limit → 0 ≤ limit)
    (reads : List Read) (h : Calls sizeLimit 0 reads) :
    Captured sizeLimit reads (bodyLoop sizeLimit reads 0) ↔
      ∀ r ∈ reads, r.err.isSome = true → r.buf = [] := by
  have hchunks := decodedChunks_bodyLoop h hlimit
  have hbytes := bytesRead_bodyLoop h hlimit
  rw [Int.zero_add] at hbytes
  rw [← kept_eq_delivered_iff]
  constructor
  · intro hc
    have hall := hc.chunks
    rw [hchunks, upTo_delivered h hlimit] at hall
    exact Option.some.inj hall
  · intro hall
    refine ⟨?_, ?_, ?_, ?_⟩
    · rw [hchunks, upTo_delivered h hlimit, hall]
    · intro value hvalue
      rw [hbytes] at hvalue
      split at hvalue
      · exact ⟨_, hchunks, List.mem_singleton.1 hvalue⟩
      · cases hvalue
    · intro hover
      rw [Over, ← hall] at hover
      rw [hbytes, if_pos hover]
      rfl
    · intro hmark
      obtain ⟨limit, hsome, hle⟩ := truncated_bodyLoop h hlimit hmark
      rw [Int.zero_add, hall] at hle
      exact ⟨limit, hsome, hle⟩

/-- A body in two parts, up to a limit of three bytes. -/
theorem captured_limited :
    Captured (some 3) [⟨[104, 105], none⟩, ⟨[33], none⟩]
      (bodyLoop (some 3) [⟨[104, 105], none⟩, ⟨[33], none⟩] 0) :=
  (captured_iff (some 3) (fun _ h => Option.some.inj h ▸ by decide) _
    (.cons (by decide) (by decide) (.cons (by decide) (by decide) .nil))).2 (by decide)

/-- A body whose only part comes with the end of the file is lost. -/
theorem part_with_eof_lost :
    Calls none 0 [⟨[104, 105], some "EOF"⟩] ∧
      ¬Captured none [⟨[104, 105], some "EOF"⟩]
        (bodyLoop none [⟨[104, 105], some "EOF"⟩] 0) := by
  refine ⟨.failed (by decide) (by decide), fun hc => ?_⟩
  have hall := hc.chunks
  exact absurd hall (by decide)

end Events

end CloudPing.Httpprobe
