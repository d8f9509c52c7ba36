import CloudPing.Wire.ValueStream

/-!
# A scanner of lines

A scanner gives the lines of a text that it reads in pieces, into a buffer of bounded size.
It gives the lines that the buffer has, one after the other, and then reads again.  Once a
read has failed, or the text has ended, it gives what is left in the buffer and stops.  A line
that does not fit into the buffer stops it at once, and what the buffer has is not given.

Why it stopped is known in the end only: the end of the text and the failure of a read look
the same to a loop over the lines.  `Source.reading` says what the text was, how much of it
had been given before the last read, and why the scanner stopped; `tokens_eq` says that the
scanner gives just that, one line at a time.
-/

namespace Wire

/-! ## Lines -/

/-- A line without the `\r` at its end. -/
def dropCR (line : List UInt8) : List UInt8 :=
  if line.getLast? = some 13 then line.dropLast else line

/-- The complete lines of a text, and what stands behind the last newline. -/
def splitLines : List UInt8 → List (List UInt8) × List UInt8
  | [] => ([], [])
  | c :: cs =>
    let p := splitLines cs
    if c = newline then ([] :: p.1, p.2)
    else
      match p.1 with
      | [] => ([], c :: p.2)
      | line :: lines => ((c :: line) :: lines, p.2)

def unlines (lines : List (List UInt8)) : List UInt8 := lines.flatMap fun line => line ++ [newline]

/-- All the lines of a text that has ended: the last one may have no newline. -/
def allLines (text : List UInt8) : List (List UInt8) :=
  (splitLines text).1 ++ if (splitLines text).2 = [] then [] else [(splitLines text).2]

theorem unlines_cons (line : List UInt8) (lines : List (List UInt8)) :
    unlines (line :: lines) = line ++ newline :: unlines lines := by
  simp [unlines]

theorem splitLines_of_notMem {s : List UInt8} (h : newline ∉ s) : splitLines s = ([], s) := by
  induction s with
  | nil => rfl
  | cons c cs ih =>
    have hc : c ≠ newline := fun hc => h (hc ▸ List.mem_cons_self)
    have hcs : newline ∉ cs := fun hcs => h (List.mem_cons_of_mem _ hcs)
    simp only [splitLines, ih hcs, if_neg hc]

theorem splitLines_line {line : List UInt8} (h : newline ∉ line) (s : List UInt8) :
    splitLines (line ++ newline :: s) = (line :: (splitLines s).1, (splitLines s).2) := by
  induction line with
  | nil => simp [splitLines]
  | cons c cs ih =>
    have hc : c ≠ newline := fun hc => h (hc ▸ List.mem_cons_self)
    have hcs : newline ∉ cs := fun hcs => h (List.mem_cons_of_mem _ hcs)
    simp only [List.cons_append, splitLines, ih hcs, if_neg hc]

/-- A text is one piece of a line, or it begins with a line. -/
theorem notMem_or_line (s : List UInt8) :
    newline ∉ s ∨ ∃ line rest, s = line ++ newline :: rest ∧ newline ∉ line := by
  by_cases h : newline ∈ s
  · obtain ⟨line, rest, hs, hline⟩ := List.eq_append_cons_of_mem h
    exact Or.inr ⟨line, rest, hs, hline⟩
  · exact Or.inl h

/-- What was split is the text. -/
theorem unlines_splitLines (s : List UInt8) :
    unlines (splitLines s).1 ++ (splitLines s).2 = s := by
  induction s with
  | nil => rfl
  | cons c cs ih =>
    rw [splitLines]
    split
    · next hc =>
      subst hc
      rw [unlines_cons, List.nil_append, List.cons_append, ih]
    · split
      · next hnil =>
        rw [hnil] at ih
        exact congrArg (c :: ·) ih
      · next line lines hcons =>
        rw [hcons, unlines_cons] at ih
        rw [unlines_cons, List.cons_append, List.cons_append, ih]

theorem notMem_splitLines (s : List UInt8) :
    (∀ line ∈ (splitLines s).1, newline ∉ line) ∧ newline ∉ (splitLines s).2 := by
  induction s with
  | nil => exact ⟨List.forall_mem_nil _, List.not_mem_nil⟩
  | cons c cs ih =>
    obtain ⟨hlines, htail⟩ := ih
    rw [splitLines]
    split
    · refine ⟨fun line hline => ?_, htail⟩
      rcases List.mem_cons.1 hline with rfl | hline
      · exact List.not_mem_nil
      · exact hlines line hline
    · next hc =>
      have hcons : ∀ l, newline ∉ l → newline ∉ c :: l := by
        intro l hl hmem
        rcases List.mem_cons.1 hmem with rfl | hmem
        · exact hc rfl
        · exact hl hmem
      split
      · exact ⟨List.forall_mem_nil _, hcons _ htail⟩
      · next line lines heq =>
        rw [heq] at hlines
        refine ⟨fun l hl => ?_, htail⟩
        rcases List.mem_cons.1 hl with rfl | hl
        · exact hcons _ (hlines line List.mem_cons_self)
        · exact hlines l (List.mem_cons_of_mem _ hl)

theorem splitLines_unlines {lines : List (List UInt8)} (h : ∀ line ∈ lines, newline ∉ line)
    (s : List UInt8) :
    splitLines (unlines lines ++ s) = (lines ++ (splitLines s).1, (splitLines s).2) := by
  induction lines with
  | nil => rfl
  | cons line lines ih =>
    have ih := ih fun l hl => h l (List.mem_cons_of_mem _ hl)
    rw [unlines_cons, List.append_assoc, List.cons_append,
      splitLines_line (h line List.mem_cons_self), ih, List.cons_append]

/-! ## The reader and the buffer -/

/-- Why a scanner stops. -/
inductive ReadErr where
  | eof
  | tooLong
  | failed (text : String)
  deriving DecidableEq

/-- What `Err` gives: nil for the end of the text. -/
def ReadErr.err : ReadErr → Option String
  | .eof => none
  | .tooLong => some "bufio.Scanner: token too long"
  | .failed text => some text

def badReadCount : ReadErr := .failed "bufio.Scanner: Read returned impossible count"

def noProgress : ReadErr := .failed "multiple Read calls return no data or error"

/-- A reader, by what each call of `Read` gives.  The last call gives the error too, which is
the end of the text if there is no `failure`. -/
structure Source where
  reads : List (List UInt8) := []
  last : List UInt8 := []
  failure : Option String := none

namespace Source

/-- All that there is to read. -/
def text (src : Source) : List UInt8 := src.reads.flatten ++ src.last

def stop (src : Source) : ReadErr :=
  match src.failure with
  | none => .eof
  | some text => .failed text

end Source

def maxScanTokenSize : Nat := 64 * 1024

def startBufSize : Nat := 4096

def maxConsecutiveEmptyReads : Nat := 100

/-- The buffer, of which only the bytes that were read and not yet given are kept. -/
structure Buffer where
  cap : Nat := 0
  start : Nat := 0
  held : List UInt8 := []

namespace Buffer

def used (b : Buffer) : Nat := b.start + b.held.length

def room (b : Buffer) : Nat := b.cap - b.used

def advance (b : Buffer) (n : Nat) : Buffer :=
  { b with start := b.start + n, held := b.held.drop n }

def append (b : Buffer) (data : List UInt8) : Buffer := { b with held := b.held ++ data }

/-- The bytes are moved to the front if there is much space, or if space is needed. -/
def shift (b : Buffer) : Buffer :=
  if 0 < b.start ∧ (b.used = b.cap ∨ b.cap / 2 < b.start) then { b with start := 0 } else b

/-- A full buffer is made larger, up to a limit. -/
def grow (b : Buffer) : Option Buffer :=
  if b.used = b.cap then
    if maxScanTokenSize ≤ b.cap then none
    else
      let newSize := if b.cap * 2 = 0 then startBufSize else b.cap * 2
      some { b with cap := min newSize maxScanTokenSize, start := 0 }
  else some b

/-- What is done before a read. -/
def makeRoom (b : Buffer) : Option Buffer := b.shift.grow

/-- The buffer without its complete lines. -/
def skipLines (b : Buffer) : Buffer :=
  b.advance (unlines (splitLines b.held).1).length

theorem held_skipLines (b : Buffer) : b.skipLines.held = (splitLines b.held).2 := by
  calc
    b.held.drop (unlines (splitLines b.held).1).length
        = (unlines (splitLines b.held).1 ++ (splitLines b.held).2).drop
            (unlines (splitLines b.held).1).length := by rw [unlines_splitLines]
    _ = (splitLines b.held).2 := List.drop_left

theorem held_makeRoom {b b' : Buffer} (h : b.makeRoom = some b') : b'.held = b.held := by
  have hshift : b.shift.held = b.held := by
    rw [shift]
    split <;> rfl
  rw [makeRoom, grow] at h
  split at h
  · split at h
    · cases h
    · obtain rfl := Option.some.inj h
      exact hshift
  · obtain rfl := Option.some.inj h
    exact hshift

end Buffer

/-! ## Scanning -/

/-- The bytes that a line takes and the line itself, or nil if more is to be read. -/
def scanLines (data : List UInt8) (atEOF : Bool) : Option (Nat × List UInt8) :=
  if newline ∈ data then
    let line := data.takeWhile fun c => c ≠ newline
    some (line.length + 1, dropCR line)
  else if atEOF ∧ data ≠ [] then some (data.length, dropCR data)
  else none

structure LineScanner where
  buffer : Buffer := {}
  err : Option ReadErr := none
  source : Source

inductive ScanResult where
  | token (line : List UInt8) (next : LineScanner)
  | stopped (err : ReadErr)

/-- With an error, what is left is split as the end of a text. -/
def finish (b : Buffer) (err : ReadErr) (src : Source) : ScanResult :=
  match scanLines b.held true with
  | some (n, line) => .token line ⟨b.advance n, some err, src⟩
  | none => .stopped err

/-- Without one, the next line is given if there is one, and else there is a read. -/
def nextLine (b : Buffer) (src : Source) (read : Buffer → ScanResult) : ScanResult :=
  match scanLines b.held false with
  | some (n, line) => .token line ⟨b.advance n, none, src⟩
  | none =>
    match b.makeRoom with
    | none => .stopped .tooLong
    | some b => read b

/-- The reads of one call of `Scan`, of which `loop` in a row gave nothing. -/
def read (last : List UInt8) (failure : Option String) :
    Nat → List (List UInt8) → Buffer → ScanResult
  | _, [], b =>
    if b.room < last.length then finish b badReadCount { failure }
    else finish (b.append last) (Source.stop { failure }) { failure }
  | loop, data :: reads, b =>
    if b.room < data.length then finish b badReadCount { reads, last, failure }
    else if data = [] then
      if maxConsecutiveEmptyReads < loop + 1 then finish b noProgress { reads, last, failure }
      else read last failure (loop + 1) reads b
    else nextLine (b.append data) { reads, last, failure } (read last failure 0 reads)

/-- `Scan`, with the line that `Bytes` gives then. -/
def LineScanner.scan (s : LineScanner) : ScanResult :=
  match s.err with
  | some err => finish s.buffer err s.source
  | none =>
    nextLine s.buffer s.source (read s.source.last s.source.failure 0 s.source.reads)

/-! ### Every line is paid for -/

theorem scanLines_line {line : List UInt8} (h : newline ∉ line) (s : List UInt8)
    (atEOF : Bool) :
    scanLines (line ++ newline :: s) atEOF = some (line.length + 1, dropCR line) := by
  have htake : (line ++ newline :: s).takeWhile (fun c => c ≠ newline) = line := by
    rw [List.takeWhile_append_of_pos]
    · simp
    · intro c hc
      have hne : c ≠ newline := fun hcn => h (hcn ▸ hc)
      simpa using hne
  rw [scanLines, if_pos (List.mem_append_right _ List.mem_cons_self), htake]

theorem scanLines_piece {s : List UInt8} (h : newline ∉ s) : scanLines s false = none := by
  rw [scanLines, if_neg h]
  rfl

theorem scanLines_tail {s : List UInt8} (h : newline ∉ s) (hne : s ≠ []) :
    scanLines s true = some (s.length, dropCR s) := by
  rw [scanLines, if_neg h, if_pos ⟨rfl, hne⟩]

theorem scanLines_advance {data line : List UInt8} {atEOF : Bool} {n : Nat}
    (h : scanLines data atEOF = some (n, line)) : 0 < n ∧ n ≤ data.length := by
  rcases notMem_or_line data with hdata | ⟨pre, post, rfl, hpre⟩
  · rw [scanLines, if_neg hdata] at h
    split at h
    · next hne =>
      obtain ⟨rfl, -⟩ := Prod.mk.inj (Option.some.inj h)
      exact ⟨List.length_pos_iff.2 hne.2, le_rfl⟩
    · cases h
  · rw [scanLines_line hpre] at h
    obtain ⟨rfl, -⟩ := Prod.mk.inj (Option.some.inj h)
    simp

namespace LineScanner

/-- The bytes that are still to be given. -/
def size (s : LineScanner) : Nat := s.buffer.held.length + s.source.text.length

/-- A line that is given takes some bytes. -/
theorem size_advance {b : Buffer} {err : Option ReadErr} {src : Source} {line : List UInt8}
    {atEOF : Bool} {n : Nat} (h : scanLines b.held atEOF = some (n, line)) :
    size ⟨b.advance n, err, src⟩ < b.held.length + src.text.length := by
  obtain ⟨hpos, hle⟩ := scanLines_advance h
  simp only [size, Buffer.advance, List.length_drop]
  omega

theorem size_finish {b : Buffer} {err : ReadErr} {src : Source} {line : List UInt8}
    {next : LineScanner} (h : finish b err src = .token line next) :
    next.size < b.held.length + src.text.length := by
  rw [finish] at h
  split at h
  · next n l hs =>
    obtain ⟨rfl, rfl⟩ := ScanResult.token.inj h
    exact size_advance hs
  · cases h

theorem size_nextLine {b : Buffer} {src : Source} {read : Buffer → ScanResult}
    {line : List UInt8} {next : LineScanner}
    (hread : ∀ b', b'.held = b.held → read b' = .token line next →
      next.size < b.held.length + src.text.length)
    (h : nextLine b src read = .token line next) :
    next.size < b.held.length + src.text.length := by
  rw [nextLine] at h
  split at h
  · next n l hs =>
    obtain ⟨rfl, rfl⟩ := ScanResult.token.inj h
    exact size_advance hs
  · split at h
    · cases h
    · next b' hb => exact hread b' (Buffer.held_makeRoom hb) h

theorem size_read {last : List UInt8} {failure : Option String} {reads : List (List UInt8)}
    {loop : Nat} {b : Buffer} {line : List UInt8} {next : LineScanner}
    (h : read last failure loop reads b = .token line next) :
    next.size < b.held.length + (Source.mk reads last failure).text.length := by
  induction reads generalizing loop b with
  | nil =>
    rw [read] at h
    split at h
    all_goals
      have hlt := size_finish h
      simp only [Source.text, Buffer.append, List.flatten_nil, List.nil_append,
        List.length_append, List.length_nil] at hlt ⊢
      omega
  | cons data reads ih =>
    have htext : (Source.mk (data :: reads) last failure).text =
        data ++ (Source.mk reads last failure).text := by
      simp [Source.text]
    rw [htext, List.length_append]
    rw [read] at h
    split at h
    · have hlt := size_finish h
      omega
    · split at h
      · split at h
        · have hlt := size_finish h
          omega
        · have hlt := ih h
          omega
      · have hlt := size_nextLine (fun b' hb' hb => hb' ▸ ih hb) h
        rw [Buffer.append, List.length_append] at hlt
        omega

theorem size_scan {s next : LineScanner} {line : List UInt8} (h : s.scan = .token line next) :
    next.size < s.size := by
  rw [scan] at h
  split at h
  · exact size_finish h
  · exact size_nextLine (fun b' hb' hb => hb' ▸ size_read hb) h

/-- The lines of a loop over `Scan`, each with the error at the time, and the error in the end. -/
def tokens (s : LineScanner) : List (List UInt8 × Option ReadErr) × ReadErr :=
  match _h : s.scan with
  | .stopped err => ([], err)
  | .token line next => ((line, next.err) :: next.tokens.1, next.tokens.2)
termination_by s.size
decreasing_by all_goals exact size_scan ‹_›

end LineScanner

/-! ## What was read -/

/-- A text as it was read: the lines that were there before the last read, what the buffer had
in the end, and why the scanner stopped. -/
structure Reading where
  lines : List (List UInt8) := []
  rest : List UInt8
  stop : ReadErr
  deriving DecidableEq

namespace Reading

def text (r : Reading) : List UInt8 := unlines r.lines ++ r.rest

/-- The lines that are given once there is an error. -/
def late (r : Reading) : List (List UInt8) :=
  if r.stop = .tooLong then [] else allLines r.rest

/-- What a loop over the lines sees. -/
def tokens (r : Reading) : List (List UInt8 × Option ReadErr) × ReadErr :=
  (r.lines.map (fun line => (dropCR line, none)) ++
    r.late.map (fun line => (dropCR line, some r.stop)), r.stop)

/-- The lines of the text: the last one may have no newline, if this is the end of it. -/
def textLines (r : Reading) : List (List UInt8) :=
  if r.stop = .eof then allLines r.text else (splitLines r.text).1

end Reading

/-- The complete lines of the buffer are given, before there is a read. -/
def gatherLines (b : Buffer) (gather : Buffer → Reading) : Reading :=
  match b.skipLines.makeRoom with
  | none => ⟨(splitLines b.held).1, (splitLines b.held).2, .tooLong⟩
  | some b' => { gather b' with lines := (splitLines b.held).1 ++ (gather b').lines }

/-- The reads from a buffer without a complete line on. -/
def gather (last : List UInt8) (failure : Option String) :
    Nat → List (List UInt8) → Buffer → Reading
  | _, [], b =>
    if b.room < last.length then { rest := b.held, stop := badReadCount }
    else { rest := b.held ++ last, stop := Source.stop { failure } }
  | loop, data :: reads, b =>
    if b.room < data.length then { rest := b.held, stop := badReadCount }
    else if data = [] then
      if maxConsecutiveEmptyReads < loop + 1 then { rest := b.held, stop := noProgress }
      else gather last failure (loop + 1) reads b
    else gatherLines (b.append data) (gather last failure 0 reads)

/-- The text of a source as a scanner reads it. -/
def Source.reading (src : Source) : Reading :=
  gatherLines {} (gather src.last src.failure 0 src.reads)

/-! ### The scanner gives what was read -/

/-- What a loop over the lines sees from a result on. -/
def ScanResult.tokens : ScanResult → List (List UInt8 × Option ReadErr) × ReadErr
  | .stopped err => ([], err)
  | .token line next => ((line, next.err) :: next.tokens.1, next.tokens.2)

/-- The lines of a buffer, before those that come later. -/
def withLines (lines : List (List UInt8)) (err : Option ReadErr)
    (toks : List (List UInt8 × Option ReadErr) × ReadErr) :
    List (List UInt8 × Option ReadErr) × ReadErr :=
  (lines.map (fun line => (dropCR line, err)) ++ toks.1, toks.2)

theorem Buffer.held_advance_line {b : Buffer} {line rest : List UInt8}
    (hb : b.held = line ++ newline :: rest) : (b.advance (line.length + 1)).held = rest := by
  rw [Buffer.advance, hb]
  simp

theorem Buffer.length_advance_line {b : Buffer} {line rest : List UInt8}
    (hb : b.held = line ++ newline :: rest) :
    (b.advance (line.length + 1)).held.length < b.held.length := by
  rw [held_advance_line hb, hb, List.length_append, List.length_cons]
  omega

namespace LineScanner

theorem tokens_scan (s : LineScanner) : s.tokens = s.scan.tokens := by
  rw [tokens]
  split
  · next h => rw [h, ScanResult.tokens]
  · next h => rw [h, ScanResult.tokens]

/-- With an error, all the lines that are left are given. -/
theorem tokens_failed (b : Buffer) (err : ReadErr) (src : Source) :
    (finish b err src).tokens = withLines (allLines b.held) (some err) ([], err) := by
  generalize hn : b.held.length = n
  induction n using Nat.strongRecOn generalizing b with
  | ind n ih =>
    subst hn
    rcases notMem_or_line b.held with h | ⟨line, rest, hb, hline⟩
    · by_cases hnil : b.held = []
      · rw [finish, hnil]
        rfl
      · have hrest : (b.advance b.held.length).held = [] := List.drop_length
        have hscan : scanLines (b.advance b.held.length).held true = none := by
          rw [hrest]
          rfl
        rw [finish, scanLines_tail h hnil, ScanResult.tokens, tokens_scan]
        simp only [scan, finish, hscan, ScanResult.tokens, allLines, splitLines_of_notMem h,
          if_neg hnil, withLines, List.map_nil, List.map_cons, List.nil_append,
          List.cons_append]
    · have hrest := Buffer.held_advance_line hb
      have hlt := Buffer.length_advance_line hb
      have hall : allLines b.held = line :: allLines rest := by
        simp only [allLines, hb, splitLines_line hline, List.cons_append]
      have hfin : finish b err src =
          .token (dropCR line) ⟨b.advance (line.length + 1), some err, src⟩ := by
        rw [finish, hb, scanLines_line hline]
      rw [hfin, ScanResult.tokens, tokens_scan, scan]
      simp only
      rw [ih _ hlt _ rfl, hrest, hall]
      rfl

/-- From a buffer without a complete line on. -/
def afterLines (b : Buffer) (read : Buffer → ScanResult) :
    List (List UInt8 × Option ReadErr) × ReadErr :=
  match b.makeRoom with
  | none => ([], .tooLong)
  | some b' => (read b').tokens

/-- Without an error, the complete lines of the buffer are given before there is a read. -/
theorem tokens_nextLine (b : Buffer) (src : Source) :
    (nextLine b src (read src.last src.failure 0 src.reads)).tokens =
      withLines (splitLines b.held).1 none
        (afterLines b.skipLines (read src.last src.failure 0 src.reads)) := by
  generalize hn : b.held.length = n
  induction n using Nat.strongRecOn generalizing b with
  | ind n ih =>
    subst hn
    rcases notMem_or_line b.held with h | ⟨line, rest, hb, hline⟩
    · have hskip : b.skipLines = b := by
        rw [Buffer.skipLines, splitLines_of_notMem h]
        rfl
      rw [nextLine, scanLines_piece h, hskip, splitLines_of_notMem h]
      simp only [withLines, List.map_nil, List.nil_append, afterLines]
      split <;> rfl
    · have hrest := Buffer.held_advance_line hb
      have hlt := Buffer.length_advance_line hb
      have hlines : splitLines b.held = (line :: (splitLines rest).1, (splitLines rest).2) := by
        rw [hb, splitLines_line hline]
      have hskip : (b.advance (line.length + 1)).skipLines = b.skipLines := by
        rw [Buffer.skipLines, Buffer.skipLines, hrest, hlines]
        simp only [Buffer.advance, unlines_cons, List.drop_drop, List.length_append,
          List.length_cons]
        congr 1
        · omega
        · congr 1
          omega
      have hnext : nextLine b src (read src.last src.failure 0 src.reads) =
          .token (dropCR line) ⟨b.advance (line.length + 1), none, src⟩ := by
        rw [nextLine, hb, scanLines_line hline]
      rw [hnext, ScanResult.tokens, tokens_scan, scan]
      simp only
      rw [ih _ hlt _ rfl, hrest, hskip, hlines]
      rfl

theorem tokens_gatherLines (src : Source)
    (h : ∀ b, newline ∉ b.held → (read src.last src.failure 0 src.reads b).tokens =
      (gather src.last src.failure 0 src.reads b).tokens) (b : Buffer) :
    (nextLine b src (read src.last src.failure 0 src.reads)).tokens =
      (gatherLines b (gather src.last src.failure 0 src.reads)).tokens := by
  rw [tokens_nextLine, afterLines, gatherLines]
  split
  · simp [withLines, Reading.tokens, Reading.late]
  · next b' hb =>
    have hheld : newline ∉ b'.held := by
      rw [Buffer.held_makeRoom hb, Buffer.held_skipLines]
      exact (notMem_splitLines b.held).2
    rw [h b' hheld]
    simp [withLines, Reading.tokens, Reading.late]

/-- With an error, what is left of the text is what the buffer has. -/
theorem tokens_finish (b : Buffer) {err : ReadErr} (src : Source) (h : err ≠ .tooLong) :
    (finish b err src).tokens = Reading.tokens { rest := b.held, stop := err } := by
  simp [tokens_failed, Reading.tokens, Reading.late, h, withLines]

theorem stop_ne_tooLong (src : Source) : src.stop ≠ .tooLong := by
  rw [Source.stop]
  split <;> rintro ⟨⟩

theorem tokens_read (last : List UInt8) (failure : Option String) (reads : List (List UInt8))
    (loop : Nat) (b : Buffer) (hb : newline ∉ b.held) :
    (read last failure loop reads b).tokens = (gather last failure loop reads b).tokens := by
  induction reads generalizing loop b with
  | nil =>
    rw [read, gather]
    split
    · exact tokens_finish b _ (by rintro ⟨⟩)
    · exact tokens_finish (b.append last) _ (stop_ne_tooLong _)
  | cons data reads ih =>
    rw [read, gather]
    split
    · exact tokens_finish b _ (by rintro ⟨⟩)
    · split
      · split
        · exact tokens_finish b _ (by rintro ⟨⟩)
        · exact ih (loop + 1) b hb
      · exact tokens_gatherLines ⟨reads, last, failure⟩ (fun b hb => ih 0 b hb)
          (b.append data)

/-- A scanner gives a text as it was read. -/
theorem tokens_eq (src : Source) :
    (LineScanner.mk {} none src).tokens = src.reading.tokens := by
  rw [tokens_scan, scan]
  exact tokens_gatherLines src (fun b hb => tokens_read _ _ _ 0 b hb) {}

end LineScanner

/-! ### What was read is the text -/

theorem allLines_unlines {lines : List (List UInt8)} (h : ∀ line ∈ lines, newline ∉ line)
    (s : List UInt8) : allLines (unlines lines ++ s) = lines ++ allLines s := by
  simp only [allLines, splitLines_unlines h, List.append_assoc]

theorem notMem_gatherLines {b : Buffer} {G : Buffer → Reading}
    (h : ∀ b', ∀ line ∈ (G b').lines, newline ∉ line) :
    ∀ line ∈ (gatherLines b G).lines, newline ∉ line := by
  have hlines := (notMem_splitLines b.held).1
  rw [gatherLines]
  split
  · exact hlines
  · intro line hline
    rcases List.mem_append.1 hline with hline | hline
    · exact hlines line hline
    · exact h _ line hline

theorem notMem_gather (last : List UInt8) (failure : Option String) (reads : List (List UInt8))
    (loop : Nat) (b : Buffer) :
    ∀ line ∈ (gather last failure loop reads b).lines, newline ∉ line := by
  induction reads generalizing loop b with
  | nil =>
    rw [gather]
    split <;> exact List.forall_mem_nil _
  | cons data reads ih =>
    rw [gather]
    split
    · exact List.forall_mem_nil _
    · split
      · split
        · exact List.forall_mem_nil _
        · exact ih (loop + 1) b
      · exact notMem_gatherLines fun b' => ih 0 b'

/-- What was read of a text, and all of it if it has ended. -/
def Reading.ReadOf (r : Reading) (text : List UInt8) : Prop :=
  r.text <+: text ∧ (r.stop = .eof → r.text = text)

theorem readOf_held {b : Buffer} {stop : ReadErr} (h : stop ≠ .eof) (text : List UInt8) :
    Reading.ReadOf { rest := b.held, stop } (b.held ++ text) :=
  ⟨List.prefix_append _ _, fun heof => absurd heof h⟩

theorem readOf_gatherLines {b : Buffer} {G : Buffer → Reading} {text : List UInt8}
    (h : ∀ b', (G b').ReadOf (b'.held ++ text)) : (gatherLines b G).ReadOf (b.held ++ text) := by
  have htext := unlines_splitLines b.held
  rw [gatherLines]
  split
  · rw [← htext]
    refine ⟨?_, by rintro ⟨⟩⟩
    simp [Reading.text, htext]
  · next b' hb =>
    have hheld : b'.held = (splitLines b.held).2 := by
      rw [Buffer.held_makeRoom hb, Buffer.held_skipLines]
    obtain ⟨hpre, heof⟩ := h b'
    have hG : Reading.text { G b' with lines := (splitLines b.held).1 ++ (G b').lines } =
        unlines (splitLines b.held).1 ++ (G b').text := by
      simp [Reading.text, unlines]
    have hall : b.held ++ text = unlines (splitLines b.held).1 ++ (b'.held ++ text) := by
      rw [hheld, ← List.append_assoc, htext]
    rw [Reading.ReadOf, hG, hall]
    exact ⟨(List.prefix_append_right_inj _).2 hpre, fun h => by rw [heof h]⟩

theorem readOf_gather (last : List UInt8) (failure : Option String) (reads : List (List UInt8))
    (loop : Nat) (b : Buffer) :
    (gather last failure loop reads b).ReadOf (b.held ++ (reads.flatten ++ last)) := by
  induction reads generalizing loop b with
  | nil =>
    rw [gather]
    split
    · exact readOf_held (by rintro ⟨⟩) _
    · exact ⟨List.prefix_rfl, fun _ => rfl⟩
  | cons data reads ih =>
    rw [gather]
    split
    · exact readOf_held (by rintro ⟨⟩) _
    · split
      · next hnil =>
        split
        · exact readOf_held (by rintro ⟨⟩) _
        · rw [hnil, List.flatten_cons, List.nil_append]
          exact ih (loop + 1) b
      · have hdata : b.held ++ ((data :: reads).flatten ++ last) =
            (b.append data).held ++ (reads.flatten ++ last) := by
          simp [Buffer.append]
        rw [hdata]
        exact readOf_gatherLines fun b' => ih 0 b'

namespace Source

theorem notMem_reading (src : Source) : ∀ line ∈ src.reading.lines, newline ∉ line :=
  notMem_gatherLines fun b => notMem_gather _ _ _ 0 b

theorem readOf_reading (src : Source) : src.reading.ReadOf src.text :=
  readOf_gatherLines (b := {}) fun b => readOf_gather _ _ _ 0 b

/-- A text that was read to its end is split into all its lines. -/
theorem textLines_of_eof {src : Source} (h : src.reading.stop = .eof) :
    src.reading.textLines = allLines src.text := by
  rw [Reading.textLines, if_pos h, src.readOf_reading.2 h]

/-- The lines of the text are those before the last read, and those of what is left. -/
theorem textLines_reading (src : Source) :
    src.reading.textLines = src.reading.lines ++
      if src.reading.stop = .eof then allLines src.reading.rest
      else (splitLines src.reading.rest).1 := by
  rw [Reading.textLines, Reading.text]
  split
  · exact allLines_unlines src.notMem_reading _
  · rw [splitLines_unlines src.notMem_reading]

end Source

/-! ### A line that is too long -/

/-- The bytes that are held are in the buffer, which is not larger than it may be. -/
structure Buffer.Fits (b : Buffer) : Prop where
  used_le : b.used ≤ b.cap
  cap_le : b.cap ≤ maxScanTokenSize

/-- The lines fit into the buffer, and where it was full it had no newline. -/
structure Reading.Bounded (r : Reading) : Prop where
  lines : ∀ line ∈ r.lines, line.length < maxScanTokenSize
  full : r.stop = .tooLong → newline ∉ r.rest ∧ r.rest.length = maxScanTokenSize

theorem length_mem_unlines {lines : List (List UInt8)} {line : List UInt8} (h : line ∈ lines) :
    line.length < (unlines lines).length := by
  obtain ⟨pre, post, rfl⟩ := List.append_of_mem h
  simp only [unlines, List.flatMap_append, List.flatMap_cons, List.length_append,
    List.length_singleton]
  omega

namespace Buffer.Fits

variable {b b' : Buffer}

theorem shift (h : b.Fits) : b.shift.Fits := by
  rw [Buffer.shift]
  split
  · refine ⟨?_, h.cap_le⟩
    have hused := h.used_le
    simp only [Buffer.used] at hused ⊢
    omega
  · exact h

theorem makeRoom (h : b.Fits) (hb : b.makeRoom = some b') : b'.Fits := by
  have hshift := h.shift
  rw [Buffer.makeRoom, Buffer.grow] at hb
  split at hb
  · split at hb
    · cases hb
    · next hused hcap =>
      obtain rfl := Option.some.inj hb
      refine ⟨?_, Nat.min_le_right _ _⟩
      have hlt : b.shift.cap < maxScanTokenSize := Nat.lt_of_not_le hcap
      simp only [Buffer.used] at hused ⊢
      split <;> simp only [startBufSize, maxScanTokenSize] at hlt ⊢ <;> omega
  · obtain rfl := Option.some.inj hb
    exact hshift

/-- There is no room only in a buffer of the largest size, which is full. -/
theorem makeRoom_eq_none (h : b.Fits) (hb : b.makeRoom = none) :
    b.held.length = maxScanTokenSize := by
  have hle := h.used_le
  have hcap := h.cap_le
  rw [Buffer.makeRoom, Buffer.grow, Buffer.shift] at hb
  split at hb
  · next hmoved =>
    split at hb
    · next hused =>
      simp only [Buffer.used] at hused hle hmoved
      omega
    · cases hb
  · next hkept =>
    split at hb
    · next hused =>
      split at hb
      · next hmax =>
        simp only [Buffer.used] at hused hkept
        omega
      · cases hb
    · cases hb

theorem skipLines (h : b.Fits) : b.skipLines.Fits := by
  refine ⟨?_, h.cap_le⟩
  have hused := h.used_le
  have hlen := congrArg List.length (unlines_splitLines b.held)
  rw [List.length_append] at hlen
  simp only [Buffer.used, Buffer.skipLines, Buffer.advance, List.length_drop] at hused ⊢
  omega

theorem append (h : b.Fits) {data : List UInt8} (hroom : ¬b.room < data.length) :
    (b.append data).Fits := by
  refine ⟨?_, h.cap_le⟩
  have hused := h.used_le
  simp only [Buffer.room, Buffer.used, Buffer.append, List.length_append] at hused hroom ⊢
  omega

end Buffer.Fits

theorem bounded_held {rest : List UInt8} {stop : ReadErr} (h : stop ≠ .tooLong) :
    Reading.Bounded { rest, stop } :=
  ⟨fun _ hline => (List.not_mem_nil hline).elim, fun htoo => absurd htoo h⟩

theorem bounded_gatherLines {b : Buffer} {G : Buffer → Reading} (hb : b.Fits)
    (h : ∀ b' : Buffer, b'.Fits → (G b').Bounded) : (gatherLines b G).Bounded := by
  have hlines : ∀ line ∈ (splitLines b.held).1, line.length < maxScanTokenSize := by
    intro line hline
    have hlt := length_mem_unlines hline
    have hlen := congrArg List.length (unlines_splitLines b.held)
    have hused := hb.used_le
    have hcap := hb.cap_le
    rw [List.length_append] at hlen
    rw [Buffer.used] at hused
    omega
  rw [gatherLines]
  split
  · next hfull =>
    refine ⟨hlines, fun _ => ⟨(notMem_splitLines b.held).2, ?_⟩⟩
    rw [← Buffer.held_skipLines]
    exact hb.skipLines.makeRoom_eq_none hfull
  · next b' hb' =>
    have hG := h b' (hb.skipLines.makeRoom hb')
    refine ⟨fun line hline => ?_, hG.full⟩
    rcases List.mem_append.1 hline with hline | hline
    · exact hlines line hline
    · exact hG.lines line hline

theorem bounded_gather (last : List UInt8) (failure : Option String)
    (reads : List (List UInt8)) (loop : Nat) (b : Buffer) (hb : b.Fits) :
    (gather last failure loop reads b).Bounded := by
  induction reads generalizing loop b with
  | nil =>
    rw [gather]
    split
    · exact bounded_held (by rintro ⟨⟩)
    · exact bounded_held (LineScanner.stop_ne_tooLong _)
  | cons data reads ih =>
    rw [gather]
    split
    · exact bounded_held (by rintro ⟨⟩)
    · next hroom =>
      split
      · split
        · exact bounded_held (by rintro ⟨⟩)
        · exact ih (loop + 1) b hb
      · exact bounded_gatherLines (hb.append hroom) fun b' hb' => ih 0 b' hb'

/-- Only lines that fit are given, and the scanner stops for a line that does not fit. -/
theorem Source.bounded_reading (src : Source) : src.reading.Bounded :=
  bounded_gatherLines (b := {}) ⟨Nat.le_refl 0, Nat.zero_le _⟩ fun b hb =>
    bounded_gather _ _ _ 0 b hb

end Wire
