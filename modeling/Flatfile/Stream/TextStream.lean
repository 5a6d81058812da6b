import Flatfile.Charset.Basic
import Flatfile.Stream.Source

/-!
# Streams of characters

The characters of a source, read one by one. A character that was read can be given back, and a
stream can be taken back to a mark. In UTF-8 the first byte of a character tells how many bytes
belong to it; bytes that are no character after all are read as one replacement character.
-/

namespace Flatfile

structure TextStream where
  source : Source
  charset : Charset
  /-- Characters that were given back, the next one first. -/
  ahead : List Char := []
  /-- Characters taken since the mark, the last one first. -/
  journal : Option (List Char) := none
  deriving DecidableEq

namespace TextStream

def ofSource (charset : Charset) (source : Source) : TextStream :=
  { source, charset }

def groupTail? (lead : UInt8) : Option Nat :=
  if 0xC0 ≤ lead ∧ lead ≤ 0xDF then some 1
  else if 0xE0 ≤ lead ∧ lead ≤ 0xEF then some 2
  else if 0xF0 ≤ lead ∧ lead ≤ 0xF7 then some 3
  else none

def groupChar (bytes : List UInt8) : Char :=
  match Text.Utf8.decode? bytes with
  | some (c :: _) => c
  | _ => Text.Utf8.replacement

def readChar (charset : Charset) (source : Source) : Except IoFault (Option Char) × Source :=
  match source.next with
  | (.ok (some lead), source) =>
    if charset.singleByte ∨ lead < 0x80 then (.ok (some (charset.decodeByte lead)), source)
    else
      match groupTail? lead with
      | none => (.ok (some Text.Utf8.replacement), source)
      | some n =>
        let (bytes, source) := source.takeStrictly n
        (bytes.map fun bytes => some (groupChar (lead :: bytes)), source)
  | (.ok none, source) => (.ok none, source)
  | (.error fault, source) => (.error fault, source)

def note (s : TextStream) (c : Char) : TextStream :=
  { s with journal := s.journal.map (c :: ·) }

def next (s : TextStream) : Except IoFault (Option Char) × TextStream :=
  match s.ahead with
  | c :: rest => (.ok (some c), { s with ahead := rest }.note c)
  | [] =>
    match readChar s.charset s.source with
    | (.ok (some c), source) => (.ok (some c), { s with source }.note c)
    | (.ok none, source) => (.ok none, { s with source })
    | (.error fault, source) => (.error fault, { s with source })

def unread (s : TextStream) (c : Char) : TextStream :=
  { s with ahead := c :: s.ahead, journal := s.journal.map List.tail }

def mark (s : TextStream) : TextStream :=
  { s with journal := some [] }

def reset (s : TextStream) : TextStream :=
  match s.journal with
  | some taken => { s with ahead := taken.reverse ++ s.ahead, journal := none }
  | none => s

def size (s : TextStream) : Nat :=
  s.ahead.length + s.source.size

theorem readChar_size_le (charset : Charset) (source : Source) :
    (readChar charset source).2.size ≤ source.size := by
  have h := source.next_size_le
  simp only [readChar]
  split <;> rename_i heq <;> simp only [heq] at h
  · split
    · exact h
    · split
      · exact h
      · exact Nat.le_trans (Source.takeStrictly_size_le _ _) h
  · exact h
  · exact h

theorem readChar_size_lt {charset : Charset} {source source' : Source} {c : Char}
    (h : readChar charset source = (.ok (some c), source')) : source'.size < source.size := by
  simp only [readChar] at h
  split at h
  · rename_i lead rest heq
    have hlt := Source.next_size_lt heq
    split at h
    · simp only [Prod.mk.injEq] at h
      exact h.2 ▸ hlt
    · split at h
      · simp only [Prod.mk.injEq] at h
        exact h.2 ▸ hlt
      · rename_i n _
        simp only [Prod.mk.injEq] at h
        exact h.2 ▸ Nat.lt_of_le_of_lt (Source.takeStrictly_size_le n rest) hlt
  · simp at h
  · simp at h

theorem next_size_le (s : TextStream) : s.next.2.size ≤ s.size := by
  obtain ⟨source, charset, ahead, journal⟩ := s
  cases ahead with
  | cons c rest => simp [next, note, size]
  | nil =>
    have h := readChar_size_le charset source
    simp only [next]
    split <;> rename_i heq <;> simp only [heq] at h <;> simpa [size, note] using h

theorem size_le_of_next {s s' : TextStream} {found : Except IoFault (Option Char)}
    (h : s.next = (found, s')) : s'.size ≤ s.size := by
  simpa [h] using s.next_size_le

theorem next_size_lt {s s' : TextStream} {c : Char} (h : s.next = (.ok (some c), s')) :
    s'.size < s.size := by
  obtain ⟨source, charset, ahead, journal⟩ := s
  cases ahead with
  | cons c rest =>
    simp only [next, Prod.mk.injEq] at h
    simp [size, note, ← h.2]
  | nil =>
    simp only [next] at h
    split at h
    · rename_i c rest heq
      simp only [Prod.mk.injEq] at h
      simpa [size, note, ← h.2] using readChar_size_lt heq
    · simp at h
    · simp at h

@[simp] theorem unread_size (s : TextStream) (c : Char) : (s.unread c).size = s.size + 1 := by
  simp [unread, size]
  omega

def unreadAll (s : TextStream) : List Char → TextStream
  | [] => s
  | c :: rest => (s.unread c).unreadAll rest

@[simp] theorem unreadAll_size (s : TextStream) (cs : List Char) :
    (s.unreadAll cs).size = s.size + cs.length := by
  induction cs generalizing s with
  | nil => simp [unreadAll]
  | cons c rest ih =>
    simp [unreadAll, ih]
    omega

/-- Take the characters of `pattern`, after those of `seen`, which were taken already and are
given back if the stream goes on with something else. -/
def matchFrom (s : TextStream) (seen : List Char) :
    List Char → Except IoFault Bool × TextStream
  | [] => (.ok true, s)
  | expected :: pattern =>
    match s.next with
    | (.ok (some c), s) =>
      if c = expected then matchFrom s (c :: seen) pattern
      else (.ok false, (s.unread c).unreadAll seen)
    | (.ok none, s) => (.ok false, s.unreadAll seen)
    | (.error fault, s) => (.error fault, s)

def tryMatch (s : TextStream) (pattern : List Char) : Except IoFault Bool × TextStream :=
  s.matchFrom [] pattern

def atEnd (s : TextStream) : Except IoFault Bool × TextStream :=
  match s.next with
  | (.ok (some c), s) => (.ok false, s.unread c)
  | (.ok none, s) => (.ok true, s)
  | (.error fault, s) => (.error fault, s)

theorem matchFrom_size_le (s : TextStream) (seen pattern : List Char) :
    (s.matchFrom seen pattern).2.size ≤ s.size + seen.length := by
  induction pattern generalizing s seen with
  | nil => simp [matchFrom]
  | cons expected pattern ih =>
    have hle := s.next_size_le
    simp only [matchFrom]
    split <;> rename_i heq
    · have hlt := next_size_lt heq
      split
      · rename_i c s' _
        have h := ih s' (c :: seen)
        simp only [List.length_cons] at h
        exact Nat.le_trans h (by omega)
      · simp only [unreadAll_size, unread_size]
        omega
    · simp only [heq] at hle
      simp only [unreadAll_size]
      omega
    · simp only [heq] at hle
      simp only
      omega

theorem tryMatch_size_le (s : TextStream) (pattern : List Char) :
    (s.tryMatch pattern).2.size ≤ s.size :=
  s.matchFrom_size_le [] pattern

theorem size_le_of_tryMatch {s s' : TextStream} {pattern : List Char} {found : Except IoFault Bool}
    (h : s.tryMatch pattern = (found, s')) : s'.size ≤ s.size := by
  simpa [h] using s.tryMatch_size_le pattern

theorem matchFrom_size_lt {s s' : TextStream} {seen pattern : List Char} (hp : pattern ≠ [])
    (h : s.matchFrom seen pattern = (.ok true, s')) : s'.size < s.size := by
  induction pattern generalizing s seen with
  | nil => exact absurd rfl hp
  | cons expected pattern ih =>
    simp only [matchFrom] at h
    split at h <;> rename_i heq
    · have hlt := next_size_lt heq
      split at h
      · cases pattern with
        | nil =>
          simp only [matchFrom, Prod.mk.injEq] at h
          exact h.2 ▸ hlt
        | cons _ _ => exact Nat.lt_trans (ih (by simp) h) hlt
      · simp at h
    · simp at h
    · simp at h

theorem tryMatch_size_lt {s s' : TextStream} {pattern : List Char} (hp : pattern ≠ [])
    (h : s.tryMatch pattern = (.ok true, s')) : s'.size < s.size :=
  matchFrom_size_lt hp h

/-- Take everything up to the next `separator` and the separator itself, or everything if there is
none. -/
def skipPast (s : TextStream) (separator : List Char) : Except IoFault Unit × TextStream :=
  match _hm : s.tryMatch separator with
  | (.ok true, s) => (.ok (), s)
  | (.ok false, rest) =>
    match _hn : rest.next with
    | (.ok (some _), rest) => rest.skipPast separator
    | (.ok none, rest) => (.ok (), rest)
    | (.error fault, rest) => (.error fault, rest)
  | (.error fault, s) => (.error fault, s)
termination_by s.size
decreasing_by
  exact Nat.lt_of_lt_of_le (next_size_lt _hn) (size_le_of_tryMatch _hm)

end TextStream
end Flatfile
