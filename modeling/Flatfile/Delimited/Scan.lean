import Flatfile.Schema.Settings
import Flatfile.Stream.TextStream

/-!
# Splitting text into columns

A record ends with the record separator or with the data, and its columns are divided by the field
separator. A column that begins with the quote goes on to the next single quote and may hold
separators; two quotes in it stand for one. The characters of a record are counted, quotes and
field separators included, up to a limit. When a record is refused, the rest of it is passed over.
-/

namespace Flatfile.Delimited

structure Delimiters where
  field : FieldSeparator
  record : String
  quote : Option Char
  max : Nat

/-- A column, the characters counted so far, and whether the record ends with it. -/
structure ScannedColumn where
  text : String
  count : Nat
  isLast : Bool
  deriving DecidableEq, Repr

/-- Refuse a record that is too long, and pass over the rest of it. -/
def tooLong (d : Delimiters) (s : TextStream) : Except RawError α × TextStream :=
  match s.skipPast d.record.toList with
  | (.ok (), s) => (.error (.data (.oversize d.max)), s)
  | (.error fault, s) => (.error (.io fault), s)

/-- Read on in a quoted column whose characters so far are `taken`, the last one first. The answer
is what the quotes enclose. -/
def quotedBody (d : Delimiters) (quote : Char) (s : TextStream) (taken : List Char) (count : Nat) :
    Except RawError (List Char × Nat) × TextStream :=
  match _h : s.next with
  | (.error fault, s) => (.error (.io fault), s)
  | (.ok none, s) => (.error (.data .unterminatedQuote), s)
  | (.ok (some c), s') =>
    if c = quote then
      match _h' : s'.next with
      | (.error fault, s) => (.error (.io fault), s)
      | (.ok none, s) => (.ok (taken.reverse, count + 1), s)
      | (.ok (some c'), s'') =>
        if c' = quote then
          if d.max < count + 2 then tooLong d s''
          else quotedBody d quote s'' (quote :: taken) (count + 2)
        else (.ok (taken.reverse, count + 1), s''.unread c')
    else if d.max < count + 1 then tooLong d s'
    else quotedBody d quote s' (c :: taken) (count + 1)
termination_by s.size
decreasing_by
  · exact Nat.lt_trans (TextStream.next_size_lt _h') (TextStream.next_size_lt _h)
  · exact TextStream.next_size_lt _h

def dividedColumn (d : Delimiters) (s : TextStream) (cs : List Char) (count : Nat) :
    Except RawError ScannedColumn × TextStream :=
  let count := count + d.field.chars.length
  if d.max < count then tooLong d s else (.ok ⟨String.ofList cs, count, false⟩, s)

def lastColumn (s : TextStream) (cs : List Char) (count : Nat) :
    Except RawError ScannedColumn × TextStream :=
  (.ok ⟨String.ofList cs, count, true⟩, s)

def afterQuoted (d : Delimiters) (column : Nat) (s : TextStream) (cs : List Char) (count : Nat) :
    Except RawError ScannedColumn × TextStream :=
  match s.tryMatch d.field.chars with
  | (.error fault, s) => (.error (.io fault), s)
  | (.ok true, s) => dividedColumn d s cs count
  | (.ok false, s) =>
    match s.tryMatch d.record.toList with
    | (.error fault, s) => (.error (.io fault), s)
    | (.ok true, s) => lastColumn s cs count
    | (.ok false, s) =>
      match s.atEnd with
      | (.error fault, s) => (.error (.io fault), s)
      | (.ok true, s) => lastColumn s cs count
      | (.ok false, s) =>
        match s.skipPast d.record.toList with
        | (.error fault, s) => (.error (.io fault), s)
        | (.ok (), s) => (.error (.data (.quoteNotClosedBySeparator column)), s)

def quotedColumn (d : Delimiters) (quote : Char) (column : Nat) (s : TextStream) (count : Nat) :
    Except RawError ScannedColumn × TextStream :=
  match quotedBody d quote s [] (count + 1) with
  | (.error e, s) => (.error e, s)
  | (.ok (cs, count), s) => afterQuoted d column s cs count

def bareColumn (d : Delimiters) (s : TextStream) (taken : List Char) (count : Nat) :
    Except RawError ScannedColumn × TextStream :=
  match _h₁ : s.tryMatch d.record.toList with
  | (.error fault, s) => (.error (.io fault), s)
  | (.ok true, s) => lastColumn s taken.reverse count
  | (.ok false, s₁) =>
    match _h₂ : s₁.tryMatch d.field.chars with
    | (.error fault, s) => (.error (.io fault), s)
    | (.ok true, s) => dividedColumn d s taken.reverse count
    | (.ok false, s₂) =>
      match _h₃ : s₂.next with
      | (.error fault, s) => (.error (.io fault), s)
      | (.ok none, s) => lastColumn s taken.reverse count
      | (.ok (some c), s₃) =>
        if d.max < count + 1 then tooLong d s₃ else bareColumn d s₃ (c :: taken) (count + 1)
termination_by s.size
decreasing_by
  exact Nat.lt_of_lt_of_le (TextStream.next_size_lt _h₃)
    (Nat.le_trans (TextStream.size_le_of_tryMatch _h₂) (TextStream.size_le_of_tryMatch _h₁))

def scanColumn (d : Delimiters) (column : Nat) (s : TextStream) (count : Nat) :
    Except RawError ScannedColumn × TextStream :=
  match d.quote with
  | none => bareColumn d s [] count
  | some quote =>
    match s.next with
    | (.error fault, s) => (.error (.io fault), s)
    | (.ok none, s) => lastColumn s [] count
    | (.ok (some c), s) =>
      if c = quote then quotedColumn d quote column s count else bareColumn d (s.unread c) [] count

theorem tooLong_ne_ok {d : Delimiters} {s s' : TextStream} {a : α} :
    tooLong d s ≠ (.ok a, s') := by
  simp only [tooLong]
  split <;> simp

theorem quotedBody_size_le {d : Delimiters} {quote : Char} {s s' : TextStream} {taken : List Char}
    {count : Nat} {found : List Char × Nat}
    (h : quotedBody d quote s taken count = (.ok found, s')) :
    s'.size ≤ s.size := by
  fun_induction quotedBody d quote s taken count with
  | case1 | case2 | case3 => simp at h
  | case4 =>
    rename_i h₂ h₁
    simp only [Prod.mk.injEq] at h
    exact h.2 ▸ Nat.le_trans (TextStream.size_le_of_next h₂) (TextStream.size_le_of_next h₁)
  | case5 => exact absurd h tooLong_ne_ok
  | case6 =>
    rename_i h₁ h₂ ih
    exact Nat.le_trans (ih h)
      (Nat.le_trans (TextStream.size_le_of_next h₂) (TextStream.size_le_of_next h₁))
  | case7 =>
    rename_i h₂ _ h₁
    have := TextStream.next_size_lt h₂
    have := TextStream.next_size_lt h₁
    simp only [Prod.mk.injEq] at h
    rw [← h.2, TextStream.unread_size]
    omega
  | case8 => exact absurd h tooLong_ne_ok
  | case9 =>
    rename_i h₁ _ _ ih
    exact Nat.le_trans (ih h) (TextStream.size_le_of_next h₁)

theorem eq_of_dividedColumn {d : Delimiters} {s s' : TextStream} {cs : List Char} {count : Nat}
    {found : ScannedColumn} (h : dividedColumn d s cs count = (.ok found, s')) : s' = s := by
  simp only [dividedColumn] at h
  split at h
  · exact absurd h tooLong_ne_ok
  · simp only [Prod.mk.injEq] at h
    exact h.2.symm

theorem afterQuoted_size_lt {d : Delimiters} {column : Nat} {s s' : TextStream} {cs : List Char}
    {count : Nat} {found : ScannedColumn}
    (h : afterQuoted d column s cs count = (.ok found, s')) (hl : found.isLast = false) :
    s'.size < s.size := by
  simp only [afterQuoted, lastColumn] at h
  split at h
  · simp at h
  · rename_i heq
    exact eq_of_dividedColumn h ▸ TextStream.tryMatch_size_lt d.field.chars_ne_nil heq
  · split at h
    · simp at h
    · simp only [Prod.mk.injEq, Except.ok.injEq] at h
      simp [← h.1] at hl
    · split at h
      · simp at h
      · simp only [Prod.mk.injEq, Except.ok.injEq] at h
        simp [← h.1] at hl
      · split at h <;> simp at h

theorem bareColumn_size_lt {d : Delimiters} {s s' : TextStream} {taken : List Char} {count : Nat}
    {found : ScannedColumn} (h : bareColumn d s taken count = (.ok found, s'))
    (hl : found.isLast = false) : s'.size < s.size := by
  fun_induction bareColumn d s taken count with
  | case1 | case3 | case5 => simp at h
  | case2 | case6 =>
    simp only [lastColumn, Prod.mk.injEq, Except.ok.injEq] at h
    simp [← h.1] at hl
  | case4 =>
    rename_i h₁ _ h₂
    exact eq_of_dividedColumn h ▸ Nat.lt_of_lt_of_le
      (TextStream.tryMatch_size_lt d.field.chars_ne_nil h₂) (TextStream.size_le_of_tryMatch h₁)
  | case7 => exact absurd h tooLong_ne_ok
  | case8 =>
    rename_i h₁ _ h₂ _ _ h₃ _ ih
    exact Nat.lt_trans (ih h) (Nat.lt_of_lt_of_le (TextStream.next_size_lt h₃)
      (Nat.le_trans (TextStream.size_le_of_tryMatch h₂) (TextStream.size_le_of_tryMatch h₁)))

/-- A column after which the record goes on is followed by less than it began with. -/
theorem scanColumn_size_lt {d : Delimiters} {column : Nat} {s s' : TextStream} {count : Nat}
    {found : ScannedColumn} (h : scanColumn d column s count = (.ok found, s'))
    (hl : found.isLast = false) : s'.size < s.size := by
  simp only [scanColumn] at h
  split at h
  · exact bareColumn_size_lt h hl
  · split at h
    · simp at h
    · simp only [lastColumn, Prod.mk.injEq, Except.ok.injEq] at h
      simp [← h.1] at hl
    · rename_i hnext
      have hlt := TextStream.next_size_lt hnext
      split at h
      · simp only [quotedColumn] at h
        split at h
        · simp at h
        · rename_i hbody
          exact Nat.lt_trans (afterQuoted_size_lt h hl)
            (Nat.lt_of_le_of_lt (quotedBody_size_le hbody) hlt)
      · have := bareColumn_size_lt h hl
        rw [TextStream.unread_size] at this
        omega

def scanColumns (d : Delimiters) (column : Nat) (s : TextStream) (count : Nat) :
    Except RawError (List String) × TextStream :=
  match _h : scanColumn d column s count with
  | (.error e, s) => (.error e, s)
  | (.ok found, s) =>
    if _hl : found.isLast then (.ok [found.text], s)
    else
      let (rest, s) := scanColumns d (column + 1) s found.count
      (rest.map (found.text :: ·), s)
termination_by s.size
decreasing_by exact scanColumn_size_lt _h (by simpa using _hl)

def scanRecord (d : Delimiters) (s : TextStream) : Except RawError (List String) × TextStream :=
  scanColumns d 1 s 0

end Flatfile.Delimited
