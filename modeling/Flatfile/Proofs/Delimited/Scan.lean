import Flatfile.Delimited.Line
import Flatfile.Proofs.Stream.Remaining

/-!
# The scanner on given text

What the scanner makes of a column, said of the characters that are left of the stream: a quoted
column whose quotes are doubled is read as what it encloses, and a column without quotes goes on as
long as no separator begins. The counts are those of the characters taken, so that the limit is
never met when the text is short enough.
-/

namespace Flatfile.Delimited

variable {d : Delimiters} {s s' s₁ s₂ : TextStream} {quote c : Char} {cs rest taken : List Char}
  {column count n : Nat}

-- ------------------------------------------------------------------
-- One step
-- ------------------------------------------------------------------

-- The definitions keep each answer of the stream for their termination argument. These equations do
-- without, so that an answer can be put in.

theorem quotedBody_eq (d : Delimiters) (quote : Char) (s : TextStream) (taken : List Char)
    (count : Nat) :
    quotedBody d quote s taken count =
      match s.next with
      | (.error fault, s) => (.error (.io fault), s)
      | (.ok none, s) => (.error (.data .unterminatedQuote), s)
      | (.ok (some c), s₁) =>
        if c = quote then
          match s₁.next with
          | (.error fault, s) => (.error (.io fault), s)
          | (.ok none, s) => (.ok (taken.reverse, count + 1), s)
          | (.ok (some c'), s₂) =>
            if c' = quote then
              if d.max < count + 2 then tooLong d s₂
              else quotedBody d quote s₂ (quote :: taken) (count + 2)
            else (.ok (taken.reverse, count + 1), s₂.unread c')
        else if d.max < count + 1 then tooLong d s₁
        else quotedBody d quote s₁ (c :: taken) (count + 1) := by
  rw [quotedBody]
  rcases s.next with ⟨_ | _ | c, s₁⟩
  · rfl
  · rfl
  · by_cases hc : c = quote
    · simp only [if_pos hc]
      rcases s₁.next with ⟨_ | _ | c', s₂⟩ <;> rfl
    · simp only [if_neg hc]

theorem bareColumn_eq (d : Delimiters) (s : TextStream) (taken : List Char) (count : Nat) :
    bareColumn d s taken count =
      match s.tryMatch d.record.toList with
      | (.error fault, s) => (.error (.io fault), s)
      | (.ok true, s) => lastColumn s taken.reverse count
      | (.ok false, s₁) =>
        match s₁.tryMatch d.field.chars with
        | (.error fault, s) => (.error (.io fault), s)
        | (.ok true, s) => dividedColumn d s taken.reverse count
        | (.ok false, s₂) =>
          match s₂.next with
          | (.error fault, s) => (.error (.io fault), s)
          | (.ok none, s) => lastColumn s taken.reverse count
          | (.ok (some c), s₃) =>
            if d.max < count + 1 then tooLong d s₃
            else bareColumn d s₃ (c :: taken) (count + 1) := by
  rw [bareColumn]
  rcases s.tryMatch d.record.toList with ⟨_ | _ | _, s₁⟩
  · rfl
  · simp only
    rcases s₁.tryMatch d.field.chars with ⟨_ | _ | _, s₂⟩
    · rfl
    · simp only
      rcases s₂.next with ⟨_ | _ | c, s₃⟩ <;> rfl
    · rfl
  · rfl

theorem quotedBody_char (hnext : s.next = (.ok (some c), s')) (hc : c ≠ quote)
    (hmax : count + 1 ≤ d.max) :
    quotedBody d quote s taken count = quotedBody d quote s' (c :: taken) (count + 1) := by
  rw [quotedBody_eq]
  simp only [hnext, if_neg hc, if_neg (Nat.not_lt.2 hmax)]

theorem quotedBody_twice (h₁ : s.next = (.ok (some quote), s₁))
    (h₂ : s₁.next = (.ok (some quote), s₂)) (hmax : count + 2 ≤ d.max) :
    quotedBody d quote s taken count = quotedBody d quote s₂ (quote :: taken) (count + 2) := by
  rw [quotedBody_eq]
  simp only [h₁, h₂, if_true, if_neg (Nat.not_lt.2 hmax)]

theorem quotedBody_char_tooLong (hnext : s.next = (.ok (some c), s')) (hc : c ≠ quote)
    (hmax : d.max < count + 1) : quotedBody d quote s taken count = tooLong d s' := by
  rw [quotedBody_eq]
  simp only [hnext, if_neg hc, if_pos hmax]

theorem quotedBody_twice_tooLong (h₁ : s.next = (.ok (some quote), s₁))
    (h₂ : s₁.next = (.ok (some quote), s₂)) (hmax : d.max < count + 2) :
    quotedBody d quote s taken count = tooLong d s₂ := by
  rw [quotedBody_eq]
  simp only [h₁, h₂, if_true, if_pos hmax]

theorem quotedBody_close (h₁ : s.next = (.ok (some quote), s₁))
    (h₂ : s₁.next = (.ok (some c), s₂)) (hc : c ≠ quote) :
    quotedBody d quote s taken count = (.ok (taken.reverse, count + 1), s₂.unread c) := by
  rw [quotedBody_eq]
  simp only [h₁, h₂, if_true, if_neg hc]

theorem quotedBody_close_end (h₁ : s.next = (.ok (some quote), s₁))
    (h₂ : s₁.next = (.ok none, s₂)) :
    quotedBody d quote s taken count = (.ok (taken.reverse, count + 1), s₂) := by
  rw [quotedBody_eq]
  simp only [h₁, h₂, if_true]

theorem quotedBody_unterminated (hnext : s.next = (.ok none, s')) :
    quotedBody d quote s taken count = (.error (.data .unterminatedQuote), s') := by
  rw [quotedBody_eq, hnext]

theorem bareColumn_atRecord (hr : s.tryMatch d.record.toList = (.ok true, s')) :
    bareColumn d s taken count = lastColumn s' taken.reverse count := by
  rw [bareColumn_eq, hr]

theorem bareColumn_atField (hr : s.tryMatch d.record.toList = (.ok false, s₁))
    (hf : s₁.tryMatch d.field.chars = (.ok true, s')) :
    bareColumn d s taken count = dividedColumn d s' taken.reverse count := by
  rw [bareColumn_eq]
  simp only [hr, hf]

theorem bareColumn_char (hr : s.tryMatch d.record.toList = (.ok false, s₁))
    (hf : s₁.tryMatch d.field.chars = (.ok false, s₂)) (hnext : s₂.next = (.ok (some c), s'))
    (hmax : count + 1 ≤ d.max) :
    bareColumn d s taken count = bareColumn d s' (c :: taken) (count + 1) := by
  rw [bareColumn_eq]
  simp only [hr, hf, hnext, if_neg (Nat.not_lt.2 hmax)]

theorem bareColumn_atEnd (hr : s.tryMatch d.record.toList = (.ok false, s₁))
    (hf : s₁.tryMatch d.field.chars = (.ok false, s₂)) (hnext : s₂.next = (.ok none, s')) :
    bareColumn d s taken count = lastColumn s' taken.reverse count := by
  rw [bareColumn_eq]
  simp only [hr, hf, hnext]

theorem bareColumn_tooLong (hr : s.tryMatch d.record.toList = (.ok false, s₁))
    (hf : s₁.tryMatch d.field.chars = (.ok false, s₂)) (hnext : s₂.next = (.ok (some c), s'))
    (hmax : d.max < count + 1) :
    bareColumn d s taken count = tooLong d s' := by
  rw [bareColumn_eq]
  simp only [hr, hf, hnext, if_pos hmax]

theorem dividedColumn_ok (hmax : count + d.field.chars.length ≤ d.max) :
    dividedColumn d s cs count =
      (.ok ⟨String.ofList cs, count + d.field.chars.length, false⟩, s) := by
  simp [dividedColumn, Nat.not_lt.2 hmax]

-- ------------------------------------------------------------------
-- Quoted columns
-- ------------------------------------------------------------------

/-- The reader takes doubled quotes for what was doubled, and stops at the quote after which none
follows. -/
theorem quotedBody_doubleQuotes (taken : List Char) (count : Nat)
    (hs : s.Holds (doubleQuotes quote cs ++ quote :: rest))
    (hrest : rest.head? ≠ some quote)
    (hmax : count + (doubleQuotes quote cs).length ≤ d.max) :
    ∃ s', quotedBody d quote s taken count =
        (.ok (taken.reverse ++ cs, count + (doubleQuotes quote cs).length + 1), s') ∧
      s'.Holds rest := by
  induction cs generalizing s taken count with
  | nil =>
    obtain ⟨s₁, h₁, hs₁⟩ := hs.next_cons
    cases rest with
    | nil =>
      obtain ⟨s₂, h₂, hs₂⟩ := hs₁.next_nil
      exact ⟨s₂, by simp [quotedBody_close_end h₁ h₂, doubleQuotes], hs₂⟩
    | cons c rest =>
      obtain ⟨s₂, h₂, hs₂⟩ := hs₁.next_cons
      have hc : c ≠ quote := by simpa using hrest
      exact ⟨s₂.unread c, by simp [quotedBody_close h₁ h₂ hc, doubleQuotes], hs₂.unread c⟩
  | cons c cs ih =>
    by_cases hc : c = quote
    · subst hc
      simp only [doubleQuotes, List.flatMap_cons, if_true, List.cons_append, List.nil_append,
        List.length_cons] at hs hmax ih ⊢
      obtain ⟨s₁, h₁, hs₁⟩ := hs.next_cons
      obtain ⟨s₂, h₂, hs₂⟩ := hs₁.next_cons
      obtain ⟨s', hread, hs'⟩ := ih (c :: taken) (count + 2) hs₂ (by omega)
      refine ⟨s', ?_, hs'⟩
      rw [quotedBody_twice h₁ h₂ (by omega), hread]
      simp only [List.reverse_cons, List.append_assoc, List.cons_append, List.nil_append]
      congr 4
      omega
    · simp only [doubleQuotes, List.flatMap_cons, hc, if_false, List.cons_append, List.nil_append,
        List.length_cons] at hs hmax ih ⊢
      obtain ⟨s₁, h₁, hs₁⟩ := hs.next_cons
      obtain ⟨s', hread, hs'⟩ := ih (c :: taken) (count + 1) hs₁ (by omega)
      refine ⟨s', ?_, hs'⟩
      rw [quotedBody_char h₁ hc (by omega), hread]
      simp only [List.reverse_cons, List.append_assoc, List.cons_append, List.nil_append]
      congr 4
      omega

theorem afterQuoted_field (column : Nat) (hs : s.Holds (d.field.chars ++ rest))
    (hmax : count + d.field.chars.length ≤ d.max) :
    ∃ s', afterQuoted d column s cs count =
        (.ok ⟨String.ofList cs, count + d.field.chars.length, false⟩, s') ∧ s'.Holds rest := by
  obtain ⟨s', hmatch, hs'⟩ := hs.tryMatch_append
  exact ⟨s', by simp [afterQuoted, hmatch, dividedColumn_ok hmax], hs'⟩

theorem afterQuoted_record (column count : Nat) (hs : s.Holds (d.record.toList ++ rest))
    (hf : ¬ d.field.chars <+: d.record.toList ++ rest) :
    ∃ s', afterQuoted d column s cs count = (.ok ⟨String.ofList cs, count, true⟩, s') ∧
      s'.Holds rest := by
  obtain ⟨s₁, hfield, hs₁⟩ := hs.tryMatch_of_absent hf
  obtain ⟨s', hmatch, hs'⟩ := hs₁.tryMatch_append
  exact ⟨s', by simp [afterQuoted, hfield, hmatch, lastColumn], hs'⟩

-- ------------------------------------------------------------------
-- Columns without quotes
-- ------------------------------------------------------------------

/-- No separator begins at any of the characters `cs`, which `rest` follows. -/
def Undivided (d : Delimiters) (cs rest : List Char) : Prop :=
  ∀ k < cs.length, ¬ d.record.toList <+: (cs ++ rest).drop k ∧
    ¬ d.field.chars <+: (cs ++ rest).drop k

theorem bareColumn_undivided (taken : List Char) (count : Nat) (hs : s.Holds (cs ++ rest))
    (hu : Undivided d cs rest) (hmax : count + cs.length ≤ d.max) :
    ∃ s', bareColumn d s taken count =
        bareColumn d s' (cs.reverse ++ taken) (count + cs.length) ∧ s'.Holds rest := by
  induction cs generalizing s taken count with
  | nil => exact ⟨s, rfl, hs⟩
  | cons c cs ih =>
    rw [List.length_cons] at hmax
    obtain ⟨hr, hf⟩ := hu 0 (by simp)
    obtain ⟨s₁, hrecord, hs₁⟩ := hs.tryMatch_of_absent hr
    obtain ⟨s₂, hfield, hs₂⟩ := hs₁.tryMatch_of_absent hf
    obtain ⟨s₃, hnext, hs₃⟩ := hs₂.next_cons
    have hu' : Undivided d cs rest := fun k hk => hu (k + 1) (by simpa using hk)
    obtain ⟨s', hread, hs'⟩ := ih (c :: taken) (count + 1) hs₃ hu' (by omega)
    refine ⟨s', ?_, hs'⟩
    rw [bareColumn_char hrecord hfield hnext (by omega), hread, List.reverse_cons,
      List.append_assoc, List.length_cons, Nat.add_assoc, Nat.add_comm 1]
    rfl

theorem bareColumn_field (count : Nat) (hs : s.Holds (cs ++ (d.field.chars ++ rest)))
    (hu : Undivided d cs (d.field.chars ++ rest))
    (hr : ¬ d.record.toList <+: d.field.chars ++ rest)
    (hmax : count + cs.length + d.field.chars.length ≤ d.max) :
    ∃ s', bareColumn d s [] count =
        (.ok ⟨String.ofList cs, count + cs.length + d.field.chars.length, false⟩, s') ∧
      s'.Holds rest := by
  obtain ⟨s₁, hread, hs₁⟩ := bareColumn_undivided [] count hs hu (by omega)
  obtain ⟨s₂, hrecord, hs₂⟩ := hs₁.tryMatch_of_absent hr
  obtain ⟨s', hfield, hs'⟩ := hs₂.tryMatch_append
  refine ⟨s', ?_, hs'⟩
  rw [hread, bareColumn_atField hrecord hfield, dividedColumn_ok hmax]
  simp

theorem bareColumn_record (hs : s.Holds (cs ++ (d.record.toList ++ rest)))
    (hu : Undivided d cs (d.record.toList ++ rest)) (hmax : count + cs.length ≤ d.max) :
    ∃ s', bareColumn d s [] count = (.ok ⟨String.ofList cs, count + cs.length, true⟩, s') ∧
      s'.Holds rest := by
  obtain ⟨s₁, hread, hs₁⟩ := bareColumn_undivided [] count hs hu hmax
  obtain ⟨s', hrecord, hs'⟩ := hs₁.tryMatch_append
  refine ⟨s', ?_, hs'⟩
  rw [hread, bareColumn_atRecord hrecord, lastColumn]
  simp

-- ------------------------------------------------------------------
-- Columns
-- ------------------------------------------------------------------

theorem scanColumn_bare (column count : Nat) (hs : s.Holds cs) (hne : cs ≠ [])
    (hq : ∀ quote ∈ d.quote, cs.head? ≠ some quote) :
    ∃ s', scanColumn d column s count = bareColumn d s' [] count ∧ s'.Holds cs := by
  cases hquote : d.quote with
  | none => exact ⟨s, by simp [scanColumn, hquote], hs⟩
  | some quote =>
    obtain ⟨c, cs, rfl⟩ := List.exists_cons_of_ne_nil hne
    obtain ⟨s', hnext, hs'⟩ := hs.next_cons
    have hc : c ≠ quote := by simpa using hq quote hquote
    exact ⟨s'.unread c, by simp [scanColumn, hquote, hnext, hc], hs'.unread c⟩

theorem scanColumn_quoted (column count : Nat) (hs : s.Holds (quote :: cs))
    (hq : d.quote = some quote) :
    ∃ s', scanColumn d column s count = quotedColumn d quote column s' count ∧ s'.Holds cs := by
  obtain ⟨s', hnext, hs'⟩ := hs.next_cons
  exact ⟨s', by simp [scanColumn, hq, hnext], hs'⟩

def readOn (d : Delimiters) (column : Nat) :
    Except RawError ScannedColumn × TextStream → Except RawError (List String) × TextStream
  | (.error e, s) => (.error e, s)
  | (.ok found, s) =>
    if found.isLast then (.ok [found.text], s)
    else
      let (rest, s) := scanColumns d (column + 1) s found.count
      (rest.map (found.text :: ·), s)

theorem scanColumns_eq_readOn (d : Delimiters) (column : Nat) (s : TextStream) (count : Nat) :
    scanColumns d column s count = readOn d column (scanColumn d column s count) := by
  rw [scanColumns]
  rcases scanColumn d column s count with ⟨_ | found, s'⟩
  · rfl
  · cases hlast : found.isLast <;> simp only [readOn, hlast] <;> rfl

theorem scanColumns_last {text : String}
    (h : scanColumn d column s count = (.ok ⟨text, n, true⟩, s')) :
    scanColumns d column s count = (.ok [text], s') := by
  rw [scanColumns_eq_readOn, h]
  rfl

theorem scanColumns_divided {text : String}
    (h : scanColumn d column s count = (.ok ⟨text, n, false⟩, s')) :
    scanColumns d column s count =
      ((scanColumns d (column + 1) s' n).1.map (text :: ·),
        (scanColumns d (column + 1) s' n).2) := by
  rw [scanColumns_eq_readOn, h]
  rfl

end Flatfile.Delimited
