import Flatfile.Delimited.Blank
import Flatfile.Proofs.Delimited.Segments

/-!
# What scanning takes

What the scanner answers and leaves hangs on the characters that are left of the stream, not on how
they lie in it. What it leaves is an end of them. On text that does not end at once it takes
something, whether it answers with columns or refuses them (`takes_scanRecord`), so that every loop
around it comes to an end.
-/

namespace Flatfile

namespace Text

theorem pastNext_suffix (pattern cs : List Char) : pastNext pattern cs <:+ cs := by
  induction cs with
  | nil => exact List.nil_suffix
  | cons c cs ih =>
    by_cases hp : pattern <+: c :: cs
    · rw [pastNext_of_begins hp]
      exact List.drop_suffix _ _
    · rw [pastNext_cons hp]
      exact ih.trans (List.suffix_cons c cs)

end Text

namespace TextStream

/-- Where `cs` is left, the action answers `a` and leaves `rest`. -/
structure Takes (action : TextStream → α × TextStream) (cs : List Char) (a : α)
    (rest : List Char) : Prop where
  suffix : rest <:+ cs
  run : ∀ {s : TextStream}, s.Holds cs → ∃ s', action s = (a, s') ∧ s'.Holds rest

variable {action next : TextStream → α × TextStream} {a : α} {cs cs' rest : List Char}

theorem Takes.length_le (h : Takes action cs a rest) : rest.length ≤ cs.length :=
  h.suffix.length_le

theorem Takes.behind (h : Takes next cs' a rest) (hsuffix : cs' <:+ cs)
    (hrun : ∀ {s : TextStream}, s.Holds cs → ∃ s', action s = next s' ∧ s'.Holds cs') :
    Takes action cs a rest := by
  refine ⟨h.suffix.trans hsuffix, fun hs => ?_⟩
  obtain ⟨s₁, heq, hs₁⟩ := hrun hs
  rw [heq]
  exact h.run hs₁

end TextStream

namespace Delimited

open TextStream (Takes)

variable {d : Delimiters} {s s' : TextStream} {quote : Char} {cs rest taken : List Char}
  {count : Nat}

theorem takes_tooLong (α : Type) (d : Delimiters) (cs : List Char) :
    Takes (fun s => (tooLong d s : Except RawError α × TextStream)) cs
      (.error (.data (.oversize d.max))) (Text.pastNext d.record.toList cs) :=
  ⟨Text.pastNext_suffix _ _, fun hs => tooLong_eq α d hs⟩

-- ------------------------------------------------------------------
-- Quoted columns
-- ------------------------------------------------------------------

theorem takes_quotedBody (d : Delimiters) (quote : Char) (taken : List Char) (count : Nat)
    (cs : List Char) :
    ∃ (found : Except DataCause (List Char × Nat)) (rest : List Char),
      Takes (quotedBody d quote · taken count) cs (found.mapError .data) rest := by
  -- The quote and the character after it are taken together.
  induction hlen : cs.length using Nat.strongRecOn generalizing cs taken count with
  | ind n ih =>
  cases cs with
  | nil =>
    refine ⟨.error .unterminatedQuote, [], List.nil_suffix, fun hs => ?_⟩
    obtain ⟨s', hnext, hs'⟩ := hs.next_nil
    exact ⟨s', quotedBody_unterminated hnext, hs'⟩
  | cons c cs =>
  by_cases hc : c = quote
  · subst hc
    cases cs with
    | nil =>
      refine ⟨.ok (taken.reverse, count + 1), [], List.nil_suffix, fun hs => ?_⟩
      obtain ⟨s₁, h₁, hs₁⟩ := hs.next_cons
      obtain ⟨s₂, h₂, hs₂⟩ := hs₁.next_nil
      exact ⟨s₂, quotedBody_close_end h₁ h₂, hs₂⟩
    | cons c' cs =>
      by_cases hc' : c' = c
      · subst hc'
        have hsuffix : cs <:+ c' :: c' :: cs := List.suffix_append [c', c'] cs
        by_cases hmax : d.max < count + 2
        · refine ⟨.error (.oversize d.max), _, (takes_tooLong _ d cs).behind hsuffix ?_⟩
          intro s hs
          obtain ⟨s₁, h₁, hs₁⟩ := hs.next_cons
          obtain ⟨s₂, h₂, hs₂⟩ := hs₁.next_cons
          exact ⟨s₂, quotedBody_twice_tooLong h₁ h₂ hmax, hs₂⟩
        · have hshort : cs.length < n := by simp only [← hlen, List.length_cons]; omega
          obtain ⟨found, rest, h⟩ := ih _ hshort (c' :: taken) (count + 2) cs rfl
          refine ⟨found, rest, h.behind hsuffix fun hs => ?_⟩
          obtain ⟨s₁, h₁, hs₁⟩ := hs.next_cons
          obtain ⟨s₂, h₂, hs₂⟩ := hs₁.next_cons
          exact ⟨s₂, quotedBody_twice h₁ h₂ (Nat.not_lt.1 hmax), hs₂⟩
      · refine ⟨.ok (taken.reverse, count + 1), c' :: cs, List.suffix_cons c _, fun hs => ?_⟩
        obtain ⟨s₁, h₁, hs₁⟩ := hs.next_cons
        obtain ⟨s₂, h₂, hs₂⟩ := hs₁.next_cons
        exact ⟨s₂.unread c', quotedBody_close h₁ h₂ hc', hs₂.unread c'⟩
  · by_cases hmax : d.max < count + 1
    · refine ⟨.error (.oversize d.max), _,
        (takes_tooLong _ d cs).behind (List.suffix_cons c cs) fun hs => ?_⟩
      obtain ⟨s₁, h₁, hs₁⟩ := hs.next_cons
      exact ⟨s₁, quotedBody_char_tooLong h₁ hc hmax, hs₁⟩
    · have hshort : cs.length < n := by simp [← hlen]
      obtain ⟨found, rest, h⟩ := ih _ hshort (c :: taken) (count + 1) cs rfl
      refine ⟨found, rest, h.behind (List.suffix_cons c cs) fun hs => ?_⟩
      obtain ⟨s₁, h₁, hs₁⟩ := hs.next_cons
      exact ⟨s₁, quotedBody_char h₁ hc (Nat.not_lt.1 hmax), hs₁⟩

theorem takes_dividedColumn (d : Delimiters) (text : List Char) (count : Nat) (cs : List Char) :
    ∃ (found : Except DataCause ScannedColumn) (rest : List Char),
      Takes (dividedColumn d · text count) cs (found.mapError .data) rest := by
  by_cases hmax : d.max < count + d.field.chars.length
  · refine ⟨.error (.oversize d.max), _, (takes_tooLong _ d cs).behind List.suffix_rfl ?_⟩
    exact fun {s} hs => ⟨s, if_pos hmax, hs⟩
  · exact ⟨.ok _, cs, List.suffix_rfl, fun {s} hs => ⟨s, dividedColumn_ok (Nat.not_lt.1 hmax), hs⟩⟩

theorem takes_afterQuoted (d : Delimiters) (column : Nat) (text : List Char) (count : Nat)
    (cs : List Char) :
    ∃ (found : Except DataCause ScannedColumn) (rest : List Char),
      Takes (afterQuoted d column · text count) cs (found.mapError .data) rest := by
  by_cases hf : d.field.chars <+: cs
  · obtain ⟨behind, rfl⟩ := hf
    obtain ⟨found, rest, h⟩ := takes_dividedColumn d text count behind
    refine ⟨found, rest, h.behind (List.suffix_append _ _) fun hs => ?_⟩
    obtain ⟨s₁, hfield, hs₁⟩ := hs.tryMatch_append
    exact ⟨s₁, by simp only [afterQuoted, hfield], hs₁⟩
  by_cases hr : d.record.toList <+: cs
  · obtain ⟨rest, rfl⟩ := hr
    refine ⟨.ok ⟨String.ofList text, count, true⟩, rest, List.suffix_append _ _, fun hs => ?_⟩
    exact afterQuoted_record column count hs hf
  cases cs with
  | nil =>
    refine ⟨.ok ⟨String.ofList text, count, true⟩, [], List.suffix_rfl, fun hs => ?_⟩
    obtain ⟨s₁, hfield, hs₁⟩ := hs.tryMatch_of_absent hf
    obtain ⟨s₂, hrecord, hs₂⟩ := hs₁.tryMatch_of_absent hr
    obtain ⟨s₃, hend, hs₃⟩ := hs₂.atEnd
    exact ⟨s₃, by simp [afterQuoted, hfield, hrecord, hend, lastColumn, Except.mapError], hs₃⟩
  | cons c cs =>
    refine ⟨.error (.quoteNotClosedBySeparator column), Text.pastNext d.record.toList (c :: cs),
      Text.pastNext_suffix _ _, fun hs => ?_⟩
    obtain ⟨s₁, hfield, hs₁⟩ := hs.tryMatch_of_absent hf
    obtain ⟨s₂, hrecord, hs₂⟩ := hs₁.tryMatch_of_absent hr
    obtain ⟨s₃, hend, hs₃⟩ := hs₂.atEnd
    obtain ⟨s₄, hskip, hs₄⟩ := hs₃.skipPast d.record.toList
    exact ⟨s₄, by simp [afterQuoted, hfield, hrecord, hend, hskip, Except.mapError], hs₄⟩

theorem takes_quotedColumn (d : Delimiters) (quote : Char) (column count : Nat) (cs : List Char) :
    ∃ (found : Except DataCause ScannedColumn) (rest : List Char),
      Takes (quotedColumn d quote column · count) cs (found.mapError .data) rest := by
  obtain ⟨found, behind, hbody⟩ := takes_quotedBody d quote [] (count + 1) cs
  cases found with
  | error cause =>
    refine ⟨.error cause, behind, hbody.suffix, fun hs => ?_⟩
    obtain ⟨s₁, h₁, hs₁⟩ := hbody.run hs
    exact ⟨s₁, by simp only [quotedColumn, h₁, Except.mapError], hs₁⟩
  | ok body =>
    obtain ⟨found, rest, hafter⟩ := takes_afterQuoted d column body.1 body.2 behind
    refine ⟨found, rest, hafter.behind hbody.suffix fun hs => ?_⟩
    obtain ⟨s₁, h₁, hs₁⟩ := hbody.run hs
    exact ⟨s₁, by simp only [quotedColumn, h₁, Except.mapError], hs₁⟩

-- ------------------------------------------------------------------
-- Columns
-- ------------------------------------------------------------------

/-- Something is taken, or a column is the last one and there was nothing to take: not a character,
or not one of the record separator. -/
def Advances (d : Delimiters) (cs rest : List Char) (found : Except DataCause ScannedColumn) :
    Prop :=
  rest.length < cs.length ∨
    (cs = [] ∨ d.record.toList = []) ∧ ∃ column, found = .ok column ∧ column.isLast = true

theorem takes_bareColumn_record (taken : List Char) (count : Nat) (hr : d.record.toList <+: cs) :
    ∃ (found : Except DataCause ScannedColumn) (rest : List Char),
      Takes (bareColumn d · taken count) cs (found.mapError .data) rest ∧
        Advances d cs rest found := by
  obtain ⟨rest, rfl⟩ := hr
  refine ⟨.ok ⟨String.ofList taken.reverse, count, true⟩, rest,
    ⟨List.suffix_append _ _, fun hs => ?_⟩, ?_⟩
  · obtain ⟨s₁, hrecord, hs₁⟩ := hs.tryMatch_append
    exact ⟨s₁, bareColumn_atRecord hrecord, hs₁⟩
  · by_cases hnil : d.record.toList = []
    · exact .inr ⟨.inr hnil, _, rfl, rfl⟩
    · have := List.length_pos_iff.2 hnil
      exact .inl (by rw [List.length_append]; omega)

theorem takes_bareColumn_field (taken : List Char) (count : Nat) (hr : ¬ d.record.toList <+: cs)
    (hf : d.field.chars <+: cs) :
    ∃ (found : Except DataCause ScannedColumn) (rest : List Char),
      Takes (bareColumn d · taken count) cs (found.mapError .data) rest ∧
        Advances d cs rest found := by
  obtain ⟨behind, rfl⟩ := hf
  have hshort : behind.length < (d.field.chars ++ behind).length := by
    have := List.length_pos_iff.2 d.field.chars_ne_nil
    rw [List.length_append]
    omega
  obtain ⟨found, rest, h⟩ := takes_dividedColumn d taken.reverse count behind
  refine ⟨found, rest, h.behind (List.suffix_append _ _) fun hs => ?_,
    .inl (Nat.lt_of_le_of_lt h.length_le hshort)⟩
  obtain ⟨s₁, hrecord, hs₁⟩ := hs.tryMatch_of_absent hr
  obtain ⟨s₂, hfield, hs₂⟩ := hs₁.tryMatch_append
  exact ⟨s₂, bareColumn_atField hrecord hfield, hs₂⟩

theorem takes_bareColumn (d : Delimiters) (taken : List Char) (count : Nat) (cs : List Char) :
    ∃ (found : Except DataCause ScannedColumn) (rest : List Char),
      Takes (bareColumn d · taken count) cs (found.mapError .data) rest ∧
        Advances d cs rest found := by
  induction cs generalizing taken count with
  | nil =>
    by_cases hr : d.record.toList <+: []
    · exact takes_bareColumn_record taken count hr
    · refine ⟨.ok ⟨String.ofList taken.reverse, count, true⟩, [], ⟨List.suffix_rfl, fun hs => ?_⟩,
        .inr ⟨.inl rfl, _, rfl, rfl⟩⟩
      obtain ⟨s₁, hrecord, hs₁⟩ := hs.tryMatch_of_absent hr
      obtain ⟨s₂, hfield, hs₂⟩ :=
        hs₁.tryMatch_of_absent (mt List.prefix_nil.1 d.field.chars_ne_nil)
      obtain ⟨s₃, hnext, hs₃⟩ := hs₂.next_nil
      exact ⟨s₃, bareColumn_atEnd hrecord hfield hnext, hs₃⟩
  | cons c cs ih =>
    by_cases hr : d.record.toList <+: c :: cs
    · exact takes_bareColumn_record taken count hr
    by_cases hf : d.field.chars <+: c :: cs
    · exact takes_bareColumn_field taken count hr hf
    -- No separator begins here, and the next character is taken.
    have hchar {s : TextStream} (hs : s.Holds (c :: cs)) :
        ∃ s₁ s₂ s₃, s.tryMatch d.record.toList = (.ok false, s₁) ∧
          s₁.tryMatch d.field.chars = (.ok false, s₂) ∧ s₂.next = (.ok (some c), s₃) ∧
          s₃.Holds cs := by
      obtain ⟨s₁, hrecord, hs₁⟩ := hs.tryMatch_of_absent hr
      obtain ⟨s₂, hfield, hs₂⟩ := hs₁.tryMatch_of_absent hf
      obtain ⟨s₃, hnext, hs₃⟩ := hs₂.next_cons
      exact ⟨s₁, s₂, s₃, hrecord, hfield, hnext, hs₃⟩
    have hsuffix : cs <:+ c :: cs := List.suffix_cons c cs
    by_cases hmax : d.max < count + 1
    · have h := takes_tooLong ScannedColumn d cs
      refine ⟨.error (.oversize d.max), _, h.behind hsuffix fun hs => ?_,
        .inl (Nat.lt_succ_of_le h.length_le)⟩
      obtain ⟨s₁, s₂, s₃, hrecord, hfield, hnext, hs₃⟩ := hchar hs
      exact ⟨s₃, bareColumn_tooLong hrecord hfield hnext hmax, hs₃⟩
    · obtain ⟨found, rest, h, -⟩ := ih (c :: taken) (count + 1)
      refine ⟨found, rest, h.behind hsuffix fun hs => ?_, .inl (Nat.lt_succ_of_le h.length_le)⟩
      obtain ⟨s₁, s₂, s₃, hrecord, hfield, hnext, hs₃⟩ := hchar hs
      exact ⟨s₃, bareColumn_char hrecord hfield hnext (Nat.not_lt.1 hmax), hs₃⟩

theorem takes_scanColumn (d : Delimiters) (column count : Nat) (cs : List Char) :
    ∃ (found : Except DataCause ScannedColumn) (rest : List Char),
      Takes (scanColumn d column · count) cs (found.mapError .data) rest ∧
        Advances d cs rest found := by
  by_cases hq : ∃ quote ∈ d.quote, cs.head? = some quote
  · obtain ⟨quote, hquote, hhead⟩ := hq
    obtain ⟨cs, rfl⟩ := List.head?_eq_some_iff.1 hhead
    obtain ⟨found, rest, h⟩ := takes_quotedColumn d quote column count cs
    refine ⟨found, rest, h.behind (List.suffix_cons quote cs) fun hs => ?_,
      .inl (Nat.lt_succ_of_le h.length_le)⟩
    exact scanColumn_quoted column count hs hquote
  cases cs with
  | nil =>
    cases hquote : d.quote with
    | none =>
      obtain ⟨found, rest, h, hadvances⟩ := takes_bareColumn d [] count []
      refine ⟨found, rest, h.behind List.suffix_rfl fun {s} hs => ?_, hadvances⟩
      exact ⟨s, by simp only [scanColumn, hquote], hs⟩
    | some quote =>
      refine ⟨.ok ⟨String.ofList [], count, true⟩, [], ⟨List.suffix_rfl, fun hs => ?_⟩,
        .inr ⟨.inl rfl, _, rfl, rfl⟩⟩
      obtain ⟨s₁, hnext, hs₁⟩ := hs.next_nil
      exact ⟨s₁, by simp only [scanColumn, hquote, hnext, lastColumn, Except.mapError], hs₁⟩
  | cons c cs =>
    obtain ⟨found, rest, h, hadvances⟩ := takes_bareColumn d [] count (c :: cs)
    refine ⟨found, rest, h.behind List.suffix_rfl fun hs => ?_, hadvances⟩
    exact scanColumn_bare column count hs (List.cons_ne_nil c cs)
      fun quote hquote hhead => hq ⟨quote, hquote, hhead⟩

-- ------------------------------------------------------------------
-- Records
-- ------------------------------------------------------------------

theorem takes_scanColumns (d : Delimiters) (column count : Nat) (cs : List Char) :
    ∃ (found : Except DataCause (List String)) (rest : List Char),
      Takes (scanColumns d column · count) cs (found.mapError .data) rest ∧
        (cs ≠ [] → d.record.toList ≠ [] → rest.length < cs.length) := by
  -- A column after which the record goes on takes something.
  induction hlen : cs.length using Nat.strongRecOn generalizing cs column count with
  | ind n ih =>
  obtain ⟨found, behind, hcolumn, hadvances⟩ := takes_scanColumn d column count cs
  have hprogress (hcs : cs ≠ []) (hne : d.record.toList ≠ []) : behind.length < cs.length :=
    hadvances.resolve_right fun h => h.1.elim hcs hne
  cases found with
  | error cause =>
    refine ⟨.error cause, behind, ⟨hcolumn.suffix, fun hs => ?_⟩, hlen ▸ hprogress⟩
    obtain ⟨s₁, h₁, hs₁⟩ := hcolumn.run hs
    exact ⟨s₁, by rw [scanColumns_eq_readOn, h₁]; rfl, hs₁⟩
  | ok found =>
    obtain ⟨text, counted, isLast⟩ := found
    cases isLast with
    | true =>
      refine ⟨.ok [text], behind, ⟨hcolumn.suffix, fun hs => ?_⟩, hlen ▸ hprogress⟩
      obtain ⟨s₁, h₁, hs₁⟩ := hcolumn.run hs
      exact ⟨s₁, scanColumns_last h₁, hs₁⟩
    | false =>
      have hshort : behind.length < cs.length := by
        refine hadvances.resolve_right ?_
        rintro ⟨-, column, heq, hlast⟩
        rw [← Except.ok.inj heq] at hlast
        exact Bool.false_ne_true hlast
      obtain ⟨others, rest, hothers, -⟩ := ih _ (hlen ▸ hshort) (column + 1) counted behind rfl
      refine ⟨others.map (text :: ·), rest, ⟨hothers.suffix.trans hcolumn.suffix, fun hs => ?_⟩,
        fun _ _ => hlen ▸ Nat.lt_of_le_of_lt hothers.length_le hshort⟩
      obtain ⟨s₁, h₁, hs₁⟩ := hcolumn.run hs
      obtain ⟨s₂, h₂, hs₂⟩ := hothers.run hs₁
      refine ⟨s₂, ?_, hs₂⟩
      rw [scanColumns_divided h₁, h₂]
      cases others <;> rfl

/-- Scanning a record answers for the text, without a fault of the stream, and takes some of it
unless it is at its end. -/
theorem takes_scanRecord (d : Delimiters) (cs : List Char) :
    ∃ (found : Except DataCause (List String)) (rest : List Char),
      Takes (scanRecord d) cs (found.mapError .data) rest ∧
        (cs ≠ [] → d.record ≠ "" → rest.length < cs.length) := by
  obtain ⟨found, rest, h, hprogress⟩ := takes_scanColumns d 1 0 cs
  refine ⟨found, rest, h, fun hcs hne => hprogress hcs ?_⟩
  rwa [ne_eq, String.toList_eq_nil_iff]

theorem takes_skipBlanks (separator : List Char) (count : Nat) (cs : List Char) :
    ∃ blanks rest, Takes (skipBlanks separator · count) cs (.ok blanks) rest := by
  by_cases hnil : separator = []
  · exact ⟨count, cs, List.suffix_rfl, fun {s} hs => ⟨s, by rw [skipBlanks, dif_pos hnil], hs⟩⟩
  induction hlen : cs.length using Nat.strongRecOn generalizing cs count with
  | ind n ih =>
  by_cases hp : separator <+: cs
  · obtain ⟨behind, rfl⟩ := hp
    have hshort : behind.length < n := by
      have := List.length_pos_iff.2 hnil
      rw [← hlen, List.length_append]
      omega
    obtain ⟨blanks, rest, h⟩ := ih _ hshort (count + 1) behind rfl
    refine ⟨blanks, rest, h.behind (List.suffix_append _ _) fun hs => ?_⟩
    obtain ⟨s₁, hmatch, hs₁⟩ := hs.tryMatch_append
    exact ⟨s₁, skipBlanks_blank hnil hmatch, hs₁⟩
  · refine ⟨count, cs, List.suffix_rfl, fun hs => ?_⟩
    obtain ⟨s₁, hmatch, hs₁⟩ := hs.tryMatch_of_absent hp
    exact ⟨s₁, skipBlanks_end hnil hmatch, hs₁⟩

theorem takes_toRecord (ignoreBlanks : Bool) (separator cs : List Char) :
    ∃ found rest, Takes (toRecord ignoreBlanks separator) cs (.ok found) rest ∧
      (found = none ↔ rest = []) := by
  obtain ⟨blanks, rest, hskip⟩ : ∃ blanks rest,
      Takes (fun s => if ignoreBlanks then skipBlanks separator s 0 else (.ok 0, s)) cs
        (.ok blanks) rest := by
    cases ignoreBlanks with
    | false => exact ⟨0, cs, List.suffix_rfl, fun {s} hs => ⟨s, rfl, hs⟩⟩
    | true => exact takes_skipBlanks separator 0 cs
  cases rest with
  | nil =>
    refine ⟨none, [], ⟨hskip.suffix, fun hs => ?_⟩, by simp⟩
    obtain ⟨s₁, h₁, hs₁⟩ := hskip.run hs
    obtain ⟨s₂, hend, hs₂⟩ := hs₁.atEnd
    exact ⟨s₂, by simp only [toRecord, h₁, hend, List.isEmpty_nil], hs₂⟩
  | cons c rest =>
    refine ⟨some blanks, c :: rest, ⟨hskip.suffix, fun hs => ?_⟩, by simp⟩
    obtain ⟨s₁, h₁, hs₁⟩ := hskip.run hs
    obtain ⟨s₂, hend, hs₂⟩ := hs₁.atEnd
    exact ⟨s₂, by simp only [toRecord, h₁, hend, List.isEmpty_cons], hs₂⟩

end Delimited
end Flatfile
