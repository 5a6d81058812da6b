import Flatfile.Proofs.Delimited.Segments

/-!
# Records beyond a limit

One record is scanned twice, each time under a limit of its own. Both scans go the same way until
one of them has counted too many characters. That one gives the record up and passes over
everything to the next record separator without regard to quotes, so that it stays inside the
record where a quoted column further on holds one (`scanRecord_limitedTo`).
-/

namespace Flatfile.Delimited

def Delimiters.limitedTo (d : Delimiters) (m : Nat) : Delimiters :=
  { d with max := m }

@[simp] theorem limitedTo_field (d : Delimiters) (m : Nat) : (d.limitedTo m).field = d.field := rfl

@[simp] theorem limitedTo_record (d : Delimiters) (m : Nat) :
    (d.limitedTo m).record = d.record := rfl

@[simp] theorem limitedTo_quote (d : Delimiters) (m : Nat) : (d.limitedTo m).quote = d.quote := rfl

theorem writeColumns_limitedTo (d : Delimiters) (m : Nat) (sparing : Bool) (column : Nat)
    (cs : List String) :
    writeColumns (d.limitedTo m) sparing column cs = writeColumns d sparing column cs := by
  induction cs generalizing column with
  | nil => rfl
  | cons text cs ih =>
    cases cs with
    | nil => rfl
    | cons next cs =>
      simp only [writeColumns, ih]
      rfl

variable {α : Type} {d : Delimiters} {s s' : TextStream} {quote : Char}
  {cs front back read rest : List Char} {column count m n : Nat}

/-- A scan is given up inside `read`, which `rest` follows: of `read`, the characters `front` were
taken, which are more than `m` with those counted before, and then everything was passed over to
the next record separator. -/
def GivenUp (d : Delimiters) (m count : Nat) (read rest : List Char) (s' : TextStream) : Prop :=
  ∃ front back, read = front ++ back ∧ m < count + front.length ∧
    s'.Holds (Text.pastNext d.record.toList (back ++ rest))

theorem GivenUp.behind (front : List Char)
    (h : GivenUp d m (count + front.length) read rest s') :
    GivenUp d m count (front ++ read) rest s' := by
  obtain ⟨taken, back, rfl, hm, hs'⟩ := h
  refine ⟨front ++ taken, back, by rw [List.append_assoc], ?_, hs'⟩
  rwa [List.length_append, ← Nat.add_assoc]

theorem GivenUp.before (h : GivenUp d m count read (back ++ rest) s') :
    GivenUp d m count (read ++ back) rest s' := by
  obtain ⟨taken, left, rfl, hm, hs'⟩ := h
  exact ⟨taken, left ++ back, List.append_assoc .., hm, by rwa [List.append_assoc]⟩

def Limited (d : Delimiters) (m count : Nat) (read rest : List Char)
    (outcome limited : Except RawError α × TextStream) : Prop :=
  limited = outcome ∨
    ∃ s', limited = (.error (.data (.oversize m)), s') ∧ GivenUp d m count read rest s'

theorem Limited.tooLong {outcome : Except RawError α × TextStream} (front : List Char)
    (hm : m < count + front.length) (hs : s.Holds (back ++ rest)) :
    Limited d m count (front ++ back) rest outcome (tooLong (d.limitedTo m) s) := by
  obtain ⟨s', hlong, hs'⟩ := tooLong_eq α (d.limitedTo m) hs
  exact .inr ⟨s', hlong, front, back, rfl, hm, hs'⟩

theorem Limited.behind {outcome limited : Except RawError α × TextStream} (front : List Char)
    (h : Limited d m (count + front.length) read rest outcome limited) :
    Limited d m count (front ++ read) rest outcome limited :=
  h.imp_right fun ⟨s', hlimited, hs'⟩ => ⟨s', hlimited, hs'.behind front⟩

-- ------------------------------------------------------------------
-- Quoted columns
-- ------------------------------------------------------------------

theorem quotedBody_limitedTo (m : Nat) {taken body : List Char} (hs : s.Holds cs)
    (h : quotedBody d quote s taken count = (.ok (body, n), s')) :
    ∃ read rest, cs = read ++ rest ∧ s'.Holds rest ∧ n = count + read.length ∧
      Limited d m count read rest (quotedBody d quote s taken count)
        (quotedBody (d.limitedTo m) quote s taken count) := by
  fun_induction quotedBody d quote s taken count generalizing cs with
  | case1 | case2 | case3 => simp at h
  | case4 s taken count s₁ s₂ h₂ h₁ =>
    obtain ⟨rest, rfl, hs₁⟩ := hs.of_next_some h₁
    obtain ⟨rfl, hs₂⟩ := hs₁.of_next_none h₂
    obtain ⟨hfound, rfl⟩ := Prod.mk.inj h
    obtain ⟨-, rfl⟩ := Prod.mk.inj (Except.ok.inj hfound)
    exact ⟨[quote], [], rfl, hs₂, rfl, .inl (quotedBody_close_end h₁ h₂)⟩
  | case5 => exact absurd h tooLong_ne_ok
  | case6 s taken count s₁ s₂ _ h₁ h₂ ih =>
    obtain ⟨rest₁, rfl, hs₁⟩ := hs.of_next_some h₁
    obtain ⟨rest₂, rfl, hs₂⟩ := hs₁.of_next_some h₂
    obtain ⟨read, rest, rfl, hs', rfl, hlimited⟩ := ih hs₂ h
    refine ⟨quote :: quote :: read, rest, rfl, hs', by simp only [List.length_cons]; omega, ?_⟩
    by_cases hm : m < count + 2
    · rw [quotedBody_twice_tooLong (d := d.limitedTo m) h₁ h₂ hm]
      exact .tooLong [quote, quote] hm hs₂
    · rw [quotedBody_twice (d := d.limitedTo m) h₁ h₂ (Nat.not_lt.1 hm)]
      exact .behind [quote, quote] hlimited
  | case7 s taken count s₁ c s₂ h₂ hc h₁ =>
    obtain ⟨rest₁, rfl, hs₁⟩ := hs.of_next_some h₁
    obtain ⟨rest, rfl, hs₂⟩ := hs₁.of_next_some h₂
    obtain ⟨hfound, rfl⟩ := Prod.mk.inj h
    obtain ⟨-, rfl⟩ := Prod.mk.inj (Except.ok.inj hfound)
    exact ⟨[quote], c :: rest, rfl, hs₂.unread c, rfl, .inl (quotedBody_close h₁ h₂ hc)⟩
  | case8 => exact absurd h tooLong_ne_ok
  | case9 s taken count c s₁ h₁ hc _ ih =>
    obtain ⟨rest₁, rfl, hs₁⟩ := hs.of_next_some h₁
    obtain ⟨read, rest, rfl, hs', rfl, hlimited⟩ := ih hs₁ h
    refine ⟨c :: read, rest, rfl, hs', by simp only [List.length_cons]; omega, ?_⟩
    by_cases hm : m < count + 1
    · rw [quotedBody_char_tooLong (d := d.limitedTo m) h₁ hc hm]
      exact .tooLong [c] hm hs₁
    · rw [quotedBody_char (d := d.limitedTo m) h₁ hc (Nat.not_lt.1 hm)]
      exact .behind [c] hlimited

def EndsRecord (d : Delimiters) (ending rest : List Char) : Prop :=
  ending = d.record.toList ∨ ending = [] ∧ rest = []

/-- A column was scanned of the characters `cs` and gave `found`, and `limited` is what it gives
under the limit `m`. What was read is the column and the field separator after it, or the column and
what ends the record. -/
def ColumnScan (d : Delimiters) (m : Nat) (cs : List Char) (count : Nat) (found : ScannedColumn)
    (s' : TextStream) (limited : Except RawError ScannedColumn × TextStream) : Prop :=
  ∃ read ending rest, cs = read ++ (ending ++ rest) ∧ found.count = count + read.length ∧
    (if found.isLast then EndsRecord d ending rest else ending = []) ∧ s'.Holds rest ∧
    Limited d m count read (ending ++ rest) (.ok found, s') limited

theorem EndsRecord.pastNext_iff {ending : List Char} (h : EndsRecord d ending rest)
    (back : List Char) :
    Text.pastNext d.record.toList (back ++ (ending ++ rest)) = rest ↔
      Text.OnlyAtEnd d.record.toList (back ++ ending) := by
  rw [← List.append_assoc]
  refine Text.pastNext_append_iff ?_
  rcases h with rfl | ⟨rfl, rfl⟩
  · exact .inl (List.suffix_append ..)
  · exact .inr rfl

variable {found : ScannedColumn} {limited : Except RawError ScannedColumn × TextStream}

theorem ColumnScan.behind (front : List Char) (hn : n = count + front.length)
    (h : ColumnScan d m cs n found s' limited) :
    ColumnScan d m (front ++ cs) count found s' limited := by
  obtain rfl := hn
  obtain ⟨read, ending, rest, rfl, hcount, hending, hs', hlimited⟩ := h
  refine ⟨front ++ read, ending, rest, (List.append_assoc ..).symm, ?_, hending, hs', ?_⟩
  · rw [hcount, List.length_append, Nat.add_assoc]
  · exact hlimited.behind front

/-- What was read before the column counts as well where the scan is given up in it. -/
theorem ColumnScan.givenUp {s'' : TextStream} (hn : n = count + front.length)
    (h : ColumnScan d m cs n found s' limited) (hup : GivenUp d m count front cs s'') :
    ColumnScan d m (front ++ cs) count found s' (.error (.data (.oversize m)), s'') := by
  obtain rfl := hn
  obtain ⟨read, ending, rest, rfl, hcount, hending, hs', -⟩ := h
  refine ⟨front ++ read, ending, rest, (List.append_assoc ..).symm, ?_, hending, hs', ?_⟩
  · rw [hcount, List.length_append, Nat.add_assoc]
  · exact .inr ⟨s'', rfl, hup.before⟩

theorem columnScan_divided (m : Nat) (hs : s.Holds rest)
    (h : dividedColumn d s cs count = (.ok found, s')) :
    ColumnScan d m (d.field.chars ++ rest) count found s'
      (dividedColumn (d.limitedTo m) s cs count) := by
  obtain rfl := eq_of_dividedColumn h
  by_cases hmax : d.max < count + d.field.chars.length
  · rw [dividedColumn, if_pos hmax] at h
    exact absurd h tooLong_ne_ok
  · rw [dividedColumn_ok (Nat.not_lt.1 hmax)] at h
    obtain rfl := Except.ok.inj (Prod.mk.inj h).1
    refine ⟨d.field.chars, [], rest, rfl, rfl, rfl, hs, ?_⟩
    by_cases hm : m < count + d.field.chars.length
    · have hlong : dividedColumn (d.limitedTo m) s' cs count = tooLong (d.limitedTo m) s' :=
        if_pos hm
      rw [hlong, ← List.append_nil d.field.chars]
      exact .tooLong d.field.chars hm hs
    · exact .inl (dividedColumn_ok (d := d.limitedTo m) (Nat.not_lt.1 hm))

theorem columnScan_last (m : Nat) {ending : List Char} (hs : s.Holds rest)
    (hending : EndsRecord d ending rest) (h : lastColumn s cs count = (.ok found, s')) :
    ColumnScan d m (ending ++ rest) count found s' (lastColumn s cs count) := by
  obtain ⟨hfound, rfl⟩ := Prod.mk.inj h
  obtain rfl := Except.ok.inj hfound
  exact ⟨[], ending, rest, rfl, rfl, hending, hs, .inl rfl⟩

theorem afterQuoted_limitedTo (m : Nat) {text : List Char} (hs : s.Holds cs)
    (h : afterQuoted d column s text count = (.ok found, s')) :
    ColumnScan d m cs count found s' (afterQuoted (d.limitedTo m) column s text count) := by
  simp only [afterQuoted, limitedTo_field, limitedTo_record] at h ⊢
  split at h <;> rename_i hfield
  · simp at h
  · obtain ⟨rest, rfl, hs₁⟩ := hs.of_tryMatch_true hfield
    exact columnScan_divided m hs₁ h
  · obtain ⟨-, hs₁⟩ := hs.of_tryMatch_false hfield
    split at h <;> rename_i hrecord
    · simp at h
    · obtain ⟨rest, rfl, hs₂⟩ := hs₁.of_tryMatch_true hrecord
      exact columnScan_last m hs₂ (.inl rfl) h
    · obtain ⟨-, hs₂⟩ := hs₁.of_tryMatch_false hrecord
      split at h <;> rename_i hend
      · simp at h
      · obtain ⟨hnil, hs₃⟩ := hs₂.of_atEnd hend
        obtain rfl := List.isEmpty_iff.1 hnil.symm
        exact columnScan_last m hs₃ (.inr ⟨rfl, rfl⟩) h
      · split at h <;> simp at h

theorem quotedColumn_limitedTo (m : Nat) (hs : s.Holds cs)
    (h : quotedColumn d quote column s count = (.ok found, s')) :
    ColumnScan d m (quote :: cs) count found s'
      (quotedColumn (d.limitedTo m) quote column s count) := by
  simp only [quotedColumn] at h
  split at h <;> rename_i hbody
  · simp at h
  · obtain ⟨read, rest, rfl, hs₁, rfl, hlimited⟩ := quotedBody_limitedTo m hs hbody
    have hafter := afterQuoted_limitedTo m hs₁ h
    have hcount : count + 1 + read.length = count + (quote :: read).length := by
      rw [List.length_cons, Nat.add_assoc, Nat.add_comm 1]
    rw [hbody] at hlimited
    rcases hlimited with hsame | ⟨s'', hup, hgiven⟩
    · rw [quotedColumn, hsame]
      exact hafter.behind (quote :: read) hcount
    · rw [quotedColumn, hup]
      exact hafter.givenUp hcount (hgiven.behind [quote])

-- ------------------------------------------------------------------
-- Columns
-- ------------------------------------------------------------------

theorem bareColumn_limitedTo (m : Nat) {taken : List Char} (hs : s.Holds cs)
    (h : bareColumn d s taken count = (.ok found, s')) :
    ColumnScan d m cs count found s' (bareColumn (d.limitedTo m) s taken count) := by
  fun_induction bareColumn d s taken count generalizing cs with
  | case1 | case3 | case5 => simp at h
  | case2 s taken count s₁ hrecord =>
    obtain ⟨rest, rfl, hs₁⟩ := hs.of_tryMatch_true hrecord
    rw [bareColumn_atRecord (d := d.limitedTo m) hrecord]
    exact columnScan_last m hs₁ (.inl rfl) h
  | case4 s taken count s₁ hrecord s₂ hfield =>
    obtain ⟨-, hs₁⟩ := hs.of_tryMatch_false hrecord
    obtain ⟨rest, rfl, hs₂⟩ := hs₁.of_tryMatch_true hfield
    rw [bareColumn_atField (d := d.limitedTo m) hrecord hfield]
    exact columnScan_divided m hs₂ h
  | case6 s taken count s₁ hrecord s₂ hfield s₃ hnext =>
    obtain ⟨-, hs₁⟩ := hs.of_tryMatch_false hrecord
    obtain ⟨-, hs₂⟩ := hs₁.of_tryMatch_false hfield
    obtain ⟨rfl, hs₃⟩ := hs₂.of_next_none hnext
    rw [bareColumn_atEnd (d := d.limitedTo m) hrecord hfield hnext]
    exact columnScan_last m hs₃ (.inr ⟨rfl, rfl⟩) h
  | case7 => exact absurd h tooLong_ne_ok
  | case8 s taken count s₁ hrecord s₂ hfield c s₃ hnext _ ih =>
    obtain ⟨-, hs₁⟩ := hs.of_tryMatch_false hrecord
    obtain ⟨-, hs₂⟩ := hs₁.of_tryMatch_false hfield
    obtain ⟨rest, rfl, hs₃⟩ := hs₂.of_next_some hnext
    have hmore := ih hs₃ h
    by_cases hm : m < count + 1
    · obtain ⟨s'', hlong, hs''⟩ := tooLong_eq ScannedColumn (d.limitedTo m) hs₃
      rw [bareColumn_tooLong (d := d.limitedTo m) hrecord hfield hnext hm, hlong]
      exact hmore.givenUp rfl ⟨[c], [], rfl, hm, hs''⟩
    · rw [bareColumn_char (d := d.limitedTo m) hrecord hfield hnext (Nat.not_lt.1 hm)]
      exact hmore.behind [c] rfl

theorem scanColumn_limitedTo (m : Nat) (hs : s.Holds cs)
    (h : scanColumn d column s count = (.ok found, s')) :
    ColumnScan d m cs count found s' (scanColumn (d.limitedTo m) column s count) := by
  simp only [scanColumn, limitedTo_quote] at h ⊢
  split at h
  · exact bareColumn_limitedTo m hs h
  · split at h <;> rename_i hnext
    · simp at h
    · obtain ⟨rfl, hs₁⟩ := hs.of_next_none hnext
      exact columnScan_last m hs₁ (.inr ⟨rfl, rfl⟩) h
    · obtain ⟨rest, rfl, hs₁⟩ := hs.of_next_some hnext
      split at h
      · rename_i hc
        subst hc
        rw [if_pos rfl]
        exact quotedColumn_limitedTo m hs₁ h
      · rename_i hc
        rw [if_neg hc]
        exact bareColumn_limitedTo m (hs₁.unread _) h

-- ------------------------------------------------------------------
-- Records
-- ------------------------------------------------------------------

theorem scanColumns_limitedTo (m : Nat) {columns : List String} (hs : s.Holds cs)
    (h : scanColumns d column s count = (.ok columns, s')) :
    ∃ record ending rest, cs = record ++ (ending ++ rest) ∧ EndsRecord d ending rest ∧
      s'.Holds rest ∧
      Limited d m count record (ending ++ rest) (.ok columns, s')
        (scanColumns (d.limitedTo m) column s count) := by
  fun_induction scanColumns d column s count generalizing cs columns with
  | case1 => simp at h
  | case2 column s count found s₁ hscan hlast =>
    obtain ⟨hcolumns, rfl⟩ := Prod.mk.inj h
    obtain rfl := Except.ok.inj hcolumns
    obtain ⟨read, ending, rest, rfl, -, hending, hs', hlimited⟩ := scanColumn_limitedTo m hs hscan
    rw [if_pos hlast] at hending
    refine ⟨read, ending, rest, rfl, hending, hs', ?_⟩
    rw [scanColumns_eq_readOn]
    rcases hlimited with hsame | ⟨s'', hup, hgiven⟩
    · exact .inl (by rw [hsame, readOn, if_pos hlast])
    · exact .inr ⟨s'', by rw [hup, readOn], hgiven⟩
  | case3 column s count found s₁ hscan hlast others s₂ hothers ih =>
    obtain ⟨hcolumns, rfl⟩ := Prod.mk.inj h
    obtain ⟨tail, rfl, rfl⟩ := map_eq_ok.1 hcolumns
    obtain ⟨read, ending, rest, rfl, hcount, hnone, hs₁, hlimited⟩ := scanColumn_limitedTo m hs hscan
    rw [if_neg hlast] at hnone
    obtain rfl := hnone
    rw [List.nil_append] at hlimited ⊢
    obtain ⟨record, ending, rest', rfl, hending, hs', hothers'⟩ := ih hs₁ hothers
    rw [hcount] at hothers'
    refine ⟨read ++ record, ending, rest', (List.append_assoc ..).symm, hending, hs', ?_⟩
    rw [scanColumns_eq_readOn]
    rcases hlimited with hsame | ⟨s'', hup, hgiven⟩
    · rw [hsame, readOn, if_neg hlast, hcount]
      refine .behind read ?_
      rcases hothers' with hsame' | ⟨s'', hup', hgiven'⟩
      · exact .inl (by rw [hsame']; rfl)
      · exact .inr ⟨s'', by rw [hup']; rfl, hgiven'⟩
    · exact .inr ⟨s'', by rw [hup, readOn], hgiven.before⟩

/-- A record that is read under one limit is, under the limit `m`, read in the same way or refused
as too long after more than `m` of its characters were taken. Where it is refused, what is left is
what follows the next record separator in the characters that were not taken. That is what follows
the record exactly if those hold no record separator but the one that ends it, which is so if there
is no quote to hide one. -/
theorem scanRecord_limitedTo (m : Nat) {columns : List String} (hs : s.Holds cs)
    (h : scanRecord d s = (.ok columns, s')) :
    ∃ record ending rest, cs = record ++ (ending ++ rest) ∧ EndsRecord d ending rest ∧
      s'.Holds rest ∧
      (scanRecord (d.limitedTo m) s = (.ok columns, s') ∨
        ∃ front back s'', record = front ++ back ∧ m < front.length ∧
          scanRecord (d.limitedTo m) s = (.error (.data (.oversize m)), s'') ∧
          s''.Holds (Text.pastNext d.record.toList (back ++ (ending ++ rest))) ∧
          (s''.Holds rest ↔ Text.OnlyAtEnd d.record.toList (back ++ ending)) ∧
          (d.quote = none → Apart d → s''.Holds rest)) := by
  obtain ⟨record, ending, rest, rfl, hending, hs', hlimited⟩ := scanColumns_limitedTo m hs h
  refine ⟨record, ending, rest, rfl, hending, hs', ?_⟩
  rcases hlimited with hsame | ⟨s'', hup, front, back, rfl, hm, hs''⟩
  · exact .inl hsame
  rw [Nat.zero_add] at hm
  refine .inr ⟨front, back, s'', rfl, hm, hup, hs'', ?_, ?_⟩
  · rw [← hending.pastNext_iff back]
    exact ⟨fun hrest => hs''.remaining.symm.trans hrest.remaining, fun heq => heq ▸ hs''⟩
  · intro hq hapart
    -- Both scans take the next segment.
    obtain ⟨s₁, hscan, hs₁⟩ := scanRecord_segment hapart hq hs
    obtain ⟨-, rfl⟩ := Prod.mk.inj (h.symm.trans hscan)
    have hapart' : Apart (d.limitedTo m) := ⟨hapart.record_ne, hapart.record, hapart.quote⟩
    obtain ⟨s₂, hscan', hs₂⟩ := scanRecord_segment hapart' hq hs
    obtain ⟨-, rfl⟩ := Prod.mk.inj (hup.symm.trans hscan')
    rwa [← hs'.remaining, hs₁.remaining]

def brokenLine : List Char :=
  "ab,\"x\r\ny\"\r\nz".toList

/-- Where the limit is met in the first column, what is left begins at the quoted line break. -/
theorem scanRecord_limitedTo_brokenLine :
    let s : TextStream := .ofSource .ascii (.ofBytes (Charset.ascii.encode (.ofList brokenLine)))
    (∃ s', scanRecord commaSeparated s = (.ok ["ab", "x\r\ny"], s') ∧ s'.Holds ['z']) ∧
      ∃ s'', scanRecord (commaSeparated.limitedTo 1) s = (.error (.data (.oversize 1)), s'') ∧
        s''.Holds "y\"\r\nz".toList ∧ ¬ s''.Holds ['z'] := by
  intro s
  have hs : s.Holds brokenLine := TextStream.holds_ofBytes_map fun _ _ => .inl rfl
  have hread : ((scanRecord commaSeparated s).1.toOption,
      (scanRecord commaSeparated s).2.remaining) = (some ["ab", "x\r\ny"], ['z']) := by
    decide +kernel
  have hlimited : ((scanRecord (commaSeparated.limitedTo 1) s).1.toOption,
      (scanRecord (commaSeparated.limitedTo 1) s).2.remaining) =
        (none, "y\"\r\nz".toList) := by
    decide +kernel
  obtain ⟨hread, hleft⟩ := Prod.mk.inj hread
  obtain ⟨hrefused, hlands⟩ := Prod.mk.inj hlimited
  have hcolumns : scanRecord commaSeparated s =
      (.ok ["ab", "x\r\ny"], (scanRecord commaSeparated s).2) :=
    Prod.ext (toOption_eq_some.1 hread) rfl
  obtain ⟨record, ending, rest, -, -, hs', hsame | hup⟩ := scanRecord_limitedTo 1 hs hcolumns
  · rw [hsame] at hrefused
    simp [Except.toOption] at hrefused
  obtain ⟨front, back, s'', -, -, hup, hs'', -⟩ := hup
  rw [hup] at hlands
  refine ⟨⟨_, hcolumns, hs'.quiet, hleft⟩, s'', hup, ⟨hs''.quiet, hlands⟩, fun hz => ?_⟩
  have := hz.remaining.symm.trans hlands
  exact absurd this (by decide)

end Flatfile.Delimited
