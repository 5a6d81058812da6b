import Flatfile.Proofs.Delimited.RoundTrip
import Flatfile.Proofs.Formatter.Succession
import Flatfile.Proofs.Outcome
import Flatfile.Proofs.Stream.Primitives
import Flatfile.Proofs.Text.Split
import Flatfile.Schema.Link

/-!
# Reading records without quotes

Without a quote, reading is cutting: the text is divided at the record separators and each piece at
the field separators, however the separators begin and break off in between. A piece that is too
long is refused by itself (`run_readsSegments`).
-/

namespace Flatfile

-- ------------------------------------------------------------------
-- One segment
-- ------------------------------------------------------------------

namespace Delimited

variable {d : Delimiters} {s : TextStream} {cs segment taken rest : List Char} {column count : Nat}
  {c : Char}

theorem tooLong_eq (α : Type) (d : Delimiters) (hs : s.Holds cs) :
    ∃ s', (tooLong d s : Except RawError α × TextStream) =
        (.error (.data (.oversize d.max)), s') ∧
      s'.Holds (Text.pastNext d.record.toList cs) := by
  obtain ⟨s', hskip, hs'⟩ := hs.skipPast d.record.toList
  exact ⟨s', by rw [tooLong, hskip], hs'⟩

/-- The columns of a segment, or the refusal of one that is too long. -/
def columnsOf (d : Delimiters) (segment : List Char) : Except DataCause (List String) :=
  if d.max < segment.length then .error (.oversize d.max)
  else .ok ((Text.split d.field.chars segment).map String.ofList)

/-- The columns that are still to come where `taken` was taken of a column, the last character
first, `count` characters were counted, and `segment` is left. -/
def columnsOn (d : Delimiters) (taken : List Char) (count : Nat) (segment : List Char) :
    Except RawError (List String) :=
  if d.max < count + segment.length then .error (.data (.oversize d.max))
  else .ok (((Text.split d.field.chars segment).modifyHead (taken.reverse ++ ·)).map String.ofList)

theorem columnsOn_start (d : Delimiters) (segment : List Char) :
    columnsOn d [] 0 segment = (columnsOf d segment).mapError .data := by
  rw [columnsOn, columnsOf, Nat.zero_add]
  split
  · rfl
  · cases Text.split d.field.chars segment <;> rfl

theorem columnsOn_tooLong (h : d.max < count + segment.length) :
    columnsOn d taken count segment = .error (.data (.oversize d.max)) := by
  rw [columnsOn, if_pos h]

theorem columnsOn_nil (hmax : count ≤ d.max) :
    columnsOn d taken count [] = .ok [String.ofList taken.reverse] := by
  rw [columnsOn, List.length_nil, Nat.add_zero, if_neg (Nat.not_lt.2 hmax), Text.split_nil]
  simp

theorem columnsOn_char (h : ¬ d.field.chars <+: c :: segment) :
    columnsOn d taken count (c :: segment) = columnsOn d (c :: taken) (count + 1) segment := by
  rw [columnsOn, columnsOn, Text.split_cons h, List.modifyHead_modifyHead, List.length_cons,
    Nat.add_assoc, Nat.add_comm 1]
  simp [Function.comp_def]

theorem columnsOn_field (taken : List Char) (count : Nat) (segment : List Char) :
    columnsOn d taken count (d.field.chars ++ segment) =
      (columnsOn d [] (count + d.field.chars.length) segment).map
        (String.ofList taken.reverse :: ·) := by
  rw [columnsOn, columnsOn, Text.split_append d.field.chars_ne_nil, List.length_append,
    ← Nat.add_assoc]
  split
  · rfl
  · cases Text.split d.field.chars segment <;> simp [Except.map]

theorem readOn_bareColumn (h : Apart d) (hq : d.quote = none) (column : Nat) (taken : List Char)
    (hs : s.Holds cs) (hcount : count ≤ d.max) :
    ∃ s', readOn d column (bareColumn d s taken count) =
        (columnsOn d taken count (Text.cut d.record.toList cs).1, s') ∧
      s'.Holds ((Text.cut d.record.toList cs).2.getD []) := by
  -- The scanner takes a separator or a character at a time, and so does the segment.
  induction hlen : cs.length using Nat.strongRecOn generalizing s cs taken count column with
  | ind n ih =>
  by_cases hr : d.record.toList <+: cs
  · obtain ⟨rest, rfl⟩ := hr
    obtain ⟨s', hmatch, hs'⟩ := hs.tryMatch_append
    rw [Text.cut_append h.record_toList_ne, columnsOn_nil hcount]
    exact ⟨s', by rw [bareColumn_atRecord hmatch]; rfl, hs'⟩
  obtain ⟨s₁, hrecord, hs₁⟩ := hs.tryMatch_of_absent hr
  by_cases hf : d.field.chars <+: cs
  · obtain ⟨rest, rfl⟩ := hf
    obtain ⟨s₂, hfield, hs₂⟩ := hs₁.tryMatch_append
    rw [Text.cut_of_disjoint h.record_toList_ne h.record, columnsOn_field,
      bareColumn_atField hrecord hfield]
    by_cases hmax : d.max < count + d.field.chars.length
    · obtain ⟨s', hlong, hs'⟩ := tooLong_eq ScannedColumn d hs₂
      refine ⟨s', ?_, hs'⟩
      rw [columnsOn_tooLong (Nat.lt_of_lt_of_le hmax (Nat.le_add_right _ _)), dividedColumn,
        if_pos hmax, hlong]
      rfl
    · have hshort : rest.length < n := by
        have := List.length_pos_iff.2 d.field.chars_ne_nil
        rw [List.length_append] at hlen
        omega
      obtain ⟨s', hread, hs'⟩ :=
        ih _ hshort (column + 1) [] hs₂ (Nat.not_lt.1 hmax) rfl
      refine ⟨s', ?_, hs'⟩
      rw [dividedColumn_ok (Nat.not_lt.1 hmax), readOn]
      simp only [Bool.false_eq_true, if_false, scanColumns_eq_readOn, scanColumn, hq, hread]
  · obtain ⟨s₂, hfield, hs₂⟩ := hs₁.tryMatch_of_absent hf
    cases cs with
    | nil =>
      obtain ⟨s', hnext, hs'⟩ := hs₂.next_nil
      refine ⟨s', ?_, hs'⟩
      rw [Text.cut, columnsOn_nil hcount, bareColumn_atEnd hrecord hfield hnext]
      rfl
    | cons c cs =>
      obtain ⟨s₃, hnext, hs₃⟩ := hs₂.next_cons
      have hf' : ¬ d.field.chars <+: c :: (Text.cut d.record.toList cs).1 := fun hp =>
        hf (hp.trans (List.cons_prefix_cons.2 ⟨rfl, Text.cut_prefix _ _⟩))
      rw [Text.cut_cons hr]
      by_cases hmax : d.max < count + 1
      · obtain ⟨s', hlong, hs'⟩ := tooLong_eq ScannedColumn d hs₃
        refine ⟨s', ?_, hs'⟩
        rw [columnsOn_tooLong (by simp only [List.length_cons]; omega),
          bareColumn_tooLong hrecord hfield hnext hmax, hlong]
        rfl
      · have hshort : cs.length < n := by simp [← hlen]
        obtain ⟨s', hread, hs'⟩ := ih _ hshort column (c :: taken) hs₃ (Nat.not_lt.1 hmax) rfl
        refine ⟨s', ?_, hs'⟩
        rw [bareColumn_char hrecord hfield hnext (Nat.not_lt.1 hmax), hread, columnsOn_char hf']

/-- A record is the next segment: it is taken as a whole, whatever it is read as. -/
theorem scanRecord_segment (h : Apart d) (hq : d.quote = none) (hs : s.Holds cs) :
    ∃ s', scanRecord d s =
        ((columnsOf d (Text.cut d.record.toList cs).1).mapError .data, s') ∧
      s'.Holds ((Text.cut d.record.toList cs).2.getD []) := by
  obtain ⟨s', hread, hs'⟩ :=
    readOn_bareColumn h hq 1 [] hs (Nat.zero_le d.max)
  refine ⟨s', ?_, hs'⟩
  rw [scanRecord, scanColumns_eq_readOn, scanColumn, hq, hread, columnsOn_start]

-- ------------------------------------------------------------------
-- All segments
-- ------------------------------------------------------------------

def dropBlankEnd (pieces : List (List Char)) : List (List Char) :=
  if pieces.getLast? = some [] then pieces.dropLast else pieces

theorem dropBlankEnd_cons_cons (piece next : List Char) (pieces : List (List Char)) :
    dropBlankEnd (piece :: next :: pieces) = piece :: dropBlankEnd (next :: pieces) := by
  simp only [dropBlankEnd, List.getLast?_cons_cons, List.dropLast_cons_cons]
  split <;> rfl

/-- The segments of a text between record separators, with their numbers from `number` on. If blank
ones are to be ignored, they keep their numbers and are left out. -/
def segments (separator : List Char) (ignoreBlanks : Bool) (number : Nat) (text : List Char) :
    List (List Char × Nat) :=
  ((dropBlankEnd (Text.split separator text)).zipIdx number).filter fun (segment, _) =>
    !(ignoreBlanks && segment.isEmpty)

variable {separator : List Char} {ignoreBlanks : Bool} {number : Nat}

theorem segments_nil : segments separator ignoreBlanks number [] = [] := by
  rw [segments, Text.split_nil]
  rfl

theorem segments_eq_cut (hne : separator ≠ []) (hcs : cs ≠ []) :
    segments separator ignoreBlanks number cs =
      [((Text.cut separator cs).1, number)].filter
          (fun (segment, _) => !(ignoreBlanks && segment.isEmpty)) ++
        segments separator ignoreBlanks (number + 1) ((Text.cut separator cs).2.getD []) := by
  rw [segments, Text.split_eq_cut hne]
  cases hafter : (Text.cut separator cs).2 with
  | none =>
    have hlast : dropBlankEnd [(Text.cut separator cs).1] = [(Text.cut separator cs).1] := by
      rw [Text.cut_none hafter]
      simp [dropBlankEnd, hcs]
    simp only [Option.map_none, Option.getD_none, hlast, segments_nil, List.append_nil]
    rfl
  | some rest =>
    simp only [Option.map_some, Option.getD_some]
    rw [segments, Text.split_eq_cut hne rest, dropBlankEnd_cons_cons, List.zipIdx_cons,
      ← List.filter_append]
    rfl

theorem segments_blank (hne : separator ≠ []) (rest : List Char) :
    segments separator true number (separator ++ rest) =
      segments separator true (number + 1) rest := by
  rw [segments_eq_cut hne (by simp [hne]), Text.cut_append hne]
  rfl

theorem segments_head (hne : separator ≠ []) (hcs : cs ≠ [])
    (hblank : ignoreBlanks = true → ¬ separator <+: cs) :
    segments separator ignoreBlanks number cs =
      ((Text.cut separator cs).1, number) ::
        segments separator ignoreBlanks (number + 1) ((Text.cut separator cs).2.getD []) := by
  rw [segments_eq_cut hne hcs]
  cases ignoreBlanks with
  | false => rfl
  | true =>
    obtain ⟨c, cs, rfl⟩ := List.exists_cons_of_ne_nil hcs
    rw [Text.cut_cons (hblank rfl)]
    rfl

def scannedSegment (d : Delimiters) :
    List Char × Nat → Except RawError (List String) × Nat
  | (segment, number) => ((columnsOf d segment).mapError .data, number)

theorem yields_segments (h : Apart d) (hq : d.quote = none) (ignoreBlanks : Bool) (number : Nat)
    (hs : s.Holds cs) :
    Yields d ignoreBlanks number
      ((segments d.record.toList ignoreBlanks number cs).map (scannedSegment d)) s := by
  have hne := h.record_toList_ne
  -- A blank line, or the next segment with its separator, is taken off the text.
  induction hlen : cs.length using Nat.strongRecOn generalizing s cs number with
  | ind n ih =>
  by_cases hnil : cs = []
  · subst hnil
    rw [segments_nil]
    exact yields_nil ignoreBlanks number hs
  by_cases hblank : ignoreBlanks = true ∧ d.record.toList <+: cs
  · obtain ⟨rfl, rest, rfl⟩ := hblank
    obtain ⟨s₁, hmatch, hs₁⟩ := hs.tryMatch_append
    have hshort : rest.length < n := by
      have := List.length_pos_iff.2 hne
      rw [List.length_append] at hlen
      omega
    rw [segments_blank hne]
    exact yields_blank hne hmatch (ih _ hshort (number + 1) hs₁ rfl)
  · have hbegins : ignoreBlanks = true → ¬ d.record.toList <+: cs := fun hignore hp =>
      hblank ⟨hignore, hp⟩
    obtain ⟨s₁, hto, hs₁⟩ := toRecord_here ignoreBlanks hne hbegins hnil hs
    obtain ⟨s', hscan, hs'⟩ := scanRecord_segment h hq hs₁
    rw [segments_head hne hnil hbegins]
    exact yields_here hto hscan
      (ih _ (hlen ▸ Text.pastNext_length_lt hne hnil) (number + 1) hs' rfl)

end Delimited

-- ------------------------------------------------------------------
-- Calls for records
-- ------------------------------------------------------------------

namespace Formatter

open Delimited (Delimiters Apart columnsOf scannedSegment segments)

/-- What a formatter answers for a segment that it takes for the record with this number, as far as
its counter goes. -/
def answerSegment (f : Formatter) (d : Delimiters) (first : Bool) (segment : List Char)
    (number : Nat) : Except FormatError (Option Record) :=
  let counted := { f with records := Word32.wrap number }
  counted.finish (counted.selectColumns first) ((columnsOf d segment).mapError .data)

variable {f : Formatter}

def answerAt (f : Formatter) (d : Delimiters) (segments : List (List Char × Nat)) (i : Nat) :
    Except FormatError (Option Record) :=
  match segments[i]? with
  | none => .ok none
  | some (segment, number) => f.answerSegment d (i = 0) segment number

def lastNumber (segments : List (List Char × Nat)) : Nat :=
  (segments.getLast?.map (·.2)).getD 0

theorem answerNth_segments (f : Formatter) (d : Delimiters) (all : List (List Char × Nat)) :
    f.answerNth (all.map (scannedSegment d)) = f.answerAt d all := by
  funext i
  rw [answerNth, answerAt, List.getElem?_map]
  cases all[i]? <;> rfl

theorem lastCounted_segments (d : Delimiters) (all : List (List Char × Nat)) :
    lastCounted (all.map (scannedSegment d)) = lastNumber all := by
  rw [lastCounted, lastNumber, List.getLast?_map]
  cases all.getLast? <;> rfl

theorem ofSchema_delimited {schema : Schema} {defaults : Defaults}
    (hdelimited : schema.fileType = .delimited) (h : ofSchema schema defaults = .ok f) :
    ∃ settings field record, schema.settingsUnder defaults = .ok settings ∧
      settings.fieldSeparator = some field ∧ settings.recordSeparator = some record ∧
      f = { schema, settings,
            engine := .delimited
              { field, record, quote := settings.quote, max := settings.maxRecordLength } } := by
  obtain ⟨settings, hsettings, h⟩ := bind_eq_ok.1 h
  rw [mapError_eq_ok] at hsettings
  simp only [hdelimited] at h
  obtain ⟨-, -, h⟩ := bind_eq_ok.1 h
  obtain ⟨field, hfield, h⟩ := bind_eq_ok.1 h
  obtain ⟨record, hrecord, h⟩ := bind_eq_ok.1 h
  exact ⟨settings, field, record, hsettings, require_eq_ok.1 hfield, require_eq_ok.1 hrecord,
    (Except.ok.inj h).symm⟩

def barsLayout : String :=
  "file-type: Variable\ntext-encoding: \"US-ASCII\"\nfield-separator: \"||\"\n" ++
  "record-separator: \"\\r\\n\"\nmax-record-length: 8\nignore-blank-lines: true\n" ++
  "[R]\n1 a X\n2 b X\n"

def barsText : String :=
  "\r\na||b\r\nlonger||than eight\r\n\r\n\nc|||d\r\r\n\r\n"

def barsAnswers : List (Except FormatError (Option Record)) :=
  let r (a b : String) :=
    { Record.ofList [("a", .text a), ("b", .text b)] with typeName := some "R" }
  [.ok (some { r "a" "b" with sequence := 2 }),
    .error (.invalidData { record := some 3, cause := .oversize 8 }),
    .ok (some { r "\nc" "|d\r" with sequence := 5 }), .ok none, .ok none]

def barsData : List Delivery :=
  [.chunk 0x0D (Charset.ascii.encode barsText).tail]

end Formatter
end Flatfile
