import Flatfile.Proofs.Delimited.Limit
import Flatfile.Proofs.Stream.Rendering
import Mathlib.Data.List.Infix

/-!
# Lines as they are written and read again

Where the field separator is a single character, no column can let one begin too early, so that
every line that the writer makes is read back as the columns it was made of. A text of such lines is
read line by line (`yields_lines`): an empty line is passed over if blank lines are, and a line that
is too long may be refused, which costs this line alone if no quote hides a record separator in it.
A charset may turn a line into another one, but as long as it leaves the separators and quotes where
they are, this is a line that could have been written too.
-/

namespace Flatfile.Delimited

variable {d : Delimiters} {s : TextStream} {c quote : Char} {column : Nat} {sparing : Bool}
  {text : String} {written rest cs : List Char}

-- ------------------------------------------------------------------
-- Columns
-- ------------------------------------------------------------------

/-- The field separator is the character `c`, which is not the quote nor in the record separator.
The record separator is not empty and does not begin with the quote. -/
structure SingleField (d : Delimiters) (c : Char) : Prop where
  field : d.field.chars = [c]
  record_ne : d.record ≠ ""
  record : c ∉ d.record.toList
  quote : ∀ quote ∈ d.quote, c ≠ quote ∧ d.record.toList.head? ≠ some quote

theorem SingleField.separated (h : SingleField d c) : Separated d where
  record_ne := h.record_ne
  record := by simpa [h.field] using h.record
  quote quote hq := ⟨by simpa [h.field] using (h.quote quote hq).1, (h.quote quote hq).2⟩

theorem SingleField.not_closesEarly (h : SingleField d c) (hp : isPlain d text = true) :
    ¬ ClosesEarly d text := by
  rintro ⟨k, hk, hbegins⟩
  have hfield := (isPlain_iff.1 hp).1
  rw [h.field] at hfield hbegins
  rw [List.drop_append_of_le_length (Nat.le_of_lt hk), List.drop_eq_getElem_cons hk,
    List.cons_append] at hbegins
  obtain ⟨rfl, -⟩ := List.cons_prefix_cons.1 hbegins
  exact hfield ((List.singleton_infix_iff _ _).2 (List.getElem_mem hk))

theorem writeColumn_cases (h : writeColumn d sparing column text = .ok written) :
    (isPlain d text = true ∧ written = text.toList) ∨
      ∃ quote, d.quote = some quote ∧ written = quoteColumn quote text := by
  by_cases hsparing : ∀ quote ∈ d.quote, sparing = true
  · exact (writeColumn_eq_ok hsparing h).imp_right And.right
  · simp only [Option.mem_def, not_forall, Bool.not_eq_true] at hsparing
    obtain ⟨quote, hq, rfl⟩ := hsparing
    refine .inr ⟨quote, hq, ?_⟩
    simpa [writeColumn, hq, eq_comm] using h

theorem writeColumn_empty (hsparing : ∀ quote ∈ d.quote, sparing = true) :
    writeColumn d sparing column "" = .ok [] := by
  have hfield : Text.contains "" d.field.text = false := by
    simp [Text.contains, Text.occursIn, d.field.nonempty]
  cases hq : d.quote with
  | none => simp [writeColumn, hq, holdsSeparator, hfield]
  | some quote => simp [writeColumn, hq, hsparing quote hq, holdsSeparator, hfield]

theorem SingleField.reads (h : SingleField d c) (sparing : Bool) :
    Reads d sparing fun _ => True := by
  refine ⟨?_, ?_, fun _ hk => absurd trivial hk⟩
  · intro column text written hw
    obtain ⟨hp, rfl⟩ | ⟨quote, hq, rfl⟩ := writeColumn_cases hw
    · exact h.separated.readLast_plain hp
    · exact (h.separated.setsOff hq).quoteColumn_readLast hq
  · intro column text written hw _
    obtain ⟨hp, rfl⟩ | ⟨quote, hq, rfl⟩ := writeColumn_cases hw
    · exact h.separated.readDivided_plain hp (h.not_closesEarly hp)
    · exact (h.separated.setsOff hq).quoteColumn_readDivided hq

theorem SingleField.head_column (h : SingleField d c) (hne : written ≠ [])
    (hw : writeColumn d sparing column text = .ok written) :
    written.head? ≠ d.record.toList.head? := by
  obtain ⟨hp, rfl⟩ | ⟨quote, hq, rfl⟩ := writeColumn_cases hw
  · obtain ⟨first, others, hcs⟩ := List.exists_cons_of_ne_nil hne
    intro hhead
    rw [hcs, List.head?_cons] at hhead
    refine (isPlain_iff.1 hp).2.1 first ?_ (List.mem_of_head? hhead.symm)
    simp [hcs]
  · exact fun hhead => (h.quote quote hq).2 (hhead.symm.trans rfl)

-- ------------------------------------------------------------------
-- One line
-- ------------------------------------------------------------------

structure Line where
  columns : List String
  chars : List Char

namespace Line

variable {line : Line}

def Written (d : Delimiters) (sparing : Bool) (line : Line) : Prop :=
  writeColumns d sparing 1 line.columns = .ok line.chars

/-- The columns that the line looks like: one without columns looks like one with an empty one. -/
def readBack (line : Line) : List String :=
  if line.columns = [] then [""] else line.columns

theorem readBack_ne_nil (line : Line) : line.readBack ≠ [] := by
  rw [readBack]
  split <;> simp_all

theorem Written.readBack (h : line.Written d sparing) :
    ∃ sparing, writeColumns d sparing 1 line.readBack = .ok line.chars := by
  obtain ⟨columns, chars⟩ := line
  cases columns with
  | cons text columns => exact ⟨sparing, h⟩
  | nil =>
    obtain rfl : [] = chars := Except.ok.inj h
    exact ⟨true, writeColumn_empty fun _ _ => rfl⟩

theorem Written.scanRecord (h : line.Written d sparing) (hd : SingleField d c)
    (hs : s.Holds (line.chars ++ (d.record.toList ++ rest)))
    (hmax : line.chars.length ≤ d.max) :
    ∃ s', scanRecord d s = (.ok line.readBack, s') ∧ s'.Holds rest := by
  obtain ⟨sparing, hwritten⟩ := h.readBack
  have hmax : 0 + line.chars.length ≤ d.max := by rwa [Nat.zero_add]
  exact ((hd.reads sparing).scanColumns_iff line.readBack_ne_nil hwritten hs hmax).2
    fun _ _ => trivial

/-- What may come of scanning the line: its columns, or its refusal if it is beyond the limit. -/
def Outcome (d : Delimiters) (line : Line) (raw : Except RawError (List String)) : Prop :=
  raw = .ok line.readBack ∨ d.max < line.chars.length ∧ raw = .error (.data (.oversize d.max))

/-- If the line is beyond the limit, it does not hold a record separator that could be taken for
its end. -/
def Recoverable (d : Delimiters) (line : Line) : Prop :=
  d.max < line.chars.length → Text.OnlyAtEnd d.record.toList (line.chars ++ d.record.toList)

/-- Whatever comes of the line, what follows it is left. -/
theorem Written.scanRecord_outcome (h : line.Written d sparing) (hd : SingleField d c)
    (hs : s.Holds (line.chars ++ (d.record.toList ++ rest))) (hends : line.Recoverable d) :
    ∃ raw s', Delimited.scanRecord d s = (raw, s') ∧ line.Outcome d raw ∧ s'.Holds rest := by
  by_cases hmax : line.chars.length ≤ d.max
  · obtain ⟨s', hscan, hs'⟩ := h.scanRecord hd hs hmax
    exact ⟨_, s', hscan, .inl rfl, hs'⟩
  -- Under a limit that is high enough the line is read back.
  have hlong := Nat.not_le.1 hmax
  let wide := d.limitedTo line.chars.length
  have hwide : line.Written wide sparing := (writeColumns_limitedTo ..).trans h
  have hd' : SingleField wide c := ⟨hd.field, hd.record_ne, hd.record, hd.quote⟩
  obtain ⟨s', hscan, hs'⟩ := hwide.scanRecord hd' hs (Nat.le_refl _)
  obtain ⟨record, ending, rest', heq, hending, hs'', hlimited⟩ :=
    scanColumns_limitedTo d.max hs hscan
  obtain rfl : rest' = rest := hs''.remaining.symm.trans hs'.remaining
  rcases hlimited with hsame | ⟨left, hup, front, back, rfl, -, hleft⟩
  · exact ⟨_, s', hsame, .inl rfl, hs'⟩
  · refine ⟨_, left, hup, .inr ⟨hlong, rfl⟩, ?_⟩
    have hline : line.chars ++ d.record.toList = front ++ (back ++ ending) := by
      rw [← List.append_assoc, ← List.append_assoc] at heq
      rw [List.append_cancel_right heq, List.append_assoc]
    have honly := (hline ▸ hends hlong).of_append
    rwa [(hending.pastNext_iff back).2 honly] at hleft

theorem Written.head_ne (h : line.Written d sparing) (hd : SingleField d c)
    (hne : line.chars ≠ []) : line.chars.head? ≠ d.record.toList.head? := by
  obtain ⟨columns, chars⟩ := line
  cases columns with
  | nil => exact absurd (Except.ok.inj h).symm hne
  | cons text columns =>
    cases columns with
    | nil => exact hd.head_column hne h
    | cons next columns =>
      obtain ⟨first, hfirst, h⟩ := bind_eq_ok.1 h
      obtain ⟨more, -, h⟩ := bind_eq_ok.1 h
      obtain rfl := Except.ok.inj h
      by_cases hnil : first = []
      · rw [hnil, hd.field]
        exact fun hhead => hd.record (List.mem_of_head? hhead.symm)
      · have hhead := hd.head_column hnil hfirst
        rwa [List.append_assoc, List.head?_append_of_ne_nil _ hnil]

theorem Written.not_blank (h : line.Written d sparing) (hd : SingleField d c)
    (hne : line.chars ≠ []) (rest : List Char) : ¬ d.record.toList <+: line.chars ++ rest := by
  rintro ⟨behind, heq⟩
  have hhead := congrArg List.head? heq
  rw [List.head?_append_of_ne_nil _ hd.separated.record_toList_ne,
    List.head?_append_of_ne_nil _ hne] at hhead
  exact h.head_ne hd hne hhead.symm

end Line

-- ------------------------------------------------------------------
-- All lines
-- ------------------------------------------------------------------

def textOf (d : Delimiters) (lines : List Line) : List Char :=
  lines.flatMap fun line => line.chars ++ d.record.toList

theorem recoverable_of_length {lines : List Line} (h : (textOf d lines).length ≤ d.max) :
    ∀ line ∈ lines, line.Recoverable d := by
  intro line hline hlong
  have hpiece : line.chars ++ d.record.toList ∈ lines.map (·.chars ++ d.record.toList) :=
    List.mem_map_of_mem hline
  have hin : (line.chars ++ d.record.toList).length ≤ (textOf d lines).length := by
    rw [textOf, List.flatMap_def]
    exact (List.sublist_flatten_of_mem hpiece).length_le
  rw [List.length_append] at hin
  omega

/-- The lines with their numbers from `number` on. If blank ones are to be ignored, they keep their
numbers and are left out. -/
def kept (ignoreBlanks : Bool) (number : Nat) (lines : List Line) : List (Line × Nat) :=
  (lines.zipIdx number).filter fun (line, _) => !(ignoreBlanks && line.chars.isEmpty)

theorem kept_cons (ignoreBlanks : Bool) (number : Nat) (line : Line) (lines : List Line) :
    kept ignoreBlanks number (line :: lines) =
      if ignoreBlanks = true ∧ line.chars = [] then kept ignoreBlanks (number + 1) lines
      else (line, number) :: kept ignoreBlanks (number + 1) lines := by
  simp only [kept, List.zipIdx_cons, List.filter_cons]
  cases ignoreBlanks <;> cases line.chars <;> rfl

theorem kept_length (ignoreBlanks : Bool) (number : Nat) (lines : List Line) :
    (kept ignoreBlanks number lines).length =
      lines.countP fun line => !(ignoreBlanks && line.chars.isEmpty) := by
  induction lines generalizing number with
  | nil => rfl
  | cons line lines ih =>
    rw [kept_cons, List.countP_cons, ← ih (number + 1)]
    split <;> simp_all

theorem yields_lines (hd : SingleField d c) (ignoreBlanks : Bool) {lines : List Line}
    (hlines : ∀ line ∈ lines, line.Written d sparing ∧ line.Recoverable d)
    (hs : s.Holds (textOf d lines)) (number : Nat) :
    ∃ items, Yields d ignoreBlanks number items s ∧
      List.Forall₂ (fun (line, n) (raw, n') => line.Outcome d raw ∧ n' = n)
        (kept ignoreBlanks number lines) items := by
  have hne := hd.separated.record_toList_ne
  induction lines generalizing s number with
  | nil => exact ⟨[], yields_nil ignoreBlanks number hs, .nil⟩
  | cons line lines ih =>
    obtain ⟨⟨hwritten, hends⟩, hlines⟩ := List.forall_mem_cons.1 hlines
    rw [textOf, List.flatMap_cons, List.append_assoc] at hs
    -- An empty line is a blank one; any other line is a record.
    rw [kept_cons]
    split
    · rename_i hblank
      obtain ⟨rfl, hnil⟩ := hblank
      rw [hnil, List.nil_append] at hs
      obtain ⟨s₁, hmatch, hs₁⟩ := hs.tryMatch_append
      obtain ⟨items, hyields, hitems⟩ := ih hlines hs₁ (number + 1)
      exact ⟨items, yields_blank hne hmatch hyields, hitems⟩
    · rename_i hblank
      have hbegins : ignoreBlanks = true →
          ¬ d.record.toList <+: line.chars ++ (d.record.toList ++ textOf d lines) :=
        fun hignore => hwritten.not_blank hd (fun hnil => hblank ⟨hignore, hnil⟩) _
      obtain ⟨s₁, hto, hs₁⟩ := toRecord_here ignoreBlanks hne hbegins (by simp [hne]) hs
      obtain ⟨raw, s₂, hscan, houtcome, hs₂⟩ := hwritten.scanRecord_outcome hd hs₁ hends
      obtain ⟨items, hyields, hitems⟩ := ih hlines hs₂ (number + 1)
      exact ⟨(raw, number) :: items, yields_here hto hscan hyields, .cons ⟨houtcome, rfl⟩ hitems⟩

-- ------------------------------------------------------------------
-- Lines in a charset
-- ------------------------------------------------------------------

def Delimiters.marks (d : Delimiters) : List Char :=
  d.field.chars ++ d.record.toList ++ d.quote.toList

/-- The charset leaves the marks among these characters as they are and makes a mark of no other. -/
def KeepsMarks (charset : Charset) (d : Delimiters) (cs : List Char) : Prop :=
  ∀ x ∈ cs, x ∈ d.marks ∨ charset.render x ∈ d.marks → charset.render x = x

instance (charset : Charset) (d : Delimiters) (cs : List Char) :
    Decidable (KeepsMarks charset d cs) :=
  inferInstanceAs (Decidable (∀ x ∈ cs, _))

section Rendered

variable {charset : Charset} {m x : Char}

theorem keepsMarks_append {cs cs' : List Char} :
    KeepsMarks charset d (cs ++ cs') ↔ KeepsMarks charset d cs ∧ KeepsMarks charset d cs' :=
  List.forall_mem_append

theorem KeepsMarks.mono {cs cs' : List Char} (h : KeepsMarks charset d cs) (hsub : cs' ⊆ cs) :
    KeepsMarks charset d cs' :=
  fun x hx => h x (hsub hx)

theorem subset_quoteColumn (quote : Char) (text : String) :
    text.toList ⊆ quoteColumn quote text := by
  intro x hx
  refine List.mem_append_left _ (List.mem_cons_of_mem _ (List.mem_flatMap.2 ⟨x, hx, ?_⟩))
  split <;> simp

theorem KeepsMarks.render_eq_iff (h : KeepsMarks charset d cs) (hm : m ∈ d.marks) (hx : x ∈ cs) :
    charset.render x = m ↔ x = m := by
  constructor
  · rintro rfl
    exact (h x hx (.inr hm)).symm
  · rintro rfl
    exact h x hx (.inl hm)

theorem KeepsMarks.mem_map_iff (h : KeepsMarks charset d cs) (hm : m ∈ d.marks) :
    m ∈ cs.map charset.render ↔ m ∈ cs := by
  rw [List.mem_map]
  constructor
  · rintro ⟨x, hx, hrender⟩
    rwa [← (h.render_eq_iff hm hx).1 hrender]
  · exact fun hmem => ⟨m, hmem, (h.render_eq_iff hm hmem).2 rfl⟩

theorem KeepsMarks.map_eq (h : KeepsMarks charset d cs) (hcs : ∀ x ∈ cs, x ∈ d.marks) :
    cs.map charset.render = cs :=
  (List.map_congr_left fun x hx => h x hx (.inl (hcs x hx))).trans (List.map_id' cs)

theorem KeepsMarks.eq_of_map {cs' : List Char} (h : KeepsMarks charset d cs)
    (heq : cs.map charset.render = cs') (hcs' : ∀ x ∈ cs', x ∈ d.marks) : cs = cs' := by
  rw [← heq]
  refine ((List.map_congr_left fun x hx => h x hx (.inr ?_)).trans (List.map_id' cs)).symm
  exact hcs' _ (heq ▸ List.mem_map_of_mem hx)

theorem mem_marks_field : ∀ x ∈ d.field.chars, x ∈ d.marks := by
  simp +contextual [Delimiters.marks]

theorem mem_marks_record : ∀ x ∈ d.record.toList, x ∈ d.marks := by
  simp +contextual [Delimiters.marks]

theorem mem_marks_quote : ∀ x ∈ d.quote, x ∈ d.marks := by
  simp +contextual [Delimiters.marks]

theorem SingleField.holdsSeparator_iff (hd : SingleField d c) :
    holdsSeparator d text = true ↔ c ∈ text.toList ∨ ∃ m ∈ d.record.toList, m ∈ text.toList := by
  have hfield : Text.contains text d.field.text = true ↔ c ∈ text.toList := by
    rw [← List.singleton_infix_iff, ← hd.field]
    exact Text.occursIn_iff
  simp [holdsSeparator, hfield]

theorem SingleField.holdsSeparator_render (hd : SingleField d c)
    (h : KeepsMarks charset d text.toList) :
    holdsSeparator d (charset.renderText text) = holdsSeparator d text := by
  have hc : c ∈ d.marks := mem_marks_field c (by simp [hd.field])
  rw [Bool.eq_iff_iff, hd.holdsSeparator_iff, hd.holdsSeparator_iff, Charset.renderText,
    String.toList_ofList, h.mem_map_iff hc]
  refine or_congr_right (exists_congr fun m => and_congr_right fun hm => ?_)
  exact h.mem_map_iff (mem_marks_record m hm)

theorem quoteColumn_render (hq : d.quote = some quote)
    (h : KeepsMarks charset d (quoteColumn quote text)) :
    quoteColumn quote (charset.renderText text) =
      (quoteColumn quote text).map charset.render := by
  have hmark : quote ∈ d.marks := mem_marks_quote quote hq
  have hquote : charset.render quote = quote := h quote (by simp [quoteColumn]) (.inl hmark)
  have htext : KeepsMarks charset d text.toList := h.mono (subset_quoteColumn quote text)
  have hbody : doubleQuotes quote (text.toList.map charset.render) =
      (doubleQuotes quote text.toList).map charset.render := by
    rw [doubleQuotes, doubleQuotes, List.flatMap_map, List.map_flatMap]
    refine List.flatMap_congr fun x hx => ?_
    simp only [htext.render_eq_iff hmark hx]
    split <;> rfl
  simp [quoteColumn, Charset.renderText, hbody, hquote]

theorem SingleField.writeColumn_render (hd : SingleField d c)
    (hw : writeColumn d sparing column text = .ok written)
    (h : KeepsMarks charset d written) :
    writeColumn d sparing column (charset.renderText text) =
      .ok (written.map charset.render) := by
  have htext : KeepsMarks charset d text.toList := by
    obtain ⟨-, rfl⟩ | ⟨quote, -, rfl⟩ := writeColumn_cases hw
    · exact h
    · exact h.mono (subset_quoteColumn quote text)
  have hplain : (charset.renderText text).toList = text.toList.map charset.render :=
    String.toList_ofList
  cases hq : d.quote with
  | none =>
    simp only [writeColumn, hq, hd.holdsSeparator_render htext] at hw ⊢
    split at hw <;> rename_i hneeds
    · simp at hw
    · obtain rfl := Except.ok.inj hw
      rw [if_neg hneeds, hplain]
  | some quote =>
    have hcontains : (charset.renderText text).toList.contains quote =
        text.toList.contains quote := by
      rw [Bool.eq_iff_iff, List.contains_iff_mem, List.contains_iff_mem, hplain]
      exact htext.mem_map_iff (mem_marks_quote quote hq)
    simp only [writeColumn, hq, hd.holdsSeparator_render htext, hcontains] at hw ⊢
    split at hw <;> rename_i hneeds
    · obtain rfl := Except.ok.inj hw
      rw [if_pos hneeds, quoteColumn_render hq h]
    · obtain rfl := Except.ok.inj hw
      rw [if_neg hneeds, hplain]

theorem SingleField.writeColumns_render (hd : SingleField d c) {columns : List String}
    (hw : writeColumns d sparing column columns = .ok written)
    (h : KeepsMarks charset d written) :
    writeColumns d sparing column (columns.map charset.renderText) =
      .ok (written.map charset.render) := by
  induction columns generalizing column written with
  | nil =>
    obtain rfl := Except.ok.inj hw
    rfl
  | cons text columns ih =>
    cases columns with
    | nil => exact hd.writeColumn_render hw h
    | cons next columns =>
      obtain ⟨first, hfirst, hw⟩ := bind_eq_ok.1 hw
      obtain ⟨more, hmore, hw⟩ := bind_eq_ok.1 hw
      obtain rfl := Except.ok.inj hw
      obtain ⟨hrest, hkmore⟩ := keepsMarks_append.1 h
      obtain ⟨hkfirst, hkfield⟩ := keepsMarks_append.1 hrest
      have hmore' := ih hmore hkmore
      rw [List.map_cons] at hmore'
      simp only [List.map_cons, writeColumns, hd.writeColumn_render hfirst hkfirst, hmore']
      simp [hkfield.map_eq mem_marks_field]
      rfl

namespace Line

def render (charset : Charset) (line : Line) : Line where
  columns := line.columns.map charset.renderText
  chars := line.chars.map charset.render

variable {line : Line}

theorem Written.render (h : line.Written d sparing) (hd : SingleField d c)
    (hk : KeepsMarks charset d line.chars) : (line.render charset).Written d sparing :=
  hd.writeColumns_render h hk

theorem Recoverable.render (h : line.Recoverable d)
    (hk : KeepsMarks charset d (line.chars ++ d.record.toList)) :
    (line.render charset).Recoverable d := by
  intro hlong front back heq
  rw [Line.render, List.length_map] at hlong
  have hread : (line.chars ++ d.record.toList).map charset.render =
      front ++ (d.record.toList ++ back) := by
    rw [List.map_append, (keepsMarks_append.1 hk).2.map_eq mem_marks_record]
    exact heq
  -- A separator in what is read stands where one was written.
  obtain ⟨front', behind, hline, rfl, hbehind⟩ := List.map_eq_append_iff.1 hread
  obtain ⟨record', back', rfl, hrecord', rfl⟩ := List.map_eq_append_iff.1 hbehind
  have hin : KeepsMarks charset d record' := hk.mono (by simp [hline])
  obtain rfl := hin.eq_of_map hrecord' mem_marks_record
  rw [h hlong front' back' hline]
  rfl

end Line

variable {lines : List Line}

theorem keepsMarks_textOf (hk : KeepsMarks charset d (textOf d lines)) :
    ∀ line ∈ lines, KeepsMarks charset d (line.chars ++ d.record.toList) :=
  fun line hline => hk.mono fun _ hx => List.mem_flatMap.2 ⟨line, hline, hx⟩

theorem textOf_render (hk : KeepsMarks charset d (textOf d lines)) :
    textOf d (lines.map (Line.render charset)) = (textOf d lines).map charset.render := by
  rw [textOf, textOf, List.flatMap_map, List.map_flatMap]
  refine List.flatMap_congr fun line hline => ?_
  have hrecord := (keepsMarks_append.1 (keepsMarks_textOf hk line hline)).2
  rw [List.map_append, hrecord.map_eq mem_marks_record]
  rfl

theorem kept_render (charset : Charset) (ignoreBlanks : Bool) (number : Nat) (lines : List Line) :
    kept ignoreBlanks number (lines.map (Line.render charset)) =
      (kept ignoreBlanks number lines).map (Prod.map (Line.render charset) id) := by
  induction lines generalizing number with
  | nil => rfl
  | cons line lines ih =>
    have hnil : (line.render charset).chars = [] ↔ line.chars = [] := List.map_eq_nil_iff
    simp only [List.map_cons, kept_cons, hnil, ih]
    split <;> rfl

theorem yields_rendered (hd : SingleField d c) (ignoreBlanks : Bool)
    (hlines : ∀ line ∈ lines, line.Written d sparing ∧ line.Recoverable d)
    (hk : KeepsMarks charset d (textOf d lines))
    (hs : s.Holds ((textOf d lines).map charset.render)) (number : Nat) :
    ∃ items, Yields d ignoreBlanks number items s ∧
      List.Forall₂ (fun (line, n) (raw, n') => (line.render charset).Outcome d raw ∧ n' = n)
        (kept ignoreBlanks number lines) items := by
  have hrendered : ∀ line ∈ lines.map (Line.render charset),
      line.Written d sparing ∧ line.Recoverable d := by
    rw [List.forall_mem_map]
    intro line hline
    have hkline := keepsMarks_textOf hk line hline
    obtain ⟨hwritten, hends⟩ := hlines line hline
    exact ⟨hwritten.render hd (keepsMarks_append.1 hkline).1, hends.render hkline⟩
  rw [← textOf_render hk] at hs
  obtain ⟨items, hyields, hitems⟩ := yields_lines hd ignoreBlanks hrendered hs number
  rw [kept_render, List.forall₂_map_left_iff] at hitems
  exact ⟨items, hyields, hitems⟩

end Rendered

end Flatfile.Delimited
