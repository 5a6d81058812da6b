import Flatfile.Outcome
import Flatfile.Proofs.Delimited.Scan
import Mathlib.Data.Nat.Find

/-!
# Lines that are read back

What the scanner makes of a line that the writer has made of columns. Between quotes every column
comes back (`scanRecord_joinColumns`). Where quotes are spared or there are none, a column may be
followed by a field separator that the scanner finds too early, and a line comes back exactly if
that does not happen (`scanRecord_joinColumns_iff`).
-/

namespace Flatfile.Delimited

variable {d : Delimiters} {s : TextStream} {quote : Char} {column count : Nat} {text : String}
  {written rest : List Char}

-- ------------------------------------------------------------------
-- One column
-- ------------------------------------------------------------------

/-- Before a field separator, the scanner takes what is written for the column. -/
def ReadDivided (d : Delimiters) (written : List Char) (text : String) : Prop :=
  ∀ (s : TextStream) (column count : Nat) (rest : List Char),
    s.Holds (written ++ (d.field.chars ++ rest)) →
    count + written.length + d.field.chars.length ≤ d.max →
    ∃ s', scanColumn d column s count =
        (.ok ⟨text, count + written.length + d.field.chars.length, false⟩, s') ∧ s'.Holds rest

def ReadLast (d : Delimiters) (written : List Char) (text : String) : Prop :=
  ∀ (s : TextStream) (column count : Nat) (rest : List Char),
    s.Holds (written ++ (d.record.toList ++ rest)) → count + written.length ≤ d.max →
    ∃ s', scanColumn d column s count = (.ok ⟨text, count + written.length, true⟩, s') ∧
      s'.Holds rest

def Misread (d : Delimiters) (written : List Char) (text : String) : Prop :=
  ∀ (s : TextStream) (column count : Nat) (rest : List Char),
    s.Holds (written ++ (d.field.chars ++ rest)) →
    count + written.length + d.field.chars.length ≤ d.max →
    ∃ other n s', other ≠ text ∧ scanColumn d column s count = (.ok ⟨other, n, false⟩, s')

/-- A separator after a closing quote is seen as what it is. -/
structure SetsOff (d : Delimiters) (quote : Char) : Prop where
  field : d.field.chars.head? ≠ some quote
  record : d.record.toList.head? ≠ some quote
  record_ne : d.record ≠ ""
  apart : ∀ rest, ¬ d.field.chars <+: d.record.toList ++ rest

theorem SetsOff.head_field (h : SetsOff d quote) (rest : List Char) :
    (d.field.chars ++ rest).head? ≠ some quote := by
  obtain ⟨c, cs, hc⟩ := List.exists_cons_of_ne_nil d.field.chars_ne_nil
  simpa [hc] using h.field

theorem SetsOff.head_record (h : SetsOff d quote) (rest : List Char) :
    (d.record.toList ++ rest).head? ≠ some quote := by
  obtain ⟨c, cs, hc⟩ :=
    List.exists_cons_of_ne_nil (l := d.record.toList) (by simpa using h.record_ne)
  simpa [hc] using h.record

theorem scanColumn_quoteColumn (column : Nat) (hq : d.quote = some quote)
    (hs : s.Holds (quoteColumn quote text ++ rest)) (hrest : rest.head? ≠ some quote)
    (hmax : count + (quoteColumn quote text).length ≤ d.max) :
    ∃ s', scanColumn d column s count =
        afterQuoted d column s' text.toList (count + (quoteColumn quote text).length) ∧
      s'.Holds rest := by
  simp only [quoteColumn, List.cons_append, List.append_assoc, List.nil_append,
    List.length_append, List.length_cons, List.length_nil] at hs hmax ⊢
  obtain ⟨s₁, hscan, hs₁⟩ := scanColumn_quoted column count hs hq
  obtain ⟨s', hbody, hs'⟩ :=
    quotedBody_doubleQuotes (d := d) [] (count + 1) hs₁ hrest (by omega)
  refine ⟨s', ?_, hs'⟩
  rw [hscan, quotedColumn, hbody]
  simp only [List.reverse_nil, List.nil_append]
  congr 1
  omega

theorem SetsOff.quoteColumn_readDivided (h : SetsOff d quote) (hq : d.quote = some quote) :
    ReadDivided d (quoteColumn quote text) text := by
  intro s column count rest hs hmax
  have hbody := Nat.le_trans (Nat.le_add_right _ _) hmax
  obtain ⟨s₁, hscan, hs₁⟩ := scanColumn_quoteColumn column hq hs (h.head_field rest) hbody
  obtain ⟨s', hafter, hs'⟩ := afterQuoted_field column hs₁ hmax
  exact ⟨s', by rw [hscan, hafter, String.ofList_toList], hs'⟩

theorem SetsOff.quoteColumn_readLast (h : SetsOff d quote) (hq : d.quote = some quote) :
    ReadLast d (quoteColumn quote text) text := by
  intro s column count rest hs hmax
  obtain ⟨s₁, hscan, hs₁⟩ := scanColumn_quoteColumn column hq hs (h.head_record rest) hmax
  obtain ⟨s', hafter, hs'⟩ := afterQuoted_record column _ hs₁ (h.apart rest)
  exact ⟨s', by rw [hscan, hafter, String.ofList_toList], hs'⟩

-- ------------------------------------------------------------------
-- Lines
-- ------------------------------------------------------------------

/-- What the writer makes of a column is read, as the last one always, and before a field
separator exactly if the column is `Kept`. -/
structure Reads (d : Delimiters) (sparing : Bool) (Kept : String → Prop) : Prop where
  last : ∀ {column text written}, writeColumn d sparing column text = .ok written →
    ReadLast d written text
  divided : ∀ {column text written}, writeColumn d sparing column text = .ok written →
    Kept text → ReadDivided d written text
  misread : ∀ {column text written}, writeColumn d sparing column text = .ok written →
    ¬ Kept text → Misread d written text

theorem Reads.scanColumns_iff {sparing : Bool} {Kept : String → Prop}
    (h : Reads d sparing Kept) {cs : List String} {body : List Char} (hcs : cs ≠ [])
    (hw : writeColumns d sparing column cs = .ok body)
    (hs : s.Holds (body ++ (d.record.toList ++ rest))) (hmax : count + body.length ≤ d.max) :
    (∃ s', scanColumns d column s count = (.ok cs, s') ∧ s'.Holds rest) ↔
      ∀ text ∈ cs.dropLast, Kept text := by
  -- What is counted so far and what is still to be read stay within the limit together.
  induction cs generalizing column s count body with
  | nil => exact absurd rfl hcs
  | cons text cs ih =>
    cases cs with
    | nil =>
      obtain ⟨s', hscan, hs'⟩ := h.last hw _ _ _ _ hs hmax
      exact iff_of_true ⟨s', scanColumns_last hscan, hs'⟩ (by simp)
    | cons next cs =>
      obtain ⟨written, hwritten, hw⟩ := bind_eq_ok.1 hw
      obtain ⟨more, hmore, hw⟩ := bind_eq_ok.1 hw
      obtain rfl := Except.ok.inj hw
      simp only [List.append_assoc, List.length_append] at hs hmax
      rw [List.dropLast_cons_cons, List.forall_mem_cons]
      by_cases hk : Kept text
      · obtain ⟨s₁, hscan, hs₁⟩ := h.divided hwritten hk _ column count _ hs (by omega)
        have hcount : count + written.length + d.field.chars.length + more.length ≤ d.max := by
          omega
        rw [scanColumns_divided hscan, ← ih (by simp) hmore hs₁ hcount]
        simp [hk, Prod.ext_iff, map_eq_ok]
      · obtain ⟨other, n, s₁, hne, hscan⟩ := h.misread hwritten hk _ column count _ hs
          (by omega)
        rw [scanColumns_divided hscan]
        simp [hk, Prod.ext_iff, map_eq_ok, hne]

theorem exists_writeColumns (hq : d.quote = some quote) (sparing : Bool) (column : Nat)
    (cs : List String) : ∃ body, writeColumns d sparing column cs = .ok body := by
  have hone : ∀ column text, ∃ written, writeColumn d sparing column text = .ok written := by
    intro column text
    simp only [writeColumn, hq]
    split <;> exact ⟨_, rfl⟩
  induction cs generalizing column with
  | nil => exact ⟨[], rfl⟩
  | cons text cs ih =>
    cases cs with
    | nil => exact hone column text
    | cons next cs =>
      obtain ⟨written, hwritten⟩ := hone column text
      obtain ⟨more, hmore⟩ := ih (column + 1)
      refine ⟨written ++ d.field.chars ++ more, ?_⟩
      rw [writeColumns, hwritten, hmore]
      · rfl
      · simp

-- ------------------------------------------------------------------
-- Every column between quotes
-- ------------------------------------------------------------------

theorem setsOff_of_incomparable (hfield : d.field.chars.head? ≠ some quote)
    (hrecord : d.record.toList.head? ≠ some quote) (hne : d.record ≠ "")
    (hfr : ¬ d.field.chars <+: d.record.toList) (hrf : ¬ d.record.toList <+: d.field.chars) :
    SetsOff d quote where
  field := hfield
  record := hrecord
  record_ne := hne
  apart rest hp :=
    (List.prefix_or_prefix_of_prefix hp (List.prefix_append _ rest)).elim hfr hrf

theorem SetsOff.reads_unsparing (h : SetsOff d quote) (hq : d.quote = some quote) :
    Reads d false fun _ => True := by
  have hw : ∀ {column text written}, writeColumn d false column text = .ok written →
      written = quoteColumn quote text := by
    intro column text written hwritten
    simpa [writeColumn, hq, eq_comm] using hwritten
  refine ⟨?_, ?_, ?_⟩
  · intro column text written hwritten
    rw [hw hwritten]
    exact h.quoteColumn_readLast hq
  · intro column text written hwritten _
    rw [hw hwritten]
    exact h.quoteColumn_readDivided hq
  · exact fun _ hk => absurd trivial hk

/-- A line whose columns are all between quotes is read back, and what follows it is left. The
columns may hold separators, quotes and line breaks. -/
theorem scanRecord_joinColumns {cs : List String} (hq : d.quote = some quote)
    (hfield : d.field.chars.head? ≠ some quote) (hrecord : d.record.toList.head? ≠ some quote)
    (hne : d.record ≠ "") (hfr : ¬ d.field.chars <+: d.record.toList)
    (hrf : ¬ d.record.toList <+: d.field.chars) (hcs : cs ≠ []) :
    ∃ body, joinColumns d false cs = .ok (body ++ d.record.toList) ∧
      (body.length ≤ d.max → ∀ s rest, TextStream.Holds s (body ++ d.record.toList ++ rest) →
        ∃ s', scanRecord d s = (.ok cs, s') ∧ s'.Holds rest) := by
  obtain ⟨body, hbody⟩ := exists_writeColumns hq false 1 cs
  refine ⟨body, by rw [joinColumns, hbody]; rfl, ?_⟩
  intro hmax s rest hs
  rw [List.append_assoc] at hs
  have h := (setsOff_of_incomparable hfield hrecord hne hfr hrf).reads_unsparing hq
  exact (h.scanColumns_iff hcs hbody hs (by simpa using hmax)).2 fun _ _ => trivial

def commaSeparated : Delimiters where
  field := ⟨",", by decide⟩
  record := "\r\n"
  quote := some '"'
  max := 100

def awkwardColumns : List String :=
  ["a,b", "say \"hi\"", "two\r\nlines", ""]

def awkwardLine : String :=
  "\"a,b\",\"say \"\"hi\"\"\",\"two\r\nlines\",\"\""

theorem scanRecord_joinColumns_awkward :
    ∃ s', scanRecord commaSeparated
        (.ofSource .ascii (.ofBytes (Charset.ascii.encode (awkwardLine ++ "\r\nnext")))) =
        (.ok awkwardColumns, s') ∧ s'.Holds "next".toList := by
  have hne : awkwardColumns ≠ [] := by decide
  obtain ⟨body, hjoin, hread⟩ := scanRecord_joinColumns (d := commaSeparated) rfl (by decide)
    (by decide) (by decide) (by decide) (by decide) hne
  have hline : joinColumns commaSeparated false awkwardColumns =
      .ok (awkwardLine.toList ++ commaSeparated.record.toList) := rfl
  obtain rfl := List.append_cancel_right (Except.ok.inj (hjoin.symm.trans hline))
  exact hread (by decide) _ _ (TextStream.holds_ofBytes_map fun _ _ => .inl rfl)

-- ------------------------------------------------------------------
-- Columns as they are
-- ------------------------------------------------------------------

structure Apart (d : Delimiters) : Prop where
  record_ne : d.record ≠ ""
  record : ∀ c ∈ d.field.chars, c ∉ d.record.toList
  quote : ∀ quote ∈ d.quote, quote ∉ d.field.chars ∧ quote ∉ d.record.toList

/-- The separators are not empty and share no character, and neither begins with the quote. -/
structure Separated (d : Delimiters) : Prop where
  record_ne : d.record ≠ ""
  record : ∀ c ∈ d.field.chars, c ∉ d.record.toList
  quote : ∀ quote ∈ d.quote,
    d.field.chars.head? ≠ some quote ∧ d.record.toList.head? ≠ some quote

theorem Apart.separated (h : Apart d) : Separated d where
  record_ne := h.record_ne
  record := h.record
  quote quote hq :=
    ⟨fun hhead => (h.quote quote hq).1 (List.mem_of_head? hhead),
      fun hhead => (h.quote quote hq).2 (List.mem_of_head? hhead)⟩

def isPlain (d : Delimiters) (text : String) : Bool :=
  !holdsSeparator d text && !d.quote.any text.toList.contains

/-- In the column and the field separator after it, a field separator begins before the column
ends. -/
def ClosesEarly (d : Delimiters) (text : String) : Prop :=
  ∃ k < text.toList.length, d.field.chars <+: (text.toList ++ d.field.chars).drop k

instance (d : Delimiters) (text : String) : Decidable (ClosesEarly d text) :=
  inferInstanceAs (Decidable (∃ k < text.toList.length, _))

theorem isPlain_iff : isPlain d text = true ↔
    ¬ d.field.chars <:+: text.toList ∧ (∀ c ∈ text.toList, c ∉ d.record.toList) ∧
      ∀ quote ∈ d.quote, quote ∉ text.toList := by
  simp only [isPlain, holdsSeparator, Text.contains, Bool.and_eq_true, Bool.not_eq_true',
    Bool.or_eq_false_iff, and_assoc]
  refine and_congr ?_ (and_congr ?_ ?_)
  · rw [← Text.occursIn_iff, Bool.not_eq_true]
    rfl
  · simp only [List.any_eq_false, List.contains_eq_mem, decide_eq_true_eq]
    exact ⟨fun h c hc hr => h c hr hc, fun h c hr hc => h c hc hr⟩
  · cases d.quote <;> simp

theorem writeColumn_eq_ok {sparing : Bool} (hsparing : ∀ quote ∈ d.quote, sparing = true)
    (h : writeColumn d sparing column text = .ok written) :
    (isPlain d text = true ∧ written = text.toList) ∨
      (isPlain d text = false ∧ ∃ quote, d.quote = some quote ∧
        written = quoteColumn quote text) := by
  cases hq : d.quote with
  | none =>
    simp only [writeColumn, hq] at h
    cases hsep : holdsSeparator d text <;> simp_all [isPlain]
  | some quote =>
    obtain rfl := hsparing quote hq
    have hplain : isPlain d text = !(holdsSeparator d text || text.toList.contains quote) := by
      simp [isPlain, hq]
    simp only [writeColumn, hq, Bool.not_true, Bool.false_or] at h
    split at h
    · rename_i hneeds
      exact .inr ⟨by rw [hplain, hneeds]; rfl, quote, rfl, (Except.ok.inj h).symm⟩
    · rename_i hneeds
      rw [Bool.not_eq_true] at hneeds
      exact .inl ⟨by rw [hplain, hneeds]; rfl, (Except.ok.inj h).symm⟩

theorem not_prefix_drop_of_not_mem {cs pattern : List Char} {k : Nat} (hne : pattern ≠ [])
    (hcs : ∀ c ∈ cs, c ∉ pattern) (hk : k < cs.length) (rest : List Char) :
    ¬ pattern <+: (cs ++ rest).drop k := by
  rw [List.drop_append_of_le_length (Nat.le_of_lt hk), List.drop_eq_getElem_cons hk]
  cases pattern with
  | nil => exact absurd rfl hne
  | cons c pattern =>
    intro hp
    obtain ⟨rfl, -⟩ := List.cons_prefix_cons.1 hp
    exact hcs _ (List.getElem_mem hk) List.mem_cons_self

theorem prefix_drop_append_self {cs pattern : List Char} {k : Nat} (hk : k ≤ cs.length)
    (rest : List Char) :
    pattern <+: (cs ++ (pattern ++ rest)).drop k ↔ pattern <+: (cs ++ pattern).drop k := by
  rw [List.drop_append_of_le_length hk, List.drop_append_of_le_length hk, ← List.append_assoc]
  constructor
  · exact fun hp => List.prefix_of_prefix_length_le hp (List.prefix_append _ _) (by simp)
  · exact fun hp => hp.trans (List.prefix_append _ _)

namespace Separated

theorem record_toList_ne (h : Separated d) : d.record.toList ≠ [] := by
  simpa using h.record_ne

theorem record_absent (h : Separated d) (rest : List Char) :
    ¬ d.record.toList <+: d.field.chars ++ rest :=
  not_prefix_drop_of_not_mem h.record_toList_ne h.record
    (List.length_pos_iff.2 d.field.chars_ne_nil) rest

theorem field_absent (h : Separated d) (rest : List Char) :
    ¬ d.field.chars <+: d.record.toList ++ rest :=
  not_prefix_drop_of_not_mem d.field.chars_ne_nil (fun c hr hf => h.record c hf hr)
    (List.length_pos_iff.2 h.record_toList_ne) rest

theorem setsOff (h : Separated d) (hq : d.quote = some quote) : SetsOff d quote where
  field := (h.quote quote hq).1
  record := (h.quote quote hq).2
  record_ne := h.record_ne
  apart := h.field_absent

theorem scanColumn_plain (column count : Nat) (hp : isPlain d text = true)
    (hs : s.Holds (text.toList ++ rest)) (hne : rest ≠ [])
    (hrest : ∀ quote ∈ d.quote, rest.head? ≠ some quote) :
    ∃ s', scanColumn d column s count = bareColumn d s' [] count ∧
      s'.Holds (text.toList ++ rest) := by
  refine scanColumn_bare column count hs (by simp [hne]) ?_
  intro quote hq
  have hmem := (isPlain_iff.1 hp).2.2 quote hq
  cases hcs : text.toList with
  | nil => exact hrest quote hq
  | cons c cs =>
    intro hhead
    obtain rfl : c = quote := by simpa using hhead
    exact hmem (by simp [hcs])

theorem undivided_record (h : Separated d) (hp : isPlain d text = true) (rest : List Char) :
    Undivided d text.toList (d.record.toList ++ rest) := by
  obtain ⟨hfield, hrecord, -⟩ := isPlain_iff.1 hp
  refine fun k hk => ⟨not_prefix_drop_of_not_mem h.record_toList_ne hrecord hk _, ?_⟩
  intro hf
  rw [List.drop_append_of_le_length (Nat.le_of_lt hk)] at hf
  rcases List.prefix_or_prefix_of_prefix hf (List.prefix_append _ _) with hin | ⟨more, hmore⟩
  · exact hfield (hin.isInfix.trans (List.drop_suffix k _).isInfix)
  · by_cases hnil : more = []
    · rw [hnil, List.append_nil] at hmore
      exact hfield (hmore ▸ (List.drop_suffix k _).isInfix)
    · rw [← hmore, List.prefix_append_right_inj] at hf
      refine not_prefix_drop_of_not_mem hnil (fun c hr hf => ?_)
        (List.length_pos_iff.2 h.record_toList_ne) rest hf
      exact h.record c (hmore ▸ List.mem_append_right _ hf) hr

theorem readLast_plain (h : Separated d) (hp : isPlain d text = true) :
    ReadLast d text.toList text := by
  intro s column count rest hs hmax
  obtain ⟨s₁, hscan, hs₁⟩ := scanColumn_plain column count hp hs (by simp [h.record_ne])
    fun quote hq => (h.setsOff hq).head_record rest
  obtain ⟨s', hread, hs'⟩ := bareColumn_record hs₁ (h.undivided_record hp rest) hmax
  exact ⟨s', by rw [hscan, hread, String.ofList_toList], hs'⟩

theorem readDivided_plain (h : Separated d) (hp : isPlain d text = true)
    (he : ¬ ClosesEarly d text) : ReadDivided d text.toList text := by
  obtain ⟨-, hrecord, -⟩ := isPlain_iff.1 hp
  intro s column count rest hs hmax
  obtain ⟨s₁, hscan, hs₁⟩ := scanColumn_plain column count hp hs (by simp [d.field.chars_ne_nil])
    fun quote hq => (h.setsOff hq).head_field rest
  have hu : Undivided d text.toList (d.field.chars ++ rest) := fun k hk =>
    ⟨not_prefix_drop_of_not_mem h.record_toList_ne hrecord hk _,
      fun hf => he ⟨k, hk, (prefix_drop_append_self (Nat.le_of_lt hk) rest).1 hf⟩⟩
  obtain ⟨s', hread, hs'⟩ := bareColumn_field count hs₁ hu (h.record_absent rest) hmax
  exact ⟨s', by rw [hscan, hread, String.ofList_toList], hs'⟩

/-- The first separator that begins in the column ends it. -/
theorem misread_plain (h : Separated d) (hp : isPlain d text = true) (he : ClosesEarly d text) :
    Misread d text.toList text := by
  obtain ⟨-, hrecord, -⟩ := isPlain_iff.1 hp
  intro s column count rest hs hmax
  obtain ⟨s₁, hscan, hs₁⟩ := scanColumn_plain column count hp hs (by simp [d.field.chars_ne_nil])
    fun quote hq => (h.setsOff hq).head_field rest
  -- The earliest separator decides: up to it the column goes on.
  obtain ⟨hk, hf⟩ := Nat.find_spec he
  have hleast := fun j => Nat.find_min he (m := j)
  generalize Nat.find he = k at hk hf hleast
  obtain ⟨more, hmore⟩ := (prefix_drop_append_self (Nat.le_of_lt hk) rest).2 hf
  have hsplit : text.toList ++ (d.field.chars ++ rest) =
      text.toList.take k ++ (d.field.chars ++ more) := by
    rw [hmore, List.drop_append_of_le_length (Nat.le_of_lt hk),
      ← List.append_assoc (text.toList.take k), List.take_append_drop]
  have hlen : (text.toList.take k).length = k := List.length_take_of_le (Nat.le_of_lt hk)
  have hu : Undivided d (text.toList.take k) (d.field.chars ++ more) := by
    intro j hj
    rw [hlen] at hj
    have hjcs : j < text.toList.length := Nat.lt_trans hj hk
    rw [← hsplit]
    refine ⟨not_prefix_drop_of_not_mem h.record_toList_ne hrecord hjcs _, ?_⟩
    intro hfj
    exact hleast j hj ⟨hjcs, (prefix_drop_append_self (Nat.le_of_lt hjcs) rest).1 hfj⟩
  rw [hsplit] at hs₁
  obtain ⟨s', hread, -⟩ := bareColumn_field count hs₁ hu (h.record_absent more)
    (by omega)
  refine ⟨_, _, s', ?_, by rw [hscan, hread]⟩
  intro heq
  have := congrArg (fun t => t.toList.length) heq
  simp only [String.toList_ofList, hlen] at this
  omega

end Separated

namespace Apart

theorem record_toList_ne (h : Apart d) : d.record.toList ≠ [] :=
  h.separated.record_toList_ne

theorem reads_sparing (h : Apart d) {sparing : Bool}
    (hsparing : ∀ quote ∈ d.quote, sparing = true) :
    Reads d sparing fun text => isPlain d text = true → ¬ ClosesEarly d text := by
  refine ⟨?_, ?_, ?_⟩
  · intro column text written hw
    obtain ⟨hp, rfl⟩ | ⟨-, quote, hq, rfl⟩ := writeColumn_eq_ok hsparing hw
    · exact h.separated.readLast_plain hp
    · exact (h.separated.setsOff hq).quoteColumn_readLast hq
  · intro column text written hw hk
    obtain ⟨hp, rfl⟩ | ⟨-, quote, hq, rfl⟩ := writeColumn_eq_ok hsparing hw
    · exact h.separated.readDivided_plain hp (hk hp)
    · exact (h.separated.setsOff hq).quoteColumn_readDivided hq
  · intro column text written hw hk
    obtain ⟨hp, he⟩ := Classical.not_imp.1 hk
    obtain ⟨-, rfl⟩ | ⟨hq, -⟩ := writeColumn_eq_ok hsparing hw
    · exact h.separated.misread_plain hp (Classical.not_not.1 he)
    · exact absurd hp (by simp [hq])

end Apart

/-- Where quotes are spared, or there are none, a line is read back, and what follows it left,
exactly if no column but the last is written as it is and lets a field separator begin in it. -/
theorem scanRecord_joinColumns_iff {cs : List String} {body : List Char} {sparing : Bool}
    (h : Apart d) (hsparing : ∀ quote ∈ d.quote, sparing = true) (hcs : cs ≠ [])
    (hjoin : joinColumns d sparing cs = .ok (body ++ d.record.toList))
    (hmax : body.length ≤ d.max) (hs : s.Holds (body ++ d.record.toList ++ rest)) :
    (∃ s', scanRecord d s = (.ok cs, s') ∧ s'.Holds rest) ↔
      ∀ text ∈ cs.dropLast, isPlain d text = true → ¬ ClosesEarly d text := by
  obtain ⟨line, hline, heq⟩ := bind_eq_ok.1 hjoin
  obtain rfl := List.append_cancel_right (Except.ok.inj heq)
  rw [List.append_assoc] at hs
  exact (h.reads_sparing hsparing).scanColumns_iff hcs hline hs (by simpa using hmax)

def doubleBars : Delimiters where
  field := ⟨"||", by decide⟩
  record := "\n"
  quote := none
  max := 100

theorem doubleBars_apart : Apart doubleBars where
  record_ne := by decide
  record := by simp [doubleBars, FieldSeparator.chars]
  quote := by simp [doubleBars]

/-- A bar at the end of a column and the separator after it are taken for a separator and a bar at
the beginning of the next column. -/
theorem scanRecord_joinColumns_closesEarly :
    joinColumns doubleBars false ["a|", "b"] = .ok "a|||b\n".toList ∧
      ¬ ∃ s', scanRecord doubleBars
          (.ofSource .ascii (.ofBytes (Charset.ascii.encode "a|||b\n"))) =
          (.ok ["a|", "b"], s') ∧ s'.Holds [] := by
  have hjoin : joinColumns doubleBars false ["a|", "b"] =
      .ok ("a|||b".toList ++ doubleBars.record.toList) := rfl
  refine ⟨hjoin, ?_⟩
  rw [scanRecord_joinColumns_iff doubleBars_apart (by simp [doubleBars]) (by decide) hjoin
    (by decide) (TextStream.holds_ofBytes_map fun _ _ => .inl rfl)]
  decide

end Flatfile.Delimited
