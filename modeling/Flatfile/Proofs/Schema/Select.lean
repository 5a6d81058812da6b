import Flatfile.Formatter.Session
import Flatfile.Proofs.Formatter.Calls
import Flatfile.Proofs.Layout.Names
import Flatfile.Proofs.Lookup
import Flatfile.Proofs.Schema.Linked

/-!
# The type of a record that is read and written again

A record that is read carries the name of its type, and the name leads back to that type. On writing
the conditions of the type are tested on the record itself, which reading does not always do: the
only type there is is taken without a test, and a classifier has its own reading of the data. So a
record that was read is written as the type it was read as, or refused for the conditions of that
type (`selectForWrite_of_read`).
-/

namespace Flatfile

-- ------------------------------------------------------------------
-- Names
-- ------------------------------------------------------------------

theorem recordTypes_namesApart {ctx : LinkContext} {text : String} {source : Option String}
    {schema : Schema} (h : Schema.compile ctx text source = .ok schema) :
    NamesApart RecordType.name schema.recordTypes := by
  obtain ⟨layout, hparse, hlinked⟩ := Link.compile_ok h
  have hnames := Link.recordTypes_names hlinked.recordTypes
  have hdeclared : NamesApart RecordDecl.name layout.recordTypes :=
    (Layout.parse_namesApart hparse).imp fun hab => by simp [hab]
  unfold NamesApart at hdeclared
  rw [← List.pairwise_map (f := RecordDecl.name) (R := fun a b => ¬ Text.sameName a b),
    ← hnames, List.pairwise_map] at hdeclared
  exact hdeclared

theorem recordType?_of_mem {ctx : LinkContext} {text : String} {source : Option String}
    {schema : Schema} {t : RecordType} (h : Schema.compile ctx text source = .ok schema)
    (ht : t ∈ schema.recordTypes) : schema.recordType? t.name = some t :=
  (recordTypes_namesApart h).find?_eq_some_iff.2 ⟨ht, Text.sameName_refl t.name⟩

namespace RecordType

variable {t : RecordType} {r r' : Record}

theorem typeName_insert (r : Record) (name : String) (value : Value) :
    (r.insert name value).typeName = r.typeName := by
  unfold Record.insert
  split <;> rfl

theorem readFields_typeName {read : Field → Bool → Except InvalidData Value} {fields : List Field}
    (h : readFields read fields r = .ok r') : r'.typeName = r.typeName := by
  induction fields generalizing r with
  | nil => rw [← Except.ok.inj h]
  | cons f fields ih =>
    obtain ⟨value, -, h⟩ := bind_eq_ok.1 h
    rw [ih h]
    split
    · rfl
    · exact typeName_insert r f.name value

theorem read_typeName {read : Field → Bool → Except InvalidData Value}
    (h : t.read read = .ok r) : r.typeName = some t.name :=
  readFields_typeName h

end RecordType

-- ------------------------------------------------------------------
-- Selection
-- ------------------------------------------------------------------

/-- The type does not take the data: the data cannot be read as the type, or what is read does not
satisfy its conditions. A type that makes the reader panic is not passed over. -/
def RecordType.PassedOver (decode : RecordType → Except InvalidData Record) (t : RecordType) :
    Prop :=
  match decode t with
  | .ok r => t.accepts r = false
  | .error e => e.cause ≠ .outOfRange

namespace Schema

variable {s : Schema} {exclude : Option String}
  {decodeKey decode : RecordType → Except InvalidData Record} {t : RecordType} {r : Record}

/-- How reading comes to take some data for a record `r` of type `t`. -/
inductive Chosen (s : Schema) (exclude : Option String)
    (decodeKey : RecordType → Except InvalidData Record) (t : RecordType) (r : Record) : Prop
  /-- The type is the first one whose conditions the classifier's fields satisfy. -/
  | classified {classifier : RecordType} {key : Record} (hclassifier : s.classifier = some classifier)
      (hkey : decodeKey classifier = .ok key)
      (hfirst : (s.candidates exclude).find? (·.accepts key) = some t)
  | only (hclassifier : s.classifier = none) (honly : s.candidates exclude = [t])
  | accepted (hclassifier : s.classifier = none) (haccepts : t.accepts r)

theorem firstAccepted_eq_some {types : List RecordType}
    (h : firstAccepted decode types = .ok (some (t, r))) :
    t ∈ types ∧ decode t = .ok r ∧ t.accepts r := by
  induction types with
  | nil => simp [firstAccepted] at h
  | cons u types ih =>
    simp only [firstAccepted] at h
    split at h
    next r' hdecode =>
      split at h
      next haccepts =>
        obtain ⟨rfl, rfl⟩ := Prod.mk.inj (Option.some.inj (Except.ok.inj h))
        exact ⟨List.mem_cons_self, hdecode, haccepts⟩
      next => exact (ih h).imp_left (List.mem_cons_of_mem u)
    next =>
      split at h
      next => cases h
      next => exact (ih h).imp_left (List.mem_cons_of_mem u)

theorem selectForRead_ok (h : s.selectForRead exclude decodeKey decode = .ok (t, r)) :
    t ∈ s.candidates exclude ∧ decode t = .ok r ∧ s.Chosen exclude decodeKey t r := by
  simp only [selectForRead] at h
  split at h
  · rename_i classifier hclassifier
    obtain ⟨key, hkey, h⟩ := bind_eq_ok.1 h
    split at h
    · simp at h
    · rename_i t' hfirst
      obtain ⟨r', hdecode, h⟩ := bind_eq_ok.1 h
      obtain ⟨rfl, rfl⟩ := Prod.mk.inj (Except.ok.inj h)
      exact ⟨List.mem_of_find?_eq_some hfirst, hdecode, .classified hclassifier hkey hfirst⟩
  · rename_i hclassifier
    split at h
    · rename_i only honly
      obtain ⟨r', hdecode, h⟩ := bind_eq_ok.1 h
      obtain ⟨rfl, rfl⟩ := Prod.mk.inj (Except.ok.inj h)
      exact ⟨by simp [honly], hdecode, .only hclassifier honly⟩
    · obtain ⟨found, hfound, h⟩ := bind_eq_ok.1 h
      cases found with
      | none => cases h
      | some found =>
        obtain rfl := Except.ok.inj h
        obtain ⟨hmem, hdecode, haccepts⟩ := firstAccepted_eq_some hfound
        exact ⟨hmem, hdecode, .accepted hclassifier haccepts⟩

theorem recordType?_mem {name : String} (h : s.recordType? name = some t) :
    t ∈ s.recordTypes :=
  List.mem_of_find?_eq_some h

theorem selectForWrite_mem {explicit : Option String}
    (h : s.selectForWrite explicit exclude r = .ok t) : t ∈ s.recordTypes := by
  have hcandidates : s.candidates exclude ⊆ s.recordTypes := List.filter_subset_self _
  simp only [Schema.selectForWrite] at h
  split at h
  · split at h
    · simp at h
    · rename_i found hfound
      split at h
      · exact Except.ok.inj h ▸ recordType?_mem hfound
      · simp at h
  · split at h
    · rename_i only honly
      obtain rfl := Except.ok.inj h
      exact hcandidates (by simp [honly])
    · split at h
      · rename_i found hfound
        obtain rfl := Except.ok.inj h
        exact hcandidates (List.mem_of_find?_eq_some hfound)
      · simp at h

theorem selectForWrite_named {explicit : Option String} (hfound : s.recordType? t.name = some t)
    (hname : explicit.or r.typeName = some t.name) (exclude : Option String) :
    s.selectForWrite explicit exclude r =
      if t.accepts r then .ok t else .error { cause := .conditionsFail t.describe } := by
  simp [selectForWrite, hname, hfound]

/-- Where the record does not satisfy the conditions of its type, reading has not tested them on
it. -/
theorem Chosen.untested (h : s.Chosen exclude decodeKey t r) (hr : t.accepts r = false) :
    s.classifier = none ∧ s.candidates exclude = [t] ∨
      ∃ classifier key, s.classifier = some classifier ∧ decodeKey classifier = .ok key ∧
        t.accepts key ∧ ∃ p ∈ t.predicates, p.holds key ∧ p.holds r = false := by
  cases h with
  | only hclassifier honly => exact .inl ⟨hclassifier, honly⟩
  | accepted hclassifier haccepts => simp [hr] at haccepts
  | @classified classifier key hclassifier hkey hfirst =>
    have haccepts : t.accepts key := List.find?_some (p := fun u : RecordType => u.accepts key) hfirst
    obtain ⟨p, hp, hfails⟩ := List.all_eq_false.1 hr
    exact .inr ⟨classifier, key, hclassifier, hkey, haccepts, p, hp,
      List.all_eq_true.1 haccepts p hp, by simpa using hfails⟩

end Schema

-- ------------------------------------------------------------------
-- Records that were read
-- ------------------------------------------------------------------

namespace Formatter

inductive Raw where
  | bytes (bytes : List UInt8)
  | columns (columns : List String)

def decode (f : Formatter) : Raw → RecordType → Except InvalidData Record
  | .bytes bytes, t => Fixed.decodeRecord f.settings t bytes
  | .columns columns, t => Delimited.decodeRecord f.settings t columns

/-- The fields of the classifier in the data, however many columns there are. -/
def decodeKey (f : Formatter) : Raw → RecordType → Except InvalidData Record
  | .bytes bytes, t => Fixed.decodeRecord f.settings t bytes
  | .columns columns, t => Delimited.decodeLoosely f.settings t columns

def excluded (f : Formatter) : Option String :=
  match f.engine with
  | .fixed _ _ => none
  | .delimited _ => (Delimited.titleType? f.schema f.settings).toOption.join.map (·.name)

def atTitle (f : Formatter) : Bool :=
  match f.engine with
  | .fixed _ _ => false
  | .delimited _ => f.settings.requiresTitle && !f.titleRead

variable {f f' : Formatter} {r : Record} {t : RecordType} {raw : Raw}

theorem decode_typeName (h : f.decode raw t = .ok r) : r.typeName = some t.name := by
  cases raw with
  | bytes bytes => exact RecordType.read_typeName h
  | columns columns =>
    obtain ⟨-, -, h⟩ := bind_eq_ok.1 h
    exact RecordType.read_typeName h

theorem selectColumns_ok {first : Bool} {columns : List String}
    (hfirst : ¬ (f.settings.requiresTitle ∧ first))
    (h : f.selectColumns first columns = .ok (t, r)) :
    ∃ title, Delimited.titleType? f.schema f.settings = .ok title ∧
      f.schema.selectForRead (title.map (·.name)) (f.decodeKey (.columns columns))
        (f.decode (.columns columns)) = .ok (t, r) := by
  rw [selectColumns, if_neg hfirst] at h
  obtain ⟨title, htitle, h⟩ := bind_eq_ok.1 h
  obtain ⟨⟨t', r'⟩, hselect, h⟩ := bind_eq_ok.1 h
  have hselected : (t', r') = (t, r) := by
    cases title
    all_goals
      obtain ⟨_, -, h⟩ := bind_eq_ok.1 h
      exact Except.ok.inj h
  exact ⟨title, htitle, hselected ▸ mapError_eq_ok.1 hselect⟩

theorem read_selected (h : f.read = (.ok (some r), f')) (htitle : f.atTitle = false) :
    ∃ raw t selected, f.schema.selectForRead f.excluded (f.decodeKey raw) (f.decode raw) =
        .ok (t, selected) ∧
      r = { selected with sequence := f'.records } := by
  cases read_answersWith h with
  | fixed hready hinput hengine hraw hafter hr =>
    obtain ⟨bytes, t, selected, -, hselect, hr⟩ := finish_ok hr
    obtain rfl := hafter
    refine ⟨.bytes bytes, t, selected, ?_, hr⟩
    rw [excluded, hengine]
    exact mapError_eq_ok.1 hselect
  | delimited hready hinput hengine hto hafter hr =>
    obtain ⟨columns, t, selected, -, hselect, hr⟩ := finish_ok hr
    obtain rfl := hafter
    have hfirst : ¬ (f.settings.requiresTitle ∧ (!f.titleRead) = true) := by
      simpa [atTitle, hengine] using htitle
    obtain ⟨title, htype, hselect⟩ := selectColumns_ok (by exact hfirst) hselect
    replace htype : Delimited.titleType? f.schema f.settings = .ok title := htype
    have hexcluded : f.excluded = title.map (·.name) := by
      simp only [excluded, hengine, htype]
      rfl
    rw [hexcluded]
    exact ⟨.columns columns, t, selected, hselect, hr⟩

/-- A record that was read, a title apart, is written as the type that it was read as, or refused
for the conditions of that type. It is refused only where reading did not test the conditions on the
record itself: the type was the only one, or the classifier's reading of the data satisfied a
condition that the record does not. -/
theorem selectForWrite_of_read {ctx : LinkContext} {text : String} {source : Option String}
    {schema : Schema} (hcompile : Schema.compile ctx text source = .ok schema)
    (hschema : f.schema = schema) (htitle : f.atTitle = false)
    (hread : f.read = (.ok (some r), f')) :
    ∃ raw t selected, t ∈ schema.candidates f.excluded ∧ f.decode raw t = .ok selected ∧
      r = { selected with sequence := f'.records } ∧ r.typeName = some t.name ∧
      (∀ exclude, schema.selectForWrite none exclude r =
        if t.accepts r then .ok t else .error { cause := .conditionsFail t.describe }) ∧
      (t.accepts r = false →
        schema.classifier = none ∧ schema.candidates f.excluded = [t] ∨
          ∃ classifier key, schema.classifier = some classifier ∧
            f.decodeKey raw classifier = .ok key ∧ t.accepts key ∧
            ∃ p ∈ t.predicates, p.holds key ∧ p.holds r = false) := by
  subst hschema
  obtain ⟨raw, t, selected, hselect, rfl⟩ := read_selected hread htitle
  obtain ⟨hmem, hdecode, hchosen⟩ := Schema.selectForRead_ok hselect
  have hfound := recordType?_of_mem hcompile (List.mem_filter.1 hmem).1
  have hname := decode_typeName hdecode
  exact ⟨raw, t, selected, hmem, hdecode, rfl, hname, Schema.selectForWrite_named hfound hname,
    hchosen.untested⟩

def kindLayout : String :=
  "file-type: Fixed\ntext-encoding: \"US-ASCII\"\nrecord-length: 2\n" ++
  "[Classifier]\n1 kind X(1)\n[A]\nkind = \"A\"\n1 kind X(1)\n2 a X(1)\n" ++
  "[B]\nkind = \"B\"\n1 ? pad X(1)\n2 b X(1)\n"

def readerOf (layout : String) (bytes : List UInt8) : Option Formatter :=
  (opened? layout).map fun (_, _, ready) => ready.setInput (.ofBytes bytes) none none

theorem compile_of_readerOf {layout : String} {bytes : List UInt8}
    (h : readerOf layout bytes = some f) : Schema.compile {} layout none = .ok f.schema := by
  obtain ⟨⟨schema, opened, ready⟩, hopened, rfl⟩ := Option.map_eq_some_iff.1 h
  obtain ⟨hcompile, hopen, hstart⟩ := opened?_eq_some hopened
  simp only [start] at hstart
  split at hstart
  · simp at hstart
  · obtain rfl := Except.ok.inj hstart
    exact hcompile.trans (congrArg _ (ofSchema_opened hopen).1.symm)

/-- A record of the first type is written as it was read, and one of the second, whose kind only the
classifier reads, is refused. -/
theorem selectForWrite_of_read_kinds :
    (∃ f r f' t, readerOf kindLayout [0x41, 0x78] = some f ∧ f.read = (.ok (some r), f') ∧
      r.typeName = some t.name ∧ f.schema.selectForWrite none none r = .ok t) ∧
    ∃ f r f', ∃ t : RecordType, readerOf kindLayout [0x42, 0x79] = some f ∧
      f.read = (.ok (some r), f') ∧ r.typeName = some t.name ∧
      f.schema.selectForWrite none none r = .error { cause := .conditionsFail t.describe } := by
  have hread : ∀ case ∈ [([0x41, 0x78], true), ([0x42, 0x79], false)],
      ((readerOf kindLayout case.1).bind fun f => f.read.1.toOption.join.map fun r =>
        (f.atTitle, (f.schema.selectForWrite none none r).isOk)) = some (false, case.2) := by
    decide +kernel
  have hwrites (bytes : List UInt8) (accepted : Bool)
      (hcase : (bytes, accepted) ∈ [([0x41, 0x78], true), ([0x42, 0x79], false)]) :
      ∃ f r f', ∃ t : RecordType, readerOf kindLayout bytes = some f ∧
        f.read = (.ok (some r), f') ∧ r.typeName = some t.name ∧
        f.schema.selectForWrite none none r =
          if accepted then .ok t else .error { cause := .conditionsFail t.describe } := by
    obtain ⟨f, hf, h⟩ := Option.bind_eq_some_iff.1 (hread _ hcase)
    obtain ⟨r, hr, h⟩ := Option.map_eq_some_iff.1 h
    obtain ⟨htitle, rfl⟩ := Prod.mk.inj h
    rw [Option.join_eq_some_iff, toOption_eq_some] at hr
    have hanswer : f.read = (.ok (some r), f.read.2) := Prod.ext hr rfl
    obtain ⟨raw, t, selected, -, -, -, hname, hwrite, -⟩ :=
      selectForWrite_of_read (compile_of_readerOf hf) rfl htitle hanswer
    refine ⟨f, r, f.read.2, t, hf, hanswer, hname, ?_⟩
    rw [hwrite]
    cases t.accepts r <;> rfl
  exact ⟨hwrites _ true (by simp), hwrites _ false (by simp)⟩

def conditionLayout : String :=
  "file-type: Fixed\ntext-encoding: \"US-ASCII\"\nrecord-length: 1\n[R]\na = \"A\"\n1 a X(1)\n"

/-- A record of the only type is read without a test of its conditions and refused on writing. -/
theorem selectForWrite_refuses_onlyType :
    ∃ f r f', readerOf conditionLayout [0x42] = some f ∧ f.read = (.ok (some r), f') ∧
      r.typeName = some "R" ∧ ∀ t, f.schema.selectForWrite none none r ≠ .ok t := by
  have hread : ((readerOf conditionLayout [0x42]).bind fun f =>
      f.read.1.toOption.join.map fun r =>
        (r.typeName, (f.schema.selectForWrite none none r).isOk)) =
      some (some "R", false) := by decide +kernel
  obtain ⟨f, hf, hread⟩ := Option.bind_eq_some_iff.1 hread
  obtain ⟨r, hr, hread⟩ := Option.map_eq_some_iff.1 hread
  obtain ⟨hname, hrefused⟩ := Prod.mk.inj hread
  rw [Option.join_eq_some_iff, toOption_eq_some] at hr
  refine ⟨f, r, f.read.2, hf, Prod.ext hr rfl, hname, fun t ht => ?_⟩
  rw [ht] at hrefused
  simp [Except.isOk, Except.toBool] at hrefused

end Formatter
end Flatfile
