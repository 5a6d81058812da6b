import Flatfile.Proofs.Schema.Select
import Flatfile.Proofs.Schema.Traverse
import Flatfile.Proofs.Text.LetterCase

/-!
# Conditions and the fields they name

A condition names a field of its record type or of the classifier. On reading it is tested on what
the classifier has read, or, without a classifier, on what was read as the type itself; such a
record holds the fields of the type that it was read as, fillers apart (`read_contains`). So without
a classifier a condition finds its field. With one it finds the fields of the classifier only, and
a type with a condition on a field of its own can be written but is never read
(`conditions_find_fields`).
-/

namespace Flatfile

-- ------------------------------------------------------------------
-- Names in a record
-- ------------------------------------------------------------------

namespace Record

variable {r : Record} {name other : String}

theorem contains_congr (h : key name = key other) : r.contains name = r.contains other := by
  rw [contains, contains, place?, place?, h]

theorem contains_insert (r : Record) (name : String) (value : Value) (other : String) :
    (r.insert name value).contains other = true ↔
      r.contains other = true ∨ key name = key other := by
  by_cases hkey : key other = key name
  · rw [contains_congr hkey]
    simp only [hkey, or_true, iff_true]
    cases hplace : r.place? name with
    | none => simp [contains, place?_insert_new value hplace]
    | some i =>
      have hinsert : (r.insert name value).index = r.index := by simp only [insert, hplace]
      rw [contains, place?, hinsert, ← place?, hplace]
      rfl
  · rw [contains, place?_insert_of_ne hkey, ← contains]
    simp [Ne.symm hkey]

theorem not_holds_of_not_contains {p : Predicate} (h : r.contains p.field = false) :
    p.holds r = false := by
  have hplace : r.place? p.field = none := by simpa [contains] using h
  simp [Predicate.holds, get?, entry?, hplace]

end Record

namespace RecordType

variable {t : RecordType} {r r' : Record} {read : Field → Bool → Except InvalidData Value}

def Names (t : RecordType) (name : String) : Prop :=
  ∃ f ∈ t.fields, Record.key f.name = Record.key name

def Unfilled (t : RecordType) (name : String) : Prop :=
  ∀ f ∈ t.fields, Record.key f.name = Record.key name → f.isFiller = false

instance (t : RecordType) (name : String) : Decidable (t.Unfilled name) :=
  inferInstanceAs (Decidable (∀ f ∈ t.fields, _ → _))

instance (t : RecordType) (name : String) : Decidable (t.Names name) :=
  inferInstanceAs (Decidable (∃ f ∈ t.fields, _))

theorem names_of_field? {name : String} (h : (t.field? name).isSome) : t.Names name := by
  obtain ⟨f, hf, hname⟩ := List.find?_isSome.1 h
  exact ⟨f, hf, Record.key_eq hname⟩

theorem readFields_contains {fields : List Field} (h : readFields read fields r = .ok r')
    (name : String) :
    r'.contains name = true ↔ r.contains name = true ∨
      ∃ f ∈ fields, f.isFiller = false ∧ Record.key f.name = Record.key name := by
  induction fields generalizing r with
  | nil =>
    obtain rfl := Except.ok.inj h
    simp
  | cons f fields ih =>
    obtain ⟨value, -, h⟩ := bind_eq_ok.1 h
    rw [ih h]
    cases hfill : f.isFiller with
    | true => simp [hfill]
    | false => simp [hfill, Record.contains_insert, or_assoc]

theorem read_contains (h : t.read read = .ok r) (name : String) :
    r.contains name = true ↔
      ∃ f ∈ t.fields, f.isFiller = false ∧ Record.key f.name = Record.key name := by
  rw [readFields_contains h]
  simp [Record.contains, Record.place?, Record.ofType]

end RecordType

namespace Formatter

variable {f : Formatter} {raw : Raw} {t : RecordType} {r : Record}

theorem decodeKey_contains (h : f.decodeKey raw t = .ok r) (name : String) :
    r.contains name = true ↔
      ∃ g ∈ t.fields, g.isFiller = false ∧ Record.key g.name = Record.key name := by
  cases raw with
  | bytes bytes => exact RecordType.read_contains h name
  | columns columns => exact RecordType.read_contains h name

theorem decode_contains (h : f.decode raw t = .ok r) (name : String) :
    r.contains name = true ↔
      ∃ g ∈ t.fields, g.isFiller = false ∧ Record.key g.name = Record.key name := by
  cases raw with
  | bytes bytes => exact RecordType.read_contains h name
  | columns columns =>
    obtain ⟨_, -, h⟩ := bind_eq_ok.1 h
    exact RecordType.read_contains h name

end Formatter

-- ------------------------------------------------------------------
-- Conditions that were linked
-- ------------------------------------------------------------------

namespace Link

variable {ctx : LinkContext} {layout : Layout} {schema : Schema} {t : RecordType} {p : Predicate}

theorem predicate_ok {record : String} {fields : List Field} {classifier : Option RecordType}
    {c : ConditionDecl} (h : predicate record fields classifier c = .ok p) :
    (∃ f ∈ fields, Record.key f.name = Record.key p.field) ∨
      ∃ k, classifier = some k ∧ k.Names p.field := by
  simp only [predicate] at h
  split at h
  · rename_i hknown
    obtain rfl := Except.ok.inj h
    rcases Bool.or_eq_true_iff.1 hknown with hown | hkey
    · obtain ⟨f, hf, hname⟩ := List.any_eq_true.1 hown
      exact .inl ⟨f, hf, Record.key_eq hname⟩
    · obtain ⟨k, hk, hfield⟩ := (Option.any_eq_true _ _).1 hkey
      exact .inr ⟨k, hk, RecordType.names_of_field? hfield⟩
  · simp at h

theorem LayoutLinked.condition (h : LayoutLinked ctx layout schema) (ht : t ∈ schema.recordTypes)
    (hp : p ∈ t.predicates) :
    t.Names p.field ∨ ∃ k, schema.classifier = some k ∧ k.Names p.field := by
  refine recordTypes_induct (P := fun t => ∀ p ∈ t.predicates,
    t.Names p.field ∨ ∃ k, schema.classifier = some k ∧ k.Names p.field) ?_ h.recordTypes t ht p hp
  intro r hr linked t hbefore htype p hp
  obtain ⟨c, -, hc⟩ := exists_mem_left_of_forall₂ (mapM_eq_ok.1 htype.predicates) hp
  exact predicate_ok hc

/-- A type that is read in a schema with a classifier has conditions on the classifier's fields
only. -/
theorem names_of_selectForRead {classifier : RecordType} {f : Formatter} {exclude : Option String}
    {raw : Formatter.Raw} {r : Record} (hclassifier : schema.classifier = some classifier)
    (h : schema.selectForRead exclude (f.decodeKey raw) (f.decode raw) = .ok (t, r))
    (hp : p ∈ t.predicates) : classifier.Names p.field := by
  obtain ⟨-, -, hchosen⟩ := Schema.selectForRead_ok h
  cases hchosen with
  | only hnone => simp [hnone] at hclassifier
  | accepted hnone => simp [hnone] at hclassifier
  | @classified classifier' key hsome hkey hfirst =>
    obtain rfl := Option.some.inj (hclassifier.symm.trans hsome)
    have haccepts : t.accepts key :=
      List.find?_some (p := fun u : RecordType => u.accepts key) hfirst
    have hholds : p.holds key = true := List.all_eq_true.1 haccepts p hp
    have hcontains : key.contains p.field = true := by
      by_contra hnot
      rw [Record.not_holds_of_not_contains (Bool.eq_false_iff.2 hnot)] at hholds
      exact absurd hholds (by decide)
    obtain ⟨g, hg, -, hname⟩ := (Formatter.decodeKey_contains hkey _).1 hcontains
    exact ⟨g, hg, hname⟩

end Link

/-- Every condition of a linked schema names a field of its record type or of the classifier.
Without a classifier each record that is read as the type has the field, the name of a filler apart.
With a classifier its reading of the data has the field exactly if the classifier does, again the
name of a filler apart; if the classifier does not, the field is one of the type's own, and no data
is read as the type. -/
theorem conditions_find_fields {ctx : LinkContext} {layout : Layout} {schema : Schema}
    {t : RecordType} {p : Predicate} (hl : layout.link ctx = .ok schema)
    (ht : t ∈ schema.recordTypes) (hp : p ∈ t.predicates) :
    (t.Names p.field ∨ ∃ classifier, schema.classifier = some classifier ∧
      classifier.Names p.field) ∧
    (schema.classifier = none → t.Unfilled p.field → ∀ (f : Formatter) raw r,
      f.decode raw t = .ok r → r.contains p.field = true) ∧
    ∀ classifier, schema.classifier = some classifier →
      (classifier.Unfilled p.field → ∀ (f : Formatter) raw key,
        f.decodeKey raw classifier = .ok key →
          (key.contains p.field = true ↔ classifier.Names p.field)) ∧
      (¬ classifier.Names p.field → t.Names p.field ∧ ∀ (f : Formatter) exclude raw r,
        schema.selectForRead exclude (f.decodeKey raw) (f.decode raw) ≠ .ok (t, r)) := by
  have hnamed := (Link.layout_ok hl).condition ht hp
  refine ⟨hnamed, ?_, ?_⟩
  · intro hnone hunfilled f raw r hdecode
    have hown : t.Names p.field := by simpa [hnone] using hnamed
    obtain ⟨g, hg, hname⟩ := hown
    exact (Formatter.decode_contains hdecode _).2 ⟨g, hg, hunfilled g hg hname, hname⟩
  · intro classifier hclassifier
    constructor
    · intro hunfilled f raw key hkey
      rw [Formatter.decodeKey_contains hkey]
      exact ⟨fun ⟨g, hg, _, hname⟩ => ⟨g, hg, hname⟩,
        fun ⟨g, hg, hname⟩ => ⟨g, hg, hunfilled g hg hname, hname⟩⟩
    · intro hmissing
      have hown : t.Names p.field := by simpa [hclassifier, hmissing] using hnamed
      exact ⟨hown, fun f exclude raw r hselect =>
        hmissing (Link.names_of_selectForRead hclassifier hselect hp)⟩

def subtypeLayout : String :=
  "file-type: Fixed\ntext-encoding: \"US-ASCII\"\nrecord-length: 2\n" ++
  "[Classifier]\n1 kind X(1)\n[A]\nkind = \"A\"\n1 kind X(1)\n2 a X(1)\n" ++
  "[B]\nsub = \"2\"\n1 kind X(1)\n2 sub X(1)\n"

theorem subtypeLayout_reader :
    ∃ f classifier key a p b q, Formatter.readerOf subtypeLayout [0x42, 0x32] = some f ∧
      f.schema.classifier = some classifier ∧
      f.decodeKey (.bytes [0x42, 0x32]) classifier = .ok key ∧
      (a ∈ f.schema.recordTypes ∧ p ∈ a.predicates ∧ classifier.Unfilled p.field ∧
        classifier.Names p.field) ∧
      (b ∈ f.schema.recordTypes ∧ q ∈ b.predicates ∧ ¬ classifier.Names q.field) ∧
      key.contains q.field = false ∧ f.read.1.isOk = false := by
  have h : (Formatter.readerOf subtypeLayout [0x42, 0x32]).any fun f =>
      f.schema.classifier.any fun classifier =>
        (f.decodeKey (.bytes [0x42, 0x32]) classifier).toOption.any fun key =>
          (f.schema.recordTypes.any fun a => a.predicates.any fun p =>
            classifier.Unfilled p.field ∧ classifier.Names p.field) ∧
          (f.schema.recordTypes.any fun b => b.predicates.any fun q =>
            ¬ classifier.Names q.field ∧ key.contains q.field = false) ∧
          f.read.1.isOk = false := by decide +kernel
  obtain ⟨f, hf, h⟩ := (Option.any_eq_true _ _).1 h
  obtain ⟨classifier, hclassifier, h⟩ := (Option.any_eq_true _ _).1 h
  obtain ⟨key, hkey, h⟩ := (Option.any_eq_true _ _).1 h
  obtain ⟨hfirst, hsecond, hrefused⟩ := of_decide_eq_true h
  obtain ⟨a, ha, hfirst⟩ := List.any_eq_true.1 hfirst
  obtain ⟨p, hp, hfirst⟩ := List.any_eq_true.1 hfirst
  obtain ⟨b, hb, hsecond⟩ := List.any_eq_true.1 hsecond
  obtain ⟨q, hq, hsecond⟩ := List.any_eq_true.1 hsecond
  obtain ⟨hmissing, hcontains⟩ := of_decide_eq_true hsecond
  exact ⟨f, classifier, key, a, p, b, q, hf, hclassifier, toOption_eq_some.1 hkey,
    ⟨ha, hp, of_decide_eq_true hfirst⟩, ⟨hb, hq, hmissing⟩, hcontains, hrefused⟩

theorem conditions_find_fields_subtype :
    ∃ layout schema classifier a p b q, Layout.parse subtypeLayout none = .ok layout ∧
      layout.link {} = .ok schema ∧ schema.classifier = some classifier ∧
      (a ∈ schema.recordTypes ∧ p ∈ a.predicates ∧ ∀ (f : Formatter) raw key,
        f.decodeKey raw classifier = .ok key → key.contains p.field = true) ∧
      b ∈ schema.recordTypes ∧ q ∈ b.predicates ∧ ∀ (f : Formatter) exclude raw r,
        schema.selectForRead exclude (f.decodeKey raw) (f.decode raw) ≠ .ok (b, r) := by
  obtain ⟨f, classifier, key, a, p, b, q, hf, hclassifier, -, ⟨ha, hp, hunfilled, hnames⟩,
    ⟨hb, hq, hmissing⟩, -⟩ := subtypeLayout_reader
  obtain ⟨layout, hparse, hlink⟩ := bind_eq_ok.1 (Formatter.compile_of_readerOf hf)
  obtain ⟨hfinds, -⟩ := (conditions_find_fields hlink ha hp).2.2 classifier hclassifier
  obtain ⟨-, hunread⟩ := (conditions_find_fields hlink hb hq).2.2 classifier hclassifier
  exact ⟨layout, f.schema, classifier, a, p, b, q, hparse, hlink, hclassifier,
    ⟨ha, hp, fun f raw key hkey => (hfinds hunfilled f raw key hkey).2 hnames⟩, hb, hq,
    (hunread hmissing).2⟩

/-- The classifier's reading of a record does not have the field that the condition of the second
type is on, so that the record is refused. -/
theorem conditions_miss_field :
    ∃ f b q classifier key, Formatter.readerOf subtypeLayout [0x42, 0x32] = some f ∧
      Schema.compile {} subtypeLayout none = .ok f.schema ∧ b ∈ f.schema.recordTypes ∧
      q ∈ b.predicates ∧ f.schema.classifier = some classifier ∧
      f.decodeKey (.bytes [0x42, 0x32]) classifier = .ok key ∧ key.contains q.field = false ∧
      f.read.1.isOk = false := by
  obtain ⟨f, classifier, key, -, -, b, q, hf, hclassifier, hkey, -, ⟨hb, hq, -⟩, hmisses,
    hrefused⟩ := subtypeLayout_reader
  exact ⟨f, b, q, classifier, key, hf, Formatter.compile_of_readerOf hf, hb, hq, hclassifier,
    hkey, hmisses, hrefused⟩

end Flatfile
