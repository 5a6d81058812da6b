import Flatfile.Proofs.Codec.BuiltIn
import Flatfile.Proofs.Layout.Derivation
import Flatfile.Proofs.Schema.Linked
import Flatfile.Proofs.Word
import Flatfile.Schema.Traverse

/-!
# The fields of a schema

What is known of every field of a schema that compiles without registries of its own
(`Schema.compile_field`): the reader of layouts has checked how often it occurs, and its data type
is a built-in one whose arguments have been checked.
-/

namespace Flatfile

-- ------------------------------------------------------------------
-- Bounds
-- ------------------------------------------------------------------

/-- There may be as many items as there have to be, and one at least. -/
def Occurs.Ordered (occurs : Occurs) : Prop :=
  ∀ max ∈ occurs.max, occurs.min ≤ max ∧ 1 ≤ max

theorem Layout.parse_ordered {text : String} {source : Option String} {layout : Layout}
    (h : parse text source = .ok layout) :
    ∀ r ∈ layout.recordTypes ++ layout.classifier.toList, ∀ d ∈ r.fields, d.occurs.Ordered := by
  intro r hr d hd
  obtain ⟨n, -, hvalid, rfl⟩ := parse_fieldTrees h r hr d hd
  exact hvalid.bounds

structure FieldDecl.InWords (d : FieldDecl) : Prop where
  position_pos : 1 ≤ d.position
  position_lt : d.position < 2 ^ 32
  slots_lt : d.occurs.slots < 2 ^ 32

theorem Layout.parse_inWords {text : String} {source : Option String} {layout : Layout}
    (h : parse text source = .ok layout) :
    ∀ r ∈ layout.recordTypes ++ layout.classifier.toList, ∀ d ∈ r.fields, d.InWords := by
  intro r hr d hd
  obtain ⟨n, hregular, hvalid, rfl⟩ := parse_fieldTrees h r hr d hd
  refine ⟨hvalid.position.1.1, hvalid.position.2, ?_⟩
  show n.occurs.slots < 2 ^ 32
  rw [FieldTree.occurs]
  cases hsize : n.size with
  | none => decide
  | some size =>
    have hmem : size.val ∈ n.line.tokens := by simp [FieldTree.line, hsize, Leaf.optional]
    obtain ⟨min, max, hvalue, hlt⟩ :=
      (hregular.carries _ hmem).bounds (List.mem_singleton.1 size.property)
    simpa [Token.bounds, hvalue, Occurs.slots] using hlt

theorem Layout.parse_required {text : String} {source : Option String} {layout : Layout}
    (h : parse text source = .ok layout) :
    ∀ r ∈ layout.recordTypes ++ layout.classifier.toList, ∀ d ∈ r.fields,
      d.occurs.isArray = true → (d.isRequired = true ↔ 1 ≤ d.occurs.min) := by
  intro r hr d hd harray
  obtain ⟨n, -, -, rfl⟩ := parse_fieldTrees h r hr d hd
  have hsize : n.size.isSome = true := by
    rw [Option.isSome_iff_ne_none]
    rintro hnone
    simp [FieldTree.spell, FieldTree.occurs, hnone, Occurs.isArray, Occurs.once] at harray
  simp [FieldTree.spell, hsize]

theorem Field.checkCount_eq_ok {f : Field} {count : Nat} :
    f.checkCount count = .ok () ↔
      f.occurs.min ≤ count ∧ ∀ max, f.occurs.max = some max → count ≤ max := by
  unfold Field.checkCount
  split
  next hfew =>
    simp only [reduceCtorEq, false_iff]
    exact fun h => absurd h.1 (Nat.not_le.2 hfew)
  next hfew =>
    cases f.occurs.max with
    | none => simpa using hfew
    | some max =>
      by_cases hmany : max < count
      · simp [hmany]
      · simp [hmany, Nat.not_lt.1 hmany, Nat.not_lt.1 hfew]

theorem Field.slots_eq_max {f : Field} {max : Nat} (h : f.occurs.max = some max) :
    f.slots = max := by
  rw [Field.slots, Occurs.slots, h, Option.getD_some]

theorem Field.slots_eq_one {f : Field} (h : f.occurs.Ordered) (hsingle : f.isArray = false) :
    f.slots = 1 := by
  rw [Field.isArray, Occurs.isArray] at hsingle
  cases hmax : f.occurs.max with
  | none => simp [hmax] at hsingle
  | some max =>
    have hpos := (h max hmax).2
    simp only [hmax, Option.all_some, decide_eq_false_iff_not] at hsingle
    rw [Field.slots_eq_max hmax]
    omega

-- ------------------------------------------------------------------
-- Data types
-- ------------------------------------------------------------------

namespace Link

theorem registry_builtin (defaults : Defaults) (family : Family) :
    ({ defaults } : LinkContext).registry family = Registry.builtin family := by
  cases family <;> rfl

theorem FieldLinked.declared {registry : Registry} {charset : Charset} {record : String}
    {d : FieldDecl} {f : Field} (h : FieldLinked registry charset record d f) :
    ∃ call, d.dataType = some call ∧
      registry.dataType? call.name call.args ⟨d.name, f.charset⟩ = some (.ok f.dataType) := by
  obtain ⟨call, -, hcall, hmade, -, -⟩ := h.codec
  unfold dataTypeOf at hmade
  split at hmade
  next => cases hmade
  next made hfound =>
    rw [mapError_eq_ok.1 hmade] at hfound
    exact ⟨call, hcall, hfound⟩

theorem FieldLinked.builtIn {family : Family} {charset : Charset} {record : String} {d : FieldDecl}
    {f : Field} (h : FieldLinked (Registry.builtin family) charset record d f) :
    ∃ b : BuiltIn, b.dataType = f.dataType ∧ b.Checked ∧ b.family = family := by
  obtain ⟨call, -, hfound⟩ := h.declared
  obtain ⟨b, hchecked, hfamily, hb⟩ := BuiltIn.exists_of_dataType? hfound
  exact ⟨b, hb, hchecked, hfamily⟩

end Link

-- ------------------------------------------------------------------
-- Compiled schemas
-- ------------------------------------------------------------------

/-- The field has the built-in data type `b` and bounds that were checked. -/
structure Field.Compiled (family : Family) (f : Field) (b : BuiltIn) : Prop where
  dataType : b.dataType = f.dataType
  checked : b.Checked
  family : b.family = family
  ordered : f.occurs.Ordered
  required : f.isArray = true → (f.isRequired = true ↔ 1 ≤ f.occurs.min)

/-- The data type of a field is the one that the layout declares for it, or for a field that the
record type takes over. -/
theorem Schema.compile_declared {defaults : Defaults} {text : String} {source : Option String}
    {schema : Schema} (h : Schema.compile { defaults } text source = .ok schema) {t : RecordType}
    (ht : t ∈ schema.recordTypes) {f : Field} (hf : f ∈ t.fields) :
    ∃ layout, Layout.parse text source = .ok layout ∧
      ∃ r ∈ layout.recordTypes, ∃ d ∈ r.fields, ∃ call, d.dataType = some call ∧
        (Registry.builtin (Family.ofFileType schema.fileType)).dataType? call.name call.args
          ⟨d.name, f.charset⟩ = some (.ok f.dataType) := by
  obtain ⟨layout, hparse, hlinked⟩ := Link.compile_ok h
  obtain ⟨r, hr, d, hd, hfield⟩ := Link.field_of_recordTypes hlinked.recordTypes t ht f hf
  rw [Link.registry_builtin] at hfield
  exact ⟨layout, hparse, r, hr, d, hd, hfield.declared⟩

structure Field.InWords (f : Field) : Prop where
  position : f.position = f.offset + 1
  position_lt : f.position < 2 ^ 32
  slots_lt : f.slots < 2 ^ 32

theorem Link.FieldLinked.inWords {registry : Registry} {charset : Charset} {record : String}
    {d : FieldDecl} {f : Field} (h : FieldLinked registry charset record d f) (hd : d.InWords) :
    f.InWords where
  position := by
    have := hd.position_pos
    rw [h.offset, h.position]
    omega
  position_lt := h.position ▸ hd.position_lt
  slots_lt := by
    rw [Field.slots, h.occurs]
    exact hd.slots_lt

theorem Schema.compile_inWords {ctx : LinkContext} {text : String} {source : Option String}
    {schema : Schema} (h : Schema.compile ctx text source = .ok schema) {t : RecordType}
    (ht : t ∈ schema.recordTypes) {f : Field} (hf : f ∈ t.fields) : f.InWords := by
  obtain ⟨layout, hparse, hlinked⟩ := Link.compile_ok h
  obtain ⟨r, hr, d, hd, hfield⟩ := Link.field_of_recordTypes hlinked.recordTypes t ht f hf
  exact hfield.inWords (Layout.parse_inWords hparse r (List.mem_append_left _ hr) d hd)

theorem Schema.compile_field {defaults : Defaults} {text : String} {source : Option String}
    {schema : Schema} (h : Schema.compile { defaults } text source = .ok schema) {t : RecordType}
    (ht : t ∈ schema.recordTypes) {f : Field} (hf : f ∈ t.fields) :
    ∃ b, f.Compiled (Family.ofFileType schema.fileType) b := by
  obtain ⟨layout, hparse, hlinked⟩ := Link.compile_ok h
  obtain ⟨r, hr, d, hd, hfield⟩ := Link.field_of_recordTypes hlinked.recordTypes t ht f hf
  rw [Link.registry_builtin] at hfield
  obtain ⟨b, hb, hchecked, hfamily⟩ := hfield.builtIn
  have hr := List.mem_append_left layout.classifier.toList hr
  refine ⟨b, hb, hchecked, hfamily, ?_, ?_⟩
  · exact hfield.occurs ▸ Layout.parse_ordered hparse r hr d hd
  · rw [Field.isArray, hfield.occurs, hfield.isRequired]
    exact Layout.parse_required hparse r hr d hd

end Flatfile
