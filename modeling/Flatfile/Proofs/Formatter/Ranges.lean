import Flatfile.Proofs.Formatter.GuardedReading
import Flatfile.Proofs.Schema.Fields

/-!
# Reading keeps all ranges

A layout that compiles without registries of its own is read within all ranges, whatever the data,
if sizes are numbers without bounds (`compile_keepsRanges`). Each range is kept for a reason of its
own: positions are positive since the parser refuses others, the widths and scales of data types
since their factories have checked their arguments, the room of an array at the end since the fields
of a record type cover it, and the places in a record since its index leads to its entries. Only the
bytes of a field are looked after by the reader itself, and so a classifier, whose fields nobody has
put side by side, is read as safely as the record types.
-/

namespace Flatfile

open Guarded

-- ------------------------------------------------------------------
-- Data types and room
-- ------------------------------------------------------------------

namespace Link

variable {layout : Layout} {schema : Schema} {defaults : Defaults}

def guardedField (registry : Registry) (charset : Charset) (record : String) (d : FieldDecl) :
    Guarded SyntaxError Field := do
  let f ← outcome (field registry charset record d)
  let offset ← minus f.position 1
  pure { f with offset }

theorem guardedField_gives {d : FieldDecl} (h : 1 ≤ d.position) (registry : Registry)
    (charset : Charset) (record : String) :
    (guardedField registry charset record d).Gives (field registry charset record d) := by
  unfold guardedField
  cases hfield : field registry charset record d with
  | error e => rfl
  | ok f =>
    have hlinked := field_ok hfield
    refine (gives_outcome _).bind_ok ?_
    refine (gives_minus (hlinked.position ▸ h)).bind_ok ?_
    rw [← hlinked.offset]
    exact gives_pure f

theorem fields_builtIn {family : Family} {charset : Charset} {r : RecordDecl} {fs : List Field}
    (h : fields (Registry.builtin family) charset r = .ok fs) :
    ∀ f ∈ fs, ∃ b : BuiltIn, b.dataType = f.dataType ∧ b.Checked := by
  obtain ⟨linked, hlinked, rfl⟩ := fields_ok h
  intro f hf
  obtain ⟨d, -, hfield⟩ := exists_mem_left_of_forall₂ hlinked ((sortFields_perm linked).mem_iff.1 hf)
  obtain ⟨b, hb, hchecked, -⟩ := (field_ok hfield).builtIn
  exact ⟨b, hb, hchecked⟩

theorem LayoutLinked.builtIn (h : LayoutLinked { defaults } layout schema) :
    ∀ t ∈ schema.classifier.toList ++ schema.recordTypes, ∀ f ∈ t.fields,
      ∃ b : BuiltIn, b.dataType = f.dataType ∧ b.Checked := by
  intro t ht f hf
  rcases List.mem_append.1 ht with ht | ht
  · obtain ⟨r, -, hr⟩ := h.exists_classifier (Option.mem_toList.1 ht)
    rw [registry_builtin] at hr
    obtain ⟨fs, hfs, hr⟩ := bind_eq_ok.1 hr
    obtain rfl := Except.ok.inj hr
    exact fields_builtIn hfs f hf
  · have htypes := field_of_recordTypes h.recordTypes
    rw [registry_builtin] at htypes
    obtain ⟨r, -, d, -, hlinked⟩ := htypes t ht f hf
    obtain ⟨b, hb, hchecked, -⟩ := hlinked.builtIn
    exact ⟨b, hb, hchecked⟩

end Link

theorem compile_hasRoom {defaults : Defaults} {text : String} {source : Option String}
    {schema : Schema} (h : Schema.compile { defaults } text source = .ok schema)
    (hdelimited : schema.fileType = .delimited) {t : RecordType} (ht : t ∈ schema.recordTypes) :
    GuardedRead.HasRoom t := by
  obtain ⟨-, hfits⟩ := compile_fits_of_columns h rfl hdelimited ht
  have htiled := compile_tiled_of_fits h ht hfits
  refine ⟨htiled.length ▸ hfits, fun last hlast => ?_, fun last hlast => ?_⟩
  · obtain ⟨_, hcompiled⟩ := Schema.compile_field h ht (List.mem_of_getLast? hlast)
    exact hcompiled.ordered
  · have hend := htiled.end_le (List.mem_of_getLast? hlast)
    omega

-- ------------------------------------------------------------------
-- Reading
-- ------------------------------------------------------------------

/-- A layout text is linked, and data is read with its schema, with no operation outside its range.
The data types of the fields are those of `codec`. Sizes have no bounds in this; where a field
reaches further than words count, the plain reader goes another way. -/
structure KeepsRanges (text : String) (schema : Schema) : Prop where
  positions : ∀ source layout, Layout.parse text source = .ok layout →
    ∀ r ∈ layout.recordTypes ++ layout.classifier.toList, ∀ d ∈ r.fields,
      ∀ registry charset, (Link.guardedField registry charset r.name d).Gives
        (Link.field registry charset r.name d)
  reading : ∃ codec : Field → BuiltIn,
    (∀ t ∈ schema.classifier.toList ++ schema.recordTypes, ∀ f ∈ t.fields,
      (codec f).dataType = f.dataType) ∧
    ∀ f : Formatter, f.schema = schema →
      (∀ d, f.engine = .delimited d → schema.fileType = .delimited) →
      ∃ answer, GuardedRead.read codec f = some answer ∧ (¬ schema.Overruns → answer = f.read)

theorem compile_keepsRanges {defaults : Defaults} {text : String} {source : Option String}
    {schema : Schema} (h : Schema.compile { defaults } text source = .ok schema) :
    KeepsRanges text schema := by
  obtain ⟨layout, -, hlinked⟩ := Link.compile_ok h
  constructor
  · intro source layout hparse r hr d hd registry charset
    exact Link.guardedField_gives (Layout.parse_inWords hparse r hr d hd).position_pos registry
      charset r.name
  · have hmade : ∀ f : Field, ∃ b : BuiltIn, (∃ t ∈ schema.classifier.toList ++ schema.recordTypes,
        f ∈ t.fields) → b.dataType = f.dataType ∧ b.Checked := by
      intro f
      by_cases hf : ∃ t ∈ schema.classifier.toList ++ schema.recordTypes, f ∈ t.fields
      · obtain ⟨t, ht, hf⟩ := hf
        obtain ⟨b, hb⟩ := hlinked.builtIn t ht f hf
        exact ⟨b, fun _ => hb⟩
      · exact ⟨.columnHex, fun h => absurd h hf⟩
    choose codec hcodec using hmade
    refine ⟨codec, fun t ht f hf => (hcodec f ⟨t, ht, hf⟩).1, ?_⟩
    rintro f rfl hengine
    exact GuardedRead.read_gives
      ⟨fun c hc g hg => hcodec g ⟨c, List.mem_append_left _ (Option.mem_toList.2 hc), hg⟩,
        fun t ht g hg => hcodec g ⟨t, List.mem_append_right _ ht, hg⟩⟩
      fun d hd t ht => compile_hasRoom h (hengine d hd) ht

def looseLayout : String :=
  "file-type: Fixed\ntext-encoding: \"US-ASCII\"\nrecord-length: 3\n" ++
  "[Classifier]\n1 kind X(1)\n1 code BI(2)\n9 more[2..*] SP(4, 2)\n[A]\n1 a X(3)\n"

theorem compile_keepsRanges_loose :
    ∃ schema, Schema.compile {} looseLayout none = .ok schema ∧
      (schema.classifier.map fun c => c.fields.map fun f => (f.offset, f.size)) =
        some [(0, 1), (0, 2), (8, 8)] ∧
      ¬ schema.Overruns ∧ KeepsRanges looseLayout schema := by
  have hshape : (Schema.compile {} looseLayout none).toOption.any fun schema =>
      (schema.classifier.map fun c => c.fields.map fun f => (f.offset, f.size)) =
        some [(0, 1), (0, 2), (8, 8)] ∧ ¬ schema.Overruns := by decide +kernel
  obtain ⟨schema, hschema, hshape⟩ := (Option.any_eq_true _ _).1 hshape
  obtain ⟨hfields, hwords⟩ := of_decide_eq_true hshape
  replace hschema := toOption_eq_some.1 hschema
  exact ⟨schema, hschema, hfields, hwords, compile_keepsRanges hschema⟩

end Flatfile
