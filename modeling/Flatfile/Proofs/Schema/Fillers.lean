import Flatfile.Delimited.Record
import Flatfile.Proofs.Fixed.Slots

/-!
# Fillers

A filler is written as nothing, whatever the record holds. Every data type has a form for nothing,
so that a filler without converters never stands in the way of a record, unless the layout says that
it has to hold something: then no record of its type can be written (`compile_writesFillers`).
-/

namespace Flatfile

structure Field.IsPlainFiller (f : Field) : Prop where
  filler : f.isFiller = true
  converters : f.converters = []

instance (f : Field) : Decidable f.IsPlainFiller :=
  decidable_of_iff (f.isFiller = true ∧ f.converters.isEmpty = true)
    ⟨fun ⟨hfiller, hnone⟩ => ⟨hfiller, List.isEmpty_iff.1 hnone⟩,
      fun ⟨hfiller, hnone⟩ => ⟨hfiller, List.isEmpty_iff.2 hnone⟩⟩

def Field.absence (f : Field) : DataCause :=
  if f.isArray then .tooFewItems 0 f.occurs.min else .requiredFieldEmpty

/-- How the fillers of a record type fare where `encodeField` writes its fields, told which of them
is the last one, and `encodeRecord` its records. A filler of nothing is one of the given form. Only
where a record is `counted` do its fields make up its length for certain. -/
structure RecordType.WritesFillers (t : RecordType)
    (encodeField : Field → Bool → Value → Except InvalidData (List α))
    (encodeRecord : Record → Except InvalidData (List α)) (nothing : Field → Bool → List α → Prop)
    (counted : Prop) : Prop where
  blank : ∀ f ∈ t.fields, f.IsPlainFiller → f.isRequired = false → ∀ (r : Record) (last : Bool),
    ∃ image, encodeField f last (r.valueFor f) = .ok image ∧ nothing f last image
  refused : ∀ f ∈ t.fields, f.IsPlainFiller → f.isRequired = true →
    (∀ (r : Record) (last : Bool),
      encodeField f last (r.valueFor f) = .error { cause := f.absence }) ∧
      ∀ r out, encodeRecord r ≠ .ok out
  /-- A record that is not written has a field to blame, and that is no filler which may be empty.
  -/
  blamed : counted → ∀ r e, encodeRecord r = .error e →
    ∃ before f after cause, t.fields = before ++ f :: after ∧
      (f.IsPlainFiller → f.isRequired = true) ∧
      encodeField f after.isEmpty (r.valueFor f) = .error cause ∧ e = cause.inField f.name

variable {settings : Settings} {f : Field} {b : BuiltIn} {r : Record} {t : RecordType}

theorem Record.valueFor_filler (r : Record) (h : f.isFiller = true) : r.valueFor f = .null :=
  if_pos h

theorem Field.Compiled.checkCount_zero {family : Family} (h : f.Compiled family b)
    (harray : f.isArray = true) :
    f.checkCount 0 = if f.isRequired then .error { cause := f.absence } else .ok () := by
  rw [Field.absence, if_pos harray]
  split
  next hrequired => exact if_pos ((h.required harray).1 hrequired)
  next hoptional =>
    have hmin := mt (h.required harray).2 hoptional
    exact checkCount_eq_ok.2 ⟨Nat.not_lt.1 hmin, fun _ _ => Nat.zero_le _⟩

theorem Field.prepare_null (hplain : f.converters = []) (hsingle : f.isArray = false) :
    f.prepare .null = if f.isRequired then .error { cause := f.absence } else .ok .null := by
  rw [Field.prepare, Field.writeValue_plain hplain, Field.absence, hsingle]
  simp [Except.mapError, bind, Except.bind, Value.isEmpty]

theorem Value.padItems_nil (n : Nat) : Value.padItems n [] = List.replicate n .null := by
  simp [Value.padItems]

theorem RecordType.writesFillers_of_fields {α : Type}
    {encodeField : Field → Bool → Value → Except InvalidData (List α)}
    {encodeRecord : Record → Except InvalidData (List α)} {nothing : Field → Bool → List α → Prop}
    {counted : Prop}
    (hnull : ∀ f ∈ t.fields, f.converters = [] → ∀ last,
      if f.isRequired then encodeField f last .null = .error { cause := f.absence }
      else ∃ image, encodeField f last .null = .ok image ∧ nothing f last image)
    (hok : ∀ r out, encodeRecord r = .ok out → t.write encodeField r = .ok out)
    (herror : counted → ∀ r e, encodeRecord r = .error e → t.write encodeField r = .error e) :
    t.WritesFillers encodeField encodeRecord nothing counted := by
  have hfiller {f : Field} (hf : f ∈ t.fields) (hplain : f.IsPlainFiller) (r : Record)
      (last : Bool) :
      if f.isRequired then encodeField f last (r.valueFor f) = .error { cause := f.absence }
      else ∃ image, encodeField f last (r.valueFor f) = .ok image ∧ nothing f last image := by
    rw [r.valueFor_filler hplain.filler]
    exact hnull f hf hplain.converters last
  refine ⟨fun f hf hplain hoptional r last => ?_, fun f hf hplain hrequired => ⟨fun r last => ?_,
    fun r out hwritten => ?_⟩, fun hcounted r e h => ?_⟩
  · simpa [hoptional] using hfiller hf hplain r last
  · simpa [hrequired] using hfiller hf hplain r last
  · obtain ⟨last, part, hpart⟩ := exists_part_of_writeFields (hok r out hwritten) f hf
    have hrefused := hfiller hf hplain r last
    rw [hrequired, if_pos rfl, hpart] at hrefused
    cases hrefused
  · obtain ⟨before, f, after, cause, hfields, hcause, he⟩ := writeFields_error (herror hcounted r e h)
    refine ⟨before, f, after, cause, hfields, fun hplain => ?_, hcause, he⟩
    by_contra hoptional
    have hwritten := hfiller (hfields ▸ List.mem_append_right _ List.mem_cons_self) hplain r
      after.isEmpty
    rw [if_neg hoptional, hcause] at hwritten
    obtain ⟨image, himage, -⟩ := hwritten
    cases himage

-- ------------------------------------------------------------------
-- Records of fixed length
-- ------------------------------------------------------------------

namespace Fixed

theorem encodeField_null (h : f.Compiled .fixed b) (hplain : f.converters = []) :
    encodeField settings f .null =
      if f.isRequired then .error { cause := f.absence }
      else .ok (List.replicate f.extent (b.blankByte (f.coding settings))) := by
  have hwidth : b.dataType.width = f.width := by rw [Field.width, h.dataType]
  cases harray : f.isArray with
  | true =>
    have hitem : encodeItem settings f .null = .ok (b.blank (f.coding settings)) :=
      encodeItem_null h hplain
    have hslots := mapM_replicate hitem f.slots
    rw [encodeField, if_pos harray, Value.items, List.length_nil, h.checkCount_zero harray,
      Value.padItems_nil, hslots, BuiltIn.blank, hwidth, Field.extent, Nat.mul_comm]
    cases f.isRequired with
    | true => rfl
    | false => exact congrArg Except.ok List.flatten_replicate_replicate
  | false =>
    have hslot : encodeSlot settings f .null = .ok (b.blank (f.coding settings)) :=
      encodeSlot_null h
    rw [BuiltIn.blank, hwidth] at hslot
    rw [encodeField, harray, if_neg Bool.false_ne_true, Field.prepare_null hplain harray,
      Field.extent, Field.slots_eq_one h.ordered harray, Nat.mul_one]
    cases f.isRequired with
    | true => rfl
    | false => exact hslot

theorem encodeRecord_error {e : InvalidData} (ht : t.Tiled)
    (hordered : ∀ f ∈ t.fields, f.occurs.Ordered) (h : encodeRecord settings t r = .error e) :
    t.write (fun f _ => encodeField settings f) r = .error e := by
  cases hwrite : t.write (fun f _ => encodeField settings f) r with
  | error e' =>
    rw [encodeRecord, hwrite] at h
    exact h
  | ok bytes =>
    obtain ⟨parts, hparts, rfl⟩ := RecordType.writeFields_ok hwrite
    have hextents : List.Forall₂ (fun f p => p.length = Field.extent f) t.fields parts :=
      ((List.forall₂_and_left t.fields parts).2 ⟨hordered, hparts⟩).imp
        fun _ _ ⟨hordered, hpart⟩ => encodeField_length hordered hpart
    have hlength : parts.flatten.length = t.length := by
      rw [Field.flatten_length_of_extents hextents, ht.length]
    rw [encodeRecord, hwrite] at h
    simp [bind, Except.bind, hlength] at h

theorem encodeRecord_eq_ok {bytes : List UInt8} (h : encodeRecord settings t r = .ok bytes) :
    t.write (fun f _ => encodeField settings f) r = .ok bytes := by
  obtain ⟨out, hout, h⟩ := bind_eq_ok.1 h
  split at h
  next => rwa [← Except.ok.inj h]
  next => cases h

end Fixed

-- ------------------------------------------------------------------
-- Columns
-- ------------------------------------------------------------------

namespace Delimited

theorem encodeItem_null (h : f.Compiled .columns b) (hplain : f.converters = []) :
    encodeItem settings f .null = .ok "" := by
  rw [encodeItem, Field.writeValue_plain hplain]
  simp only [Except.mapError, bind, Except.bind, encodeColumn]
  rw [← h.dataType, BuiltIn.encodeText_null h.family]

theorem encodeField_null (h : f.Compiled .columns b) (hplain : f.converters = []) (last : Bool) :
    encodeField settings f last .null =
      if f.isRequired then .error { cause := f.absence }
      else .ok (if f.isArray && last then [] else List.replicate f.slots "") := by
  have hitem : encodeItem settings f .null = .ok "" := encodeItem_null h hplain
  cases harray : f.isArray with
  | true =>
    rw [encodeField, if_pos harray, Value.items, List.length_nil, h.checkCount_zero harray,
      Value.padItems_nil, Bool.true_and]
    cases f.isRequired with
    | true => rfl
    | false =>
      cases last with
      | true => rfl
      | false => exact mapM_replicate hitem f.slots
  | false =>
    have hcolumn : encodeColumn settings f .null = .ok "" := by
      rwa [encodeItem, Field.writeValue_plain hplain] at hitem
    rw [encodeField, harray, if_neg Bool.false_ne_true, Field.prepare_null hplain harray,
      Field.slots_eq_one h.ordered harray]
    cases f.isRequired with
    | true => rfl
    | false => simp [bind, Except.bind, hcolumn]

end Delimited

-- ------------------------------------------------------------------
-- Compiled schemas
-- ------------------------------------------------------------------

/-- Fillers without converters are written as nothing, as many bytes or columns of it as they take,
unless they are required. A record that is not written has another field to blame, as long as a word
counts its bytes. -/
theorem compile_writesFillers {defaults : Defaults} {text : String} {source : Option String}
    {schema : Schema} {t : RecordType} (h : Schema.compile { defaults } text source = .ok schema)
    (ht : t ∈ schema.recordTypes) (settings : Settings) :
    (schema.fileType = .fixed →
      t.WritesFillers (fun f _ => Fixed.encodeField settings f) (Fixed.encodeRecord settings t)
        (fun f _ image => ∃ b : BuiltIn, b.dataType = f.dataType ∧
          image = List.replicate f.extent (b.blankByte (f.coding settings))) t.Fits) ∧
      (schema.fileType = .delimited →
        t.WritesFillers (Delimited.encodeField settings) (Delimited.encodeRecord settings t)
          (fun f last image =>
            image = if f.isArray && last then [] else List.replicate f.slots "") True) := by
  have hfield {f : Field} (hf : f ∈ t.fields) := Schema.compile_field h ht hf
  constructor
  · intro hfixed
    rw [hfixed] at hfield
    refine RecordType.writesFillers_of_fields (fun f hf hplain _ => ?_)
      (fun r out => Fixed.encodeRecord_eq_ok) fun hfits r e =>
        Fixed.encodeRecord_error (compile_tiled_of_fits h ht hfits) fun f hf =>
          (hfield hf).elim fun _ hb => hb.ordered
    obtain ⟨b, hb⟩ := hfield hf
    simp only [Fixed.encodeField_null hb hplain]
    split
    next => rfl
    next => exact ⟨_, rfl, b, hb.dataType, rfl⟩
  · intro hdelimited
    rw [hdelimited] at hfield
    refine RecordType.writesFillers_of_fields (fun f hf hplain last => ?_) (fun r out h => h)
      fun _ r e h => h
    obtain ⟨b, hb⟩ := hfield hf
    rw [Delimited.encodeField_null hb hplain last]
    split
    next => rfl
    next => exact ⟨_, rfl, rfl⟩

def paddedLayout : String :=
  "file-type: Fixed\ntext-encoding: \"Cp037\"\nrecord-length: 12\n" ++
  "[R]\n1 a X(1)\n2 ? p[0..2] SZ(2)\n6 ? q BI(4)\n10 ? s X(3, \"*\")\n"

theorem compile_writesFillers_padded :
    ∃ schema t f, Schema.compile {} paddedLayout none = .ok schema ∧ t ∈ schema.recordTypes ∧
      f ∈ t.fields ∧ f.IsPlainFiller ∧
      Fixed.encodeRecord schema.settings t (.ofList [("a", .text "x")]) =
        .ok [0xA7, 0x40, 0x40, 0x40, 0x40, 0, 0, 0, 0, 0x5C, 0x5C, 0x5C] ∧
      ∀ r : Record, ∃ byte, Fixed.encodeField schema.settings f (r.valueFor f) =
        .ok (List.replicate f.extent byte) := by
  have hshape : (Schema.compile {} paddedLayout none).toOption.any fun schema =>
      schema.recordTypes.any fun t => schema.fileType = .fixed ∧
        Fixed.encodeRecord schema.settings t (.ofList [("a", .text "x")]) =
          .ok [0xA7, 0x40, 0x40, 0x40, 0x40, 0, 0, 0, 0, 0x5C, 0x5C, 0x5C] ∧
        (t.fields.any fun f => f.IsPlainFiller ∧ f.isRequired = false) = true := by
    decide +kernel
  obtain ⟨schema, hschema, hshape⟩ := (Option.any_eq_true _ _).1 hshape
  rw [toOption_eq_some] at hschema
  obtain ⟨t, ht, hshape⟩ := List.any_eq_true.1 hshape
  obtain ⟨hfixed, hbytes, hfillers⟩ := of_decide_eq_true hshape
  obtain ⟨f, hf, hfiller⟩ := List.any_eq_true.1 hfillers
  obtain ⟨hplain, hoptional⟩ := of_decide_eq_true hfiller
  have hfillers := (compile_writesFillers hschema ht schema.settings).1 hfixed
  refine ⟨schema, t, f, hschema, ht, hf, hplain, hbytes, fun r => ?_⟩
  obtain ⟨image, himage, b, -, rfl⟩ := hfillers.blank f hf hplain hoptional r false
  exact ⟨_, himage⟩

def requiredFillers : String :=
  "file-type: Fixed\ntext-encoding: \"US-ASCII\"\nrecord-length: 4\n" ++
  "[A]\n1 a X(1)\n2 ? pad[1] X(3)\n[B]\n1 a X(1)\n2 ? pad[1..3] X(1)\n"

theorem requiredFillers_refuse :
    ∃ schema t u, Schema.compile {} requiredFillers none = .ok schema ∧
      schema.fileType = .fixed ∧ t ∈ schema.recordTypes ∧ u ∈ schema.recordTypes ∧
      (∀ f ∈ t.fields ++ u.fields, f.name = "pad" → f.IsPlainFiller) ∧
      Fixed.encodeRecord schema.settings t (.ofList [("a", .text "x")]) =
        .error { field := some "pad", cause := .requiredFieldEmpty } ∧
      Fixed.encodeRecord schema.settings u (.ofList [("a", .text "x")]) =
        .error { field := some "pad", cause := .tooFewItems 0 1 } := by
  have hshape : (Schema.compile {} requiredFillers none).toOption.any fun schema =>
      schema.recordTypes.any fun t => schema.recordTypes.any fun u =>
        schema.fileType = .fixed ∧
          (∀ f ∈ t.fields ++ u.fields, f.name = "pad" → f.IsPlainFiller) ∧
          Fixed.encodeRecord schema.settings t (.ofList [("a", .text "x")]) =
            .error { field := some "pad", cause := .requiredFieldEmpty } ∧
          Fixed.encodeRecord schema.settings u (.ofList [("a", .text "x")]) =
            .error { field := some "pad", cause := .tooFewItems 0 1 } := by
    decide +kernel
  obtain ⟨schema, hschema, hshape⟩ := (Option.any_eq_true _ _).1 hshape
  rw [toOption_eq_some] at hschema
  obtain ⟨t, ht, hshape⟩ := List.any_eq_true.1 hshape
  obtain ⟨u, hu, hshape⟩ := List.any_eq_true.1 hshape
  obtain ⟨hfixed, hrefused⟩ := of_decide_eq_true hshape
  exact ⟨schema, t, u, hschema, hfixed, ht, hu, hrefused⟩

end Flatfile
