import Flatfile.Proofs.Codec.SpelledDecimal
import Flatfile.Proofs.Fixed.Unused

/-!
# Arrays of signed decimals that are written back

The items of an array are texts. Those of numbers are written back as the numbers they spell, but a
slot of spaces in front of the last item, or among those that the array must have, becomes an item
without text, which no number is spelled by. So an array that is read can be written back exactly if
none of its items was read from spaces (`compile_rewritesDecimals`).
-/

namespace Flatfile

namespace Fixed

variable {settings : Settings} {f : Field} {b : BuiltIn} {value v : Value}
  {slot record : List UInt8} {items : List String}

-- ------------------------------------------------------------------
-- Items
-- ------------------------------------------------------------------

/-- The items of an array are the first of what its slots hold, and no fewer than it must have. -/
theorem dropUnused_eq_take (min : Nat) (texts : List String) :
    ∃ n, min ≤ n ∧ dropUnused min texts = texts.take n := by
  have hend : Text.dropEndWhile (·.isEmpty) (texts.drop min) <+: texts.drop min := by
    rw [← List.reverse_suffix, Text.dropEndWhile, List.reverse_reverse]
    exact List.dropWhile_suffix _
  rw [dropUnused, List.prefix_iff_eq_take.1 hend, ← List.take_add]
  exact ⟨_, Nat.le_add_right .., rfl⟩

theorem end_le_of_decodeField (hword : f.offset + f.extent < 2 ^ 64)
    (h : decodeField settings record f = .ok value) : f.offset + f.extent ≤ record.length := by
  have hin : f.LiesIn (f.offset + f.extent) := ⟨Nat.le_refl _, hword⟩
  refine Nat.le_of_not_lt fun hshort => ?_
  rw [← hin.stop_eq] at hshort
  rw [decodeField, if_pos hshort] at h
  cases h

theorem decodeField_items (harray : f.isArray = true) (hpos : 0 < f.width)
    (hword : f.offset + f.extent < 2 ^ 64) (hordered : f.occurs.Ordered)
    (hclosed : f.occurs.max ≠ none) (h : decodeField settings record f = .ok value) :
    ∃ items, value = .array items ∧ f.occurs.min ≤ items.length ∧ items.length ≤ f.slots ∧
      ∀ i s, items[i]? = some s →
        ∃ v, decodeSlot settings f (f.slotAt record i) = .ok v ∧ v.toText = s := by
  have hin : f.LiesIn record.length := ⟨end_le_of_decodeField hword h, hword⟩
  rw [decodeField_array hin harray hpos] at h
  obtain ⟨values, hvalues, h⟩ := bind_eq_ok.1 h
  obtain rfl := Except.ok.inj h
  rw [mapM_eq_ok] at hvalues
  have hcount : (values.map Value.toText).length = f.slots := by
    rw [List.length_map, ← hvalues.length_eq, List.length_range]
  obtain ⟨max, hmax⟩ := Option.ne_none_iff_exists'.1 hclosed
  have hslots : f.occurs.min ≤ f.slots := by
    rw [Field.slots_eq_max hmax]
    exact (hordered max hmax).1
  obtain ⟨n, hn, hitems⟩ := dropUnused_eq_take f.occurs.min (values.map Value.toText)
  rw [hitems]
  refine ⟨_, rfl, ?_, ?_, fun i s hs => ?_⟩
  · rw [List.length_take, hcount]
    omega
  · rw [List.length_take, hcount]
    omega
  · rw [List.getElem?_take] at hs
    split at hs
    next =>
      rw [List.getElem?_map, Option.map_eq_some_iff] at hs
      obtain ⟨v, hv, rfl⟩ := hs
      obtain ⟨hi, rfl⟩ := List.getElem?_eq_some_iff.1 hv
      obtain ⟨hlength, hread⟩ := List.forall₂_iff_get.1 hvalues
      have hslot := hread i (hlength ▸ hi) hi
      rw [List.get_eq_getElem, List.getElem_range] at hslot
      exact ⟨_, hslot, rfl⟩
    next => cases hs

def Spelled (settings : Settings) (f : Field) (s : String) : Prop :=
  s ≠ "" ∧ ∃ v, reread settings f (.text s) = .ok v ∧ v.toText = s

theorem Spelled.not_readsEmpty {s : String} (h : Spelled settings f s) :
    ¬ ReadsEmpty settings f (.text s) := by
  obtain ⟨hsome, v, hread, rfl⟩ := h
  rw [ReadsEmpty, hread]
  exact fun hempty => hsome (Option.some.inj hempty)

section Decimals

variable (h : f.Compiled .fixed b) (hplain : f.converters = [])
  (hshort : b.ShortDecimal settings.numeric)

include h hplain hshort

theorem encodeItem_empty :
    encodeItem settings f (.text "") = .error (.ofConvert (.notANumber "")) := by
  have hempty : b.dataType.encodeBytes (f.coding settings) (.text "") = .error (.notANumber "") :=
    BuiltIn.encodeBytes_empty hshort
  rw [encodeItem_plain hplain, encodeSlot, ← h.dataType, hempty]
  rfl

/-- An item is without text where its slot is one of spaces. All others are read again. -/
theorem spelled_of_decodeSlot (hread : decodeSlot settings f slot = .ok v) :
    (v.toText = "" ↔ (f.coding settings).isBlank slot = true) ∧
      (v.toText ≠ "" → Spelled settings f v.toText) := by
  obtain ⟨c, hsize, hkeeps, hdecode, hencode⟩ :=
    BuiltIn.ShortDecimal.exists_codec (f.coding settings) h.checked hshort
  rw [decodeSlot_eq_ok hplain, ← h.dataType, hdecode] at hread
  refine ⟨(SignedCodec.read_ok hread).2.1, fun hsome => ?_⟩
  obtain ⟨bytes, hwritten, hlength, hback⟩ := SignedCodec.read_write hread hkeeps hsome
  refine ⟨hsome, v, bind_eq_ok.2 ⟨bytes, ?_, ?_⟩, rfl⟩
  · rw [encodeItem_plain hplain, encodeSlot_eq_ok, Field.width, ← h.dataType, hencode, ← hsize]
    exact ⟨hwritten, hlength⟩
  · rw [decodeSlot_eq_ok hplain, ← h.dataType, hdecode]
    exact hback

end Decimals

-- ------------------------------------------------------------------
-- Arrays
-- ------------------------------------------------------------------

theorem encodeField_array (harray : f.isArray = true)
    (hcount : f.checkCount items.length = .ok ()) :
    encodeField settings f (.array items) =
      ((Value.padItems f.slots (items.map .text)).mapM (encodeItem settings f)).map
        List.flatten := by
  rw [encodeField, if_pos harray, Value.items, List.length_map, hcount]
  rfl

theorem map_toText_of_reread {values : List Value} (hspelled : ∀ s ∈ items, Spelled settings f s)
    (hread : (items.map .text).mapM (reread settings f) = .ok values) :
    values.map Value.toText = items := by
  rw [mapM_eq_ok, List.forall₂_map_left_iff] at hread
  rw [eq_comm, ← List.forall₂_eq_eq_eq, List.forall₂_map_right_iff]
  refine ((List.forall₂_and_left items values).2 ⟨hspelled, hread⟩).imp fun s v ⟨hs, hv⟩ => ?_
  obtain ⟨-, w, hw, hsame⟩ := hs
  rw [hv] at hw
  exact hsame.symm.trans (congrArg Value.toText (Except.ok.inj hw).symm)

section Arrays

variable (h : f.Compiled .fixed b) (hplain : f.converters = []) (harray : f.isArray = true)
  (hcount : f.checkCount items.length = .ok ())

include h hplain in
theorem encodeItem_of_spelled (hspelled : ∀ s ∈ items, s ≠ "" → Spelled settings f s) :
    ∀ item ∈ Value.padItems f.slots (items.map .text), item ≠ .text "" →
      ∃ slot, encodeItem settings f item = .ok slot := by
  intro item hitem hsome
  rcases List.mem_append.1 hitem with hitem | hitem
  · obtain ⟨s, hs, rfl⟩ := List.mem_map.1 (List.mem_of_mem_take hitem)
    obtain ⟨-, v, hread, -⟩ := hspelled s hs fun hempty => hsome (hempty ▸ rfl)
    obtain ⟨slot, hslot, -⟩ := bind_eq_ok.1 hread
    exact ⟨slot, hslot⟩
  · rw [List.eq_of_mem_replicate hitem]
    exact ⟨_, encodeItem_null h hplain⟩

include h hplain harray hcount

theorem exists_encodeField (hspelled : ∀ s ∈ items, Spelled settings f s) :
    ∃ bytes, encodeField settings f (.array items) = .ok bytes := by
  have hslots : ∀ item ∈ Value.padItems f.slots (items.map .text),
      ∃ slot, encodeItem settings f item = .ok slot := by
    intro item hitem
    refine encodeItem_of_spelled h hplain (fun s hs _ => hspelled s hs) item hitem ?_
    rintro rfl
    rcases List.mem_append.1 hitem with hitem | hitem
    · obtain ⟨s, hs, hempty⟩ := List.mem_map.1 (List.mem_of_mem_take hitem)
      exact (hspelled s hs).1 (Value.text.inj hempty)
    · exact absurd (List.eq_of_mem_replicate hitem) nofun
  obtain ⟨slots, hslots⟩ := exists_mapM_ok hslots
  rw [encodeField_array harray hcount, hslots]
  exact ⟨_, rfl⟩

/-- One item without text is enough for an array not to be written. -/
theorem encodeField_of_empty (hshort : b.ShortDecimal settings.numeric)
    (hspelled : ∀ s ∈ items, s ≠ "" → Spelled settings f s) (hfew : items.length ≤ f.slots)
    (hempty : "" ∈ items) :
    encodeField settings f (.array items) = .error (.ofConvert (.notANumber "")) := by
  have hrefused := encodeItem_empty h hplain hshort
  have hslots := encodeItem_of_spelled h hplain hspelled
  have hmem : .text "" ∈ Value.padItems f.slots (items.map .text) := by
    rw [Value.padItems, List.take_of_length_le (by rwa [List.length_map])]
    exact List.mem_append_left _ (List.mem_map.2 ⟨"", hempty, rfl⟩)
  have hfails : ∀ item ∈ Value.padItems f.slots (items.map .text),
      (∃ slot, encodeItem settings f item = .ok slot) ∨
        encodeItem settings f item = .error (.ofConvert (.notANumber "")) := by
    intro item hitem
    by_cases hitem' : item = .text ""
    · exact .inr (hitem' ▸ hrefused)
    · exact .inl (hslots item hitem hitem')
  rw [encodeField_array harray hcount, mapM_eq_error hfails hmem hrefused]
  rfl

end Arrays

theorem inWord_of_short {numeric : NumericFormat} (hb : b.dataType = f.dataType)
    (hshort : b.ShortDecimal numeric) (hwords : f.InWords) : f.offset + f.extent < 2 ^ 64 := by
  have hwidth : f.width ≤ 18 := by
    rw [Field.width, ← hb]
    exact hshort.width_le
  have hextent : f.extent ≤ 18 * 2 ^ 32 := Nat.mul_le_mul hwidth (Nat.le_of_lt hwords.slots_lt)
  obtain ⟨hposition, hlt, -⟩ := hwords
  omega

theorem encodeField_decodeField (h : f.Compiled .fixed b) (harray : f.isArray = true)
    (hplain : f.converters = []) (hclosed : f.occurs.max ≠ none)
    (hshort : b.ShortDecimal settings.numeric) (hword : f.offset + f.extent < 2 ^ 64)
    (hread : decodeField settings record f = .ok value) :
    ∃ items, value = .array items ∧
      ((∀ i < items.length, (f.coding settings).isBlank (f.slotAt record i) = false) →
        ∃ bytes, encodeField settings f value = .ok bytes ∧
          ∀ record', f.offset + f.size ≤ record'.length → f.slice record' = bytes →
            decodeField settings record' f = .ok value) ∧
      ∀ i < items.length, (f.coding settings).isBlank (f.slotAt record i) = true →
        encodeField settings f value = .error (.ofConvert (.notANumber "")) := by
  obtain ⟨items, rfl, hmin, hfew, hitems⟩ :=
    decodeField_items harray (width_pos h) hword h.ordered hclosed hread
  have hslot : ∀ i s, items[i]? = some s →
      (s = "" ↔ (f.coding settings).isBlank (f.slotAt record i) = true) ∧
        (s ≠ "" → Spelled settings f s) := by
    intro i s hs
    obtain ⟨v, hv, rfl⟩ := hitems i s hs
    exact spelled_of_decodeSlot h hplain hshort hv
  have hspelled : ∀ s ∈ items, s ≠ "" → Spelled settings f s := by
    intro s hs
    obtain ⟨i, hi⟩ := List.mem_iff_getElem?.1 hs
    exact (hslot i s hi).2
  have hcount : f.checkCount items.length = .ok () := by
    refine Field.checkCount_eq_ok.2 ⟨hmin, fun max hmax => ?_⟩
    rwa [Field.slots_eq_max hmax] at hfew
  refine ⟨items, rfl, fun hfull => ?_, fun i hi hblank => ?_⟩
  · have hall : ∀ s ∈ items, Spelled settings f s := by
      intro s hs
      obtain ⟨i, hi⟩ := List.mem_iff_getElem?.1 hs
      obtain ⟨hblank, hsome⟩ := hslot i s hi
      rw [hfull i (List.getElem?_eq_some_iff.1 hi).1] at hblank
      exact hsome (mt hblank.1 Bool.false_ne_true)
    obtain ⟨bytes, hwritten⟩ := exists_encodeField h hplain harray hcount hall
    refine ⟨bytes, hwritten, fun record' hroom hslice => ?_⟩
    have hlast : ∀ item ∈ (items.map Value.text).getLast?, ¬ ReadsEmpty settings f item := by
      intro item hitem
      obtain ⟨s, hs, rfl⟩ := List.mem_map.1 (List.mem_of_mem_getLast? hitem)
      exact (hall s hs).not_readsEmpty
    have hsize : f.size = f.extent := Word64.wrap_of_lt (by omega)
    have hin : f.LiesIn record'.length := ⟨hsize ▸ hroom, hword⟩
    obtain ⟨values, hvalues, hagain⟩ := decodeField_of_keepsBlank h harray hplain hclosed
      (BuiltIn.ShortDecimal.signsFit hshort) hwritten hin hslice
      (BuiltIn.ShortDecimal.keepsBlank hshort) hlast
    rwa [map_toText_of_reread hall hvalues] at hagain
  · have hs := List.getElem?_eq_getElem hi
    have hempty : "" ∈ items := (hslot i _ hs).1.2 hblank ▸ List.getElem_mem hi
    exact encodeField_of_empty h hplain harray hcount hshort hspelled hfew hempty

end Fixed

/-- Of an array of signed decimals in records of fixed length, with no more than 18 digits in a slot
and the signs of its charset, each list of items that is read is written back and then read again,
if none of the slots that it was read from is one of spaces. It is refused if one of them is: its
item is an empty text, and no number is spelled by that. -/
theorem compile_rewritesDecimals {defaults : Defaults} {text : String} {source : Option String}
    {schema : Schema} (h : Schema.compile { defaults } text source = .ok schema)
    (hfixed : schema.fileType = .fixed) {t : RecordType} (ht : t ∈ schema.recordTypes) {f : Field}
    (hf : f ∈ t.fields) (harray : f.isArray = true) (hplain : f.converters = [])
    {settings : Settings} {b : BuiltIn} (hb : b.dataType = f.dataType) (hchecked : b.Checked)
    (hshort : b.ShortDecimal settings.numeric) {record : List UInt8} {value : Value}
    (hread : Fixed.decodeField settings record f = .ok value) :
    ∃ items, value = .array items ∧
      ((∀ i < items.length, (f.coding settings).isBlank (f.slotAt record i) = false) →
        ∃ bytes, Fixed.encodeField settings f value = .ok bytes ∧
          ∀ record', f.offset + f.size ≤ record'.length → f.slice record' = bytes →
            Fixed.decodeField settings record' f = .ok value) ∧
      ∀ i < items.length, (f.coding settings).isBlank (f.slotAt record i) = true →
        Fixed.encodeField settings f value = .error (.ofConvert (.notANumber "")) := by
  obtain ⟨_, hcompiled⟩ := Schema.compile_field h ht hf
  obtain ⟨layout, -, hlinked⟩ := Link.compile_ok h
  have hclosed := (hlinked.fixedLength hfixed t ht).2 f hf
  exact Fixed.encodeField_decodeField
    ⟨hb, hchecked, hshort.family_eq, hcompiled.ordered, hcompiled.required⟩ harray hplain hclosed
    hshort (Fixed.inWord_of_short hb hshort (Schema.compile_inWords h ht hf)) hread

def pairsLayout : String :=
  "file-type: Fixed\ntext-encoding: \"US-ASCII\"\nrecord-length: 6\n[R]\n1 a[0..3] SZ(2)\n"

/-- The numbers 1 and -2 are written back if a slot of spaces stands behind them, and refused if it
stands in front of them. -/
theorem compile_rewritesDecimals_pairs :
    ∃ schema t f, Schema.compile {} pairsLayout none = .ok schema ∧ t ∈ schema.recordTypes ∧
      f ∈ t.fields ∧
      Fixed.decodeField schema.settings [0x30, 0x31, 0x30, 0x72, 0x20, 0x20] f =
        .ok (.array ["1", "-2"]) ∧
      (∃ bytes, Fixed.encodeField schema.settings f (.array ["1", "-2"]) = .ok bytes ∧
        Fixed.decodeField schema.settings bytes f = .ok (.array ["1", "-2"])) ∧
      Fixed.decodeField schema.settings [0x20, 0x20, 0x30, 0x31, 0x30, 0x72] f =
        .ok (.array ["", "1", "-2"]) ∧
      Fixed.encodeField schema.settings f (.array ["", "1", "-2"]) =
        .error (.ofConvert (.notANumber "")) := by
  have hshape : (Schema.compile {} pairsLayout none).toOption.any fun schema =>
      schema.recordTypes.any fun t => t.fields.any fun f =>
        schema.fileType = .fixed ∧ schema.settings.numeric = {} ∧ f.isArray = true ∧
          f.converters.isEmpty ∧ f.offset = 0 ∧ f.size = 6 ∧ f.extent = 6 ∧
          Fixed.decodeField schema.settings [0x30, 0x31, 0x30, 0x72, 0x20, 0x20] f =
            .ok (.array ["1", "-2"]) ∧
          Fixed.decodeField schema.settings [0x20, 0x20, 0x30, 0x31, 0x30, 0x72] f =
            .ok (.array ["", "1", "-2"]) ∧
          (f.coding schema.settings).isBlank [0x30, 0x31] = false ∧
          (f.coding schema.settings).isBlank [0x30, 0x72] = false ∧
          (f.coding schema.settings).isBlank [0x20, 0x20] = true ∧ f.width = 2 := by
    decide +kernel
  have hcalls : (Layout.parse pairsLayout none).toOption.all fun layout =>
      layout.recordTypes.all fun r => r.fields.all fun d => d.dataType.all fun call =>
        call.name = "SZ" ∧ call.args = [.number ⟨false, 2, 0, by decide, by decide⟩] := by
    decide +kernel
  obtain ⟨schema, hschema, hshape⟩ := (Option.any_eq_true _ _).1 hshape
  rw [toOption_eq_some] at hschema
  obtain ⟨t, ht, hshape⟩ := List.any_eq_true.1 hshape
  obtain ⟨f, hf, hshape⟩ := List.any_eq_true.1 hshape
  obtain ⟨hfixed, hnumeric, harray, hplain, hoffset, hsize, hextent, hread, hread', hone, htwo, hspaces,
    hwidth⟩ := of_decide_eq_true hshape
  have hplain := List.isEmpty_iff.1 hplain
  obtain ⟨layout, hparse, r, hr, d, hd, call, hcall, hmade⟩ :=
    Schema.compile_declared hschema ht hf
  rw [hparse, Except.toOption, Option.all_some, List.all_eq_true] at hcalls
  have hcalls := List.all_eq_true.1 (hcalls r hr) d hd
  rw [hcall, Option.all_some, decide_eq_true_eq] at hcalls
  let z : Zoned := ⟨2, 0, .ofCharset f.charset, {}⟩
  have hz : Registry.fixed.dataType? "SZ" [.number ⟨false, 2, 0, by decide, by decide⟩]
      ⟨d.name, f.charset⟩ = some (.ok z.dataType) := rfl
  rw [hcalls.1, hcalls.2, hfixed] at hmade
  have hb : (BuiltIn.zoned z).dataType = f.dataType :=
    Except.ok.inj (Option.some.inj (hz.symm.trans hmade))
  have hchecked : (BuiltIn.zoned z).Checked :=
    ⟨(by decide : 1 ≤ 2), (by decide : 0 ≤ 18), SignChoice.fit_none⟩
  have hshort : (BuiltIn.zoned z).ShortDecimal schema.settings.numeric :=
    ⟨(by decide : 2 ≤ 18), hnumeric ▸ rfl⟩
  obtain ⟨items, hitems, hfull, -⟩ := compile_rewritesDecimals hschema hfixed ht hf harray hplain
    hb hchecked hshort hread
  obtain ⟨items', hitems', -, hblank⟩ := compile_rewritesDecimals hschema hfixed ht hf harray
    hplain hb hchecked hshort hread'
  obtain rfl := Value.array.inj hitems
  obtain rfl := Value.array.inj hitems'
  have hslots : ∀ i < ["1", "-2"].length, (f.coding schema.settings).isBlank
      (f.slotAt [0x30, 0x31, 0x30, 0x72, 0x20, 0x20] i) = false := by
    intro i (hi : i < 2)
    rw [Field.slotAt, hoffset, hwidth]
    obtain rfl | rfl : i = 0 ∨ i = 1 := by omega
    · exact hone
    · exact htwo
  have hspaces : (f.coding schema.settings).isBlank
      (f.slotAt [0x20, 0x20, 0x30, 0x31, 0x30, 0x72] 0) = true := by
    rw [Field.slotAt, hoffset, hwidth]
    exact hspaces
  obtain ⟨bytes, hwritten, hagain⟩ := hfull hslots
  have hlength := Fixed.encodeField_array_length harray hwritten
  have hback := hagain bytes (by omega) (by
    rw [Field.slice, hoffset, List.drop_zero, hsize, ← hextent, ← hlength, List.take_length])
  exact ⟨schema, t, f, hschema, ht, hf, hread, ⟨bytes, hwritten, hback⟩, hread',
    hblank 0 (by decide) hspaces⟩

end Flatfile
