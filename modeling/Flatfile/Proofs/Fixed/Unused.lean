import Flatfile.Proofs.Codec.Slots
import Flatfile.Proofs.Fixed.Slots
import Flatfile.Proofs.Schema.Tiling

/-!
# Slots that are not used

An array is written in all of its slots, and those behind its items are slots of nothing. The reader
leaves off what it reads as empty at the end, so that an array has as many items as were written,
unless its data type has no form for nothing: then it has an item for every slot
(`compile_readsItems`).
-/

namespace Flatfile

namespace Fixed

variable {settings : Settings} {f : Field} {b : BuiltIn} {value : Value}
  {bytes record : List UInt8}

-- ------------------------------------------------------------------
-- Texts at the end
-- ------------------------------------------------------------------

theorem dropUnused_append {min : Nat} {texts : List String} (hmin : min ≤ texts.length)
    (hlast : ∀ s ∈ texts.getLast?, s ≠ "") (n : Nat) :
    dropUnused min (texts ++ List.replicate n "") = texts := by
  have hempty : ∀ s ∈ List.replicate n "", s.isEmpty = true := by
    intro s hs
    rw [List.eq_of_mem_replicate hs]
    rfl
  have hend : Text.dropEndWhile (·.isEmpty) (texts.drop min ++ List.replicate n "") =
      texts.drop min := by
    rw [Text.dropEndWhile, List.reverse_append, List.dropWhile_append_of_pos (by simp)]
    refine Text.dropEndWhile_eq_self fun s hs => ?_
    rw [List.getLast?_drop] at hs
    split at hs
    next => cases hs
    next => simpa using hlast s hs
  rw [dropUnused, List.take_append_of_le_length hmin, List.drop_append_of_le_length hmin, hend,
    List.take_append_drop]

-- ------------------------------------------------------------------
-- Items
-- ------------------------------------------------------------------

def reread (settings : Settings) (f : Field) (item : Value) : Except InvalidData Value := do
  let slot ← encodeItem settings f item
  decodeSlot settings f slot

/-- The item is written, and an empty text is read in its place. -/
def ReadsEmpty (settings : Settings) (f : Field) (item : Value) : Prop :=
  (reread settings f item).toOption.map Value.toText = some ""

instance (settings : Settings) (f : Field) (item : Value) : Decidable (ReadsEmpty settings f item) :=
  inferInstanceAs (Decidable (_ = _))

theorem decodeSlot_encodeItem (h : f.Compiled .fixed b) (hplain : f.converters = [])
    (hsigns : b.SignsFit (f.coding settings)) {item : Value} {slot : List UInt8}
    (hslot : encodeItem settings f item = .ok slot) : ∃ v, decodeSlot settings f slot = .ok v := by
  rw [encodeItem_plain hplain, encodeSlot_eq_ok, ← h.dataType, Field.width, ← h.dataType] at hslot
  obtain ⟨v, hv⟩ := BuiltIn.decodeBytes_encodeBytes h.checked h.family hsigns hslot.2 hslot.1
  exact ⟨v, (decodeSlot_eq_ok hplain).2 (h.dataType ▸ hv)⟩

/-- What is read where an array was written: the items, and nothing for each slot behind them. -/
theorem decodeField_encodeField (h : f.Compiled .fixed b) (harray : f.isArray = true)
    (hplain : f.converters = []) (hclosed : f.occurs.max ≠ none)
    (hsigns : b.SignsFit (f.coding settings))
    (hwritten : encodeField settings f value = .ok bytes)
    (hin : f.LiesIn record.length) (hslice : f.slice record = bytes) :
    f.occurs.min ≤ value.items.length ∧ value.items.length ≤ f.slots ∧
      ∃ values nothing, value.items.mapM (reread settings f) = .ok values ∧
        decodeSlot settings f (b.blank (f.coding settings)) = .ok nothing ∧
        decodeField settings record f = .ok (.array (dropUnused f.occurs.min
          (values.map Value.toText ++
            List.replicate (f.slots - value.items.length) nothing.toText))) := by
  obtain ⟨hcount, slots, hslots, rfl⟩ := encodeField_slots harray hwritten
  obtain ⟨max, hmax⟩ := Option.ne_none_iff_exists'.1 hclosed
  have hmany : value.items.length ≤ f.slots := by
    rw [Field.slots_eq_max hmax]
    exact (Field.checkCount_eq_ok.1 hcount).2 max hmax
  refine ⟨(Field.checkCount_eq_ok.1 hcount).1, hmany, ?_⟩
  have hwidth : ∀ p ∈ slots, p.length = f.width := fun p hp =>
    (exists_mem_left_of_forall₂ (mapM_eq_ok.1 hslots) hp).elim fun _ hitem =>
      encodeItem_length hitem.2
  have hlength : slots.length = f.slots := by
    rw [← (mapM_eq_ok.1 hslots).length_eq, padItems_length]
  rw [decodeField_slots hin harray (width_pos h) hslice hlength hwidth]
  rw [Value.padItems, List.take_of_length_le hmany, mapM_append_eq_ok,
    mapM_replicate (encodeItem_null h hplain)] at hslots
  obtain ⟨written, unused, hitems, hunused, rfl⟩ := hslots
  obtain rfl := Except.ok.inj hunused
  obtain ⟨nothing, hnothing⟩ := decodeSlot_encodeItem h hplain hsigns (encodeItem_null h hplain)
  obtain ⟨values, hvalues⟩ : ∃ values, written.mapM (decodeSlot settings f) = .ok values :=
    exists_mapM_ok fun p hp =>
      (exists_mem_left_of_forall₂ (mapM_eq_ok.1 hitems) hp).elim fun _ hitem =>
        decodeSlot_encodeItem h hplain hsigns hitem.2
  have hread := mapM_append_eq_ok.2 ⟨_, _, hvalues,
    mapM_replicate hnothing (f.slots - value.items.length), rfl⟩
  refine ⟨values, nothing, mapM_eq_ok.2 ?_, hnothing, ?_⟩
  · exact (forall₂_comp (mapM_eq_ok.1 hitems) (mapM_eq_ok.1 hvalues)).imp fun _ _ hitem =>
      bind_eq_ok.2 hitem
  · rw [hread, Except.map, List.map_append, List.map_replicate]

theorem toText_ne_empty (h : f.Compiled .fixed b) (hplain : f.converters = []) (hall : b.ReadsAll)
    {slot : List UInt8} {v : Value} (hlength : slot.length = f.width)
    (hv : decodeSlot settings f slot = .ok v) : v.toText ≠ "" := by
  rw [Field.width, ← h.dataType] at hlength
  obtain ⟨w, hw, hsome⟩ := BuiltIn.decodeBytes_nonempty h.checked hall (f.coding settings) hlength
  rw [decodeSlot_eq_ok hplain, ← h.dataType, hw] at hv
  exact Except.ok.inj hv ▸ hsome

theorem getLast?_texts {items values : List Value}
    (hread : items.mapM (reread settings f) = .ok values)
    (hlast : ∀ item ∈ items.getLast?, ¬ ReadsEmpty settings f item) :
    ∀ s ∈ (values.map Value.toText).getLast?, s ≠ "" := by
  rcases List.eq_nil_or_concat' items with rfl | ⟨items, item, rfl⟩
  · obtain rfl := Except.ok.inj hread
    nofun
  · obtain ⟨values, v, rfl, -, hv⟩ := forall₂_concat_left (mapM_eq_ok.1 hread)
    have hitem := hlast item (List.getLast?_concat ..)
    rw [ReadsEmpty, hv] at hitem
    intro s hs hempty
    rw [List.map_append, List.map_singleton, List.getLast?_concat, Option.mem_some] at hs
    exact hitem (congrArg some (hs.trans hempty))

-- ------------------------------------------------------------------
-- All slots
-- ------------------------------------------------------------------

section Arrays

variable (h : f.Compiled .fixed b) (harray : f.isArray = true) (hplain : f.converters = [])
  (hclosed : f.occurs.max ≠ none) (hsigns : b.SignsFit (f.coding settings))
  (hwritten : encodeField settings f value = .ok bytes)
  (hin : f.LiesIn record.length) (hslice : f.slice record = bytes)

include h harray hplain hclosed hsigns hwritten hin hslice

theorem decodeField_of_keepsBlank (hkeeps : b.KeepsBlank (f.coding settings))
    (hlast : ∀ item ∈ value.items.getLast?, ¬ ReadsEmpty settings f item) :
    ∃ values, value.items.mapM (reread settings f) = .ok values ∧
      decodeField settings record f = .ok (.array (values.map Value.toText)) := by
  obtain ⟨hmin, -, values, nothing, hvalues, hnothing, hread⟩ :=
    decodeField_encodeField h harray hplain hclosed hsigns hwritten hin hslice
  have hempty : nothing.toText = "" := by
    obtain ⟨v, hv, hblank⟩ := BuiltIn.decodeBytes_blank h.checked h.family (f.coding settings)
    rw [decodeSlot_eq_ok hplain, ← h.dataType, hv] at hnothing
    exact Except.ok.inj hnothing ▸ hblank.2 hkeeps
  have hmin' : f.occurs.min ≤ (values.map Value.toText).length := by
    rwa [List.length_map, ← (mapM_eq_ok.1 hvalues).length_eq]
  rw [hempty, dropUnused_append hmin' (getLast?_texts hvalues hlast)] at hread
  exact ⟨values, hvalues, hread⟩

theorem decodeField_of_readsAll (hall : b.ReadsAll) :
    ∃ items, decodeField settings record f = .ok (.array items) ∧ items.length = f.slots := by
  obtain ⟨hmin, hmax, values, nothing, hvalues, hnothing, hread⟩ :=
    decodeField_encodeField h harray hplain hclosed hsigns hwritten hin hslice
  have hlength := (mapM_eq_ok.1 hvalues).length_eq
  have hblank : (b.blank (f.coding settings)).length = f.width := by
    rw [BuiltIn.blank, List.length_replicate, Field.width, h.dataType]
  generalize htexts : values.map Value.toText ++ _ = texts at hread
  have hcount : texts.length = f.slots := by
    rw [← htexts, List.length_append, List.length_map, List.length_replicate, ← hlength]
    omega
  have hsome : ∀ s ∈ texts, s ≠ "" := by
    rw [← htexts, List.forall_mem_append, List.forall_mem_map]
    refine ⟨fun v hv => ?_, fun s hs => ?_⟩
    · obtain ⟨item, -, hitem⟩ := exists_mem_left_of_forall₂ (mapM_eq_ok.1 hvalues) hv
      obtain ⟨slot, hslot, hv⟩ := bind_eq_ok.1 hitem
      exact toText_ne_empty h hplain hall (encodeItem_length hslot) hv
    · rw [List.eq_of_mem_replicate hs]
      exact toText_ne_empty h hplain hall hblank hnothing
  have hmin' : f.occurs.min ≤ texts.length := by omega
  have hkept := dropUnused_append hmin' (fun s hs => hsome s (List.mem_of_mem_getLast? hs)) 0
  rw [List.replicate_zero, List.append_nil] at hkept
  exact ⟨texts, hkept ▸ hread, hcount⟩

end Arrays

end Fixed

/-- An array in records of fixed length is read with exactly the items that were written, however
many of its slots are not used: whatever its bounds, and whatever the items but the last one, which
may not be read as empty. Padding has to be a character of the charset for that, and the signs that
a file chooses have to be half-bytes. Integers and raw bytes have no form for nothing: an array of
them is read with an item for every slot. -/
theorem compile_readsItems {defaults : Defaults} {text : String} {source : Option String}
    {schema : Schema} (h : Schema.compile { defaults } text source = .ok schema)
    (hfixed : schema.fileType = .fixed) {t : RecordType} (ht : t ∈ schema.recordTypes) {f : Field}
    (hf : f ∈ t.fields) (harray : f.isArray = true) (hplain : f.converters = [])
    {settings : Settings}
    (hsigns : f.dataType.name = "SZ" ∨ f.dataType.name = "SP" → settings.numeric.Fit)
    (hpad : ∀ x : FixedText, x.dataType = f.dataType →
      f.charset.decodeByte (f.charset.encodeChar x.pad) = x.pad)
    {value : Value} {bytes record : List UInt8}
    (hwritten : Fixed.encodeField settings f value = .ok bytes)
    (hlast : ∀ item ∈ value.items.getLast?, ¬ Fixed.ReadsEmpty settings f item)
    (hword : record.length < 2 ^ 64) (hroom : f.offset + f.size ≤ record.length)
    (hslice : f.slice record = bytes) :
    ∃ items, Fixed.decodeField settings record f = .ok (.array items) ∧
      items.length = if f.dataType.name = "BI" ∨ f.dataType.name = "B" then f.slots
        else value.items.length := by
  obtain ⟨b, hb⟩ := Schema.compile_field h ht hf
  rw [hfixed] at hb
  obtain ⟨layout, -, hlinked⟩ := Link.compile_ok h
  have hclosed := (hlinked.fixedLength hfixed t ht).2 f hf
  have hlength := Fixed.encodeField_array_length harray hwritten
  have hin := Fixed.liesIn_of_slice hword hroom (hslice.symm ▸ hlength)
  have hname := congrArg DataType.name hb.dataType
  have hsigns : b.SignsFit (f.coding settings) := by
    cases b with
    | zoned z => exact Signs.resolve_fit z.family hb.checked.2.2 (hsigns (.inl hname.symm)).zone
    | packed p => exact Signs.resolve_fit p.family hb.checked.2.2 (hsigns (.inr hname.symm)).pack
    | _ => trivial
  by_cases hall : b.ReadsAll
  · rw [if_pos (hname ▸ BuiltIn.readsAll_iff.1 hall)]
    exact Fixed.decodeField_of_readsAll hb harray hplain hclosed hsigns hwritten hin hslice hall
  · have hkeeps : b.KeepsBlank (f.coding settings) := by
      cases b with
      | fixedText x => exact hpad x hb.dataType
      | integer | raw => exact hall trivial
      | _ => trivial
    rw [if_neg (hname ▸ mt BuiltIn.readsAll_iff.2 hall)]
    obtain ⟨values, hvalues, hread⟩ := Fixed.decodeField_of_keepsBlank hb harray hplain hclosed
      hsigns hwritten hin hslice hkeeps hlast
    exact ⟨_, hread, by rw [List.length_map, (mapM_eq_ok.1 hvalues).length_eq]⟩

def digitsLayout : String :=
  "file-type: Fixed\ntext-encoding: \"US-ASCII\"\nrecord-length: 4\n[R]\n1 a[1..4] SZ(1)\n"

theorem compile_readsItems_digits :
    ∃ schema t f, Schema.compile {} digitsLayout none = .ok schema ∧ t ∈ schema.recordTypes ∧
      f ∈ t.fields ∧
      Fixed.encodeField schema.settings f (.array ["4", "-5"]) = .ok [0x34, 0x75, 0x20, 0x20] ∧
      ∃ items, Fixed.decodeField schema.settings [0x34, 0x75, 0x20, 0x20] f = .ok (.array items) ∧
        items.length = 2 := by
  have hshape : (Schema.compile {} digitsLayout none).toOption.any fun schema =>
      schema.recordTypes.any fun t => t.fields.any fun f =>
        schema.fileType = .fixed ∧ schema.settings.numeric = {} ∧ f.dataType.name = "SZ" ∧
          f.isArray = true ∧ f.converters.isEmpty ∧
          f.offset + f.size ≤ [0x34, 0x75, 0x20, 0x20].length ∧
          f.slice [0x34, 0x75, 0x20, 0x20] = [0x34, 0x75, 0x20, 0x20] ∧
          Fixed.encodeField schema.settings f (.array ["4", "-5"]) = .ok [0x34, 0x75, 0x20, 0x20] ∧
          ¬ Fixed.ReadsEmpty schema.settings f (.text "-5") := by
    decide +kernel
  obtain ⟨schema, hschema, hshape⟩ := (Option.any_eq_true _ _).1 hshape
  rw [toOption_eq_some] at hschema
  obtain ⟨t, ht, hshape⟩ := List.any_eq_true.1 hshape
  obtain ⟨f, hf, hshape⟩ := List.any_eq_true.1 hshape
  obtain ⟨hfixed, hnumeric, hname, harray, hplain, hroom, hslice, hwritten, hlast⟩ :=
    of_decide_eq_true hshape
  have hsigns : schema.settings.numeric.Fit :=
    hnumeric ▸ ⟨SignChoice.fit_none, SignChoice.fit_none⟩
  have hpad : ∀ x : FixedText, x.dataType = f.dataType →
      f.charset.decodeByte (f.charset.encodeChar x.pad) = x.pad := fun x hx => by
    have htext : "X" = f.dataType.name := congrArg DataType.name hx
    exact absurd (htext.trans hname) (by decide)
  have hitems := compile_readsItems hschema hfixed ht hf harray (List.isEmpty_iff.1 hplain)
    (fun _ => hsigns) hpad hwritten (by simpa [Value.items] using hlast)
    (by decide) hroom hslice
  rw [hname] at hitems
  exact ⟨schema, t, f, hschema, ht, hf, hwritten, hitems⟩

def filledArrays : String :=
  "file-type: Fixed\ntext-encoding: \"US-ASCII\"\nrecord-length: 12\n[R]\n" ++
  "1 i[0..3] BI(1)\n4 b[0..3] B(1)\n7 x[0..3] X(2, \"é\")\n"

/-- They are read with an item for every slot, and a number whose sign is more than a half-byte is
not read at all. -/
theorem filledArrays_readAll :
    (∃ schema t, Schema.compile {} filledArrays none = .ok schema ∧ schema.fileType = .fixed ∧
      t ∈ schema.recordTypes ∧ t.fields.map (·.name) = ["i", "b", "x"] ∧
      ∀ f ∈ t.fields, f.occurs = ⟨0, some 3⟩ ∧ f.converters = [] ∧
        ¬ Fixed.ReadsEmpty schema.settings f (.text "05") ∧
        ∃ bytes items, Fixed.encodeField schema.settings f (.array ["05"]) = .ok bytes ∧
          Fixed.decodeField schema.settings (List.replicate f.offset 0 ++ bytes) f =
            .ok (.array items) ∧
          items.length = 3) ∧
      ∃ schema t f, Schema.compile { defaults.positiveZone := some 21 } digitsLayout none =
          .ok schema ∧ t ∈ schema.recordTypes ∧ f ∈ t.fields ∧
        ¬ Fixed.ReadsEmpty schema.settings f (.text "5") ∧
        Fixed.encodeField schema.settings f (.array ["5"]) = .ok [0x55, 0x20, 0x20, 0x20] ∧
        ∀ v, Fixed.decodeField schema.settings [0x55, 0x20, 0x20, 0x20] f ≠ .ok v := by
  constructor
  · have hshape : (Schema.compile {} filledArrays none).toOption.any fun schema =>
        schema.recordTypes.any fun t => schema.fileType = .fixed ∧
          t.fields.map (·.name) = ["i", "b", "x"] ∧
          ∀ f ∈ t.fields, f.occurs = ⟨0, some 3⟩ ∧ f.converters.isEmpty ∧
            ¬ Fixed.ReadsEmpty schema.settings f (.text "05") ∧
            (Fixed.encodeField schema.settings f (.array ["05"])).toOption.any fun bytes =>
              (Fixed.decodeField schema.settings (List.replicate f.offset 0 ++ bytes)
                f).toOption.any fun read => read.array?.any (·.length = 3) := by
      decide +kernel
    obtain ⟨schema, hschema, hshape⟩ := (Option.any_eq_true _ _).1 hshape
    rw [toOption_eq_some] at hschema
    obtain ⟨t, ht, hshape⟩ := List.any_eq_true.1 hshape
    obtain ⟨hfixed, hnames, hfields⟩ := of_decide_eq_true hshape
    refine ⟨schema, t, hschema, hfixed, ht, hnames, fun f hf => ?_⟩
    obtain ⟨hoccurs, hplain, hlast, hread⟩ := hfields f hf
    refine ⟨hoccurs, List.isEmpty_iff.1 hplain, hlast, ?_⟩
    obtain ⟨bytes, hbytes, hread⟩ := (Option.any_eq_true _ _).1 hread
    obtain ⟨read, hread, hitems⟩ := (Option.any_eq_true _ _).1 hread
    rw [toOption_eq_some] at hbytes hread
    cases read with
    | array items => exact ⟨bytes, items, hbytes, hread, of_decide_eq_true hitems⟩
    | _ => cases hitems
  · have hshape : (Schema.compile { defaults.positiveZone := some 21 } digitsLayout
        none).toOption.any fun schema => schema.recordTypes.any fun t => t.fields.any fun f =>
          ¬ Fixed.ReadsEmpty schema.settings f (.text "5") ∧
          Fixed.encodeField schema.settings f (.array ["5"]) = .ok [0x55, 0x20, 0x20, 0x20] ∧
          (Fixed.decodeField schema.settings [0x55, 0x20, 0x20, 0x20] f).toOption = none := by
      decide +kernel
    obtain ⟨schema, hschema, hshape⟩ := (Option.any_eq_true _ _).1 hshape
    rw [toOption_eq_some] at hschema
    obtain ⟨t, ht, hshape⟩ := List.any_eq_true.1 hshape
    obtain ⟨f, hf, hshape⟩ := List.any_eq_true.1 hshape
    obtain ⟨hlast, hwritten, hread⟩ := of_decide_eq_true hshape
    refine ⟨schema, t, f, hschema, ht, hf, hlast, hwritten, fun v hv => ?_⟩
    rw [hv] at hread
    cases hread

end Flatfile
