import Flatfile.Fixed.Record
import Flatfile.Proofs.Layout.Names
import Flatfile.Proofs.Schema.Traverse

/-!
# The slices of a record

The writer puts the bytes of the fields one after the other, and the reader takes those of each
field from the place that the schema gives. The two agree because the fields tile the record
(`encodeRecord_sliced`): what is written for a field is its own slice, and nothing else is read
for it.
-/

namespace Flatfile

namespace Field

def slice (f : Field) (bytes : List UInt8) : List UInt8 :=
  (bytes.drop f.offset).take f.size

def slotAt (f : Field) (bytes : List UInt8) (k : Nat) : List UInt8 :=
  (bytes.drop (f.offset + k * f.width)).take f.width

/-- The field lies within `n` bytes, and a word counts how far it reaches. -/
structure LiesIn (f : Field) (n : Nat) : Prop where
  end_le : f.offset + f.extent ≤ n
  inWord : f.offset + f.extent < 2 ^ 64

variable {f : Field} {n : Nat}

theorem LiesIn.size_eq (h : f.LiesIn n) : f.size = f.extent :=
  size_of_lt h.inWord

theorem LiesIn.stop_eq (h : f.LiesIn n) : f.stop = f.offset + f.extent :=
  stop_of_lt h.inWord

theorem slot_le (f : Field) {k : Nat} (hk : k < f.slots) :
    k * f.width + f.width ≤ f.extent := by
  have hslot : (k + 1) * f.width ≤ f.slots * f.width := Nat.mul_le_mul_right _ hk
  rwa [Nat.succ_mul, Nat.mul_comm f.slots] at hslot

end Field

theorem RecordType.Tiled.liesIn {t : RecordType} (ht : t.Tiled) (hfits : t.Fits) {f : Field}
    (hf : f ∈ t.fields) : f.LiesIn t.length :=
  ⟨ht.end_le hf, ht.end_lt hfits hf⟩

namespace Fixed

variable {settings : Settings} {f : Field} {value : Value} {bytes : List UInt8}

-- ------------------------------------------------------------------
-- Writing a field
-- ------------------------------------------------------------------

theorem encodeSlot_length (h : encodeSlot settings f value = .ok bytes) :
    bytes.length = f.width := by
  obtain ⟨encoded, -, h⟩ := bind_eq_ok.1 h
  split at h
  · rename_i hlen
    exact Except.ok.inj h ▸ hlen
  · simp at h

theorem encodeItem_length (h : encodeItem settings f value = .ok bytes) :
    bytes.length = f.width := by
  obtain ⟨item, -, h⟩ := bind_eq_ok.1 h
  exact encodeSlot_length h

theorem padItems_length (n : Nat) (items : List Value) : (Value.padItems n items).length = n := by
  simp only [Value.padItems, List.length_append, List.length_take, List.length_replicate]
  omega

theorem flatten_length_of_forall₂ {R : α → List β → Prop} {as : List α} {parts : List (List β)}
    {width : Nat} (h : List.Forall₂ R as parts) (hwidth : ∀ a p, R a p → p.length = width) :
    parts.flatten.length = width * as.length := by
  induction h with
  | nil => simp
  | cons hap _ ih =>
    rw [List.flatten_cons, List.length_append, ih, hwidth _ _ hap, List.length_cons, Nat.mul_succ,
      Nat.add_comm]

theorem slots_le_one (h : f.isArray = false) : f.slots ≤ 1 := by
  simp only [Field.isArray, Occurs.isArray] at h
  cases hmax : f.occurs.max with
  | none => simp [hmax] at h
  | some max =>
    simp only [hmax, Option.all_some, decide_eq_false_iff_not, Nat.not_lt] at h
    simpa [Field.slots, Occurs.slots, hmax] using h

theorem encodeField_array_length (harray : f.isArray = true)
    (h : encodeField settings f value = .ok bytes) : bytes.length = f.extent := by
  rw [encodeField, if_pos harray] at h
  obtain ⟨_, -, h⟩ := bind_eq_ok.1 h
  obtain ⟨slots, hslots, h⟩ := bind_eq_ok.1 h
  obtain rfl := Except.ok.inj h
  have hlen := flatten_length_of_forall₂ (mapM_eq_ok.1 hslots) fun _ _ => encodeItem_length
  rw [hlen, padItems_length, Field.extent]

theorem encodeField_single_length (hsingle : f.isArray = false)
    (h : encodeField settings f value = .ok bytes) : bytes.length = f.width := by
  rw [encodeField, hsingle, if_neg Bool.false_ne_true] at h
  obtain ⟨prepared, -, h⟩ := bind_eq_ok.1 h
  exact encodeSlot_length h

theorem extent_le_of_encodeField (h : encodeField settings f value = .ok bytes) :
    f.extent ≤ bytes.length := by
  cases harray : f.isArray with
  | true => exact Nat.le_of_eq (encodeField_array_length harray h).symm
  | false =>
    rw [encodeField_single_length harray h, Field.extent]
    calc f.width * f.slots
        ≤ f.width * 1 := Nat.mul_le_mul_left _ (slots_le_one harray)
      _ = f.width := Nat.mul_one _

-- ------------------------------------------------------------------
-- Reading a field
-- ------------------------------------------------------------------

theorem slice_eq {start width : Nat} (h : start + width ≤ bytes.length) :
    slice bytes start (start + width) = .ok ((bytes.drop start).take width) := by
  rw [slice, if_pos ⟨Nat.le_add_right .., h⟩, Nat.add_sub_cancel_left]

theorem starts_eq {width : Nat} (start slots : Nat) (hwidth : 0 < width) :
    starts start (start + width * slots) width =
      .ok ((List.range slots).map fun k => start + k * width) := by
  have hcount : (start + width * slots - start + (width - 1)) / width = slots := by
    rw [Nat.add_sub_cancel_left, Nat.mul_add_div hwidth,
      Nat.div_eq_of_lt (Nat.sub_lt hwidth Nat.one_pos), Nat.add_zero]
  rw [starts, if_neg (Nat.ne_of_gt hwidth), hcount]

theorem decodeField_array (hin : f.LiesIn bytes.length) (harray : f.isArray = true)
    (hwidth : 0 < f.width) :
    decodeField settings bytes f =
      ((List.range f.slots).mapM fun k => decodeSlot settings f (f.slotAt bytes k)) >>=
        fun items => .ok (.array (dropUnused f.occurs.min (items.map Value.toText))) := by
  have hshort : ¬ bytes.length < f.stop := by
    rw [hin.stop_eq]
    exact Nat.not_lt.2 hin.end_le
  have hstarts : starts f.offset f.stop f.width =
      .ok ((List.range f.slots).map fun k => f.offset + k * f.width) := by
    rw [hin.stop_eq, Field.extent, starts_eq f.offset f.slots hwidth]
  have hslots : (((List.range f.slots).map fun k => f.offset + k * f.width).mapM fun start =>
      slice bytes start (Word64.wrap (start + f.width)) >>= decodeSlot settings f) =
        (List.range f.slots).mapM fun k => decodeSlot settings f (f.slotAt bytes k) := by
    rw [List.mapM_map]
    refine mapM_congr fun k hk => ?_
    have hslot := f.slot_le (List.mem_range.1 hk)
    obtain ⟨hend, hword⟩ := hin
    rw [Function.comp_apply, Word64.wrap_of_lt (by omega), slice_eq (by omega)]
    rfl
  rw [decodeField, if_neg hshort, if_pos harray, hstarts, ← hslots]
  rfl

theorem decodeField_empty (hshort : ¬ bytes.length < f.stop) (harray : f.isArray = true)
    (hwidth : f.width = 0) : decodeField settings bytes f = .error { cause := .outOfRange } := by
  rw [decodeField, if_neg hshort, if_pos harray, starts, if_pos hwidth]
  rfl

theorem decodeField_single (hin : f.LiesIn bytes.length) (hsingle : f.isArray = false) :
    decodeField settings bytes f = decodeSlot settings f (f.slice bytes) := by
  have hend := hin.end_le
  have hshort : ¬ bytes.length < f.stop := by
    rw [hin.stop_eq]
    exact Nat.not_lt.2 hend
  rw [decodeField, if_neg hshort, hsingle, if_neg Bool.false_ne_true, hin.stop_eq, slice_eq hend,
    Field.slice, hin.size_eq]
  rfl

theorem length_slice (hin : f.LiesIn bytes.length) : (f.slice bytes).length = f.extent := by
  have hend := hin.end_le
  rw [Field.slice, hin.size_eq, List.length_take, List.length_drop]
  omega

theorem slotAt_slice (hin : f.LiesIn bytes.length) {k : Nat} (hk : k < f.slots) :
    Field.slotAt { f with offset := 0 } (f.slice bytes) k = f.slotAt bytes k := by
  have hslot := f.slot_le hk
  rw [← hin.size_eq] at hslot
  show ((f.slice bytes).drop (0 + k * f.width)).take f.width = f.slotAt bytes k
  rw [Field.slice, Field.slotAt, List.drop_take, List.take_take, List.drop_drop, Nat.zero_add,
    Nat.min_eq_left (by omega)]

/-- A field that lies within the record is read from its own slice. -/
theorem decodeField_slice (hin : f.LiesIn bytes.length) :
    decodeField settings bytes f = decodeField settings (f.slice bytes) { f with offset := 0 } := by
  let own : Field := { f with offset := 0 }
  have hlength := length_slice hin
  have hown : own.LiesIn (f.slice bytes).length := by
    obtain ⟨-, hword⟩ := hin
    have hextent : own.offset + own.extent = f.extent := Nat.zero_add _
    exact ⟨by rw [hextent, hlength], by omega⟩
  cases harray : f.isArray with
  | false =>
    have htake : own.slice (f.slice bytes) = f.slice bytes := by
      rw [Field.slice, List.drop_zero]
      exact List.take_of_length_le (by rw [hlength, hown.size_eq]; rfl)
    rw [decodeField_single hin harray, decodeField_single hown harray, htake]
    rfl
  | true =>
    rcases Nat.eq_zero_or_pos f.width with hwidth | hwidth
    · have hshort : ¬ bytes.length < f.stop := by
        rw [hin.stop_eq]
        exact Nat.not_lt.2 hin.end_le
      have hshort' : ¬ (f.slice bytes).length < own.stop := by
        rw [hown.stop_eq]
        exact Nat.not_lt.2 hown.end_le
      rw [decodeField_empty hshort harray hwidth, decodeField_empty hshort' harray hwidth]
    · rw [decodeField_array hin harray hwidth, decodeField_array hown harray hwidth]
      refine congrArg (· >>= _) (mapM_congr fun k hk => ?_)
      exact congrArg (decodeSlot settings f) (slotAt_slice hin (List.mem_range.1 hk)).symm

-- ------------------------------------------------------------------
-- All fields of a record
-- ------------------------------------------------------------------

section Parts

variable {fields : List Field} {parts : List (List UInt8)}

theorem total_le_of_forall₂ (h : List.Forall₂ (fun f p => Field.extent f ≤ p.length) fields parts) :
    Field.total fields ≤ parts.flatten.length := by
  induction h with
  | nil => simp
  | cons hle _ ih =>
    rw [Field.total_cons, List.flatten_cons, List.length_append]
    exact Nat.add_le_add hle ih

theorem lengths_of_total (h : List.Forall₂ (fun f p => Field.extent f ≤ p.length) fields parts)
    (hlen : parts.flatten.length = Field.total fields) :
    List.Forall₂ (fun f p => p.length = Field.extent f) fields parts := by
  induction h with
  | nil => exact .nil
  | cons hle hrest ih =>
    rw [Field.total_cons, List.flatten_cons, List.length_append] at hlen
    have hmore := total_le_of_forall₂ hrest
    exact .cons (by omega) (ih (by omega))

theorem slice_of_lengths (h : List.Forall₂ (fun f p => p.length = Field.extent f) fields parts)
    {n : Nat} {p : List UInt8} (hf : fields[n]? = some f) (hp : parts[n]? = some p) :
    (parts.flatten.drop (Field.total (fields.take n))).take f.extent = p := by
  induction h generalizing n with
  | nil => simp at hf
  | @cons g q fields parts hlen _ ih =>
    cases n with
    | zero =>
      obtain rfl : g = f := by simpa using hf
      obtain rfl : q = p := by simpa using hp
      simp [← hlen]
    | succ n =>
      rw [List.take_succ_cons, Field.total_cons, List.flatten_cons, ← hlen,
        List.drop_length_add_append]
      exact ih (by simpa using hf) (by simpa using hp)

end Parts

/-- The bytes of a record as a writer and a reader see them, one slice a field. -/
structure Sliced (settings : Settings) (t : RecordType) (r : Record) (bytes : List UInt8) :
    Prop where
  length : bytes.length = t.length
  written : ∀ f ∈ t.fields, encodeField settings f (r.valueFor f) = .ok (f.slice bytes)
  whole : bytes = t.fields.flatMap fun f => f.slice bytes
  /-- No two fields share a byte. -/
  once : ∀ i < bytes.length,
    ∃! n : Nat, ∃ f : Field, t.fields[n]? = some f ∧ f.offset ≤ i ∧ i < f.offset + f.extent
  /-- What is read for a field is read from its slice. -/
  read : t.ReadsTo (fun f => decodeField settings (f.slice bytes) { f with offset := 0 })
    (decodeRecord settings t bytes)

theorem encodeRecord_ok {t : RecordType} {r : Record} (h : encodeRecord settings t r = .ok bytes) :
    bytes.length = t.length ∧
      ∃ parts,
        List.Forall₂ (fun f p => encodeField settings f (r.valueFor f) = .ok p) t.fields parts ∧
        bytes = parts.flatten := by
  obtain ⟨out, hout, h⟩ := bind_eq_ok.1 h
  split at h
  · rename_i hlen
    obtain rfl := Except.ok.inj h
    exact ⟨hlen, RecordType.writeFields_ok hout⟩
  · simp at h

theorem fits_of_encodeRecord {t : RecordType} {r : Record} (ht : Link.Walked t)
    (h : encodeRecord settings t r = .ok bytes) : t.Fits := by
  obtain ⟨hlength, parts, hparts, rfl⟩ := encodeRecord_ok h
  have htotal := total_le_of_forall₂ (hparts.imp fun _ _ => extent_le_of_encodeField)
  rw [hlength, ht.length] at htotal
  exact Nat.lt_of_le_of_lt htotal (Word64.wrap_lt _)

theorem sliced_of_tiled {t : RecordType} {r : Record} (ht : t.Tiled) (hfits : t.Fits)
    (hkeys : RecordType.KeysApart t.fields) (h : encodeRecord settings t r = .ok bytes) :
    Sliced settings t r bytes := by
  obtain ⟨hlength, parts, hparts, hbytes⟩ := encodeRecord_ok h
  -- Only the length of the whole is checked; no part can make up for another that is too short.
  have hlens : List.Forall₂ (fun f p => p.length = Field.extent f) t.fields parts := by
    refine lengths_of_total (hparts.imp fun _ _ => extent_le_of_encodeField) ?_
    rw [← hbytes, hlength, ht.length]
  have heq : parts = t.fields.map fun f => f.slice bytes := by
    refine List.ext_getElem (by simp [hparts.length_eq]) ?_
    intro n hp hf
    rw [List.length_map] at hf
    have hpart := slice_of_lengths hlens (List.getElem?_eq_getElem hf) (List.getElem?_eq_getElem hp)
    have hsize := (ht.liesIn hfits (List.getElem_mem hf)).size_eq
    rw [← hbytes, ← ht.offset n _ (List.getElem?_eq_getElem hf), ← hsize] at hpart
    rw [List.getElem_map]
    exact hpart.symm
  refine ⟨hlength, ?_, ?_, ?_, ?_⟩
  · rwa [heq, List.forall₂_map_right_iff, List.forall₂_same] at hparts
  · rw [List.flatMap_def, ← heq, ← hbytes]
  · intro i hi
    exact ht.existsUnique_place (hlength ▸ hi)
  · refine (RecordType.read_readsTo hkeys _).congr fun f hf => decodeField_slice ?_
    rw [hlength]
    exact ht.liesIn hfits hf

end Fixed

-- ------------------------------------------------------------------
-- Linked schemas
-- ------------------------------------------------------------------

namespace Link

variable {ctx : LinkContext} {layout : Layout} {schema : Schema} {t : RecordType}

/-- The linker keeps names apart by their ASCII letters; ASCII names are then apart for a record,
too. -/
theorem LayoutLinked.keysApart (h : LayoutLinked ctx layout schema) (hn : layout.HasAsciiNames)
    (ht : t ∈ schema.recordTypes) : RecordType.KeysApart t.fields := by
  have hascii : ∀ f ∈ t.fields, Text.IsAscii f.name := by
    intro f hf
    obtain ⟨r, hr, d, hd, hfield⟩ := field_of_recordTypes h.recordTypes t ht f hf
    rw [hfield.name]
    exact hn r (List.mem_append_left _ hr) d hd
  refine List.Pairwise.imp_of_mem ?_ (h.walked t ht).names
  intro a b ha hb hne
  exact Record.key_ne (hascii a (List.mem_of_mem_filter ha))
    (hascii b (List.mem_of_mem_filter hb)) hne

-- A text declares no other names. If a layout could have them, the linker would tell `É` from `é`,
-- while a record takes them for one name and keeps one value.
example :
    let text := "file-type: Fixed\ntext-encoding: \"latin1\"\nrecord-length: 2\n" ++
      "[R]\n1 a X(1)\n2 b X(1)\n"
    let accent (d : FieldDecl) : FieldDecl := { d with name := if d.name = "a" then "É" else "é" }
    let accented (layout : Layout) : Layout :=
      { layout with recordTypes := layout.recordTypes.map fun r =>
          { r with fields := r.fields.map accent } }
    ((Layout.parse text none).toOption.bind fun layout =>
      ((accented layout).link {}).toOption.map fun schema =>
        schema.recordTypes.map fun t =>
          (Fixed.decodeRecord schema.settings t [0x78, 0x79]).toOption.map (·.toList)) =
      some [some [("É", .text "y")]] := by
  decide +kernel

end Link

def oneItem : Record :=
  .ofList [("a", .text "xy"), ("B", .array ["1"])]

end Flatfile
