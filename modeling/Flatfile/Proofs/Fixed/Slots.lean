import Flatfile.Proofs.Codec.Blank
import Flatfile.Proofs.Fixed.Slices
import Flatfile.Proofs.Schema.Fields

/-!
# The slots of a field

A field of fixed length is written and read slot by slot. Without converters a slot is what the data
type makes of it.
-/

namespace Flatfile

variable {settings : Settings} {f : Field} {b : BuiltIn} {value v : Value}
  {bytes slot record : List UInt8}

theorem Field.writeValue_plain (h : f.converters = []) (value : Value) :
    f.writeValue value = .ok value := by
  rw [Field.writeValue, h]
  rfl

theorem Field.readValue_plain (h : f.converters = []) (value : Value) :
    f.readValue value = .ok value := by
  rw [Field.readValue, h]
  rfl

namespace Fixed

-- ------------------------------------------------------------------
-- One slot
-- ------------------------------------------------------------------

theorem encodeItem_plain (hplain : f.converters = []) (item : Value) :
    encodeItem settings f item = encodeSlot settings f item := by
  rw [encodeItem, Field.writeValue_plain hplain]
  rfl

theorem encodeSlot_eq_ok :
    encodeSlot settings f value = .ok slot ↔
      f.dataType.encodeBytes (f.coding settings) value = .ok slot ∧ slot.length = f.width := by
  rw [encodeSlot, bind_eq_ok]
  simp only [mapError_eq_ok]
  constructor
  · rintro ⟨bytes, hbytes, h⟩
    split at h
    next hlength => exact Except.ok.inj h ▸ ⟨hbytes, hlength⟩
    next => cases h
  · rintro ⟨hbytes, hlength⟩
    exact ⟨slot, hbytes, if_pos hlength⟩

theorem decodeSlot_eq_ok (hplain : f.converters = []) :
    decodeSlot settings f slot = .ok v ↔
      f.dataType.decodeBytes (f.coding settings) slot = .ok v := by
  rw [decodeSlot, mapError_eq_ok, bind_eq_ok]
  simp [Field.readValue_plain hplain]

theorem width_pos (h : f.Compiled .fixed b) : 0 < f.width := by
  rw [Field.width, ← h.dataType]
  exact BuiltIn.width_pos h.checked

theorem encodeSlot_null (h : f.Compiled .fixed b) :
    encodeSlot settings f .null = .ok (b.blank (f.coding settings)) := by
  have hwidth : (b.blank (f.coding settings)).length = f.width := by
    rw [BuiltIn.blank, List.length_replicate, Field.width, h.dataType]
  rw [encodeSlot, ← h.dataType, BuiltIn.encodeBytes_null h.family]
  exact if_pos hwidth

theorem encodeItem_null (h : f.Compiled .fixed b) (hplain : f.converters = []) :
    encodeItem settings f .null = .ok (b.blank (f.coding settings)) := by
  rw [encodeItem, Field.writeValue_plain hplain]
  exact encodeSlot_null h

-- ------------------------------------------------------------------
-- All slots
-- ------------------------------------------------------------------

theorem map_range_flatten {parts : List (List UInt8)} {width : Nat}
    (h : ∀ p ∈ parts, p.length = width) :
    (List.range parts.length).map (fun k => (parts.flatten.drop (k * width)).take width) = parts := by
  induction parts with
  | nil => rfl
  | cons p parts ih =>
    obtain ⟨hp, hparts⟩ := List.forall_mem_cons.1 h
    have hrest (k : Nat) : ((p :: parts).flatten.drop ((k + 1) * width)).take width =
        (parts.flatten.drop (k * width)).take width := by
      rw [Nat.succ_mul, Nat.add_comm, ← hp, List.flatten_cons, List.drop_length_add_append]
    rw [List.length_cons, List.range_succ_eq_map, List.map_cons, List.map_map]
    refine congrArg₂ List.cons ?_ ((List.map_congr_left fun k _ => hrest k).trans (ih hparts))
    rw [Nat.zero_mul, List.drop_zero, List.flatten_cons, List.take_left' hp]

theorem decodeField_slots {slots : List (List UInt8)} (hin : f.LiesIn record.length)
    (harray : f.isArray = true) (hpos : 0 < f.width) (hslice : f.slice record = slots.flatten)
    (hcount : slots.length = f.slots) (hwidth : ∀ p ∈ slots, p.length = f.width) :
    decodeField settings record f =
      (slots.mapM (decodeSlot settings f)).map fun values =>
        .array (dropUnused f.occurs.min (values.map Value.toText)) := by
  have hparts : slots = (List.range f.slots).map (f.slotAt record) := by
    rw [← map_range_flatten hwidth, hcount, ← hslice]
    refine List.map_congr_left fun k hk => ?_
    rw [← slotAt_slice hin (List.mem_range.1 hk), Field.slotAt, Nat.zero_add]
    rfl
  rw [decodeField_array hin harray hpos, hparts, List.mapM_map]
  rfl

theorem liesIn_of_slice (hword : record.length < 2 ^ 64) (hroom : f.offset + f.size ≤ record.length)
    (hslice : (f.slice record).length = f.extent) : f.LiesIn record.length := by
  have hsize : f.size ≤ f.extent := Word64.wrap_le _
  rw [Field.slice, List.length_take, List.length_drop] at hslice
  exact ⟨by omega, by omega⟩

theorem encodeField_slots (harray : f.isArray = true)
    (h : encodeField settings f value = .ok bytes) :
    f.checkCount value.items.length = .ok () ∧
      ∃ slots, (Value.padItems f.slots value.items).mapM (encodeItem settings f) = .ok slots ∧
        bytes = slots.flatten := by
  rw [encodeField, if_pos harray] at h
  obtain ⟨_, hcount, h⟩ := bind_eq_ok.1 h
  obtain ⟨slots, hslots, h⟩ := bind_eq_ok.1 h
  exact ⟨hcount, slots, hslots, (Except.ok.inj h).symm⟩

theorem encodeField_length (hordered : f.occurs.Ordered)
    (h : encodeField settings f value = .ok bytes) : bytes.length = f.extent := by
  cases harray : f.isArray with
  | true => exact encodeField_array_length harray h
  | false =>
    rw [encodeField_single_length harray h, Field.extent, Field.slots_eq_one hordered harray,
      Nat.mul_one]

end Fixed
end Flatfile
