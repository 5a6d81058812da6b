import Flatfile.Codec.Registry
import Flatfile.Proofs.Outcome

/-!
# Arguments of fields

A field that a registry accepts has some width and at most 18 digits after the point, the signs that
it chooses are half-bytes, and a text is padded with a single byte. A decimal field has at most 28
digits. Under the names of zoned and packed decimals, in any letter case, there is nothing else
among the data types of records of fixed length.
-/

namespace Flatfile

variable {args : Args} {env : FieldEnv} {i n : Nat} {b : UInt8}

-- ------------------------------------------------------------------
-- Single arguments
-- ------------------------------------------------------------------

namespace Args

theorem refuse_ne_ok {reason : String} {a : α} : args.refuse reason ≠ .ok a :=
  nofun

theorem size_pos (h : args.size i = .ok n) : 1 ≤ n := by
  obtain ⟨found, -, h⟩ := bind_eq_ok.1 h
  cases found with
  | none => exact absurd h refuse_ne_ok
  | some m =>
    simp only at h
    split at h
    · rename_i hpos
      exact Except.ok.inj h ▸ hpos
    · exact absurd h refuse_ne_ok

theorem scale_le (h : args.scale i = .ok n) : n ≤ 18 := by
  obtain ⟨found, -, h⟩ := bind_eq_ok.1 h
  cases found with
  | none => exact Except.ok.inj h ▸ Nat.zero_le 18
  | some m =>
    simp only at h
    split at h
    · rename_i hle
      exact Except.ok.inj h ▸ hle
    · exact absurd h nofun

theorem le_of_nibble? {found : Option UInt8} (h : args.nibble? i = .ok found) (hb : b ∈ found) :
    b ≤ 0xF := by
  unfold nibble? at h
  split at h
  · obtain rfl := Except.ok.inj h
    simp at hb
  split at h
  · split at h
    · rename_i m _ hle
      obtain rfl := Except.ok.inj h
      obtain rfl := Option.some.inj hb
      rw [UInt8.le_iff_toNat_le, UInt8.toNat_ofNat_of_lt' (Nat.lt_of_le_of_lt hle (by decide))]
      exact hle
    · exact absurd h refuse_ne_ok
  · exact absurd h refuse_ne_ok

end Args

-- ------------------------------------------------------------------
-- Decimal fields
-- ------------------------------------------------------------------

structure SignChoice.Fit (choice : SignChoice) : Prop where
  positive : ∀ b ∈ choice.positive, b ≤ 0xF
  negative : ∀ b ∈ choice.negative, b ≤ 0xF

theorem SignChoice.fit_none : ({} : SignChoice).Fit :=
  ⟨nofun, nofun⟩

theorem Args.signs_fit {choice : SignChoice} (h : args.signs = .ok choice) : choice.Fit := by
  obtain ⟨positive, hpositive, h⟩ := bind_eq_ok.1 h
  obtain ⟨negative, hnegative, h⟩ := bind_eq_ok.1 h
  split at h
  · simp at h
  · obtain rfl := Except.ok.inj h
    exact ⟨fun b => le_of_nibble? hpositive, fun b => le_of_nibble? hnegative⟩

theorem DecimalDigits.checkField_eq_ok {capacity : Nat} :
    checkField capacity = .ok () ↔ capacity ≤ 28 := by
  unfold checkField
  split
  next hmore => exact iff_of_false nofun (Nat.not_le.2 hmore)
  next hfew => exact iff_of_true rfl (Nat.not_lt.1 hfew)

theorem Zoned.ofArgs_steps {t : Zoned} (h : ofArgs args env = .ok t) :
    args.size 0 = .ok t.size ∧ DecimalDigits.checkField t.size = .ok () ∧
      args.scale 1 = .ok t.scale ∧ args.signs = .ok t.signs := by
  obtain ⟨-, -, h⟩ := bind_eq_ok.1 h
  obtain ⟨size, hsize, h⟩ := bind_eq_ok.1 h
  obtain ⟨_, hcheck, h⟩ := bind_eq_ok.1 h
  obtain ⟨scale, hscale, h⟩ := bind_eq_ok.1 h
  obtain ⟨signs, hsigns, h⟩ := bind_eq_ok.1 h
  obtain rfl := Except.ok.inj h
  exact ⟨hsize, hcheck, hscale, hsigns⟩

theorem Zoned.ofArgs_ok {t : Zoned} (h : ofArgs args env = .ok t) :
    1 ≤ t.size ∧ t.scale ≤ 18 ∧ t.signs.Fit := by
  obtain ⟨hsize, -, hscale, hsigns⟩ := ofArgs_steps h
  exact ⟨Args.size_pos hsize, Args.scale_le hscale, Args.signs_fit hsigns⟩

theorem Zoned.size_le {t : Zoned} (h : ofArgs args env = .ok t) : t.size ≤ 28 :=
  DecimalDigits.checkField_eq_ok.1 (ofArgs_steps h).2.1

theorem Packed.ofArgs_steps {t : Packed} (h : ofArgs args env = .ok t) :
    args.size 0 = .ok t.size ∧ DecimalDigits.checkField (capacity t.size) = .ok () ∧
      args.scale 1 = .ok t.scale ∧ args.signs = .ok t.signs := by
  obtain ⟨-, -, h⟩ := bind_eq_ok.1 h
  obtain ⟨size, hsize, h⟩ := bind_eq_ok.1 h
  obtain ⟨_, hcheck, h⟩ := bind_eq_ok.1 h
  obtain ⟨scale, hscale, h⟩ := bind_eq_ok.1 h
  obtain ⟨signs, hsigns, h⟩ := bind_eq_ok.1 h
  obtain rfl := Except.ok.inj h
  exact ⟨hsize, hcheck, hscale, hsigns⟩

theorem Packed.ofArgs_ok {t : Packed} (h : ofArgs args env = .ok t) :
    1 ≤ t.size ∧ t.scale ≤ 18 ∧ t.signs.Fit := by
  obtain ⟨hsize, -, hscale, hsigns⟩ := ofArgs_steps h
  exact ⟨Args.size_pos hsize, Args.scale_le hscale, Args.signs_fit hsigns⟩

theorem Packed.capacity_le {t : Packed} (h : ofArgs args env = .ok t) :
    capacity t.size ≤ 28 :=
  DecimalDigits.checkField_eq_ok.1 (ofArgs_steps h).2.1

theorem FixedText.ofArgs_ok {t : FixedText} (h : ofArgs args env = .ok t) :
    1 ≤ t.size ∧ (env.charset.byteFor? t.pad).isNone = false := by
  obtain ⟨-, -, h⟩ := bind_eq_ok.1 h
  obtain ⟨size, hsize, h⟩ := bind_eq_ok.1 h
  obtain ⟨pad, -, h⟩ := bind_eq_ok.1 h
  simp only at h
  split at h
  next => cases h
  next hpad =>
    obtain ⟨side, -, h⟩ := bind_eq_ok.1 h
    obtain ⟨align, -, h⟩ := bind_eq_ok.1 h
    obtain rfl := Except.ok.inj h
    exact ⟨Args.size_pos hsize, eq_false_of_ne_true hpad⟩

-- ------------------------------------------------------------------
-- The registry
-- ------------------------------------------------------------------

namespace Registry

variable {name : String} {items : List Literal} {t : DataType}

theorem exists_mem_of_dataType? {r : Registry} (h : r.dataType? name items env = some (.ok t)) :
    ∃ entry ∈ r.dataTypes, entry.2 ⟨name, items⟩ env = .ok t := by
  obtain ⟨factory, hfound, hmade⟩ := Option.map_eq_some_iff.1 h
  obtain ⟨entry, hentry, rfl⟩ := Option.map_eq_some_iff.1 hfound
  exact ⟨entry, List.mem_of_find?_eq_some hentry, hmade⟩

theorem fixed_decimals (h : fixed.dataType? name items env = some (.ok t)) :
    (t.name = "SZ" → ∃ f, Zoned.ofArgs ⟨name, items⟩ env = .ok f ∧ f.dataType = t) ∧
      (t.name = "SP" → ∃ f, Packed.ofArgs ⟨name, items⟩ env = .ok f ∧ f.dataType = t) := by
  obtain ⟨entry, hentry, h⟩ := exists_mem_of_dataType? h
  simp only [fixed, List.mem_cons, List.not_mem_nil, or_false] at hentry
  rcases hentry with rfl | rfl | rfl | rfl | rfl | rfl <;> obtain ⟨f, hf, rfl⟩ := map_eq_ok.1 h
  case inr.inr.inl =>
    exact ⟨fun _ => ⟨f, hf, rfl⟩, fun hname => absurd hname (by decide : "SZ" ≠ "SP")⟩
  case inr.inr.inr.inl =>
    exact ⟨fun hname => absurd hname (by decide : "SP" ≠ "SZ"), fun _ => ⟨f, hf, rfl⟩⟩
  all_goals
    simp [FixedText.dataType, FixedNumber.dataType, BinaryInteger.dataType, RawBytes.dataType]

/-- Every built-in data type of columns takes one of them, and only the one for texts is called
`X`. -/
theorem columns_texts (h : columns.dataType? name items env = some (.ok t)) :
    t.width = 1 ∧ (t.name = "X" → ∃ f : ColumnText, f.dataType = t) := by
  obtain ⟨entry, hentry, h⟩ := exists_mem_of_dataType? h
  simp only [columns, List.mem_cons, List.not_mem_nil, or_false] at hentry
  rcases hentry with rfl | rfl | rfl <;> obtain ⟨f, hf, rfl⟩ := map_eq_ok.1 h
  · exact ⟨rfl, fun _ => ⟨f, rfl⟩⟩
  · exact ⟨rfl, fun hname => absurd hname (by decide : "N" ≠ "X")⟩
  · exact ⟨rfl, fun hname => absurd hname (by decide : "HEX" ≠ "X")⟩

end Registry
end Flatfile
