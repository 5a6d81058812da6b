import Flatfile.Codec.DecimalDigits
import Flatfile.Proofs.Decimal.Rounded
import Flatfile.Proofs.Outcome
import Mathlib.Data.List.Induction

/-!
# Digits of a field

A number is the value of its digits, as long as the field has room for them. So the number that was
taken apart for a field is the one that is put together again (`toDecimal_expand`), and it is the
decimal rounded to the scale of the field (`ofDecimal_ok`). A half-byte keeps a digit, or a sign,
beside another one.
-/

namespace Flatfile

-- ------------------------------------------------------------------
-- Half-bytes
-- ------------------------------------------------------------------

theorem and_low {low : UInt8} (h : low ≤ 0xF) : low &&& 0x0F = low := by
  have hall : ∀ i < 16, UInt8.ofNat i &&& 0x0F = UInt8.ofNat i := by decide
  have hlow := hall low.toNat (Nat.lt_succ_of_le (UInt8.le_iff_toNat_le.1 h))
  rwa [UInt8.ofNat_toNat] at hlow

theorem halves_of_byte {high low : UInt8} (hhigh : high ≤ 0xF) (hlow : low ≤ 0xF) :
    ((high <<< 4) ||| low) >>> 4 = high ∧ ((high <<< 4) ||| low) &&& 0x0F = low := by
  have hall : ∀ i < 16, ∀ j < 16,
      ((UInt8.ofNat i <<< 4) ||| UInt8.ofNat j) >>> 4 = UInt8.ofNat i ∧
        ((UInt8.ofNat i <<< 4) ||| UInt8.ofNat j) &&& 0x0F = UInt8.ofNat j := by
    decide
  have h := hall high.toNat (Nat.lt_succ_of_le (UInt8.le_iff_toNat_le.1 hhigh)) low.toNat
    (Nat.lt_succ_of_le (UInt8.le_iff_toNat_le.1 hlow))
  rwa [UInt8.ofNat_toNat, UInt8.ofNat_toNat] at h

theorem byte_forall {P : UInt8 → Prop} (h : ∀ n < 256, P (UInt8.ofNat n)) (b : UInt8) : P b := by
  have hb := h b.toNat b.toNat_lt
  rwa [UInt8.ofNat_toNat] at hb

theorem byte_of_halves (b : UInt8) : ((b >>> 4) <<< 4) ||| (b &&& 0x0F) = b := by
  revert b
  exact byte_forall (by decide +kernel)

theorem upperHalf_eq (b : UInt8) : (b >>> 4) <<< 4 = b &&& 0xF0 := by
  revert b
  exact byte_forall (by decide +kernel)

namespace DecimalDigits

variable {n width scale capacity : Nat} {d : UInt8} {digits : List UInt8} {v : Decimal}
  {negative : Bool}

-- ------------------------------------------------------------------
-- Digits and their value
-- ------------------------------------------------------------------

theorem expand_length (width n : Nat) : (expand width n).length = width := by
  induction width generalizing n with
  | zero => rfl
  | succ width ih => rw [expand, List.length_append, ih, List.length_singleton]

theorem toNat_lastDigit (n : Nat) : (UInt8.ofNat (n % 10)).toNat = n % 10 :=
  UInt8.toNat_ofNat_of_lt' (Nat.lt_trans (Nat.mod_lt n (by decide)) (by decide))

theorem le_nine_of_mem_expand (h : d ∈ expand width n) : d ≤ 9 := by
  induction width generalizing n with
  | zero => simp [expand] at h
  | succ width ih =>
    rcases List.mem_append.1 h with h | h
    · exact ih h
    · rw [List.mem_singleton.1 h, UInt8.le_iff_toNat_le, toNat_lastDigit]
      exact Nat.le_of_lt_succ (Nat.mod_lt n (by decide))

theorem value_concat (digits : List UInt8) (d : UInt8) :
    value (digits ++ [d]) = 10 * value digits + d.toNat := by
  rw [value, List.foldl_append]
  rfl

theorem value_expand (h : n < 10 ^ width) : value (expand width n) = n := by
  induction width generalizing n with
  | zero =>
    rw [Nat.lt_one_iff.1 h]
    rfl
  | succ width ih =>
    have hfront : n / 10 < 10 ^ width := by
      rw [Nat.div_lt_iff_lt_mul (by decide)]
      rwa [← pow_succ]
    rw [expand, value_concat, ih hfront, toNat_lastDigit, Nat.div_add_mod]

theorem value_lt (h : ∀ d ∈ digits, d ≤ 9) : value digits < 10 ^ digits.length := by
  induction digits using List.reverseRecOn with
  | nil => decide
  | append_singleton digits d ih =>
    obtain ⟨hdigits, hd⟩ := List.forall_mem_append.1 h
    have hd : d.toNat ≤ 9 := UInt8.le_iff_toNat_le.1 (hd d (List.mem_singleton_self d))
    have hvalue := ih hdigits
    rw [value_concat, List.length_append, List.length_singleton, pow_succ]
    omega

theorem expand_value (h : ∀ d ∈ digits, d ≤ 9) : expand digits.length (value digits) = digits := by
  induction digits using List.reverseRecOn with
  | nil => rfl
  | append_singleton digits d ih =>
    obtain ⟨hdigits, hd⟩ := List.forall_mem_append.1 h
    have hd : d.toNat ≤ 9 := UInt8.le_iff_toNat_le.1 (hd d (List.mem_singleton_self d))
    have hfront : (10 * value digits + d.toNat) / 10 = value digits := by omega
    have hlast : (10 * value digits + d.toNat) % 10 = d.toNat := by omega
    rw [value_concat, List.length_append, List.length_singleton, expand, hfront, hlast,
      ih hdigits, UInt8.ofNat_toNat]

theorem value_dropWhile_zero (digits : List UInt8) :
    value (digits.dropWhile (· == 0)) = value digits := by
  induction digits with
  | nil => rfl
  | cons d digits ih =>
    by_cases hd : d = 0
    · subst hd
      rw [List.dropWhile_cons_of_pos (by rfl), ih]
      rfl
    · rw [List.dropWhile_cons_of_neg (by simpa using hd)]

theorem value_eq_zero_iff : value digits = 0 ↔ ∀ d ∈ digits, d = 0 := by
  induction digits using List.reverseRecOn with
  | nil => simp [value]
  | append_singleton digits d ih =>
    rw [value_concat, List.forall_mem_append, List.forall_mem_singleton, ← ih,
      ← UInt8.toNat_inj, UInt8.toNat_zero]
    omega

theorem any_ne_zero (digits : List UInt8) : digits.any (· != 0) = (value digits != 0) := by
  rw [Bool.eq_iff_iff, List.any_eq_true, bne_iff_ne, ne_eq, value_eq_zero_iff]
  simp

theorem checkDigit_ok (h : d ≤ 9) : checkDigit d = .ok d :=
  if_neg (UInt8.not_lt.2 h)

theorem checkDigit_eq_ok {nibble : UInt8} :
    checkDigit nibble = .ok d ↔ d = nibble ∧ nibble ≤ 9 := by
  unfold checkDigit
  split
  next h => simpa using fun _ => h
  next h => simpa [UInt8.not_lt.1 h] using eq_comm

theorem mapM_checkDigit_eq_ok {bytes : List UInt8} :
    bytes.mapM checkDigit = .ok digits ↔ (∀ d ∈ bytes, d ≤ 9) ∧ digits = bytes := by
  rw [mapM_eq_ok_map (P := (· ≤ 9)) (g := id) fun b d => checkDigit_eq_ok.trans and_comm,
    List.map_id]

theorem mapM_checkDigit (h : ∀ d ∈ digits, d ≤ 9) : digits.mapM checkDigit = .ok digits :=
  mapM_checkDigit_eq_ok.2 ⟨h, rfl⟩

-- ------------------------------------------------------------------
-- Decimals and their digits
-- ------------------------------------------------------------------

/-- What is written are the digits of the number rounded, which the field has room for. -/
theorem ofDecimal_ok (h : ofDecimal v scale capacity = .ok (negative, digits)) :
    v.roundedUnits scale < 10 ^ 18 ∧ v.roundedUnits scale < 10 ^ capacity ∧
      negative = (v.negative && v.roundedUnits scale != 0) ∧
      digits = expand capacity (v.roundedUnits scale) := by
  simp only [ofDecimal] at h
  split at h
  · simp at h
  rename_i hfew
  split at h
  · simp at h
  rename_i hroom
  rw [Nat.not_le] at hfew hroom
  have hunits : v.unitsAt scale = v.roundedUnits scale := Decimal.unitsAt_eq hfew
  rw [hunits] at h hfew hroom
  obtain ⟨rfl, rfl⟩ := Prod.mk.inj (Except.ok.inj h)
  exact ⟨hfew, hroom, rfl, rfl⟩

theorem ofDecimal_eq (hfew : v.roundedUnits scale < 10 ^ 18)
    (hroom : v.roundedUnits scale < 10 ^ capacity) :
    ofDecimal v scale capacity =
      .ok (v.negative && v.roundedUnits scale != 0, expand capacity (v.roundedUnits scale)) := by
  have hmany : ¬ Decimal.tenPow maxWritten ≤ v.roundedUnits scale := Nat.not_le.2 hfew
  have hover : ¬ Decimal.tenPow capacity ≤ v.roundedUnits scale := Nat.not_le.2 hroom
  simp only [ofDecimal, Decimal.unitsAt_of_lt hfew, if_neg hmany, if_neg hover]

theorem toDecimal_expand {n : Nat} (hfew : n < 10 ^ 18) (hroom : n < 10 ^ capacity)
    (hscale : scale ≤ 18) (negative : Bool) :
    ∃ w, toDecimal negative scale (expand capacity n) = .ok w ∧
      w.toRat = (if negative then -(n : ℚ) else n) / 10 ^ scale ∧
      (w.toRat = 0 → w.negative = false) := by
  have hlimit : 10 ^ 18 < Decimal.limit := by decide
  have hfits : n < Decimal.limit ∧ scale ≤ 28 := ⟨by omega, by omega⟩
  refine ⟨⟨negative && n != 0, n, scale, hfits.1, hfits.2⟩, ?_, ?_, ?_⟩
  · rw [toDecimal, value_expand hroom, Decimal.ofParts?, dif_pos hfits]
  · rw [Decimal.toRat_eq]
    by_cases hzero : n = 0
    · simp [hzero]
    · cases negative <;> simp [hzero, neg_div]
  · rw [Decimal.toRat_eq_zero_iff]
    rintro rfl
    exact Bool.and_false negative

end DecimalDigits
end Flatfile
