import Flatfile.Proofs.Codec.BuiltIn
import Flatfile.Proofs.Decimal.Rescaled
import Mathlib.Data.List.Induction
import Mathlib.Data.Set.Function

/-!
# Integers in two's complement

The byte strings of one length stand for the integers of a range, each for one of its own
(`signed_twosComplement`, `twosComplement_signed`). So a field of integers holds a number whatever
its bytes are, and it takes a number exactly if the number, rounded and counted in units of the last
digit, lies in the range (`decode_encode_exact`). A count for which a decimal has no room stops
short of the scale, but even then it lies far outside of the range of eight bytes.
-/

namespace Flatfile

namespace Decimal

variable {d : Decimal} {scale : Nat} {n : ℤ}

theorem ofInt?_eq_some (h : ofInt? n scale = some d) : d.mantissa = n ∧ d.scale = scale := by
  unfold ofInt? ofParts? at h
  split at h
  · obtain rfl := Option.some.inj h
    refine ⟨?_, rfl⟩
    simp only [mantissa, decide_eq_true_eq]
    split <;> omega
  · cases h

theorem exists_ofInt? (hn : n.natAbs < limit) (hscale : scale ≤ 28) :
    ∃ d, ofInt? n scale = some d :=
  ⟨_, dif_pos ⟨hn, hscale⟩⟩

end Decimal

namespace BinaryInteger

variable {size m : Nat} {n : ℤ} {bytes : List UInt8}

-- ------------------------------------------------------------------
-- Bytes and their value
-- ------------------------------------------------------------------

theorem unsigned_concat (bytes : List UInt8) (b : UInt8) :
    unsigned (bytes ++ [b]) = 256 * unsigned bytes + b.toNat :=
  List.foldl_concat ..

theorem unsigned_lt (bytes : List UInt8) : unsigned bytes < 256 ^ bytes.length := by
  induction bytes using List.reverseRecOn with
  | nil => decide
  | append_singleton bytes b ih =>
    have hb := b.toNat_lt
    rw [unsigned_concat, List.length_append, List.length_singleton, pow_succ]
    omega

@[simp] theorem length_bytesOf (size m : Nat) : (bytesOf size m).length = size := by
  induction size generalizing m with
  | zero => rfl
  | succ size ih => simp [bytesOf, ih]

theorem unsigned_bytesOf (h : m < 256 ^ size) : unsigned (bytesOf size m) = m := by
  induction size generalizing m with
  | zero =>
    rw [Nat.lt_one_iff.1 h]
    rfl
  | succ size ih =>
    have hfront : m / 256 < 256 ^ size := by
      rw [Nat.div_lt_iff_lt_mul (by decide)]
      rwa [← pow_succ]
    have hlast : (UInt8.ofNat (m % 256)).toNat = m % 256 :=
      UInt8.toNat_ofNat_of_lt' (Nat.mod_lt m (by decide))
    rw [bytesOf, unsigned_concat, ih hfront, hlast, Nat.div_add_mod]

theorem bytesOf_unsigned (bytes : List UInt8) : bytesOf bytes.length (unsigned bytes) = bytes := by
  induction bytes using List.reverseRecOn with
  | nil => rfl
  | append_singleton bytes b ih =>
    have hb := b.toNat_lt
    have hfront : (256 * unsigned bytes + b.toNat) / 256 = unsigned bytes := by omega
    have hlast : (256 * unsigned bytes + b.toNat) % 256 = b.toNat := by omega
    rw [unsigned_concat, List.length_append, List.length_singleton, bytesOf, hfront, hlast, ih,
      UInt8.ofNat_toNat]

-- ------------------------------------------------------------------
-- Two's complement
-- ------------------------------------------------------------------

def range (size : Nat) : Set ℤ :=
  {n | -2 ^ (8 * size - 1) ≤ n ∧ n ≤ 2 ^ (8 * size - 1) - 1}

theorem inRange_iff :
    inRange size n = true ↔ -((256 ^ size : ℕ) : ℤ) ≤ 2 * n ∧ 2 * n < (256 ^ size : ℕ) := by
  simp [inRange]

theorem mem_range_iff (h : 0 < size) : n ∈ range size ↔ inRange size n = true := by
  obtain ⟨k, rfl⟩ := Nat.exists_eq_add_of_lt h
  have hpow : ((256 ^ (0 + k + 1) : ℕ) : ℤ) = 2 * 2 ^ (8 * (0 + k + 1) - 1) := by
    rw [← pow_succ', show 256 = 2 ^ 8 by norm_num, ← pow_mul]
    push_cast
    congr 1
  rw [inRange_iff, hpow, range, Set.mem_ofPred_eq]
  constructor <;> rintro ⟨hlow, hhigh⟩ <;> constructor <;> omega

theorem signed_eq (bytes : List UInt8) :
    signed bytes = if 2 * unsigned bytes < 256 ^ bytes.length then (unsigned bytes : ℤ)
      else unsigned bytes - (256 ^ bytes.length : ℕ) :=
  rfl

theorem inRange_signed (bytes : List UInt8) : inRange bytes.length (signed bytes) = true := by
  have hlt := unsigned_lt bytes
  rw [inRange_iff, signed_eq]
  split <;> omega

theorem signed_emod (bytes : List UInt8) :
    signed bytes % (256 ^ bytes.length : ℕ) = unsigned bytes := by
  have hlt := unsigned_lt bytes
  rw [signed_eq]
  split
  · exact Int.emod_eq_of_lt (by omega) (by omega)
  · rw [Int.sub_emod_right]
    exact Int.emod_eq_of_lt (by omega) (by omega)

@[simp] theorem length_twosComplement (size : Nat) (n : ℤ) :
    (twosComplement size n).length = size :=
  length_bytesOf _ _

theorem twosComplement_signed (bytes : List UInt8) :
    twosComplement bytes.length (signed bytes) = bytes := by
  have hunsigned : (signed bytes % (Nat.pow 256 bytes.length : ℕ)).toNat = unsigned bytes := by
    rw [Nat.pow_eq, signed_emod, Int.toNat_natCast]
  rw [twosComplement, hunsigned, bytesOf_unsigned]

theorem signed_twosComplement (h : inRange size n = true) : signed (twosComplement size n) = n := by
  rw [inRange_iff] at h
  have hpos : (0 : ℤ) < (256 ^ size : ℕ) := by positivity
  have hmod : n % (256 ^ size : ℕ) = if 0 ≤ n then n else n + (256 ^ size : ℕ) := by
    split
    · exact Int.emod_eq_of_lt (by omega) (by omega)
    · rw [← Int.add_emod_right]
      exact Int.emod_eq_of_lt (by omega) (by omega)
  have hlt : (n % (256 ^ size : ℕ)).toNat < 256 ^ size := by
    have hbounds := Int.emod_lt_of_pos n hpos
    omega
  have hunsigned : (unsigned (twosComplement size n) : ℤ) = n % (256 ^ size : ℕ) := by
    rw [twosComplement, Nat.pow_eq, unsigned_bytesOf hlt]
    exact Int.toNat_of_nonneg (Int.emod_nonneg n hpos.ne')
  rw [hmod] at hunsigned
  rw [signed_eq, length_twosComplement]
  split at hunsigned <;> split <;> omega

-- ------------------------------------------------------------------
-- Fields of integers
-- ------------------------------------------------------------------

variable {t : BinaryInteger}

theorem size_le (h : t.size ∈ [1, 2, 4, 8]) : 0 < t.size ∧ t.size ≤ 8 := by
  simp only [List.mem_cons, List.not_mem_nil, or_false] at h
  omega

def number (t : BinaryInteger) (bytes : List UInt8) : Decimal :=
  (Decimal.ofInt? (signed bytes) t.scale).getD .zero

theorem natAbs_lt_of_inRange (hsize : size ≤ 8) (h : inRange size n = true) :
    10 * n.natAbs < Decimal.limit := by
  have hpow : 256 ^ size ≤ 256 ^ 8 := Nat.pow_le_pow_right (by decide) hsize
  have hlimit : 5 * 256 ^ 8 < Decimal.limit := by decide
  rw [inRange_iff] at h
  omega

theorem ofInt?_signed (hsize : t.size ≤ 8) (hscale : t.scale ≤ 28)
    (hlength : bytes.length = t.size) :
    Decimal.ofInt? (signed bytes) t.scale = some (t.number bytes) := by
  have hfar := natAbs_lt_of_inRange (hlength ▸ hsize) (inRange_signed bytes)
  have hfits : (signed bytes).natAbs < Decimal.limit := by omega
  obtain ⟨d, hd⟩ := Decimal.exists_ofInt? hfits hscale
  rw [number, hd, Option.getD_some]

theorem decode_eq (coding : Coding) (hsize : t.size ≤ 8) (hscale : t.scale ≤ 28)
    (hlength : bytes.length = t.size) :
    t.decode coding bytes = .ok (.decimal (t.number bytes)) := by
  rw [decode, checkWidth_eq_ok.2 hlength, ofInt?_signed hsize hscale hlength]
  rfl

/-- The count of units decides, also where rescaling stops short of it. -/
theorem encode_eq (coding : Coding) (hsize : t.size ≤ 8) (hscale : t.scale ≤ 28) (v : Decimal) :
    t.encode coding (.decimal v) =
      if inRange t.size (v.roundedInt t.scale) then
        .ok (twosComplement t.size (v.roundedInt t.scale))
      else .error (.overflow (v.rescale t.scale).toText t.size) := by
  have hwrite : t.encode coding (.decimal v) =
      if inRange t.size (v.rescale t.scale).mantissa then
        .ok (twosComplement t.size (v.rescale t.scale).mantissa)
      else .error (.overflow (v.rescale t.scale).toText t.size) := rfl
  obtain ⟨missing, hrescaled⟩ := Decimal.exists_rescaled v hscale
  rw [hwrite]
  rcases hrescaled.mantissa_eq_or with hexact | ⟨hshort, hlarge⟩
  · rw [hexact]
  · have hout (n : ℤ) (hn : Decimal.limit ≤ 10 * n.natAbs) : ¬ inRange t.size n = true :=
      fun hin => Nat.not_le.2 (natAbs_lt_of_inRange hsize hin) hn
    rw [if_neg (hout _ (by simpa using hshort)),
      if_neg (hout _ (by rw [Decimal.natAbs_roundedInt]; omega))]

theorem encode_number (coding : Coding) (hsize : t.size ≤ 8) (hscale : t.scale ≤ 28)
    (hlength : bytes.length = t.size) :
    t.encode coding (.decimal (t.number bytes)) = .ok bytes := by
  obtain ⟨hmantissa, hscaled⟩ := Decimal.ofInt?_eq_some (ofInt?_signed hsize hscale hlength)
  have hcount : (t.number bytes).roundedInt t.scale = signed bytes := by
    rw [← hscaled, Decimal.roundedInt_scale, hmantissa]
  rw [encode_eq coding hsize hscale, hcount, ← hlength, if_pos (inRange_signed bytes),
    twosComplement_signed]

/-- The byte strings of the size of a field and the numbers that it holds match one to one. -/
theorem number_bijOn (hpos : 0 < t.size) (hsize : t.size ≤ 8) (hscale : t.scale ≤ 28) :
    Set.BijOn t.number {bytes | bytes.length = t.size}
      {d | ∃ n ∈ range t.size, Decimal.ofInt? n t.scale = some d} := by
  refine ⟨?_, ?_, ?_⟩
  · intro bytes hlength
    have hin : inRange t.size (signed bytes) = true := hlength ▸ inRange_signed bytes
    exact ⟨signed bytes, (mem_range_iff hpos).2 hin, ofInt?_signed hsize hscale hlength⟩
  · intro bytes hlength bytes' hlength' hsame
    have hmantissa := (Decimal.ofInt?_eq_some (ofInt?_signed hsize hscale hlength)).1
    rw [hsame, (Decimal.ofInt?_eq_some (ofInt?_signed hsize hscale hlength')).1] at hmantissa
    rw [← twosComplement_signed bytes, ← twosComplement_signed bytes', hmantissa,
      hlength.trans hlength'.symm]
  · rintro d ⟨n, hn, hd⟩
    have hlength := length_twosComplement t.size n
    have hnumber := ofInt?_signed hsize hscale hlength
    rw [signed_twosComplement ((mem_range_iff hpos).1 hn), hd] at hnumber
    exact ⟨_, hlength, (Option.some.inj hnumber).symm⟩

/-- The bytes of an integer field and the numbers that it holds. Each byte string of its size stands
for a number of its own and is what is written for that number, and the numbers are all
`n / 10 ^ scale` with `n` in the range. A number is written exactly if the number, rounded to the
scale of the field, a half away from zero, is one of them, and this one is what is read then. -/
theorem decode_encode_exact (t : BinaryInteger) (coding : Coding) (hsize : t.size ∈ [1, 2, 4, 8])
    (hscale : t.scale ≤ 18) :
    (∀ bytes, bytes.length = t.size →
      t.dataType.decodeBytes coding bytes = .ok (.decimal (t.number bytes)) ∧
        t.dataType.encodeBytes coding (.decimal (t.number bytes)) = .ok bytes) ∧
    Set.BijOn t.number {bytes | bytes.length = t.size}
      {d | ∃ n ∈ range t.size, Decimal.ofInt? n t.scale = some d} ∧
    ∀ v : Decimal, ∃ n : ℤ, roundAway v.toRat t.scale = n / 10 ^ t.scale ∧
      (n ∈ range t.size → ∃ bytes w, t.dataType.encodeBytes coding (.decimal v) = .ok bytes ∧
        bytes.length = t.size ∧ t.dataType.decodeBytes coding bytes = .ok (.decimal w) ∧
        Decimal.ofInt? n t.scale = some w ∧ w.toRat = roundAway v.toRat t.scale) ∧
      (n ∉ range t.size → t.dataType.encodeBytes coding (.decimal v) =
        .error (.overflow (v.rescale t.scale).toText t.size)) := by
  obtain ⟨hpos, hsize⟩ := size_le hsize
  replace hscale : t.scale ≤ 28 := Nat.le_trans hscale (by decide)
  refine ⟨fun bytes hlength => ?_, number_bijOn hpos hsize hscale, fun v => ?_⟩
  · exact ⟨decode_eq coding hsize hscale hlength, encode_number coding hsize hscale hlength⟩
  · have hlength := length_twosComplement t.size (v.roundedInt t.scale)
    have hwrite := encode_eq coding hsize hscale v
    refine ⟨v.roundedInt t.scale, v.roundAway_eq t.scale, fun hn => ?_, fun hn => ?_⟩
    · rw [mem_range_iff hpos] at hn
      have hnumber := ofInt?_signed hsize hscale hlength
      rw [signed_twosComplement hn] at hnumber
      obtain ⟨hmantissa, hscaled⟩ := Decimal.ofInt?_eq_some hnumber
      refine ⟨_, _, hwrite.trans (if_pos hn), hlength, decode_eq coding hsize hscale hlength,
        hnumber, ?_⟩
      rw [Decimal.toRat, hmantissa, hscaled, v.roundAway_eq]
    · rw [mem_range_iff hpos] at hn
      exact hwrite.trans (if_neg hn)

/-- The least number of two bytes, and one beyond the greatest, both after rounding. -/
theorem decode_encode_exact_ends :
    let t : BinaryInteger := ⟨2, 1⟩
    let coding : Coding := ⟨.ascii, {}⟩
    let least : Decimal := { negative := true, coefficient := 327684, scale := 2 }
    let beyond : Decimal := { negative := false, coefficient := 327675, scale := 2 }
    t.size ∈ [1, 2, 4, 8] ∧ t.scale ≤ 18 ∧
      (∃ w, t.dataType.encodeBytes coding (.decimal least) = .ok [0x80, 0x00] ∧
        t.dataType.decodeBytes coding [0x80, 0x00] = .ok (.decimal w) ∧ w.toRat = -3276.8) ∧
      ∃ e, t.dataType.encodeBytes coding (.decimal beyond) = .error e := by
  intro t coding least beyond
  obtain ⟨-, -, hexact⟩ := decode_encode_exact t coding (by decide) (by decide)
  have hnumber (v : Decimal) (n m : ℤ) (hcount : v.roundedInt 1 = m)
      (hn : roundAway v.toRat 1 = n / 10 ^ 1) : n = m := by
    rw [v.roundAway_eq, hcount, div_left_inj' (by norm_num)] at hn
    exact_mod_cast hn.symm
  obtain ⟨n, hn, hwritten, -⟩ := hexact least
  obtain ⟨m, hm, -, hrefused⟩ := hexact beyond
  obtain rfl := hnumber least n (-32768) (by decide) hn
  obtain rfl := hnumber beyond m 32768 (by decide) hm
  obtain ⟨bytes, w, hencode, -, hdecode, -, hvalue⟩ := hwritten (by simp [range, t])
  have hbytes : t.dataType.encodeBytes coding (.decimal least) = .ok [0x80, 0x00] :=
    toOption_eq_some.1 (by decide)
  obtain rfl := Except.ok.inj (hencode.symm.trans hbytes)
  refine ⟨by decide, by decide, ⟨w, hbytes, hdecode, ?_⟩, _, hrefused (by simp [range, t])⟩
  rw [hvalue, hn]
  norm_num

end BinaryInteger
end Flatfile
