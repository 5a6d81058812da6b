import Flatfile.Proofs.Codec.Canonical
import Flatfile.Proofs.Codec.Slots

/-!
# Signed decimals written from their text

A number that is read from a signed decimal may be passed on as the text of its normal form, which
spells the same number. What is written for that text is the canonical form of the bytes, and so it
is read as the number again (`SignedCodec.read_write`). A field of spaces is passed on as an
empty text, and that does not spell a number (`BuiltIn.encodeBytes_empty`).
-/

namespace Flatfile

-- ------------------------------------------------------------------
-- Numbers and their texts
-- ------------------------------------------------------------------

theorem numberOf_toText (d : Decimal) :
    numberOf (.text (Value.decimal d).toText) = .ok d.normalize := by
  have hplain : ∀ c ∈ d.normalize.toText.toList, Text.isBlank c = false :=
    fun c hc => (d.normalize.isPlain_toText c hc).not_blank
  have hread : Decimal.readChars d.normalize.toText.toList = .ok d.normalize := d.ofText_normalize
  rw [Value.toText, numberOf, Value.decimal?, Text.trimChars_eq_self hplain, hread]
  rfl

variable {v w : Decimal} {scale size room : Nat} {family : SignFamily} {signs : Signs}
  {bytes : List UInt8} {minus : Bool} {digits : List UInt8} {coding : Coding} {value : Value}

/-- The digits of a number do not depend on the decimal that stands for it. -/
theorem DecimalDigits.ofDecimal_of_toRat (hsame : v.toRat = w.toRat)
    (h : ofDecimal v scale room = .ok (minus, digits)) :
    ofDecimal w scale room = .ok (minus, digits) := by
  obtain ⟨hfew, hroom, rfl, rfl⟩ := ofDecimal_ok h
  have hunits : v.roundedUnits scale = w.roundedUnits scale := by
    have hround := round_abs_toRat v scale
    rw [hsame, round_abs_toRat] at hround
    exact (Int.natCast_inj.1 hround).symm
  have hsign : (v.negative && v.roundedUnits scale != 0) =
      (w.negative && w.roundedUnits scale != 0) := by
    by_cases hzero : v.roundedUnits scale = 0
    · rw [← hunits, hzero, bne_self_eq_false, Bool.and_false, Bool.and_false]
    · have hv : v.coefficient ≠ 0 := mt Decimal.roundedUnits_of_zero hzero
      have hw : w.coefficient ≠ 0 := mt Decimal.roundedUnits_of_zero (hunits ▸ hzero)
      have hneg := Decimal.toRat_neg_iff (d := v)
      rw [hsame, Decimal.toRat_neg_iff, and_iff_left hw, and_iff_left hv] at hneg
      rw [← hunits, Bool.eq_iff_iff.2 hneg]
  rw [ofDecimal_eq (hunits ▸ hfew) (hunits ▸ hroom), hsign, hunits]

theorem Zoned.encode_of_toRat (hsame : v.toRat = w.toRat)
    (h : encode family signs scale size v = .ok bytes) :
    encode family signs scale size w = .ok bytes := by
  obtain ⟨⟨minus, digits⟩, hdigits, h⟩ := bind_eq_ok.1 h
  exact bind_eq_ok.2 ⟨_, DecimalDigits.ofDecimal_of_toRat hsame hdigits, h⟩

theorem Packed.encode_of_toRat (hsame : v.toRat = w.toRat)
    (h : encode signs scale size v = .ok bytes) : encode signs scale size w = .ok bytes := by
  obtain ⟨⟨minus, digits⟩, hdigits, h⟩ := bind_eq_ok.1 h
  exact bind_eq_ok.2 ⟨_, DecimalDigits.ofDecimal_of_toRat hsame hdigits, h⟩

-- ------------------------------------------------------------------
-- Fields
-- ------------------------------------------------------------------

namespace SignedCodec

/-- What is written for a number that was read, in its normal form, is read as that number. -/
def KeepsNumbers (c : SignedCodec) (coding : Coding) : Prop :=
  ∀ bytes d, bytes.length = c.size → c.decode bytes = .ok d →
    ∃ bytes', c.encode d.normalize = .ok bytes' ∧ bytes'.length = c.size ∧
      coding.isBlank bytes' = false ∧ c.decode bytes' = .ok d

variable {c : SignedCodec}

theorem read_ok (h : c.read coding bytes = .ok value) :
    bytes.length = c.size ∧ (value.toText = "" ↔ coding.isBlank bytes = true) ∧
      (value.toText ≠ "" → ∃ d, value = .decimal d ∧ c.decode bytes = .ok d) := by
  obtain ⟨_, hwidth, h⟩ := bind_eq_ok.1 h
  refine ⟨checkWidth_eq_ok.1 hwidth, ?_⟩
  split at h
  next hblank =>
    obtain rfl := Except.ok.inj h
    exact ⟨iff_of_true rfl hblank, fun hsome => absurd rfl hsome⟩
  next hblank =>
    obtain ⟨d, hd, h⟩ := bind_eq_ok.1 h
    obtain rfl := Except.ok.inj h
    exact ⟨iff_of_false d.normalize.toText_ne_empty hblank, fun _ => ⟨d, rfl, hd⟩⟩

theorem read_write (h : c.read coding bytes = .ok value) (hkeeps : c.KeepsNumbers coding)
    (hsome : value.toText ≠ "") :
    ∃ bytes', c.write coding (.text value.toText) = .ok bytes' ∧ bytes'.length = c.size ∧
      c.read coding bytes' = .ok value := by
  obtain ⟨hlength, -, hnumber⟩ := read_ok h
  obtain ⟨d, rfl, hd⟩ := hnumber hsome
  obtain ⟨bytes', hwritten, hlength', hblank, hread⟩ := hkeeps bytes d hlength hd
  refine ⟨bytes', bind_eq_ok.2 ⟨_, numberOf_toText d, hwritten⟩, hlength', ?_⟩
  rw [read, checkWidth_eq_ok.2 hlength', hblank, hread]
  rfl

end SignedCodec

-- ------------------------------------------------------------------
-- Zoned and packed decimals
-- ------------------------------------------------------------------

namespace Signs

def plain (family : SignFamily) : Signs :=
  resolve family {} {}

theorem plain_fit (family : SignFamily) : (plain family).Fit :=
  resolve_fit family SignChoice.fit_none SignChoice.fit_none

theorem plain_apart (family : SignFamily) : (plain family).positive ≠ (plain family).negative := by
  cases family <;> decide

theorem plain_ne_space (family : SignFamily) (coding : Coding) (negative : Bool) :
    (plain family).nibble negative ≠ coding.spaceHigh ∧ (plain family).nibble negative ≠ 0 := by
  rcases coding.spaceHigh_cases with h | h <;> rw [h] <;> cases family <;> cases negative <;> decide

end Signs

theorem DecimalDigits.significant_le (digits : List UInt8) : significant digits ≤ digits.length :=
  (List.dropWhile_sublist _).length_le

theorem Zoned.keepsNumbers {t : Zoned} (h : (BuiltIn.zoned t).Checked) (hdigits : t.size ≤ 18)
    (hsigns : t.resolved coding.numeric = .plain t.family) :
    (t.codec coding.numeric).KeepsNumbers coding := by
  obtain ⟨hsize, hscale, -⟩ := h
  intro bytes d (hlength : bytes.length = t.size)
    (hread : decode t.family (t.resolved coding.numeric) t.scale bytes = .ok d)
  rw [hsigns] at hread
  rw [codec, hsigns]
  have hfew : DecimalDigits.significant (digitsOf bytes) ≤ 18 :=
    Nat.le_trans (DecimalDigits.significant_le _) (by rwa [digitsOf_length, hlength])
  have hwritten := encode_of_toRat d.toRat_normalize.symm (encode_decode hread hfew)
  rw [hlength] at hwritten
  have hblank : ¬ coding.isBlank (canonical t.family (.plain t.family) bytes) = true := by
    rw [isBlank_encode coding hsize (Signs.plain_fit t.family) hwritten]
    exact fun h => (Signs.plain_ne_space t.family coding false).1 h.2.2
  exact ⟨_, hwritten, (decode_encode hscale hsize (Signs.plain_fit t.family) hwritten).1,
    Bool.eq_false_iff.2 hblank,
    decode_canonical (Signs.plain_fit t.family) (Signs.plain_apart t.family) hread⟩

theorem Packed.keepsNumbers {t : Packed} (h : (BuiltIn.packed t).Checked)
    (hdigits : 2 * t.size - 1 ≤ 18) (hsigns : t.resolved coding.numeric = .plain t.family) :
    (t.codec coding.numeric).KeepsNumbers coding := by
  obtain ⟨hsize, hscale, -⟩ := h
  intro bytes d (hlength : bytes.length = t.size)
    (hread : decode (t.resolved coding.numeric) t.scale bytes = .ok d)
  rw [hsigns] at hread
  rw [codec, hsigns]
  have hfew : DecimalDigits.significant (digitsOf bytes) ≤ 18 :=
    Nat.le_trans (DecimalDigits.significant_le _) (by rwa [digitsOf_length, hlength])
  have hle : t.size ≤ 2 ^ 63 := by omega
  have hwritten :=
    encode_of_toRat d.toRat_normalize.symm (encode_decode hread hfew (hlength.trans_le hle))
  rw [hlength] at hwritten
  have hfull := length_encode hscale hsize hle (Signs.plain_fit t.family) hwritten
  have hblank : ¬ coding.isBlank (canonical (.plain t.family) bytes) = true := by
    rw [isBlank_encode coding hscale (Signs.plain_fit t.family) hwritten hfull]
    exact fun h => (Signs.plain_ne_space t.family coding _).2 h.2
  exact ⟨_, hwritten, hfull,
    Bool.eq_false_iff.2 hblank,
    decode_canonical (Signs.plain_fit t.family) (Signs.plain_apart t.family) hread⟩

namespace BuiltIn

variable {b : BuiltIn}

/-- A signed decimal all of whose digits can be written, with the signs of its charset. -/
def ShortDecimal (numeric : NumericFormat) : BuiltIn → Prop
  | zoned t => t.size ≤ 18 ∧ t.resolved numeric = .plain t.family
  | packed t => 2 * t.size - 1 ≤ 18 ∧ t.resolved numeric = .plain t.family
  | _ => False

theorem ShortDecimal.signsFit (hshort : b.ShortDecimal coding.numeric) : b.SignsFit coding := by
  cases b with
  | zoned t =>
    rw [SignsFit, hshort.2]
    exact Signs.plain_fit t.family
  | packed t =>
    rw [SignsFit, hshort.2]
    exact Signs.plain_fit t.family
  | _ => trivial

theorem ShortDecimal.keepsBlank (hshort : b.ShortDecimal coding.numeric) : b.KeepsBlank coding := by
  cases b with
  | zoned | packed => trivial
  | _ => exact hshort.elim

theorem ShortDecimal.width_le {numeric : NumericFormat} (hshort : b.ShortDecimal numeric) :
    b.dataType.width ≤ 18 := by
  cases b with
  | zoned t => exact hshort.1
  | packed t =>
    have hdigits := hshort.1
    show t.size ≤ 18
    omega
  | _ => exact hshort.elim

theorem ShortDecimal.family_eq {numeric : NumericFormat} (hshort : b.ShortDecimal numeric) :
    b.family = .fixed := by
  cases b with
  | zoned | packed => rfl
  | _ => exact hshort.elim

theorem ShortDecimal.exists_codec (coding : Coding) (h : b.Checked)
    (hshort : b.ShortDecimal coding.numeric) :
    ∃ c : SignedCodec, c.size = b.dataType.width ∧ c.KeepsNumbers coding ∧
      b.dataType.decodeBytes coding = c.read coding ∧
      b.dataType.encodeBytes coding = c.write coding := by
  cases b with
  | zoned t => exact ⟨t.codec coding.numeric, rfl, t.keepsNumbers h hshort.1 hshort.2, rfl, rfl⟩
  | packed t => exact ⟨t.codec coding.numeric, rfl, t.keepsNumbers h hshort.1 hshort.2, rfl, rfl⟩
  | _ => exact hshort.elim

theorem encodeBytes_empty (hshort : b.ShortDecimal coding.numeric) :
    b.dataType.encodeBytes coding (.text "") = .error (.notANumber "") := by
  cases b with
  | zoned | packed => rfl
  | _ => exact hshort.elim

end BuiltIn
end Flatfile
