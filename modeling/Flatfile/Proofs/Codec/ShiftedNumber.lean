import Flatfile.Proofs.Codec.Slots
import Flatfile.Proofs.Decimal.Rescaled

/-!
# Numbers written as text and read again

A number that is written as text fills its field, and is read rounded to the scale of the field as
long as a coefficient of 96 bits has room for it in units of the last digit. A larger number is
written without the zeros at its end that there is no room for. The text does not say so, and the
number that is read is too small by as many powers of ten (`decode_encode_shifted`).
-/

namespace Flatfile

theorem Charset.length_encode {charset : Charset} {text : String}
    (hascii : ∀ c ∈ text.toList, c.toNat < 0x80) :
    (charset.encode text).length = text.toList.length := by
  rw [encode, encodeChars_ascii charset hascii, List.length_map]

theorem Decimal.cast_limit : ((Decimal.limit : ℕ) : ℤ) = 2 ^ 96 := by decide

namespace FixedNumber

variable {args : Args} {env : FieldEnv} {t : FixedNumber} {coding : Coding} {v : Decimal}
  {bytes : List UInt8}

theorem decode_encode (hscale : t.scale ≤ 28)
    (h : t.dataType.encodeBytes coding (.decimal v) = .ok bytes) :
    bytes.length = t.size ∧
      ∃ w, t.dataType.decodeBytes coding bytes = .ok (.decimal w) ∧
        w.coefficient = (v.rescale t.scale).coefficient ∧ w.scale = t.scale ∧
        ((v.rescale t.scale).coefficient ≠ 0 → w.negative = (v.rescale t.scale).negative) := by
  obtain ⟨text, htext, rfl⟩ := map_eq_ok.1 h
  obtain ⟨d, hd, hwritten, hlength⟩ := written_of_encodeText rfl htext
  obtain rfl : v = d := Except.ok.inj hd
  have hascii := ascii_of_written hwritten
  refine ⟨(Charset.length_encode hascii).trans hlength, ?_⟩
  rw [t.decodeBytes_encode coding hascii]
  exact decodeText_written hscale hwritten

/-- A number that is written fills its field, and a number is read there. It is the one that was
written, rounded to the scale of the field, if the units of its last digit are fewer than `2 ^ 96`.
Otherwise it is too small by the least power of ten that leaves fewer of them. -/
theorem decode_encode_shifted (h : ofArgs args env = .ok t)
    (hwritten : t.dataType.encodeBytes coding (.decimal v) = .ok bytes) :
    bytes.length = t.size ∧
      ∃ w missing, t.dataType.decodeBytes coding bytes = .ok (.decimal w) ∧
        w.toRat = roundAway v.toRat t.scale / 10 ^ missing ∧
        (∀ j, round (|v.toRat| * 10 ^ t.scale) < 2 ^ 96 * 10 ^ j ↔ missing ≤ j) ∧
        (w.toRat = roundAway v.toRat t.scale ↔ round (|v.toRat| * 10 ^ t.scale) < 2 ^ 96) := by
  have hscale : t.scale ≤ 28 := Nat.le_trans (BuiltIn.fixedNumber_ofArgs h).2 (by decide)
  obtain ⟨hlength, w, hread, hcoefficient, hplaces, hsign⟩ := decode_encode hscale hwritten
  obtain ⟨missing, hrescaled⟩ := Decimal.exists_rescaled v hscale
  have hvalue := hrescaled.toRat_eq hcoefficient hplaces hsign
  refine ⟨hlength, w, missing, hread, hvalue, fun j => ?_, ?_⟩
  · rw [← hrescaled.least j, round_abs_toRat, ← Decimal.cast_limit]
    norm_cast
  · rw [hvalue, hrescaled.eq_roundAway_iff, round_abs_toRat, ← Decimal.cast_limit]
    norm_cast

def billions : Decimal :=
  { Decimal.zero with negative := true, coefficient := 79228162515, coefficient_lt := by decide }

theorem decode_encode_shifted_billions :
    let items : List Literal := [.number (wholeNumber 29), .number (wholeNumber 18)]
    let coding : Coding := ⟨.ebcdic500, { fixedSign := true }⟩
    let bytes := coding.charset.encode "-7922816251500000000000000000"
    ∃ t, ofArgs ⟨"N", items⟩ ⟨"amount", .ebcdic500⟩ = .ok t ∧
      t.dataType.encodeBytes coding (.decimal billions) = .ok bytes ∧
      ∃ w, t.dataType.decodeBytes coding bytes = .ok (.decimal w) ∧
        billions.toRat = -79228162515 ∧ w.toRat = -7922816251.5 := by
  intro items coding bytes
  have hmade : ofArgs ⟨"N", items⟩ ⟨"amount", .ebcdic500⟩ = .ok ⟨29, 18⟩ := rfl
  have hwritten : (⟨29, 18⟩ : FixedNumber).dataType.encodeBytes coding (.decimal billions) =
      .ok bytes :=
    toOption_eq_some.1 (by decide +kernel)
  obtain ⟨-, w, missing, hread, hvalue, hleast, -⟩ := decode_encode_shifted hmade hwritten
  have hnumber : billions.toRat = -79228162515 := by
    norm_num [billions, Decimal.zero, Decimal.toRat_eq]
  have hunits : billions.roundedUnits 18 = 79228162515 * 10 ^ 18 := by decide
  have hmissing : missing = 1 := by
    have hnone := hleast 0
    have hone := hleast 1
    rw [round_abs_toRat, hunits] at hnone hone
    norm_num at hnone hone
    omega
  refine ⟨_, hmade, hwritten, w, hread, hnumber, ?_⟩
  rw [hvalue, Decimal.roundAway_toRat, hunits, hmissing]
  norm_num [billions]

end FixedNumber
end Flatfile
