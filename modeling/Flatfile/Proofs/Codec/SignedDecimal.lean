import Flatfile.Codec.Packed
import Flatfile.Codec.Zoned
import Flatfile.Proofs.Codec.Digits

/-!
# Decimals with a sign in a half-byte

A number that was written as a zoned or packed decimal is read back rounded to the scale of the
field, if plus and minus are written differently (`decode_encode_rounded`). If they are not, every
number comes back with a minus sign.
-/

namespace Flatfile

open Decimal (roundAway_toRat)

variable {family : SignFamily} {signs : Signs} {scale size : Nat} {v w : Decimal}
  {bytes digits : List UInt8} {d : UInt8}

-- ------------------------------------------------------------------
-- Signs
-- ------------------------------------------------------------------

structure Signs.Fit (signs : Signs) : Prop where
  positive : signs.positive ≤ 0xF
  negative : signs.negative ≤ 0xF

theorem Signs.Fit.nibble (h : signs.Fit) (negative : Bool) : signs.nibble negative ≤ 0xF := by
  cases negative with
  | false => exact h.positive
  | true => exact h.negative

/-- Minus is tried first, so that it is what is read where plus is written in the same way. -/
theorem Signs.isNegative_nibble (signs : Signs) (place : SignPlace) (negative : Bool) :
    signs.isNegative place (signs.nibble negative) =
      .ok (negative || signs.positive == signs.negative) := by
  cases negative with
  | true => simp [isNegative, nibble]
  | false =>
    by_cases hsame : signs.positive = signs.negative
    · simp [isNegative, nibble, hsame]
    · simp [isNegative, nibble, hsame]

/-- The number `w` is read where `v` was written. -/
structure ReadsBack (signs : Signs) (scale : Nat) (v w : Decimal) : Prop where
  value : w.toRat = (if v.negative = true ∨ signs.positive = signs.negative
    then -(v.roundedUnits scale : ℚ) else v.roundedUnits scale) / 10 ^ scale
  unsigned : w.toRat = 0 → w.negative = false

theorem ReadsBack.rounded (h : ReadsBack signs scale v w) (hsigns : signs.positive ≠ signs.negative) :
    w.toRat = roundAway v.toRat scale := by
  rw [h.value, roundAway_toRat]
  simp only [hsigns, or_false]

theorem readsBack_toDecimal {capacity : Nat} (signs : Signs) (hfew : v.roundedUnits scale < 10 ^ 18)
    (hroom : v.roundedUnits scale < 10 ^ capacity) (hscale : scale ≤ 18) :
    ∃ w, DecimalDigits.toDecimal
        ((v.negative && v.roundedUnits scale != 0) || signs.positive == signs.negative) scale
        (DecimalDigits.expand capacity (v.roundedUnits scale)) = .ok w ∧
      ReadsBack signs scale v w := by
  obtain ⟨w, hread, hvalue, hzero⟩ := DecimalDigits.toDecimal_expand hfew hroom hscale _
  refine ⟨w, hread, ?_, hzero⟩
  rw [hvalue]
  by_cases hnone : v.roundedUnits scale = 0
  · simp [hnone]
  · simp [hnone]

-- ------------------------------------------------------------------
-- Zoned decimals
-- ------------------------------------------------------------------

namespace Zoned

theorem assemble_concat (zone sign : UInt8) (digits : List UInt8) (last : UInt8) :
    assemble zone sign (digits ++ [last]) =
      digits.map ((zone <<< 4) ||| ·) ++ [(sign <<< 4) ||| (last &&& 0x0F)] := by
  induction digits with
  | nil => rfl
  | cons d digits ih =>
    rw [List.map_cons, List.cons_append, List.cons_append, ← ih]
    cases digits <;> rfl

theorem zone_le (family : SignFamily) : family.zone ≤ 0xF := by
  cases family <;> decide

theorem acceptsZone_zone (family : SignFamily) : family.acceptsZone family.zone = true := by
  cases family <;> decide

theorem mapM_bodyDigit (h : ∀ d ∈ digits, d ≤ 9) :
    (digits.map ((family.zone <<< 4) ||| ·)).mapM (bodyDigit family) = .ok digits := by
  rw [mapM_eq_ok, List.forall₂_map_left_iff, List.forall₂_same]
  intro d hd
  have hdigit : d ≤ 0xF := UInt8.le_trans (h d hd) (by decide)
  obtain ⟨hzone, hlow⟩ := halves_of_byte (zone_le family) hdigit
  rw [bodyDigit, hzone, if_pos (acceptsZone_zone family), hlow]
  exact DecimalDigits.checkDigit_ok (h d hd)

theorem decode_assemble {negative : Bool} {last : UInt8} (hsigns : signs.Fit)
    (hdigits : ∀ d ∈ digits ++ [last], d ≤ 9) :
    decode family signs scale (assemble family.zone (signs.nibble negative) (digits ++ [last])) =
      DecimalDigits.toDecimal (negative || signs.positive == signs.negative) scale
        (digits ++ [last]) := by
  obtain ⟨hbody, hlast⟩ := List.forall_mem_append.1 hdigits
  have hlast : last ≤ 9 := hlast last (List.mem_singleton_self last)
  have hlow : last ≤ 0xF := UInt8.le_trans hlast (by decide)
  obtain ⟨hsign, hdigit⟩ := halves_of_byte (hsigns.nibble negative) hlow
  rw [assemble_concat, and_low hlow, decode, List.getLast?_concat]
  simp only [List.dropLast_concat, mapM_bodyDigit hbody, hdigit, DecimalDigits.checkDigit_ok hlast,
    hsign, signs.isNegative_nibble, bind, Except.bind]

theorem decode_encode (hscale : scale ≤ 18) (hsize : 1 ≤ size) (hsigns : signs.Fit)
    (h : encode family signs scale size v = .ok bytes) :
    bytes.length = size ∧
      ∃ w, decode family signs scale bytes = .ok w ∧ ReadsBack signs scale v w := by
  obtain ⟨⟨negative, digits⟩, hdigits, h⟩ := bind_eq_ok.1 h
  obtain rfl := Except.ok.inj h
  obtain ⟨hfew, hroom, rfl, rfl⟩ := DecimalDigits.ofDecimal_ok hdigits
  have hnine : ∀ d ∈ DecimalDigits.expand size (v.roundedUnits scale), d ≤ 9 :=
    fun d => DecimalDigits.le_nine_of_mem_expand
  have hlength := DecimalDigits.expand_length size (v.roundedUnits scale)
  obtain ⟨w, hread, hback⟩ := readsBack_toDecimal signs hfew hroom hscale
  obtain ⟨width, rfl⟩ := Nat.exists_eq_add_of_le' hsize
  rw [DecimalDigits.expand] at hnine hread hlength ⊢
  refine ⟨?_, w, (decode_assemble hsigns hnine).trans hread, hback⟩
  rw [assemble_concat]
  simpa using hlength

end Zoned

-- ------------------------------------------------------------------
-- Packed decimals
-- ------------------------------------------------------------------

namespace Packed

theorem halves_pair {nibbles : List UInt8} (hlength : nibbles.length = 2 * size)
    (hnibbles : ∀ x ∈ nibbles, x ≤ 0xF) (hdigits : ∀ d ∈ nibbles.dropLast, d ≤ 9) :
    halves (pair nibbles) = .ok nibbles ∧ (pair nibbles).length = size := by
  induction size generalizing nibbles with
  | zero =>
    obtain rfl := List.length_eq_zero_iff.1 hlength
    exact ⟨rfl, rfl⟩
  | succ size ih =>
    match nibbles, hlength with
    | high :: low :: rest, hlength =>
      obtain ⟨hhigh, hnibbles⟩ := List.forall_mem_cons.1 hnibbles
      obtain ⟨hlow, hrest⟩ := List.forall_mem_cons.1 hnibbles
      rw [List.dropLast_cons_of_ne_nil (List.cons_ne_nil low rest)] at hdigits
      obtain ⟨hdigit, hdigits⟩ := List.forall_mem_cons.1 hdigits
      have hmore : ∀ d ∈ rest.dropLast, d ≤ 9 := by
        intro d hd
        refine hdigits d ?_
        cases rest with
        | nil => simp at hd
        | cons x rest =>
          rw [List.dropLast_cons_of_ne_nil (List.cons_ne_nil x rest)]
          exact List.mem_cons_of_mem _ hd
      obtain ⟨hread, hcount⟩ := ih (by simpa [Nat.mul_succ] using hlength) hrest hmore
      obtain ⟨hupper, hlower⟩ := halves_of_byte hhigh hlow
      constructor
      · rw [pair, halves, hupper, hlower, DecimalDigits.checkDigit_ok hdigit, hread]
        rfl
      · rw [pair, List.length_cons, hcount]

/-- The digits of a field and its sign fill some bytes, but not as many as the field has where twice
its size wraps around. -/
theorem exists_capacity_eq (size : Nat) : ∃ n, 1 ≤ n ∧ capacity size = 2 * n - 1 := by
  refine ⟨(capacity size + 1) / 2, ?_⟩
  rw [capacity, Word64.sub, Word64.wrap, Word64.wrap]
  omega

theorem capacity_of_le (hsize : 1 ≤ size) (hle : size ≤ 2 ^ 63) : capacity size = 2 * size - 1 := by
  rw [capacity, Word64.sub, Word64.wrap, Word64.wrap]
  omega

theorem nibbles_fit (negative : Bool) (hsize : 1 ≤ size) (hsigns : signs.Fit)
    (hlength : digits.length = 2 * size - 1) (hdigits : ∀ d ∈ digits, d ≤ 9) :
    (digits ++ [signs.nibble negative]).length = 2 * size ∧
      ∀ x ∈ digits ++ [signs.nibble negative], x ≤ 0xF := by
  constructor
  · rw [List.length_append, hlength, List.length_singleton]
    omega
  · rw [List.forall_mem_append]
    refine ⟨fun d hd => UInt8.le_trans (hdigits d hd) (by decide), ?_⟩
    simpa using hsigns.nibble negative

theorem decode_pair {negative : Bool} (scale : Nat) (hsize : 1 ≤ size) (hsigns : signs.Fit)
    (hlength : digits.length = 2 * size - 1) (hdigits : ∀ d ∈ digits, d ≤ 9) :
    (pair (digits ++ [signs.nibble negative])).length = size ∧
      decode signs scale (pair (digits ++ [signs.nibble negative])) =
        DecimalDigits.toDecimal (negative || signs.positive == signs.negative) scale digits := by
  obtain ⟨hcount, hnibbles⟩ := nibbles_fit negative hsize hsigns hlength hdigits
  obtain ⟨hread, hbytes⟩ :=
    halves_pair hcount hnibbles (by rwa [List.dropLast_concat])
  have hsome : (pair (digits ++ [signs.nibble negative])).isEmpty = false := by
    rw [List.isEmpty_eq_false_iff, ← List.length_pos_iff, hbytes]
    exact hsize
  refine ⟨hbytes, ?_⟩
  rw [decode, hsome]
  simp only [Bool.false_eq_true, if_false, hread, List.dropLast_concat,
    DecimalDigits.mapM_checkDigit hdigits, List.getLast?_concat, Option.getD_some,
    signs.isNegative_nibble, bind, Except.bind]

theorem decode_encode (hscale : scale ≤ 18) (hsigns : signs.Fit)
    (h : encode signs scale size v = .ok bytes) :
    1 ≤ bytes.length ∧ capacity size = 2 * bytes.length - 1 ∧
      ∃ w, decode signs scale bytes = .ok w ∧ ReadsBack signs scale v w := by
  obtain ⟨⟨negative, digits⟩, hdigits, h⟩ := bind_eq_ok.1 h
  obtain rfl := Except.ok.inj h
  obtain ⟨hfew, hroom, rfl, hexpand⟩ := DecimalDigits.ofDecimal_ok hdigits
  obtain rfl := hexpand.symm
  obtain ⟨n, hn, hcapacity⟩ := exists_capacity_eq size
  have hlength := DecimalDigits.expand_length (capacity size) (v.roundedUnits scale)
  obtain ⟨hbytes, hdecode⟩ := decode_pair scale hn hsigns (hlength.trans hcapacity)
    fun d hd => DecimalDigits.le_nine_of_mem_expand hd
  obtain ⟨w, hread, hback⟩ := readsBack_toDecimal signs hfew hroom hscale
  exact ⟨hn.trans_eq hbytes.symm, by rw [hbytes, hcapacity], w, hdecode.trans hread, hback⟩

theorem length_encode (hscale : scale ≤ 18) (hsize : 1 ≤ size) (hle : size ≤ 2 ^ 63)
    (hsigns : signs.Fit) (h : encode signs scale size v = .ok bytes) : bytes.length = size := by
  obtain ⟨hbytes, hcapacity, -⟩ := decode_encode hscale hsigns h
  rw [capacity_of_le hsize hle] at hcapacity
  omega

end Packed

-- ------------------------------------------------------------------
-- Numbers that are written and read
-- ------------------------------------------------------------------

/-- With two half-bytes for plus and minus, a zoned or packed decimal that is written fills its
field and is read back as the number rounded to the scale of the field, a half away from zero. Zero
has no sign then. No byte string is so long that the digits of a packed field of its size would be
miscounted. -/
theorem decode_encode_rounded (family : SignFamily) (signs : Signs) (scale size : Nat) (v : Decimal)
    (hscale : scale ≤ 18) (hsize : 1 ≤ size) (hpositive : signs.positive ≤ 0xF)
    (hnegative : signs.negative ≤ 0xF) (hsigns : signs.positive ≠ signs.negative) :
    (∀ bytes, Zoned.encode family signs scale size v = .ok bytes →
      bytes.length = size ∧ ∃ w, Zoned.decode family signs scale bytes = .ok w ∧
        w.toRat = roundAway v.toRat scale ∧ (w.toRat = 0 → w.negative = false)) ∧
      ∀ bytes, Packed.encode signs scale size v = .ok bytes →
        (size ≤ 2 ^ 63 → bytes.length = size) ∧ ∃ w, Packed.decode signs scale bytes = .ok w ∧
          w.toRat = roundAway v.toRat scale ∧ (w.toRat = 0 → w.negative = false) := by
  have hfit : signs.Fit := ⟨hpositive, hnegative⟩
  constructor
  · intro bytes h
    obtain ⟨hlength, w, hread, hback⟩ := Zoned.decode_encode hscale hsize hfit h
    exact ⟨hlength, w, hread, hback.rounded hsigns, hback.unsigned⟩
  · intro bytes h
    obtain ⟨-, -, w, hread, hback⟩ := Packed.decode_encode hscale hfit h
    exact ⟨fun hle => Packed.length_encode hscale hsize hle hfit h, w, hread, hback.rounded hsigns,
      hback.unsigned⟩

def halfway : Decimal :=
  { negative := true, coefficient := 12345, scale := 3 }

theorem decode_encode_rounded_halfway :
    let signs : Signs := ⟨0xC, 0xD, 0xF⟩
    Zoned.encode .ebcdic signs 2 4 halfway = .ok [0xF1, 0xF2, 0xF3, 0xD5] ∧
      (∃ w, Zoned.decode .ebcdic signs 2 [0xF1, 0xF2, 0xF3, 0xD5] = .ok w ∧
        w.toRat = -1235 / 100) ∧
      Packed.encode signs 2 3 halfway = .ok [0x01, 0x23, 0x5D] ∧
      ∃ w, Packed.decode signs 2 [0x01, 0x23, 0x5D] = .ok w ∧ w.toRat = -1235 / 100 := by
  intro signs
  have hrounded : roundAway halfway.toRat 2 = -1235 / 100 := by
    have hunits : halfway.roundedUnits 2 = 1235 := by decide
    rw [roundAway_toRat, hunits]
    norm_num [halfway]
  have hzoned : Zoned.encode .ebcdic signs 2 4 halfway = .ok [0xF1, 0xF2, 0xF3, 0xD5] :=
    toOption_eq_some.1 (by decide)
  have hpacked : Packed.encode signs 2 3 halfway = .ok [0x01, 0x23, 0x5D] :=
    toOption_eq_some.1 (by decide)
  obtain ⟨hz, -⟩ := decode_encode_rounded .ebcdic signs 2 4 halfway (by decide) (by decide)
    (by decide) (by decide) (by decide)
  obtain ⟨-, hp⟩ := decode_encode_rounded .ebcdic signs 2 3 halfway (by decide) (by decide)
    (by decide) (by decide) (by decide)
  obtain ⟨-, z, hreadZ, hvalueZ, -⟩ := hz _ hzoned
  obtain ⟨-, p, hreadP, hvalueP, -⟩ := hp _ hpacked
  exact ⟨hzoned, ⟨z, hreadZ, hvalueZ.trans hrounded⟩, hpacked, p, hreadP, hvalueP.trans hrounded⟩

end Flatfile
