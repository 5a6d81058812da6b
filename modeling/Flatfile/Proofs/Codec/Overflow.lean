import Flatfile.Proofs.Codec.DigitLimits
import Flatfile.Proofs.Codec.Legible
import Flatfile.Proofs.Codec.Slots

/-!
# Decimals that are too large to be read

Digits are put together to an integer of 128 bits first, which then has to go into the 96 bits of a
coefficient. Both steps may find the number too large, but the first one never does so for a number
that the second one takes (`countedDecimal_eq`). So legible bytes are refused exactly if their
digits spell a number of more than 96 bits, and a field that a registry accepts has too few digits
for that (`decode_overflow_exact`).
-/

namespace Flatfile

variable {family : SignFamily} {signs : Signs} {scale : Nat} {bytes digits : List UInt8}
  {e : ConvertError} {coding : Coding}

-- ------------------------------------------------------------------
-- Digits that are counted in 128 bits
-- ------------------------------------------------------------------

namespace DecimalDigits

def wide? (n : Nat) : Option Nat :=
  if n < 2 ^ 127 then some n else none

/-- The value of some digits, from the first one to the last. Ten times the number so far has to go
into 128 bits, and so does the sum with the next digit. -/
def count? (digits : List UInt8) : Option Nat :=
  digits.foldlM (fun n d => do
    let shifted ← wide? (10 * n)
    wide? (shifted + d.toNat)) 0

def countedDecimal (negative : Bool) (scale : Nat) (digits : List UInt8) :
    Except ConvertError Decimal :=
  match (count? digits).bind fun n => Decimal.ofInt? (if negative then -(n : Int) else n) scale with
  | some d => .ok d
  | none => .error (.overflow (text digits) maxField)

/-- Counting never gets back below the limit. -/
theorem count?_eq (digits : List UInt8) :
    count? digits = if value digits < 2 ^ 127 then some (value digits) else none := by
  induction digits using List.reverseRecOn with
  | nil => rfl
  | append_singleton digits d ih =>
    have hstep : count? (digits ++ [d]) = (count? digits).bind fun n =>
        (wide? (10 * n)).bind fun shifted => wide? (shifted + d.toNat) := by
      rw [count?, List.foldlM_append]
      simp [count?]
    rw [hstep, ih, value_concat]
    split
    next hfront =>
      rw [Option.bind_some, wide?]
      split
      next hshifted => rfl
      next hshifted => rw [Option.bind_none, if_neg (by omega)]
    next hfront => rw [Option.bind_none, if_neg (by omega)]

theorem ofInt?_of_sign (negative : Bool) (n scale : Nat) :
    Decimal.ofInt? (if negative then -(n : Int) else n) scale =
      Decimal.ofParts? (negative && n != 0) n scale := by
  have hsize : (if negative then -(n : Int) else n).natAbs = n := by
    cases negative <;> simp
  have hsign : decide ((if negative then -(n : Int) else n) < 0) = (negative && n != 0) := by
    cases negative with
    | false => simp
    | true =>
      rw [Bool.eq_iff_iff]
      simp [Nat.pos_iff_ne_zero]
  rw [Decimal.ofInt?, hsize, hsign]

theorem countedDecimal_eq (negative : Bool) (scale : Nat) (digits : List UInt8) :
    countedDecimal negative scale digits = toDecimal negative scale digits := by
  have hmade : ((count? digits).bind fun n =>
      Decimal.ofInt? (if negative then -(n : Int) else n) scale) =
      Decimal.ofParts? (negative && value digits != 0) (value digits) scale := by
    rw [count?_eq]
    by_cases hwide : value digits < 2 ^ 127
    · rw [if_pos hwide, Option.bind_some, ofInt?_of_sign]
    · have hlimit : ¬ (value digits < Decimal.limit ∧ scale ≤ 28) := fun h =>
        hwide (Nat.lt_trans h.1 (by decide))
      rw [if_neg hwide, Option.bind_none, Decimal.ofParts?, dif_neg hlimit]
  rw [countedDecimal, hmade]
  rfl

theorem value_exact (h : ∀ d ∈ digits, d ≤ 9) : Spells digits digits.length (value digits) :=
  ⟨rfl, h, ofDigits_reverse digits⟩

theorem toDecimal_of_le (negative : Bool) (hscale : scale ≤ 28) (h : value digits ≤ 2 ^ 96 - 1) :
    ∃ d, toDecimal negative scale digits = .ok d ∧ d.scale = scale ∧
      d.mantissa = if negative then -(value digits : Int) else value digits := by
  have hvalue : value digits < Decimal.limit := Nat.lt_succ_of_le h
  have hroom :
      (if negative then -(value digits : Int) else value digits).natAbs < Decimal.limit := by
    cases negative <;> simpa using hvalue
  obtain ⟨d, hd⟩ := Decimal.exists_ofInt? hroom hscale
  obtain ⟨hmantissa, hsame⟩ := Decimal.ofInt?_eq_some hd
  rw [ofInt?_of_sign] at hd
  exact ⟨d, by rw [toDecimal, hd], hsame, hmantissa⟩

theorem toDecimal_of_lt (negative : Bool) (scale : Nat) (h : 2 ^ 96 - 1 < value digits) :
    toDecimal negative scale digits = .error (.overflow (text digits) 28) := by
  have hfull : Decimal.limit ≤ value digits := h
  rw [toDecimal, Decimal.ofParts?, dif_neg fun hfits => Nat.not_lt.2 hfull hfits.1]
  rfl

end DecimalDigits

-- ------------------------------------------------------------------
-- Bytes
-- ------------------------------------------------------------------

open DecimalDigits (Spells)

/-- What comes of reading digits with a sign. They spell a number, and that is read if it goes into
96 bits. -/
structure ReadsDigits (minus : Bool) (scale width : Nat) (digits : List UInt8)
    (read : Except ConvertError Decimal) : Prop where
  counted : read = DecimalDigits.countedDecimal minus scale digits
  exact : ∃ n, Spells digits width n ∧
    (n ≤ 2 ^ 96 - 1 → ∃ d, read = .ok d ∧ d.scale = scale ∧
      d.mantissa = if minus then -(n : Int) else n) ∧
    (2 ^ 96 - 1 < n → read = .error (.overflow (DecimalDigits.text digits) 28))

theorem readsDigits_toDecimal (minus : Bool) (hscale : scale ≤ 28) (hdigits : ∀ d ∈ digits, d ≤ 9) :
    ReadsDigits minus scale digits.length digits (DecimalDigits.toDecimal minus scale digits) where
  counted := (DecimalDigits.countedDecimal_eq minus scale digits).symm
  exact := ⟨_, DecimalDigits.value_exact hdigits, DecimalDigits.toDecimal_of_le minus hscale,
    DecimalDigits.toDecimal_of_lt minus scale⟩

theorem ReadsDigits.exists_ok {minus : Bool} {width : Nat} {read : Except ConvertError Decimal}
    (h : ReadsDigits minus scale width digits read) (hfew : width ≤ 28) : ∃ d, read = .ok d := by
  obtain ⟨n, hspells, hread, -⟩ := h.exact
  have hn : n < 10 ^ width := by
    have hvalue := DecimalDigits.value_lt hspells.le_nine
    rwa [hspells.length, ← DecimalDigits.ofDigits_reverse, hspells.value] at hvalue
  have hroom : 10 ^ width ≤ 2 ^ 96 - 1 :=
    Nat.le_trans (Nat.pow_le_pow_right (by decide) hfew) (by decide)
  obtain ⟨d, hd, -⟩ := hread (Nat.le_trans (Nat.le_of_lt hn) hroom)
  exact ⟨d, hd⟩

theorem ReadsDigits.error_of_few {minus : Bool} {width : Nat} {read : Except ConvertError Decimal}
    (h : ReadsDigits minus scale width digits read ∨
      ∃ e : ConvertError, e.isOverflow = false ∧ read = .error e)
    (hfew : width ≤ 28) (hfail : read = .error e) : e.isOverflow = false := by
  rcases h with hreads | ⟨e', hother, he⟩
  · obtain ⟨d, hd⟩ := hreads.exists_ok hfew
    cases hd.symm.trans hfail
  · cases he.symm.trans hfail
    exact hother

theorem Zoned.Legible.readsDigits (h : Legible family signs bytes) (hscale : scale ≤ 28) :
    ReadsDigits (hasMinus signs bytes) scale bytes.length (digitsOf bytes)
      (decode family signs scale bytes) := by
  rw [h.decode_eq, ← digitsOf_length]
  exact readsDigits_toDecimal _ hscale h.digits

theorem Packed.Legible.readsDigits (h : Legible signs bytes) (hscale : scale ≤ 28) :
    ReadsDigits (hasMinus signs bytes) scale (2 * bytes.length - 1) (digitsOf bytes)
      (decode signs scale bytes) := by
  rw [h.decode_eq, ← digitsOf_length]
  exact readsDigits_toDecimal _ hscale h.digits

-- ------------------------------------------------------------------
-- Fields
-- ------------------------------------------------------------------

theorem SignedCodec.read_error {c : SignedCodec}
    (hdecode : bytes.length = c.size → c.decode bytes = .error e → e.isOverflow = false)
    (h : c.read coding bytes = .error e) : e.isOverflow = false := by
  rcases bind_eq_error.1 h with hwidth | ⟨_, hwidth, h⟩
  · unfold checkWidth at hwidth
    split at hwidth
    · cases hwidth
    · obtain rfl := Except.error.inj hwidth
      rfl
  split at h
  next => cases h
  next =>
    rcases bind_eq_error.1 h with hfail | ⟨d, -, h⟩
    · exact hdecode (checkWidth_eq_ok.1 hwidth) hfail
    · cases h

theorem Zoned.decodeField_error {t : Zoned} {args : Args} {env : FieldEnv}
    (hmade : ofArgs args env = .ok t) (h : t.decodeField coding bytes = .error e) :
    e.isOverflow = false := by
  obtain ⟨-, hscale, -⟩ := ofArgs_ok hmade
  refine SignedCodec.read_error (c := t.codec coding.numeric) (fun hlength => ?_) h
  have hreads := (legible_or_fails t.family (t.resolved coding.numeric) t.scale bytes).imp_left
    fun hlegible => hlegible.readsDigits (Nat.le_trans hscale (by decide))
  exact ReadsDigits.error_of_few hreads (hlength.trans_le (size_le hmade))

theorem Packed.decodeField_error {t : Packed} {args : Args} {env : FieldEnv}
    (hmade : ofArgs args env = .ok t) (h : t.decodeField coding bytes = .error e)
    (hle : bytes.length ≤ 2 ^ 63) : e.isOverflow = false := by
  obtain ⟨hsize, hscale, -⟩ := ofArgs_ok hmade
  refine SignedCodec.read_error (c := t.codec coding.numeric)
    (fun (hlength : bytes.length = t.size) => ?_) h
  have hreads := (legible_or_fails (t.resolved coding.numeric) t.scale bytes).imp_left
    fun hlegible => hlegible.readsDigits (Nat.le_trans hscale (by decide))
  refine ReadsDigits.error_of_few hreads ?_
  rw [hlength] at hle ⊢
  exact (capacity_of_le hsize hle).symm.trans_le (capacity_le hmade)

/-- Up to a scale of 28, legible bytes of any length are read if their digits spell a number of at
most 96 bits, and refused as too large if not. All other bytes are refused for something else. A
field of zoned or packed decimals that a registry accepts never finds a number too large in a byte
string, as none is longer than `2 ^ 63` bytes. -/
theorem decode_overflow_exact (family : SignFamily) (signs : Signs) (scale : Nat)
    (hscale : scale ≤ 28) :
    (∀ bytes,
      (Zoned.Legible family signs bytes →
        ReadsDigits (Zoned.hasMinus signs bytes) scale bytes.length (Zoned.digitsOf bytes)
          (Zoned.decode family signs scale bytes)) ∧
      (¬ Zoned.Legible family signs bytes →
        ∃ e : ConvertError, e.isOverflow = false ∧
          Zoned.decode family signs scale bytes = .error e)) ∧
    (∀ bytes,
      (Packed.Legible signs bytes →
        ReadsDigits (Packed.hasMinus signs bytes) scale (2 * bytes.length - 1)
          (Packed.digitsOf bytes) (Packed.decode signs scale bytes)) ∧
      (¬ Packed.Legible signs bytes →
        ∃ e : ConvertError, e.isOverflow = false ∧ Packed.decode signs scale bytes = .error e)) ∧
    ∀ name items env t, Registry.fixed.dataType? name items env = some (.ok t) →
      t.name = "SZ" ∨ t.name = "SP" →
      ∀ coding bytes, bytes.length ≤ 2 ^ 63 → ∀ value capacity,
        t.decodeBytes coding bytes ≠ .error (.overflow value capacity) := by
  refine ⟨fun bytes => ⟨fun h => h.readsDigits hscale, ?_⟩,
    fun bytes => ⟨fun h => h.readsDigits hscale, ?_⟩, ?_⟩
  · exact (Zoned.legible_or_fails family signs scale bytes).resolve_left
  · exact (Packed.legible_or_fails signs scale bytes).resolve_left
  · intro name items env t h hname coding bytes hle value capacity hfail
    obtain ⟨hzoned, hpacked⟩ := Registry.fixed_decimals h
    rcases hname with hname | hname
    · obtain ⟨f, hmade, rfl⟩ := hzoned hname
      cases Zoned.decodeField_error hmade hfail
    · obtain ⟨f, hmade, rfl⟩ := hpacked hname
      cases Packed.decodeField_error hmade hfail hle

def zonedOf (width n : Nat) : List UInt8 :=
  (DecimalDigits.expand width n).map (0xF0 ||| ·)

/-- The last number that goes into 96 bits, the one after it, and a number of 40 nines, for which
128 bits are too few; and 28 nines in a field. -/
theorem decode_overflow_exact_ends :
    let signs : Signs := ⟨0xC, 0xD, 0xF⟩
    (∃ d, Zoned.decode .ebcdic signs 28 (zonedOf 29 (2 ^ 96 - 1)) = .ok d ∧
      d.mantissa = 2 ^ 96 - 1) ∧
    Zoned.decode .ebcdic signs 28 (zonedOf 29 (2 ^ 96)) =
      .error (.overflow "79228162514264337593543950336" 28) ∧
    (∃ text, Packed.decode signs 28 (0x09 :: List.replicate 19 0x99 ++ [0x9D]) =
      .error (.overflow text 28)) ∧
    ∃ t, Registry.fixed.dataType? "SZ" [.number (wholeNumber 28)] ⟨"amount", .ebcdic037⟩ =
        some (.ok t) ∧
      ∀ value capacity, t.decodeBytes ⟨.ebcdic037, {}⟩ (zonedOf 28 (10 ^ 28 - 1)) ≠
        .error (.overflow value capacity) := by
  intro signs
  obtain ⟨hzoned, hpacked, hfields⟩ := decode_overflow_exact .ebcdic signs 28 (by decide)
  have hlargest : Zoned.Legible .ebcdic signs (zonedOf 29 (2 ^ 96 - 1)) :=
    ⟨by decide +kernel, by decide +kernel, 0xF5, by decide +kernel, by decide⟩
  have hnext : Zoned.Legible .ebcdic signs (zonedOf 29 (2 ^ 96)) :=
    ⟨by decide +kernel, by decide +kernel, 0xF6, by decide +kernel, by decide⟩
  have hnines : Packed.Legible signs (0x09 :: List.replicate 19 0x99 ++ [0x9D]) :=
    ⟨by decide +kernel, 0x9D, by decide +kernel, by decide⟩
  obtain ⟨n, hn, hread, -⟩ := ((hzoned _).1 hlargest).exact
  obtain ⟨m, hm, -, hover⟩ := ((hzoned _).1 hnext).exact
  obtain ⟨k, hk, -, hover'⟩ := ((hpacked _).1 hnines).exact
  obtain rfl : n = 2 ^ 96 - 1 := hn.value.symm.trans (by decide)
  obtain rfl : m = 2 ^ 96 := hm.value.symm.trans (by decide)
  obtain rfl : k = 10 ^ 40 - 1 := hk.value.symm.trans (by decide)
  obtain ⟨d, hd, -, hmantissa⟩ := hread (by decide)
  let env : FieldEnv := ⟨"amount", .ebcdic037⟩
  let f : Zoned := ⟨28, 0, .ofCharset env.charset, {}⟩
  have hfound : Registry.fixed.dataType? "SZ" [.number (wholeNumber 28)] env =
      some (.ok f.dataType) := rfl
  exact ⟨⟨d, hd, hmantissa.trans (by decide)⟩, hover (by decide), ⟨_, hover' (by decide)⟩,
    f.dataType, hfound, hfields _ _ _ _ hfound (.inl rfl) _ _ (by decide +kernel)⟩

end Flatfile
