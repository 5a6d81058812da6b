import Flatfile.Proofs.Codec.Legible
import Flatfile.Proofs.Codec.SignedDecimal

/-!
# Canonical forms of signed decimals

The reader of a decimal takes more than the writer gives: a second zone, the sign of a number that
has none, a zero with a minus sign. What is written where the number of some bytes was read is
their canonical form (`encode_decode_canonical`). It has the same digits, the zone of the charset
above them, and a minus sign for a number below zero only. So two fields of one width hold the same
number exactly if they have the same canonical form.
-/

namespace Flatfile

variable {family : SignFamily} {signs : Signs} {scale n : Nat} {v w : Decimal}
  {bytes bytes' digits digits' : List UInt8} {minus minus' : Bool}

-- ------------------------------------------------------------------
-- Digits and a sign
-- ------------------------------------------------------------------

namespace DecimalDigits

def significant (digits : List UInt8) : Nat :=
  (digits.dropWhile (· == 0)).length

theorem value_lt_of_significant (h : ∀ d ∈ digits, d ≤ 9) (hfew : significant digits ≤ n) :
    value digits < 10 ^ n := by
  have hvalue : value (digits.dropWhile (· == 0)) < 10 ^ significant digits :=
    value_lt fun d hd => h d ((List.dropWhile_sublist _).subset hd)
  rw [value_dropWhile_zero] at hvalue
  exact Nat.lt_of_lt_of_le hvalue (Nat.pow_le_pow_right (by decide) hfew)

/-- The decimal is what the digits and the sign stand for. Zero has no sign. -/
structure Denote (digits : List UInt8) (minus : Bool) (scale : Nat) (v : Decimal) : Prop where
  le_nine : ∀ d ∈ digits, d ≤ 9
  coefficient : v.coefficient = value digits
  scale : v.scale = scale
  negative : v.negative = (minus && digits.any (· != 0))

theorem denote_of_toDecimal (hdigits : ∀ d ∈ digits, d ≤ 9)
    (h : toDecimal minus scale digits = .ok v) : Denote digits minus scale v := by
  unfold toDecimal Decimal.ofParts? at h
  split at h
  next made hmade =>
    split at hmade
    next =>
      obtain rfl := Option.some.inj hmade
      obtain rfl := Except.ok.inj h
      exact ⟨hdigits, rfl, rfl, by rw [any_ne_zero]⟩
    next => cases hmade
  next => cases h

namespace Denote

theorem toDecimal (h : Denote digits minus scale v) :
    DecimalDigits.toDecimal v.negative scale digits = .ok v := by
  have hnegative : (v.negative && value digits != 0) = v.negative := by
    rw [h.negative, any_ne_zero, Bool.and_assoc, Bool.and_self]
  have hfits : value digits < Decimal.limit ∧ scale ≤ 28 :=
    ⟨h.coefficient ▸ v.coefficient_lt, h.scale ▸ v.scale_le⟩
  rw [DecimalDigits.toDecimal, hnegative, Decimal.ofParts?, dif_pos hfits]
  obtain ⟨negative, coefficient, scale', _, _⟩ := v
  obtain rfl : coefficient = value digits := h.coefficient
  obtain rfl : scale' = scale := h.scale
  rfl

theorem roundedUnits (h : Denote digits minus scale v) : v.roundedUnits scale = value digits := by
  rw [Decimal.roundedUnits, if_pos (Nat.le_of_eq h.scale), h.scale, Nat.sub_self, pow_zero,
    Nat.mul_one, h.coefficient]

theorem ofDecimal (h : Denote digits minus scale v) (hfew : significant digits ≤ 18) :
    DecimalDigits.ofDecimal v scale digits.length = .ok (v.negative, digits) := by
  have hunits := h.roundedUnits
  have hvalue : value digits < 10 ^ 18 := value_lt_of_significant h.le_nine hfew
  rw [ofDecimal_eq (by rwa [hunits]) (by rw [hunits]; exact value_lt h.le_nine), hunits,
    expand_value h.le_nine, h.negative, any_ne_zero, Bool.and_assoc, Bool.and_self]

theorem eq_of_toRat (h : Denote digits minus scale v) (h' : Denote digits' minus' scale w)
    (hlength : digits.length = digits'.length) (hvalue : v.toRat = w.toRat) :
    digits = digits' ∧ v.negative = w.negative := by
  have hpos : (10 : ℚ) ^ scale ≠ 0 := by positivity
  have habs : (v.coefficient : ℚ) / 10 ^ scale = w.coefficient / 10 ^ scale := by
    rw [← h.scale, ← Decimal.abs_toRat, hvalue, Decimal.abs_toRat, h.scale, h'.scale]
  have hsame : value digits = value digits' := by
    rw [← h.coefficient, ← h'.coefficient]
    exact_mod_cast (div_left_inj' hpos).1 habs
  constructor
  · rw [← expand_value h.le_nine, ← expand_value h'.le_nine, hsame, hlength]
  · have hsign := Decimal.toRat_neg_iff (d := v)
    rw [hvalue, Decimal.toRat_neg_iff, h.coefficient, h'.coefficient, hsame] at hsign
    by_cases hzero : value digits' = 0
    · rw [h.negative, h'.negative, any_ne_zero, any_ne_zero, hsame, hzero]
      simp
    · rw [Bool.eq_iff_iff]
      exact (by simpa [hzero] using hsign.symm)

end Denote
end DecimalDigits

open DecimalDigits (Denote)

namespace Signs

/-- The sign that is written where these digits were read with or without a minus: one that stands
before zeros only does not count. -/
def written (signs : Signs) (minus : Bool) (digits : List UInt8) : UInt8 :=
  signs.nibble (minus && digits.any (· != 0))

theorem written_eq (h : Denote digits minus scale v) :
    signs.written minus digits = signs.nibble v.negative := by
  rw [written, h.negative]

end Signs

/-- Of bytes that have a canonical form two are the same number if their canonical forms are the
same, since these are read as the same numbers. -/
theorem toRat_eq_iff_of_canonical {decode : List UInt8 → Except ConvertError Decimal}
    {canonical : List UInt8 → List UInt8} (h : decode bytes = .ok v) (h' : decode bytes' = .ok w)
    (hback : ∀ {bytes v}, decode bytes = .ok v → decode (canonical bytes) = .ok v)
    (hsame : v.toRat = w.toRat → canonical bytes = canonical bytes') :
    v.toRat = w.toRat ↔ canonical bytes = canonical bytes' := by
  refine ⟨hsame, fun hforms => ?_⟩
  have hread := hback h
  rw [hforms, hback h'] at hread
  rw [Except.ok.inj hread]

-- ------------------------------------------------------------------
-- Zoned decimals
-- ------------------------------------------------------------------

namespace Zoned

/-- The same digits, with the zone of the charset above them and the sign of the number above the
last one. -/
def canonical (family : SignFamily) (signs : Signs) (bytes : List UInt8) : List UInt8 :=
  let sign := signs.written (hasMinus signs bytes) (digitsOf bytes)
  (bytes.dropLast.map fun b => (family.zone <<< 4) ||| (b &&& 0x0F)) ++
    bytes.getLast?.toList.map fun b => (sign <<< 4) ||| (b &&& 0x0F)

theorem decode_ok (h : decode family signs scale bytes = .ok v) :
    bytes ≠ [] ∧ Denote (digitsOf bytes) (hasMinus signs bytes) scale v := by
  rcases legible_or_fails family signs scale bytes with hlegible | ⟨e, -, hfail⟩
  · rw [hlegible.decode_eq] at h
    exact ⟨hlegible.ne_nil, DecimalDigits.denote_of_toDecimal hlegible.digits h⟩
  · rw [hfail] at h
    cases h

theorem canonical_eq_assemble (family : SignFamily)
    (h : Denote (digitsOf bytes) (hasMinus signs bytes) scale v) :
    canonical family signs bytes =
      assemble family.zone (signs.nibble v.negative) (digitsOf bytes) := by
  rw [← Signs.written_eq h]
  rcases List.eq_nil_or_concat' bytes with rfl | ⟨body, last, rfl⟩
  · rfl
  · have hlow : (last &&& 0x0F) &&& 0x0F = last &&& 0x0F := by
      rw [UInt8.and_assoc, UInt8.and_self]
    have hdigits : digitsOf (body ++ [last]) = body.map (· &&& 0x0F) ++ [last &&& 0x0F] := by
      rw [digitsOf, List.map_append, List.map_singleton]
    rw [canonical, hdigits, assemble_concat, hlow, List.dropLast_concat, List.getLast?_concat,
      List.map_map]
    rfl

theorem encode_decode (h : decode family signs scale bytes = .ok v)
    (hfew : DecimalDigits.significant (digitsOf bytes) ≤ 18) :
    encode family signs scale bytes.length v = .ok (canonical family signs bytes) := by
  obtain ⟨-, hread⟩ := decode_ok h
  have hdigits := hread.ofDecimal hfew
  rw [digitsOf_length] at hdigits
  rw [encode, hdigits, canonical_eq_assemble family hread]
  rfl

theorem decode_canonical (hsigns : signs.Fit) (hapart : signs.positive ≠ signs.negative)
    (h : decode family signs scale bytes = .ok v) :
    decode family signs scale (canonical family signs bytes) = .ok v := by
  obtain ⟨hbytes, hread⟩ := decode_ok h
  have hdecimal := hread.toDecimal
  have hnine := hread.le_nine
  have hsome : digitsOf bytes ≠ [] := by
    rwa [← List.length_pos_iff, digitsOf_length, List.length_pos_iff]
  rw [canonical_eq_assemble family hread]
  obtain ⟨body, last, hdigits⟩ := (List.eq_nil_or_concat' _).resolve_left hsome
  rw [hdigits] at hnine hdecimal ⊢
  rw [decode_assemble hsigns hnine, beq_false_of_ne hapart, Bool.or_false, hdecimal]

theorem canonical_eq_of_toRat (hlength : bytes.length = bytes'.length)
    (h : decode family signs scale bytes = .ok v) (h' : decode family signs scale bytes' = .ok w)
    (hvalue : v.toRat = w.toRat) : canonical family signs bytes = canonical family signs bytes' := by
  obtain ⟨-, hread⟩ := decode_ok h
  obtain ⟨-, hread'⟩ := decode_ok h'
  obtain ⟨hdigits, hsign⟩ := hread.eq_of_toRat hread'
    (by rw [digitsOf_length, digitsOf_length, hlength]) hvalue
  rw [canonical_eq_assemble family hread, canonical_eq_assemble family hread', hdigits, hsign]

end Zoned

-- ------------------------------------------------------------------
-- Packed decimals
-- ------------------------------------------------------------------

namespace Packed

def canonical (signs : Signs) (bytes : List UInt8) : List UInt8 :=
  let sign := signs.written (hasMinus signs bytes) (digitsOf bytes)
  bytes.dropLast ++ bytes.getLast?.toList.map fun b => (b &&& 0xF0) ||| sign

theorem decode_ok (h : decode signs scale bytes = .ok v) :
    bytes ≠ [] ∧ Denote (digitsOf bytes) (hasMinus signs bytes) scale v := by
  rcases legible_or_fails signs scale bytes with hlegible | ⟨e, -, hfail⟩
  · rw [hlegible.decode_eq] at h
    exact ⟨hlegible.ne_nil, DecimalDigits.denote_of_toDecimal hlegible.digits h⟩
  · rw [hfail] at h
    cases h

theorem pair_halvesOf (body rest : List UInt8) :
    pair (halvesOf body ++ rest) = body ++ pair rest := by
  induction body with
  | nil => rfl
  | cons b body ih =>
    have hhalves : halvesOf (b :: body) ++ rest =
        b >>> 4 :: (b &&& 0x0F) :: (halvesOf body ++ rest) := rfl
    rw [hhalves, pair, byte_of_halves, ih, List.cons_append]

theorem canonical_eq_pair (hbytes : bytes ≠ [])
    (h : Denote (digitsOf bytes) (hasMinus signs bytes) scale v) :
    canonical signs bytes = pair (digitsOf bytes ++ [signs.nibble v.negative]) := by
  rw [← Signs.written_eq h]
  obtain ⟨body, last, rfl⟩ := (List.eq_nil_or_concat' bytes).resolve_left hbytes
  rw [canonical, digitsOf_concat, List.append_assoc, pair_halvesOf, List.dropLast_concat,
    List.getLast?_concat, Option.toList_some, List.map_singleton, ← upperHalf_eq]
  rfl

theorem encode_decode (h : decode signs scale bytes = .ok v)
    (hfew : DecimalDigits.significant (digitsOf bytes) ≤ 18) (hle : bytes.length ≤ 2 ^ 63) :
    encode signs scale bytes.length v = .ok (canonical signs bytes) := by
  obtain ⟨hbytes, hread⟩ := decode_ok h
  have hdigits := hread.ofDecimal hfew
  rw [digitsOf_length, ← capacity_of_le (List.length_pos_iff.2 hbytes) hle] at hdigits
  rw [encode, hdigits, canonical_eq_pair hbytes hread]
  rfl

theorem decode_canonical (hsigns : signs.Fit) (hapart : signs.positive ≠ signs.negative)
    (h : decode signs scale bytes = .ok v) :
    decode signs scale (canonical signs bytes) = .ok v := by
  obtain ⟨hbytes, hread⟩ := decode_ok h
  have hsize : 1 ≤ bytes.length := List.length_pos_iff.2 hbytes
  obtain ⟨-, hdecode⟩ :=
    decode_pair scale hsize hsigns (digitsOf_length bytes) hread.le_nine
  rw [canonical_eq_pair hbytes hread, hdecode, beq_false_of_ne hapart, Bool.or_false,
    hread.toDecimal]

theorem canonical_eq_of_toRat (hlength : bytes.length = bytes'.length)
    (h : decode signs scale bytes = .ok v) (h' : decode signs scale bytes' = .ok w)
    (hvalue : v.toRat = w.toRat) : canonical signs bytes = canonical signs bytes' := by
  obtain ⟨hbytes, hread⟩ := decode_ok h
  obtain ⟨hbytes', hread'⟩ := decode_ok h'
  obtain ⟨hdigits, hsign⟩ := hread.eq_of_toRat hread'
    (by rw [digitsOf_length, digitsOf_length, hlength]) hvalue
  rw [canonical_eq_pair hbytes hread, canonical_eq_pair hbytes' hread', hdigits, hsign]

end Packed

-- ------------------------------------------------------------------
-- Numbers that are read and written
-- ------------------------------------------------------------------

/-- What is written for the number of some bytes, at their length and scale, is their canonical
form, as long as the number has at most 18 digits. With different half-bytes for plus and minus,
bytes of one length hold the same number exactly if they have the same canonical form, however
many digits they have. Every byte string is short enough for the digits of a packed one to be
counted. -/
theorem encode_decode_canonical (family : SignFamily) (signs : Signs) (scale : Nat)
    (hpositive : signs.positive ≤ 0xF) (hnegative : signs.negative ≤ 0xF)
    (hsigns : signs.positive ≠ signs.negative) :
    (∀ bytes v, Zoned.decode family signs scale bytes = .ok v →
      (DecimalDigits.significant (Zoned.digitsOf bytes) ≤ 18 →
        Zoned.encode family signs scale bytes.length v =
          .ok (Zoned.canonical family signs bytes)) ∧
      ∀ bytes' w, Zoned.decode family signs scale bytes' = .ok w → bytes.length = bytes'.length →
        (v.toRat = w.toRat ↔
          Zoned.canonical family signs bytes = Zoned.canonical family signs bytes')) ∧
      ∀ bytes v, Packed.decode signs scale bytes = .ok v →
        (DecimalDigits.significant (Packed.digitsOf bytes) ≤ 18 → bytes.length ≤ 2 ^ 63 →
          Packed.encode signs scale bytes.length v = .ok (Packed.canonical signs bytes)) ∧
        ∀ bytes' w, Packed.decode signs scale bytes' = .ok w → bytes.length = bytes'.length →
          (v.toRat = w.toRat ↔ Packed.canonical signs bytes = Packed.canonical signs bytes') := by
  have hfit : signs.Fit := ⟨hpositive, hnegative⟩
  constructor
  · intro bytes v h
    refine ⟨Zoned.encode_decode h, fun bytes' w h' hlength => ?_⟩
    exact toRat_eq_iff_of_canonical h h' (Zoned.decode_canonical hfit hsigns)
      (Zoned.canonical_eq_of_toRat hlength h h')
  · intro bytes v h
    refine ⟨Packed.encode_decode h, fun bytes' w h' hlength => ?_⟩
    exact toRat_eq_iff_of_canonical h h' (Packed.decode_canonical hfit hsigns)
      (Packed.canonical_eq_of_toRat hlength h h')

theorem encode_decode_canonical_mixed :
    let signs : Signs := ⟨0xC, 0xD, 0xF⟩
    (∃ v w, Zoned.decode .ebcdic signs 1 [0x00, 0xF1, 0x02, 0xD0] = .ok v ∧
      Zoned.decode .ebcdic signs 1 [0xF0, 0x01, 0xF2, 0xD0] = .ok w ∧ v.toRat = w.toRat ∧
      Zoned.encode .ebcdic signs 1 4 v = .ok [0xF0, 0xF1, 0xF2, 0xD0]) ∧
      ∃ v w, Packed.decode signs 1 [0x00, 0x0D] = .ok v ∧
        Packed.decode signs 1 [0x00, 0x0F] = .ok w ∧ v.toRat = w.toRat ∧
        Packed.encode signs 1 2 v = .ok [0x00, 0x0C] := by
  intro signs
  let below : Decimal := { negative := true, coefficient := 120, scale := 1 }
  let zero : Decimal := { negative := false, coefficient := 0, scale := 1 }
  have hzoned : Zoned.decode .ebcdic signs 1 [0x00, 0xF1, 0x02, 0xD0] = .ok below :=
    toOption_eq_some.1 (by decide)
  have hzoned' : Zoned.decode .ebcdic signs 1 [0xF0, 0x01, 0xF2, 0xD0] = .ok below :=
    toOption_eq_some.1 (by decide)
  have hpacked : Packed.decode signs 1 [0x00, 0x0D] = .ok zero := toOption_eq_some.1 (by decide)
  have hpacked' : Packed.decode signs 1 [0x00, 0x0F] = .ok zero := toOption_eq_some.1 (by decide)
  have hform : Zoned.canonical .ebcdic signs [0x00, 0xF1, 0x02, 0xD0] = [0xF0, 0xF1, 0xF2, 0xD0] :=
    by decide
  have hform' : Packed.canonical signs [0x00, 0x0D] = [0x00, 0x0C] := by decide
  obtain ⟨hz, hp⟩ := encode_decode_canonical .ebcdic signs 1 (by decide) (by decide) (by decide)
  obtain ⟨hwritten, hsame⟩ := hz _ _ hzoned
  obtain ⟨hwritten', hsame'⟩ := hp _ _ hpacked
  rw [hform] at hwritten
  rw [hform'] at hwritten'
  exact ⟨⟨_, _, hzoned, hzoned', (hsame _ _ hzoned' rfl).2 (by decide), hwritten (by decide)⟩,
    _, _, hpacked, hpacked', (hsame' _ _ hpacked' rfl).2 (by decide), hwritten' (by decide) (by decide)⟩

end Flatfile
