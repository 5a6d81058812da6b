import Flatfile.Proofs.Codec.Arguments
import Flatfile.Proofs.Codec.SignedDecimal

/-!
# Fields of signed decimals

A field of spaces holds nothing, and a number may be written as such a field: where the sign of a
single digit zero, or the digits and the sign of a packed number, are the halves of a space. All
other numbers that are written into a field are read back (`fields_readBack`). The two half-bytes
that a layout, a file or the charset choose for plus and minus may be the same, and then the sign is
lost.
-/

namespace Flatfile

variable {family : SignFamily} {signs : Signs} {scale size n : Nat} {v w : Decimal}
  {bytes digits : List UInt8} {d : UInt8} {coding : Coding}

-- ------------------------------------------------------------------
-- Spaces
-- ------------------------------------------------------------------

theorem byte_eq_iff {high low b : UInt8} (hhigh : high ≤ 0xF) (hlow : low ≤ 0xF) :
    (high <<< 4) ||| low = b ↔ high = b >>> 4 ∧ low = b &&& 0x0F := by
  constructor
  · rintro rfl
    obtain ⟨hupper, hlower⟩ := halves_of_byte hhigh hlow
    exact ⟨hupper.symm, hlower.symm⟩
  · rintro ⟨rfl, rfl⟩
    exact byte_of_halves b

namespace Coding

def spaceHigh (coding : Coding) : UInt8 :=
  coding.space >>> 4

theorem space_low (coding : Coding) : coding.space &&& 0x0F = 0 := by
  rw [space]
  cases coding.charset <;> decide

theorem spaceHigh_cases (coding : Coding) : coding.spaceHigh = 2 ∨ coding.spaceHigh = 4 := by
  rw [spaceHigh, space]
  cases coding.charset <;> decide

theorem byte_eq_space_iff {high low : UInt8} (hhigh : high ≤ 0xF) (hlow : low ≤ 0xF) :
    (high <<< 4) ||| low = coding.space ↔ high = coding.spaceHigh ∧ low = 0 := by
  rw [byte_eq_iff hhigh hlow, space_low, spaceHigh]

theorem zone_ne_spaceHigh (coding : Coding) (family : SignFamily) :
    family.zone ≠ coding.spaceHigh := by
  rcases coding.spaceHigh_cases with h | h <;> rw [h] <;> cases family <;> decide

end Coding

-- ------------------------------------------------------------------
-- Zoned decimals
-- ------------------------------------------------------------------

namespace Zoned

theorem isBlank_assemble {negative : Bool} {last : UInt8} (hsigns : signs.Fit)
    (hdigits : ∀ d ∈ digits ++ [last], d ≤ 9) :
    coding.isBlank (assemble family.zone (signs.nibble negative) (digits ++ [last])) = true ↔
      digits = [] ∧ last = 0 ∧ signs.nibble negative = coding.spaceHigh := by
  have hlow : ∀ d ∈ digits ++ [last], d ≤ 0xF :=
    fun d hd => UInt8.le_trans (hdigits d hd) (by decide)
  have hlast : last ≤ 0xF := hlow last (by simp)
  rw [assemble_concat, and_low hlast, Coding.isBlank, List.all_append, Bool.and_eq_true]
  simp only [List.all_cons, List.all_nil, Bool.and_true, beq_iff_eq,
    Coding.byte_eq_space_iff (hsigns.nibble negative) hlast]
  cases digits with
  | nil => simp [and_comm]
  | cons d digits =>
    have hd : d ≤ 0xF := hlow d (by simp)
    simp [Coding.byte_eq_space_iff (zone_le family) hd, coding.zone_ne_spaceHigh family]

theorem isBlank_encode (coding : Coding) (hsize : 1 ≤ size) (hsigns : signs.Fit)
    (h : encode family signs scale size v = .ok bytes) :
    coding.isBlank bytes = true ↔
      size = 1 ∧ v.roundedUnits scale = 0 ∧ signs.positive = coding.spaceHigh := by
  obtain ⟨⟨negative, digits⟩, hdigits, h⟩ := bind_eq_ok.1 h
  obtain rfl := Except.ok.inj h
  obtain ⟨-, hroom, rfl, rfl⟩ := DecimalDigits.ofDecimal_ok hdigits
  have hnine : ∀ d ∈ DecimalDigits.expand size (v.roundedUnits scale), d ≤ 9 :=
    fun d => DecimalDigits.le_nine_of_mem_expand
  obtain ⟨width, rfl⟩ := Nat.exists_eq_add_of_le' hsize
  rw [DecimalDigits.expand] at hnine ⊢
  rw [isBlank_assemble hsigns hnine]
  constructor
  · rintro ⟨hbody, hlast, hsign⟩
    have hwidth := congrArg List.length hbody
    rw [DecimalDigits.expand_length, List.length_nil] at hwidth
    subst hwidth
    have hmod := congrArg UInt8.toNat hlast
    rw [DecimalDigits.toNat_lastDigit, UInt8.toNat_zero] at hmod
    have hzero : v.roundedUnits scale = 0 := by omega
    refine ⟨rfl, hzero, ?_⟩
    rwa [hzero, bne_self_eq_false, Bool.and_false] at hsign
  · rintro ⟨hone, hzero, hsign⟩
    obtain rfl : width = 0 := by omega
    rw [hzero, bne_self_eq_false, Bool.and_false]
    exact ⟨rfl, rfl, hsign⟩

end Zoned

-- ------------------------------------------------------------------
-- Packed decimals
-- ------------------------------------------------------------------

namespace Packed

theorem isBlank_pair {nibbles : List UInt8} (coding : Coding) (hlength : nibbles.length = 2 * size)
    (hnibbles : ∀ x ∈ nibbles, x ≤ 0xF) :
    coding.isBlank (pair nibbles) = true ↔
      nibbles = (List.replicate size [coding.spaceHigh, 0]).flatten := by
  induction size generalizing nibbles with
  | zero =>
    obtain rfl := List.length_eq_zero_iff.1 hlength
    exact iff_of_true rfl rfl
  | succ size ih =>
    match nibbles, hlength with
    | high :: low :: rest, hlength =>
      obtain ⟨hhigh, hnibbles⟩ := List.forall_mem_cons.1 hnibbles
      obtain ⟨hlow, hrest⟩ := List.forall_mem_cons.1 hnibbles
      have ih := ih (by simpa [Nat.mul_succ] using hlength) hrest
      rw [pair, Coding.isBlank, List.all_cons, Bool.and_eq_true, beq_iff_eq,
        Coding.byte_eq_space_iff hhigh hlow, ← Coding.isBlank, ih, List.replicate_succ,
        List.flatten_cons]
      simp [and_assoc]

def hundreds : Nat → Nat
  | 0 => 1
  | k + 1 => 100 * hundreds k + 1

theorem hundreds_pos (k : Nat) : 0 < hundreds k := by
  cases k <;> exact Nat.succ_pos _

theorem hundreds_eq (k : Nat) : 99 * hundreds k = 100 ^ (k + 1) - 1 := by
  induction k with
  | zero => rfl
  | succ k ih =>
    have hpos : 0 < 100 ^ (k + 1) := by positivity
    rw [hundreds, pow_succ]
    omega

theorem expand_hundreds (hd : d ≤ 9) (k : Nat) :
    DecimalDigits.expand (2 * k + 1) (d.toNat * hundreds k) ++ [0] =
      (List.replicate (k + 1) [d, 0]).flatten := by
  have hdigit : d.toNat ≤ 9 := UInt8.le_iff_toNat_le.1 hd
  induction k with
  | zero =>
    have hmod : d.toNat % 10 = d.toNat := by omega
    rw [hundreds, Nat.mul_one, Nat.mul_zero, Nat.zero_add, DecimalDigits.expand, hmod,
      UInt8.ofNat_toNat]
    rfl
  | succ k ih =>
    have hlast : d.toNat * hundreds (k + 1) % 10 = d.toNat := by
      rw [hundreds, Nat.mul_add, Nat.mul_left_comm]
      omega
    have hzero : d.toNat * hundreds (k + 1) / 10 % 10 = 0 := by
      rw [hundreds, Nat.mul_add, Nat.mul_left_comm]
      omega
    have hfront : d.toNat * hundreds (k + 1) / 10 / 10 = d.toNat * hundreds k := by
      rw [hundreds, Nat.mul_add, Nat.mul_left_comm]
      omega
    rw [List.replicate_succ', List.flatten_append, ← ih, Nat.mul_succ, DecimalDigits.expand,
      DecimalDigits.expand, hlast, hzero, hfront]
    simp

theorem hundreds_lt (k : Nat) : 9 * hundreds k < 10 ^ (2 * k + 1) := by
  induction k with
  | zero => decide
  | succ k ih =>
    have hpow : 10 ^ (2 * (k + 1) + 1) = 100 * 10 ^ (2 * k + 1) := by ring
    rw [hundreds, hpow]
    omega

/-- The digits of a number and a sign are those of a space over and over. -/
theorem expand_eq_spaces {k : Nat} {sign : UInt8} (hd : d ≤ 9) (hroom : n < 10 ^ (2 * k + 1)) :
    DecimalDigits.expand (2 * k + 1) n ++ [sign] = (List.replicate (k + 1) [d, 0]).flatten ↔
      n = d.toNat * hundreds k ∧ sign = 0 := by
  have hdigit : d.toNat ≤ 9 := UInt8.le_iff_toNat_le.1 hd
  have hspaces : d.toNat * hundreds k < 10 ^ (2 * k + 1) :=
    Nat.lt_of_le_of_lt (Nat.mul_le_mul_right _ hdigit) (hundreds_lt k)
  rw [← expand_hundreds hd]
  constructor
  · intro h
    obtain ⟨hdigits, hsign⟩ := List.append_inj' h rfl
    refine ⟨?_, List.singleton_inj.1 hsign⟩
    rw [← DecimalDigits.value_expand hroom, hdigits, DecimalDigits.value_expand hspaces]
  · rintro ⟨rfl, rfl⟩
    rfl

theorem isBlank_encode (coding : Coding) (hscale : scale ≤ 18) (hsigns : signs.Fit)
    (h : encode signs scale size v = .ok bytes) (hlength : bytes.length = size) :
    coding.isBlank bytes = true ↔
      99 * v.roundedUnits scale = coding.spaceHigh.toNat * (100 ^ size - 1) ∧
        signs.nibble v.negative = 0 := by
  obtain ⟨hsize, hcapacity, -⟩ := decode_encode hscale hsigns h
  rw [hlength] at hsize hcapacity
  obtain ⟨⟨negative, digits⟩, hdigits, h⟩ := bind_eq_ok.1 h
  obtain rfl := Except.ok.inj h
  obtain ⟨-, hroom, rfl, hexpand⟩ := DecimalDigits.ofDecimal_ok hdigits
  obtain rfl := hexpand.symm
  rw [hcapacity] at hroom ⊢
  obtain ⟨hcount, hnibbles⟩ := nibbles_fit (v.negative && v.roundedUnits scale != 0) hsize hsigns
    (DecimalDigits.expand_length (2 * size - 1) (v.roundedUnits scale))
    fun d hd => DecimalDigits.le_nine_of_mem_expand hd
  have hspace : 0 < coding.spaceHigh.toNat ∧ coding.spaceHigh ≤ 9 := by
    rcases coding.spaceHigh_cases with hcase | hcase <;> rw [hcase] <;> decide
  obtain ⟨hpositive, hnine⟩ := hspace
  obtain ⟨k, rfl⟩ := Nat.exists_eq_add_of_le' hsize
  have hdigits : 2 * (k + 1) - 1 = 2 * k + 1 := rfl
  rw [hdigits] at hroom hcount hnibbles ⊢
  rw [isBlank_pair coding hcount hnibbles, expand_eq_spaces hnine hroom, ← hundreds_eq,
    Nat.mul_left_comm, Nat.mul_right_inj (by decide : (99 : Nat) ≠ 0)]
  refine and_congr_right fun hunits => ?_
  have hsome : v.roundedUnits scale ≠ 0 := by
    rw [hunits]
    exact Nat.ne_of_gt (Nat.mul_pos hpositive (hundreds_pos k))
  rw [bne_iff_ne.2 hsome, Bool.and_true]

end Packed

-- ------------------------------------------------------------------
-- Fields
-- ------------------------------------------------------------------

structure NumericFormat.Fit (numeric : NumericFormat) : Prop where
  zone : SignChoice.Fit ⟨numeric.positiveZone, numeric.negativeZone⟩
  pack : SignChoice.Fit ⟨numeric.positivePack, numeric.negativePack⟩

theorem getD_or_le {first second : Option UInt8} {other : UInt8} (hfirst : ∀ b ∈ first, b ≤ 0xF)
    (hsecond : ∀ b ∈ second, b ≤ 0xF) (hother : other ≤ 0xF) :
    (first.or second).getD other ≤ 0xF := by
  cases first with
  | some b => exact hfirst b rfl
  | none =>
    cases second with
    | some b => exact hsecond b rfl
    | none => exact hother

theorem Signs.resolve_fit {field file : SignChoice} (family : SignFamily) (hfield : field.Fit)
    (hfile : file.Fit) : (resolve family field file).Fit := by
  constructor
  · apply getD_or_le hfield.positive hfile.positive
    cases family <;> decide
  · apply getD_or_le hfield.negative hfile.negative
    cases family <;> decide

/-- What is read where the number `v` was written: nothing if the field is `blank`, else the number
rounded. If plus is written like minus, that is never above zero. -/
structure FieldReadsBack (signs : Signs) (scale : Nat) (v : Decimal) (blank : Prop)
    (read : Except ConvertError Value) : Prop where
  nothing : read = .ok .null ↔ blank
  number : ¬ blank → ∃ w, read = .ok (.decimal w) ∧
    w.toRat = if signs.positive = signs.negative then -|roundAway v.toRat scale|
      else roundAway v.toRat scale

theorem ReadsBack.unsigned_value (h : ReadsBack signs scale v w)
    (hsame : signs.positive = signs.negative) : w.toRat = -|roundAway v.toRat scale| := by
  have hnonneg : (0 : ℚ) ≤ v.roundedUnits scale / 10 ^ scale := by positivity
  have habs : |roundAway v.toRat scale| = v.roundedUnits scale / 10 ^ scale := by
    rw [Decimal.roundAway_toRat]
    split
    · rw [neg_div, abs_neg, abs_of_nonneg hnonneg]
    · exact abs_of_nonneg hnonneg
  rw [h.value, habs, if_pos (.inr hsame), neg_div]

theorem ReadsBack.field {decoded : Except ConvertError Decimal} {blank : Prop}
    (hblank : coding.isBlank bytes = true ↔ blank) (hdecoded : decoded = .ok w)
    (h : ReadsBack signs scale v w) :
    FieldReadsBack signs scale v blank
      (if coding.isBlank bytes then .ok .null else do
        let d ← decoded
        .ok (.decimal d)) := by
  subst hdecoded
  constructor
  · rw [← hblank]
    by_cases hspaces : coding.isBlank bytes = true
    · simp [hspaces]
    · simp [hspaces, bind, Except.bind]
  · intro hsome
    rw [if_neg (mt hblank.1 hsome)]
    refine ⟨w, rfl, ?_⟩
    split
    · rename_i hsame
      exact h.unsigned_value hsame
    · rename_i hsigns
      exact h.rounded hsigns

theorem Zoned.field_readsBack (t : Zoned) (hsize : 1 ≤ t.size) (hscale : t.scale ≤ 18)
    (hsigns : (t.resolved coding.numeric).Fit)
    (h : t.encodeField coding (.decimal v) = .ok bytes) :
    FieldReadsBack (t.resolved coding.numeric) t.scale v
      (t.size = 1 ∧ v.roundedUnits t.scale = 0 ∧
        (t.resolved coding.numeric).positive = coding.spaceHigh)
      (t.decodeField coding bytes) := by
  obtain ⟨hlength, w, hread, hback⟩ := decode_encode hscale hsize hsigns h
  have hfield := hback.field (isBlank_encode coding hsize hsigns h) hread
  rwa [decodeField, checkWidth, if_pos hlength]

theorem Packed.field_readsBack (t : Packed) (hscale : t.scale ≤ 18)
    (hsigns : (t.resolved coding.numeric).Fit)
    (h : t.encodeField coding (.decimal v) = .ok bytes) (hlength : bytes.length = t.size) :
    FieldReadsBack (t.resolved coding.numeric) t.scale v
      (99 * v.roundedUnits t.scale = coding.spaceHigh.toNat * (100 ^ t.size - 1) ∧
        (t.resolved coding.numeric).nibble v.negative = 0)
      (t.decodeField coding bytes) := by
  obtain ⟨-, -, w, hread, hback⟩ := decode_encode hscale hsigns h
  have hfield := hback.field (isBlank_encode coding hscale hsigns h hlength) hread
  rwa [decodeField, checkWidth, if_pos hlength]

/-- Where a number is written to a zoned or packed field, nothing is read if the bytes are spaces:
the zero of one digit whose sign is the upper half of a space, or the packed number whose digits and
sign are the halves of spaces. All other numbers are read rounded to the scale of the field, with a
minus sign if the field does not tell it from plus. A packed field so wide that twice its width
wraps around may be declared, but no byte string fills it. -/
theorem fields_readBack (name : String) (items : List Literal) (env : FieldEnv) (t : DataType)
    (coding : Coding) (v : Decimal) (bytes : List UInt8)
    (h : Registry.fixed.dataType? name items env = some (.ok t)) (hnumeric : coding.numeric.Fit)
    (hwrite : t.encodeBytes coding (.decimal v) = .ok bytes) :
    (t.name = "SZ" → ∃ f, Zoned.ofArgs ⟨name, items⟩ env = .ok f ∧ f.dataType = t ∧
      FieldReadsBack (f.resolved coding.numeric) f.scale v
        (f.size = 1 ∧ round (|v.toRat| * 10 ^ f.scale) = 0 ∧
          (f.resolved coding.numeric).positive = coding.spaceHigh)
        (t.decodeBytes coding bytes)) ∧
      (t.name = "SP" → ∃ f, Packed.ofArgs ⟨name, items⟩ env = .ok f ∧ f.dataType = t ∧
        (f.size ≤ 2 ^ 63 → FieldReadsBack (f.resolved coding.numeric) f.scale v
          (99 * round (|v.toRat| * 10 ^ f.scale) =
              ((coding.spaceHigh.toNat * (100 ^ f.size - 1) : ℕ) : ℤ) ∧
            (f.resolved coding.numeric).nibble v.negative = 0)
          (t.decodeBytes coding bytes))) := by
  obtain ⟨hzoned, hpacked⟩ := Registry.fixed_decimals h
  constructor
  · intro hname
    obtain ⟨f, hf, rfl⟩ := hzoned hname
    obtain ⟨hsize, hscale, hchoice⟩ := Zoned.ofArgs_ok hf
    refine ⟨f, hf, rfl, ?_⟩
    have hsigns := Signs.resolve_fit f.family hchoice hnumeric.zone
    rw [round_abs_toRat, Int.natCast_eq_zero]
    exact Zoned.field_readsBack f hsize hscale hsigns hwrite
  · intro hname
    obtain ⟨f, hf, rfl⟩ := hpacked hname
    obtain ⟨hsize, hscale, hchoice⟩ := Packed.ofArgs_ok hf
    refine ⟨f, hf, rfl, fun hle => ?_⟩
    have hsigns := Signs.resolve_fit f.family hchoice hnumeric.pack
    have hunits : 99 * round (|v.toRat| * 10 ^ f.scale) =
          ((coding.spaceHigh.toNat * (100 ^ f.size - 1) : ℕ) : ℤ) ↔
        99 * v.roundedUnits f.scale = coding.spaceHigh.toNat * (100 ^ f.size - 1) := by
      rw [round_abs_toRat]
      norm_cast
    rw [hunits]
    exact Packed.field_readsBack f hscale hsigns hwrite
      (Packed.length_encode hscale hsize hle hsigns hwrite)

theorem toNat_lt_limit (b : UInt8) : b.toNat < Decimal.limit :=
  Nat.lt_trans b.toNat_lt (by decide)

def wholeNumber (b : UInt8) : Decimal :=
  { Decimal.zero with coefficient := b.toNat, coefficient_lt := toNat_lt_limit b }

def decimalArgs (size scale positive negative : UInt8) : List Literal :=
  [.number (wholeNumber size), .number (wholeNumber scale), .hex [positive], .hex [negative]]

theorem fields_readBack_halfway :
    let env : FieldEnv := ⟨"amount", .ebcdic037⟩
    let coding : Coding := ⟨.ebcdic037, {}⟩
    ∃ t, Registry.fixed.dataType? "SP" (decimalArgs 3 2 0xA 0xB) env = some (.ok t) ∧
      t.encodeBytes coding (.decimal halfway) = .ok [0x01, 0x23, 0x5B] ∧
      ∃ w, t.decodeBytes coding [0x01, 0x23, 0x5B] = .ok (.decimal w) ∧ w.toRat = -1235 / 100 := by
  intro env coding
  have hnumeric : coding.numeric.Fit := ⟨⟨nofun, nofun⟩, ⟨nofun, nofun⟩⟩
  let f : Packed := ⟨3, 2, .ofCharset env.charset, ⟨some 0xA, some 0xB⟩⟩
  let args : Args := ⟨"SP", decimalArgs 3 2 0xA 0xB⟩
  have hbetween : args.between 1 4 = .ok () := rfl
  have hsize : args.size 0 = .ok 3 := rfl
  have hcheck : DecimalDigits.checkField (Packed.capacity 3) = .ok () := by decide
  have hscale : args.scale 1 = .ok 2 := rfl
  have hsigns : args.signs = .ok ⟨some 0xA, some 0xB⟩ := rfl
  have hmade : Packed.ofArgs args env = .ok f := by
    simp only [Packed.ofArgs, hbetween, hsize, hcheck, hscale, hsigns, bind, Except.bind]
    rfl
  have hfound : Registry.fixed.dataType? "SP" (decimalArgs 3 2 0xA 0xB) env =
      some (.ok f.dataType) := by
    have hentry : Registry.fixed.dataType? "SP" (decimalArgs 3 2 0xA 0xB) env =
        some ((Packed.ofArgs args env).map Packed.dataType) := rfl
    rw [hentry, hmade]
    rfl
  have hwrite : f.dataType.encodeBytes coding (.decimal halfway) = .ok [0x01, 0x23, 0x5B] :=
    toOption_eq_some.1 (by decide)
  obtain ⟨-, hpacked⟩ := fields_readBack "SP" (decimalArgs 3 2 0xA 0xB) env f.dataType coding
    halfway _ hfound hnumeric hwrite
  obtain ⟨_, hf, -, hback⟩ := hpacked rfl
  obtain rfl := Except.ok.inj (hmade.symm.trans hf)
  obtain ⟨w, hread, hvalue⟩ := (hback (by decide)).number fun hblank => absurd hblank.2 (by decide)
  refine ⟨_, hfound, hwrite, w, hread, ?_⟩
  have hunits : halfway.roundedUnits 2 = 1235 := by decide
  rw [hvalue, if_neg (by decide), Decimal.roundAway_toRat, hunits]
  norm_num [f, halfway]

/-- A two is written as a space, and a five as minus five. -/
theorem fields_lose_numbers :
    let env : FieldEnv := ⟨"amount", .ascii⟩
    let coding : Coding := ⟨.ascii, {}⟩
    (∃ t, Registry.fixed.dataType? "SP" (decimalArgs 1 0 0 1) env = some (.ok t) ∧
      t.encodeBytes coding (.decimal (wholeNumber 2)) = .ok [0x20] ∧
      t.decodeBytes coding [0x20] = .ok .null) ∧
    ∃ t, Registry.fixed.dataType? "SZ" (decimalArgs 1 0 3 3) env = some (.ok t) ∧
      t.encodeBytes coding (.decimal (wholeNumber 5)) = .ok [0x35] ∧
      t.decodeBytes coding [0x35] = .ok (.decimal (wholeNumber 5).neg) := by
  intro env coding
  constructor
  · exact ⟨_, rfl, toOption_eq_some.1 (by decide), toOption_eq_some.1 (by decide)⟩
  · exact ⟨_, rfl, toOption_eq_some.1 (by decide), toOption_eq_some.1 (by decide)⟩

end Flatfile
