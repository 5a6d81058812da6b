import Flatfile.Codec.Packed
import Flatfile.Codec.Zoned
import Flatfile.Proofs.Codec.Digits

/-!
# Legible decimals

The bytes of a zoned or packed decimal are legible if their zones, digits and sign are such as the
reader knows. Legible bytes are read as the number of their digits (`Zoned.Legible.decode_eq`,
`Packed.Legible.decode_eq`). All others are refused, but never for the size of the number
(`Zoned.legible_or_fails`, `Packed.legible_or_fails`).
-/

namespace Flatfile

variable {family : SignFamily} {signs : Signs} {bytes digits : List UInt8} {nibble : UInt8}
  {e : ConvertError}

def ConvertError.isOverflow : ConvertError → Bool
  | overflow .. => true
  | _ => false

namespace DecimalDigits

theorem checkDigit_error (h : checkDigit nibble = .error e) : e.isOverflow = false := by
  unfold checkDigit at h
  split at h
  · obtain rfl := Except.error.inj h
    rfl
  · cases h

end DecimalDigits

-- ------------------------------------------------------------------
-- Signs
-- ------------------------------------------------------------------

namespace Signs

def Knows (signs : Signs) (nibble : UInt8) : Prop :=
  nibble = signs.negative ∨ nibble = signs.positive ∨ nibble = signs.unsigned

instance : DecidablePred signs.Knows :=
  fun _ => inferInstanceAs (Decidable (_ ∨ _ ∨ _))

theorem isNegative_eq_ok {place : SignPlace} {minus : Bool} :
    signs.isNegative place nibble = .ok minus ↔
      signs.Knows nibble ∧ minus = (nibble == signs.negative) := by
  unfold isNegative Knows
  split
  next heq => simp [heq, eq_comm]
  next hne =>
    split
    next hothers =>
      rw [Except.ok.injEq, and_iff_right (.inr hothers), beq_false_of_ne hne, eq_comm]
    next hothers => exact iff_of_false nofun fun h => h.1.elim hne hothers

theorem isNegative_error {place : SignPlace} (h : signs.isNegative place nibble = .error e) :
    e.isOverflow = false := by
  unfold isNegative at h
  split at h
  · cases h
  · split at h
    · cases h
    · obtain rfl := Except.error.inj h
      rfl

end Signs

-- ------------------------------------------------------------------
-- Zoned decimals
-- ------------------------------------------------------------------

namespace Zoned

def digitsOf (bytes : List UInt8) : List UInt8 :=
  bytes.map (· &&& 0x0F)

def hasMinus (signs : Signs) (bytes : List UInt8) : Bool :=
  bytes.getLast?.any fun b : UInt8 => b >>> 4 == signs.negative

theorem digitsOf_length (bytes : List UInt8) : (digitsOf bytes).length = bytes.length :=
  List.length_map ..

/-- Digits under zones that the family accepts, and a sign above the last one. -/
structure Legible (family : SignFamily) (signs : Signs) (bytes : List UInt8) : Prop where
  zones : ∀ b ∈ bytes.dropLast, family.acceptsZone (b >>> 4) = true
  digits : ∀ d ∈ digitsOf bytes, d ≤ 9
  sign : ∃ last ∈ bytes.getLast?, signs.Knows (last >>> 4)

theorem legible_concat {body : List UInt8} {last : UInt8} :
    Legible family signs (body ++ [last]) ↔
      (∀ b ∈ body, family.acceptsZone (b >>> 4) = true ∧ b &&& 0x0F ≤ 9) ∧ last &&& 0x0F ≤ 9 ∧
        signs.Knows (last >>> 4) := by
  have hdigits : (∀ d ∈ digitsOf (body ++ [last]), d ≤ 9) ↔
      (∀ b ∈ body, b &&& 0x0F ≤ 9) ∧ last &&& 0x0F ≤ 9 := by
    rw [digitsOf, List.map_append, List.forall_mem_append, List.forall_mem_map, List.map_singleton,
      List.forall_mem_singleton]
  constructor
  · rintro ⟨hzones, hall, found, hfound, hsign⟩
    rw [List.dropLast_concat] at hzones
    rw [List.getLast?_concat] at hfound
    obtain rfl := Option.some.inj hfound
    obtain ⟨hbody, hlast⟩ := hdigits.1 hall
    exact ⟨fun b hb => ⟨hzones b hb, hbody b hb⟩, hlast, hsign⟩
  · rintro ⟨hbody, hlast, hsign⟩
    refine ⟨?_, hdigits.2 ⟨fun b hb => (hbody b hb).2, hlast⟩, last, List.getLast?_concat, hsign⟩
    rw [List.dropLast_concat]
    exact fun b hb => (hbody b hb).1

theorem Legible.ne_nil (h : Legible family signs bytes) : bytes ≠ [] := by
  rintro rfl
  obtain ⟨_, hlast, -⟩ := h.sign
  cases hlast

theorem bodyDigit_eq_ok (b d : UInt8) :
    bodyDigit family b = .ok d ↔
      (family.acceptsZone (b >>> 4) = true ∧ b &&& 0x0F ≤ 9) ∧ d = b &&& 0x0F := by
  unfold bodyDigit
  split
  next hzone => rw [DecimalDigits.checkDigit_eq_ok, and_iff_right hzone, and_comm]
  next hzone => exact iff_of_false nofun fun h => hzone h.1.1

theorem bodyDigit_error {b : UInt8} (h : bodyDigit family b = .error e) :
    e.isOverflow = false := by
  unfold bodyDigit at h
  split at h
  · exact DecimalDigits.checkDigit_error h
  · obtain rfl := Except.error.inj h
    rfl

theorem Legible.decode_eq (h : Legible family signs bytes) (scale : Nat) :
    decode family signs scale bytes =
      DecimalDigits.toDecimal (hasMinus signs bytes) scale (digitsOf bytes) := by
  obtain ⟨body, last, rfl⟩ := (List.eq_nil_or_concat' bytes).resolve_left h.ne_nil
  obtain ⟨hbody, hlast, hsign⟩ := legible_concat.1 h
  have hread : body.mapM (bodyDigit family) = .ok (digitsOf body) :=
    (mapM_eq_ok_map bodyDigit_eq_ok).2 ⟨hbody, rfl⟩
  rw [decode, List.getLast?_concat]
  simp only [List.dropLast_concat, hread, DecimalDigits.checkDigit_ok hlast,
    Signs.isNegative_eq_ok.2 ⟨hsign, rfl⟩, bind, Except.bind]
  simp [digitsOf, hasMinus]

theorem legible_or_fails (family : SignFamily) (signs : Signs) (scale : Nat) (bytes : List UInt8) :
    Legible family signs bytes ∨
      ∃ e : ConvertError, e.isOverflow = false ∧ decode family signs scale bytes = .error e := by
  rcases List.eq_nil_or_concat' bytes with rfl | ⟨body, last, rfl⟩
  · exact .inr ⟨_, rfl, rfl⟩
  rw [decode, List.getLast?_concat]
  simp only [List.dropLast_concat]
  cases hbody : body.mapM (bodyDigit family) with
  | error e =>
    obtain ⟨b, -, hb⟩ := exists_mem_of_mapM_error hbody
    exact .inr ⟨e, bodyDigit_error hb, rfl⟩
  | ok read =>
    cases hdigit : DecimalDigits.checkDigit (last &&& 0x0F) with
    | error e => exact .inr ⟨e, DecimalDigits.checkDigit_error hdigit, rfl⟩
    | ok digit =>
      cases hsign : signs.isNegative .zone (last >>> 4) with
      | error e => exact .inr ⟨e, Signs.isNegative_error hsign, rfl⟩
      | ok minus =>
        exact .inl (legible_concat.2 ⟨((mapM_eq_ok_map bodyDigit_eq_ok).1 hbody).1,
          (DecimalDigits.checkDigit_eq_ok.1 hdigit).2, (Signs.isNegative_eq_ok.1 hsign).1⟩)

end Zoned

-- ------------------------------------------------------------------
-- Packed decimals
-- ------------------------------------------------------------------

namespace Packed

def halvesOf (bytes : List UInt8) : List UInt8 :=
  bytes.flatMap fun b : UInt8 => [b >>> 4, b &&& 0x0F]

def digitsOf (bytes : List UInt8) : List UInt8 :=
  (halvesOf bytes).dropLast

def hasMinus (signs : Signs) (bytes : List UInt8) : Bool :=
  bytes.getLast?.any fun b : UInt8 => b &&& 0x0F == signs.negative

theorem halvesOf_concat (body : List UInt8) (last : UInt8) :
    halvesOf (body ++ [last]) = (halvesOf body ++ [last >>> 4]) ++ [last &&& 0x0F] := by
  simp [halvesOf]

theorem digitsOf_concat (body : List UInt8) (last : UInt8) :
    digitsOf (body ++ [last]) = halvesOf body ++ [last >>> 4] := by
  rw [digitsOf, halvesOf_concat, List.dropLast_concat]

theorem digitsOf_length (bytes : List UInt8) :
    (digitsOf bytes).length = 2 * bytes.length - 1 := by
  have hhalves : (halvesOf bytes).length = 2 * bytes.length := by
    rw [halvesOf, List.length_flatMap]
    simp [Nat.mul_comm]
  rw [digitsOf, List.length_dropLast, hhalves]

structure Legible (signs : Signs) (bytes : List UInt8) : Prop where
  digits : ∀ d ∈ digitsOf bytes, d ≤ 9
  sign : ∃ last ∈ bytes.getLast?, signs.Knows (last &&& 0x0F)

theorem Legible.ne_nil (h : Legible signs bytes) : bytes ≠ [] := by
  rintro rfl
  obtain ⟨_, hlast, -⟩ := h.sign
  cases hlast

theorem halves_eq_ok {nibbles : List UInt8} :
    halves bytes = .ok nibbles ↔ (∀ b ∈ bytes, b >>> 4 ≤ 9) ∧ nibbles = halvesOf bytes := by
  induction bytes generalizing nibbles with
  | nil => simp [halves, halvesOf, eq_comm]
  | cons b bytes ih =>
    simp only [halves, bind_eq_ok, DecimalDigits.checkDigit_eq_ok, ih, List.forall_mem_cons]
    constructor
    · rintro ⟨high, ⟨rfl, hhigh⟩, more, ⟨hmore, rfl⟩, h⟩
      exact ⟨⟨hhigh, hmore⟩, (Except.ok.inj h).symm⟩
    · rintro ⟨⟨hhigh, hmore⟩, rfl⟩
      exact ⟨_, ⟨rfl, hhigh⟩, _, ⟨hmore, rfl⟩, rfl⟩

theorem halves_error (h : halves bytes = .error e) : e.isOverflow = false := by
  induction bytes with
  | nil => cases h
  | cons b bytes ih =>
    rcases bind_eq_error.1 h with hhigh | ⟨high, -, h⟩
    · exact DecimalDigits.checkDigit_error hhigh
    rcases bind_eq_error.1 h with hmore | ⟨more, -, h⟩
    · exact ih hmore
    · cases h

theorem upperHalf_mem_digitsOf {b : UInt8} (h : b ∈ bytes) : b >>> 4 ∈ digitsOf bytes := by
  obtain ⟨body, last, rfl⟩ := (List.eq_nil_or_concat' bytes).resolve_left (List.ne_nil_of_mem h)
  rw [digitsOf_concat, List.mem_append]
  rcases List.mem_append.1 h with h | h
  · exact .inl (List.mem_flatMap.2 ⟨b, h, List.mem_cons_self⟩)
  · rw [List.mem_singleton.1 h]
    exact .inr (List.mem_singleton_self _)

theorem Legible.decode_eq (h : Legible signs bytes) (scale : Nat) :
    decode signs scale bytes =
      DecimalDigits.toDecimal (hasMinus signs bytes) scale (digitsOf bytes) := by
  have hhalves : halves bytes = .ok (halvesOf bytes) :=
    halves_eq_ok.2 ⟨fun b hb => h.digits _ (upperHalf_mem_digitsOf hb), rfl⟩
  obtain ⟨last, hlast, hsign⟩ := h.sign
  obtain ⟨body, rfl⟩ := List.getLast?_eq_some_iff.1 hlast
  have hdigits : (halvesOf (body ++ [last])).dropLast.mapM DecimalDigits.checkDigit =
      .ok (digitsOf (body ++ [last])) :=
    DecimalDigits.mapM_checkDigit h.digits
  have hminus : signs.isNegative .pack ((halvesOf (body ++ [last])).getLast?.getD 0) =
      .ok (hasMinus signs (body ++ [last])) := by
    rw [halvesOf_concat, List.getLast?_concat, hasMinus, List.getLast?_concat]
    exact Signs.isNegative_eq_ok.2 ⟨hsign, rfl⟩
  rw [decode, if_neg (by simp), hhalves]
  simp only [hdigits, hminus, bind, Except.bind]

theorem legible_or_fails (signs : Signs) (scale : Nat) (bytes : List UInt8) :
    Legible signs bytes ∨
      ∃ e : ConvertError, e.isOverflow = false ∧ decode signs scale bytes = .error e := by
  rcases List.eq_nil_or_concat' bytes with rfl | ⟨body, last, rfl⟩
  · exact .inr ⟨_, rfl, rfl⟩
  rw [decode, if_neg (by simp)]
  cases hhalves : halves (body ++ [last]) with
  | error e => exact .inr ⟨e, halves_error hhalves, rfl⟩
  | ok nibbles =>
    obtain rfl := (halves_eq_ok.1 hhalves).2
    cases hread : (halvesOf (body ++ [last])).dropLast.mapM DecimalDigits.checkDigit with
    | error e =>
      obtain ⟨d, -, hd⟩ := exists_mem_of_mapM_error hread
      exact .inr ⟨e, DecimalDigits.checkDigit_error hd, by simp only [hread, bind, Except.bind]⟩
    | ok digits =>
      have hlast : (halvesOf (body ++ [last])).getLast?.getD 0 = last &&& 0x0F := by
        rw [halvesOf_concat, List.getLast?_concat, Option.getD_some]
      cases hsign : signs.isNegative .pack (last &&& 0x0F) with
      | error e =>
        refine .inr ⟨e, Signs.isNegative_error hsign, ?_⟩
        simp only [hread, hlast, hsign, bind, Except.bind]
      | ok minus =>
        exact .inl ⟨(DecimalDigits.mapM_checkDigit_eq_ok.1 hread).1, last, by simp,
          (Signs.isNegative_eq_ok.1 hsign).1⟩

end Packed
end Flatfile
