import Flatfile.Decimal.Notation
import Flatfile.Proofs.Decimal.Rounded
import Mathlib.Data.List.TakeWhile

/-!
# Decimals and their text

The text of a decimal is read as the decimal (`ofText_toText`), except that zero loses its sign. The
reader has room for all digits of a decimal, so that nothing is rounded.
-/

namespace Flatfile

open Nat (ofDigitChars)

namespace Decimal

variable {cs rest : List Char} {read : Digits} {negative : Bool} {n scale : Nat} {d : Decimal}

-- ------------------------------------------------------------------
-- Digits
-- ------------------------------------------------------------------

theorem le_ofDigitChars (cs : List Char) (n : Nat) : n ≤ ofDigitChars 10 cs n := by
  induction cs generalizing n with
  | nil => exact Nat.le_refl n
  | cons c cs ih =>
    rw [Nat.ofDigitChars_cons]
    exact Nat.le_trans (by omega) (ih _)

/-- What has been read when these digits have been read as well. -/
def Digits.after (read : Digits) (cs : List Char) : Digits :=
  { value := ofDigitChars 10 cs read.value
    scale := if read.point then read.scale + cs.length else read.scale
    point := read.point
    some := read.some || !cs.isEmpty }

theorem Digits.read_digits (negative : Bool) (read : Digits) (rest : List Char)
    (hdigits : ∀ c ∈ cs, c.isDigit = true)
    (hvalue : ofDigitChars 10 cs read.value < limit)
    (hscale : read.point = true → read.scale + cs.length ≤ maxScale) :
    Digits.read negative read (cs ++ rest) = Digits.read negative (read.after cs) rest := by
  induction cs generalizing read with
  | nil =>
    obtain ⟨value, scale, point, some⟩ := read
    simp [after, ofDigitChars]
  | cons c cs ih =>
    obtain ⟨hc, hcs⟩ := List.forall_mem_cons.1 hdigits
    rw [Nat.ofDigitChars_cons] at hvalue
    have hstep : 10 * read.value + (c.toNat - 0x30) < limit :=
      Nat.lt_of_le_of_lt (le_ofDigitChars cs _) hvalue
    have hroom : ¬ (read.point = true ∧ maxScale ≤ read.scale) := by
      rintro ⟨hpoint, hfull⟩
      have hlength := hscale hpoint
      rw [List.length_cons] at hlength
      omega
    rw [List.cons_append, Digits.read, if_neg hroom, if_pos hc]
    simp only [if_pos hstep]
    rw [ih _ hcs hvalue ?_]
    · cases hpoint : read.point <;>
        simp [after, hpoint, Nat.ofDigitChars_cons, Nat.add_assoc, Nat.add_comm 1]
    · intro (hpoint : read.point = true)
      have hroom := hscale hpoint
      rw [List.length_cons] at hroom
      simp only [hpoint, if_true]
      omega

theorem Digits.finish_of_fits (hvalue : read.value < limit) (hscale : read.scale ≤ 28)
    (hsome : read.some = true) :
    read.finish negative =
      .ok ⟨negative && read.value != 0, read.value, read.scale, hvalue, hscale⟩ := by
  rw [finish, if_pos hsome, ofParts?, dif_pos ⟨hvalue, hscale⟩]

theorem Digits.read_whole (hdigits : ∀ c ∈ cs, c.isDigit = true) (hsome : cs ≠ [])
    (hvalue : ofDigitChars 10 cs 0 < limit) :
    Digits.none.read negative cs =
      .ok ⟨negative && ofDigitChars 10 cs 0 != 0, ofDigitChars 10 cs 0, 0, hvalue,
        Nat.zero_le 28⟩ := by
  have hread := read_digits negative .none [] hdigits hvalue nofun
  rw [List.append_nil] at hread
  rw [hread, Digits.read]
  exact finish_of_fits hvalue (Nat.zero_le 28) (by simpa [after, none] using hsome)

theorem Digits.read_fraction {fraction : List Char} (hdigits : ∀ c ∈ cs ++ fraction, c.isDigit = true)
    (hsome : cs ≠ []) (hvalue : ofDigitChars 10 (cs ++ fraction) 0 < limit)
    (hscale : fraction.length ≤ 28) :
    Digits.none.read negative (cs ++ '.' :: fraction) =
      .ok ⟨negative && ofDigitChars 10 (cs ++ fraction) 0 != 0, ofDigitChars 10 (cs ++ fraction) 0,
        fraction.length, hvalue, hscale⟩ := by
  obtain ⟨hwhole, hfraction⟩ := List.forall_mem_append.1 hdigits
  have happend : ofDigitChars 10 (cs ++ fraction) 0 =
      ofDigitChars 10 fraction (ofDigitChars 10 cs 0) := Nat.ofDigitChars_append 0
  have hfront : ofDigitChars 10 cs 0 < limit := by
    rw [happend] at hvalue
    exact Nat.lt_of_le_of_lt (le_ofDigitChars fraction _) hvalue
  let front : Digits := { Digits.none.after cs with point := true }
  have hpoint : Digits.read negative (Digits.none.after cs) ('.' :: fraction) =
      Digits.read negative front fraction := by
    rw [Digits.read, if_neg (by simp [after, none]), if_neg (by decide), if_pos ⟨rfl, rfl⟩]
  have hread := read_digits negative front [] hfraction (happend ▸ hvalue)
    fun _ => (Nat.zero_add _).symm ▸ hscale
  have hall : front.after fraction =
      ⟨ofDigitChars 10 (cs ++ fraction) 0, fraction.length, true, true⟩ := by
    simp [after, front, none, happend, hsome]
  rw [List.append_nil] at hread
  rw [read_digits negative .none _ hwhole hfront nofun, hpoint, hread, hall, Digits.read]
  exact finish_of_fits hvalue hscale rfl

theorem Digits.read_withPoint (hdigits : ∀ c ∈ cs, c.isDigit = true) (hlength : scale < cs.length)
    (hscale : scale ≤ 28) (hvalue : ofDigitChars 10 cs 0 < limit) (negative : Bool) :
    Digits.none.read negative (withPoint scale cs) =
      .ok ⟨negative && ofDigitChars 10 cs 0 != 0, ofDigitChars 10 cs 0, scale, hvalue, hscale⟩ := by
  rw [withPoint]
  split
  next hzero =>
    subst hzero
    exact read_whole hdigits (List.ne_nil_of_length_pos hlength) hvalue
  next =>
    have hsplit := List.take_append_drop (cs.length - scale) cs
    have hplaces : (cs.drop (cs.length - scale)).length = scale := by
      rw [List.length_drop]
      omega
    have hwhole : cs.take (cs.length - scale) ≠ [] := by
      rw [← List.length_pos_iff, List.length_take]
      omega
    rw [read_fraction (hsplit.symm ▸ hdigits) hwhole (hsplit.symm ▸ hvalue) (hplaces.symm ▸ hscale)]
    simp only [hsplit, hplaces]

-- ------------------------------------------------------------------
-- Numerals
-- ------------------------------------------------------------------

theorem forall_isDigit_digits (n : Nat) : ∀ c ∈ digits n, c.isDigit = true :=
  fun _ hc => Nat.isDigit_of_mem_toDigits (by decide) (by decide) hc

theorem ofDigitChars_digits (n : Nat) : ofDigitChars 10 (digits n) 0 = n :=
  Nat.ofDigitChars_toDigits (by decide) (by decide)

theorem forall_isDigit_zeros (hdigits : ∀ c ∈ cs, c.isDigit = true) (n : Nat) :
    ∀ c ∈ List.replicate n '0' ++ cs, c.isDigit = true := by
  refine List.forall_mem_append.2 ⟨fun c hc => ?_, hdigits⟩
  rw [List.eq_of_mem_replicate hc]
  rfl

theorem ofDigitChars_zeros (n : Nat) (cs : List Char) :
    ofDigitChars 10 (List.replicate n '0' ++ cs) 0 = ofDigitChars 10 cs 0 := by
  rw [Nat.ofDigitChars_append, Nat.ofDigitChars_replicate_zero, Nat.mul_zero]

theorem le_length_padLeft (width : Nat) (cs : List Char) : width ≤ (padLeft width cs).length := by
  rw [padLeft, List.length_append, List.length_replicate]
  omega

theorem mem_withPoint {c : Char} (h : c ∈ withPoint scale cs) : c ∈ cs ∨ c = '.' := by
  rw [withPoint] at h
  split at h
  next => exact .inl h
  next =>
    rcases List.mem_append.1 h with h | h
    · exact .inl (List.mem_of_mem_take h)
    · exact (List.mem_cons.1 h).symm.imp List.mem_of_mem_drop id

theorem head?_withPoint (hlength : scale < cs.length) : (withPoint scale cs).head? = cs.head? := by
  rw [withPoint]
  split
  next => rfl
  next =>
    obtain ⟨k, hk⟩ : ∃ k, cs.length - scale = k + 1 := ⟨cs.length - scale - 1, by omega⟩
    cases cs with
    | nil => simp at hlength
    | cons c cs => rw [hk]; rfl

theorem append_withPoint (front : List Char) (hlength : scale ≤ cs.length) :
    front ++ withPoint scale cs = withPoint scale (front ++ cs) := by
  rw [withPoint, withPoint]
  split
  next => rfl
  next =>
    rw [List.length_append, Nat.add_sub_assoc hlength, List.take_length_add_append,
      List.drop_length_add_append, List.append_assoc]

-- ------------------------------------------------------------------
-- Decimals
-- ------------------------------------------------------------------

def IsPlain (c : Char) : Prop :=
  c.isDigit = true ∨ c = '.' ∨ c = '-'

theorem IsPlain.not_exponentMark {c : Char} (h : IsPlain c) : isExponentMark c = false := by
  rcases h with hdigit | rfl | rfl
  · have hne : ∀ e : Char, e.isDigit = false → c ≠ e := by
      rintro _ he rfl
      exact absurd hdigit (by simp [he])
    simp [isExponentMark, hne 'e' rfl, hne 'E' rfl]
  · rfl
  · rfl

theorem isPlain_of_mem_withPoint (hdigits : ∀ c ∈ cs, c.isDigit = true) :
    ∀ c ∈ withPoint scale cs, IsPlain c :=
  fun c hc => (mem_withPoint hc).imp (hdigits c) .inl

theorem readChars_of_isPlain (h : ∀ c ∈ cs, IsPlain c) : readChars cs = readPlain cs := by
  have hnone : cs.dropWhile (fun c => !isExponentMark c) = [] :=
    List.dropWhile_eq_nil_iff.2 fun c hc => by rw [(h c hc).not_exponentMark, Bool.not_false]
  rw [readChars, hnone]

theorem readChars_withPoint (hdigits : ∀ c ∈ cs, c.isDigit = true) (hlength : scale < cs.length)
    (hscale : scale ≤ 28) (hvalue : ofDigitChars 10 cs 0 < limit) :
    readChars (withPoint scale cs) =
      .ok ⟨false, ofDigitChars 10 cs 0, scale, hvalue, hscale⟩ := by
  rw [readChars_of_isPlain (isPlain_of_mem_withPoint hdigits)]
  refine Eq.trans ?_ (Digits.read_withPoint hdigits hlength hscale hvalue false)
  have hhead := head?_withPoint hlength
  obtain ⟨c, rest, rfl⟩ := List.exists_cons_of_length_pos (Nat.zero_lt_of_lt hlength)
  obtain ⟨hc, -⟩ := List.forall_mem_cons.1 hdigits
  obtain ⟨tail, htail⟩ := List.head?_eq_some_iff.1 hhead
  have hminus : c ≠ '-' := by
    rintro rfl
    exact absurd hc (by decide)
  have hplus : c ≠ '+' := by
    rintro rfl
    exact absurd hc (by decide)
  rw [htail, readPlain, if_neg hminus, if_neg hplus]

theorem readChars_minus (hdigits : ∀ c ∈ cs, c.isDigit = true) (hlength : scale < cs.length)
    (hscale : scale ≤ 28) (hvalue : ofDigitChars 10 cs 0 < limit) :
    readChars ('-' :: withPoint scale cs) =
      .ok ⟨ofDigitChars 10 cs 0 != 0, ofDigitChars 10 cs 0, scale, hvalue, hscale⟩ := by
  have hplain : ∀ c ∈ '-' :: withPoint scale cs, IsPlain c :=
    List.forall_mem_cons.2 ⟨.inr (.inr rfl), isPlain_of_mem_withPoint hdigits⟩
  rw [readChars_of_isPlain hplain]
  exact Digits.read_withPoint hdigits hlength hscale hvalue true

theorem forall_isDigit_padLeft (width n : Nat) : ∀ c ∈ padLeft width (digits n), c.isDigit = true :=
  forall_isDigit_zeros (forall_isDigit_digits n) _

theorem ofDigitChars_padLeft (width n : Nat) :
    ofDigitChars 10 (padLeft width (digits n)) 0 = n := by
  rw [padLeft, ofDigitChars_zeros, ofDigitChars_digits]

theorem isPlain_toText (d : Decimal) : ∀ c ∈ d.toText.toList, IsPlain c := by
  rw [toText, String.toList_ofList]
  refine List.forall_mem_append.2 ⟨fun c hc => ?_, ?_⟩
  · split at hc
    next => exact .inr (.inr (List.mem_singleton.1 hc))
    next => cases hc
  · exact isPlain_of_mem_withPoint (forall_isDigit_padLeft _ _)

/-- A decimal is read from its text; zero has no sign then. -/
theorem ofText_toText (d : Decimal) :
    ofText d.toText = .ok { d with negative := d.negative && d.coefficient != 0 } := by
  have hdigits := forall_isDigit_padLeft (d.scale + 1) d.coefficient
  have hlength := le_length_padLeft (d.scale + 1) (digits d.coefficient)
  have hvalue := ofDigitChars_padLeft (d.scale + 1) d.coefficient
  rw [ofText, toText, String.toList_ofList]
  generalize padLeft (d.scale + 1) (digits d.coefficient) = cs at hdigits hlength hvalue ⊢
  have hlimit : ofDigitChars 10 cs 0 < limit := hvalue.symm ▸ d.coefficient_lt
  obtain ⟨negative, coefficient, scale, hcoefficient, hscale⟩ := d
  obtain rfl : _ = coefficient := hvalue
  cases negative with
  | false => exact readChars_withPoint hdigits hlength hscale hlimit
  | true => exact readChars_minus hdigits hlength hscale hlimit

-- ------------------------------------------------------------------
-- Normal forms
-- ------------------------------------------------------------------

theorem stripZeros_eq (n scale : Nat) :
    (stripZeros n scale).1 * 10 ^ scale = n * 10 ^ (stripZeros n scale).2 := by
  induction scale generalizing n with
  | zero => rfl
  | succ scale ih =>
    rw [stripZeros]
    split
    next hten =>
      have hn : n / 10 * 10 = n := Nat.div_mul_cancel (Nat.dvd_of_mod_eq_zero hten)
      rw [pow_succ, ← Nat.mul_assoc, ih, Nat.mul_right_comm, hn]
    next => rfl

theorem toRat_normalize (d : Decimal) : d.normalize.toRat = d.toRat := by
  have hstrip := congrArg (Nat.cast (R := ℚ)) (stripZeros_eq d.coefficient d.scale)
  push_cast at hstrip
  rw [normalize]
  split
  next hzero => rw [toRat_eq_zero_iff.2 rfl, toRat_eq_zero_iff.2 (isZero_iff.1 hzero)]
  next =>
    have hcoefficient : ((stripZeros d.coefficient d.scale).1 : ℚ) /
        10 ^ (stripZeros d.coefficient d.scale).2 = d.coefficient / 10 ^ d.scale := by
      rw [div_eq_div_iff (by positivity) (by positivity), hstrip]
    simp only [toRat_eq, hcoefficient]

theorem ofText_normalize (d : Decimal) : ofText d.normalize.toText = .ok d.normalize := by
  have hsign : (d.normalize.negative && d.normalize.coefficient != 0) = d.normalize.negative := by
    rw [normalize]
    split
    next => rfl
    next hsome =>
      have hstrip : (stripZeros d.coefficient d.scale).1 ≠ 0 := by
        intro hzero
        have hten := stripZeros_eq d.coefficient d.scale
        rw [hzero, Nat.zero_mul, eq_comm, Nat.mul_eq_zero, or_iff_left (by positivity)] at hten
        exact hsome (isZero_iff.2 hten)
      simp [hstrip]
  rw [ofText_toText, hsign]

end Decimal
end Flatfile
