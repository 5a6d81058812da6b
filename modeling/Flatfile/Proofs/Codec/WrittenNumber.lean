import Flatfile.Codec.FixedNumber
import Flatfile.Proofs.Decimal.Spelling
import Flatfile.Proofs.Outcome

/-!
# Numbers written as text

Whatever number a field of this kind is written for, its text is read as a number again
(`FixedNumber.decodeText_written`): the reader takes spaces, a sign and zeros off in front of the
digits, with or without a point, and the field has no more digits than a decimal. What is read has
the digits that were written and the scale of the field.
-/

namespace Flatfile

open Decimal (IsPlain)

-- ------------------------------------------------------------------
-- Trimming
-- ------------------------------------------------------------------

namespace Text

variable {p : α → Bool} {xs : List α} {cs : List Char} {c : Char}

theorem dropWhile_eq_self (h : ∀ x ∈ xs.head?, p x = false) : xs.dropWhile p = xs := by
  cases xs with
  | nil => rfl
  | cons x xs => exact List.dropWhile_cons_of_neg (Bool.not_eq_true _ ▸ h x rfl)

theorem dropEndWhile_eq_self (h : ∀ x ∈ xs.getLast?, p x = false) : dropEndWhile p xs = xs := by
  rw [dropEndWhile, dropWhile_eq_self (by simpa using h), List.reverse_reverse]

theorem trimChars_eq_self (h : ∀ c ∈ cs, isBlank c = false) : trimChars cs = cs := by
  rw [trimChars, dropWhile_eq_self fun c hc => h c (List.mem_of_mem_head? hc),
    dropEndWhile_eq_self fun c hc => h c (List.mem_of_mem_getLast? hc)]

theorem trimChars_spaces (n : Nat) (h : ∀ c ∈ cs, isBlank c = false) :
    trimChars (List.replicate n ' ' ++ cs) = cs := by
  have hspaces : ∀ c ∈ List.replicate n ' ', isBlank c = true := by
    intro c hc
    rw [List.eq_of_mem_replicate hc]
    decide
  rw [trimChars, List.dropWhile_append_of_pos hspaces]
  exact trimChars_eq_self h

end Text

namespace Decimal.IsPlain

variable {c : Char}

theorem toNat_bounds (h : IsPlain c) : 0x2D ≤ c.toNat ∧ c.toNat ≤ 0x39 := by
  rcases h with hdigit | rfl | rfl
  · obtain ⟨hle, hle'⟩ := Char.isDigit_iff_toNat.1 hdigit
    exact ⟨Nat.le_trans (by decide) hle, hle'⟩
  · decide
  · decide

theorem not_blank (h : IsPlain c) : Text.isBlank c = false := by
  have hall : ∀ n < 0x3A, 0x2D ≤ n → Text.isBlank (Char.ofNat n) = false := by decide
  obtain ⟨hle, hle'⟩ := h.toNat_bounds
  have hc := hall c.toNat (Nat.lt_succ_of_le hle') hle
  rwa [Char.ofNat_toNat] at hc

end Decimal.IsPlain

-- ------------------------------------------------------------------
-- Numbers
-- ------------------------------------------------------------------

namespace FixedNumber

variable {t : FixedNumber} {coding : Coding} {value : Value} {text : String} {digits : List Char}

structure Unsigned (digits : List Char) : Prop where
  some : digits ≠ []
  plain : ∀ c ∈ digits, c.isDigit = true ∨ c = '.'

namespace Unsigned

theorem ne_sign (h : Unsigned digits) {c : Char} (hc : c ∈ digits) : c ≠ '-' ∧ c ≠ '+' := by
  rcases h.plain c hc with hdigit | rfl
  · constructor <;>
      · rintro rfl
        exact absurd hdigit (by decide)
  · decide

theorem isPlain (h : Unsigned digits) {c : Char} (hc : c ∈ digits) : IsPlain c :=
  (h.plain c hc).imp id .inl

theorem trim (h : Unsigned digits) : Text.trimChars digits = digits :=
  Text.trimChars_eq_self fun _ hc => (h.isPlain hc).not_blank

end Unsigned

/-- What stands before the digits of a number. -/
inductive Prefix : List Char → Prop where
  | none : Prefix []
  | minus : Prefix ['-']
  | plus : Prefix ['+']

theorem Prefix.mem {sign : List Char} (h : Prefix sign) {c : Char} (hc : c ∈ sign) :
    c = '-' ∨ c = '+' := by
  cases h with
  | none => cases hc
  | minus => exact .inl (List.mem_singleton.1 hc)
  | plus => exact .inr (List.mem_singleton.1 hc)

theorem prefix_sign (numeric : NumericFormat) (v : Decimal) : Prefix (sign numeric v) := by
  unfold sign
  split
  next => exact .minus
  next =>
    split
    next => exact .plus
    next => exact .none

theorem sign_eq_minus_iff {numeric : NumericFormat} {v : Decimal} :
    sign numeric v = ['-'] ↔ v.negative = true ∧ v.coefficient ≠ 0 := by
  rw [ne_eq, ← Decimal.isZero_iff, sign]
  split
  next h => exact iff_of_true rfl h
  next h =>
    refine iff_of_false ?_ h
    split <;> decide

theorem splitSign_of_ne {cs : List Char} (hhead : cs.head? ≠ some '-')
    (hlast : cs.getLast? ≠ some '-') :
    splitSign cs = (false, Text.dropEndWhile (· == '+') (cs.dropWhile (· == '+'))) := by
  unfold splitSign
  split
  next => exact absurd rfl hhead
  next => exact if_neg hlast

theorem splitSign_prefix {sign : List Char} (hsign : Prefix sign) (h : Unsigned digits) :
    splitSign (sign ++ digits) = (decide (sign = ['-']), digits) := by
  have hend : Text.dropEndWhile (· == '+') digits = digits :=
    Text.dropEndWhile_eq_self fun c hc => by
      simpa using (h.ne_sign (List.mem_of_mem_getLast? hc)).2
  have hfront : digits.dropWhile (· == '+') = digits :=
    Text.dropWhile_eq_self fun c hc => by simpa using (h.ne_sign (List.mem_of_mem_head? hc)).2
  have hlast : digits.getLast? ≠ some '-' := fun hc =>
    (h.ne_sign (List.mem_of_mem_getLast? hc)).1 rfl
  cases hsign with
  | none =>
    have hhead : digits.head? ≠ some '-' := fun hc => (h.ne_sign (List.mem_of_mem_head? hc)).1 rfl
    rw [List.nil_append, splitSign_of_ne hhead hlast, hfront, hend]
    rfl
  | minus => rfl
  | plus =>
    have hplus : ('+' :: digits).getLast? = digits.getLast? := by
      rw [List.getLast?_cons, List.getLast?_eq_some_getLast h.some, Option.getD_some]
    rw [List.singleton_append, splitSign_of_ne (by simp) (hplus ▸ hlast),
      List.dropWhile_cons_of_pos (by rfl), hfront, hend]
    rfl

theorem unsigned_zeros (n : Nat) (h : Unsigned digits) :
    Unsigned (List.replicate n '0' ++ digits) := by
  refine ⟨by simp [h.some], List.forall_mem_append.2 ⟨fun c hc => ?_, h.plain⟩⟩
  rw [List.eq_of_mem_replicate hc]
  decide

theorem unsigned_body (t : FixedNumber) (numeric : NumericFormat) (v : Decimal) :
    Unsigned (t.body numeric v) := by
  rw [body]
  split
  next =>
    have hlength := Decimal.le_length_padLeft (t.scale + 1) (Decimal.digits v.coefficient)
    refine ⟨fun hnil => ?_, fun c hc => ?_⟩
    · have hhead := Decimal.head?_withPoint hlength
      rw [hnil, List.head?_nil, eq_comm, List.head?_eq_none_iff] at hhead
      rw [hhead] at hlength
      exact absurd hlength (by simp)
    · exact (Decimal.mem_withPoint hc).imp (Decimal.forall_isDigit_padLeft _ _ c) id
  next =>
    exact ⟨Nat.toDigits_ne_nil, fun c hc => .inl (Decimal.forall_isDigit_digits _ c hc)⟩

theorem magnitude_body (hscale : t.scale ≤ 28) (numeric : NumericFormat) (v : Decimal) (n : Nat) :
    t.magnitude (List.replicate n '0' ++ t.body numeric v) =
      some ⟨false, v.coefficient, t.scale, v.coefficient_lt, hscale⟩ := by
  have hunsigned := unsigned_zeros n (unsigned_body t numeric v)
  have hguard : ¬ (List.replicate n '0' ++ t.body numeric v = [] ∨
      ¬ (List.replicate n '0' ++ t.body numeric v).all fun c => c.isDigit || c == '.') := by
    have hplain := hunsigned.plain
    simp only [hunsigned.some, false_or, not_not, List.all_eq_true]
    simpa using hplain
  rw [magnitude, if_neg hguard, body]
  split
  next hpoint =>
    have hscale' : t.scale ≠ 0 := Nat.ne_of_gt hpoint.2
    have hlength := Decimal.le_length_padLeft (t.scale + 1) (Decimal.digits v.coefficient)
    have hdigits := Decimal.forall_isDigit_padLeft (t.scale + 1) v.coefficient
    have hvalue := Decimal.ofDigitChars_padLeft (t.scale + 1) v.coefficient
    generalize Decimal.padLeft (t.scale + 1) (Decimal.digits v.coefficient) = cs
      at hlength hdigits hvalue ⊢
    rw [Decimal.append_withPoint _ (Nat.le_of_lt hlength)]
    have hmark : '.' ∈ Decimal.withPoint t.scale (List.replicate n '0' ++ cs) := by
      simp [Decimal.withPoint, hscale']
    have hzeros : Nat.ofDigitChars 10 (List.replicate n '0' ++ cs) 0 < Decimal.limit := by
      rw [Decimal.ofDigitChars_zeros, hvalue]
      exact v.coefficient_lt
    have hlong : t.scale < (List.replicate n '0' ++ cs).length := by
      rw [List.length_append]
      omega
    rw [if_pos hmark, Decimal.readChars_withPoint (Decimal.forall_isDigit_zeros hdigits n) hlong hscale
      hzeros]
    simp only [Decimal.ofDigitChars_zeros, hvalue, Except.toOption]
  next =>
    have hdigits := Decimal.forall_isDigit_zeros (Decimal.forall_isDigit_digits v.coefficient) n
    have hmark : '.' ∉ List.replicate n '0' ++ Decimal.digits v.coefficient := fun hc =>
      absurd (hdigits '.' hc) (by decide)
    have hvalue : (List.replicate n '0' ++ Decimal.digits v.coefficient).foldl
        (fun n c => 10 * n + (c.toNat - 0x30)) 0 = v.coefficient :=
      (Decimal.ofDigitChars_zeros n _).trans (Decimal.ofDigitChars_digits _)
    rw [if_neg hmark, hvalue, Decimal.ofParts?, dif_pos ⟨v.coefficient_lt, hscale⟩]

/-- The text is that of the number `v`, whose scale it does not tell: spaces, the sign, zeros and
the digits. -/
def Written (t : FixedNumber) (numeric : NumericFormat) (v : Decimal) (cs : List Char) : Prop :=
  ∃ spaces zeros, cs = List.replicate spaces ' ' ++
    (sign numeric v ++ (List.replicate zeros '0' ++ t.body numeric v))

theorem written_of_encodeText (hsome : value.isNull = false)
    (h : t.encodeText coding value = .ok text) :
    ∃ d, numberOf value = .ok d ∧ t.Written coding.numeric (d.rescale t.scale) text.toList ∧
      text.toList.length = t.size := by
  rw [encodeText, hsome, if_neg Bool.false_ne_true] at h
  obtain ⟨d, hd, h⟩ := bind_eq_ok.1 h
  refine ⟨d, hd, ?_⟩
  dsimp only at h
  split at h
  next => cases h
  next hfits =>
    split at h
    next =>
      obtain rfl := Except.ok.inj h
      refine ⟨⟨0, _, String.toList_ofList.trans (List.append_assoc ..)⟩, ?_⟩
      simp only [String.toList_ofList, List.length_append, List.length_replicate]
      omega
    next =>
      obtain rfl := Except.ok.inj h
      refine ⟨⟨_, 0, String.toList_ofList.trans (List.append_assoc ..)⟩, ?_⟩
      simp only [String.toList_ofList, List.length_append, List.length_replicate]
      omega

theorem decodeText_written {v : Decimal} (hscale : t.scale ≤ 28)
    (h : t.Written coding.numeric v text.toList) :
    ∃ w, t.decodeText coding text = .ok (.decimal w) ∧ w.coefficient = v.coefficient ∧
      w.scale = t.scale ∧ (v.coefficient ≠ 0 → w.negative = v.negative) := by
  obtain ⟨spaces, zeros, htext⟩ := h
  have hsign := prefix_sign coding.numeric v
  have hdigits := unsigned_zeros zeros (unsigned_body t coding.numeric v)
  have hmagnitude := magnitude_body hscale coding.numeric v zeros
  have hsplit := splitSign_prefix hsign hdigits
  generalize List.replicate zeros '0' ++ t.body coding.numeric v = digits
    at htext hdigits hmagnitude hsplit
  have hblank : ∀ c ∈ sign coding.numeric v ++ digits, Text.isBlank c = false := by
    refine List.forall_mem_append.2 ⟨fun c hc => ?_, fun c hc => (hdigits.isPlain hc).not_blank⟩
    rcases hsign.mem hc with rfl | rfl <;> decide
  have hsome : sign coding.numeric v ++ digits ≠ [] := by simp [hdigits.some]
  rw [decodeText, htext, Text.trimChars_spaces spaces hblank, if_neg hsome, hsplit]
  simp only [hdigits.trim, hmagnitude, sign_eq_minus_iff]
  by_cases hminus : v.negative = true ∧ v.coefficient ≠ 0
  · exact ⟨_, rfl, by simp [hminus, Decimal.neg]⟩
  · refine ⟨_, rfl, ?_⟩
    simpa [hminus] using fun hvalue => by simpa [hvalue] using hminus

theorem ascii_of_written {numeric : NumericFormat} {v : Decimal} {cs : List Char}
    (h : t.Written numeric v cs) : ∀ c ∈ cs, c.toNat < 0x80 := by
  obtain ⟨spaces, zeros, rfl⟩ := h
  have hdigits := unsigned_zeros zeros (unsigned_body t numeric v)
  refine List.forall_mem_append.2 ⟨fun c hc => ?_,
    List.forall_mem_append.2 ⟨fun c hc => ?_, fun c hc => ?_⟩⟩
  · rw [List.eq_of_mem_replicate hc]
    decide
  · rcases (prefix_sign numeric v).mem hc with rfl | rfl <;> decide
  · exact Nat.lt_of_le_of_lt (hdigits.isPlain hc).toNat_bounds.2 (by decide)

end FixedNumber
end Flatfile
