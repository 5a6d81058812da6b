import Flatfile.Record.Basic
import Flatfile.Text.Name

/-!
# Lower case and names

The spellings of a name differ in the case of ASCII letters only, and have one lower-case form. So a
record finds a value under every spelling of its name.
-/

namespace Flatfile
namespace Text

theorem toLower_eq_or_capital (c : Char) :
    c.toLower = c ∨ 0x41 ≤ c.toNat ∧ c.toNat ≤ 0x5A ∧ c.toLower.toNat = c.toNat + 32 := by
  by_cases h : c.val ≥ 'A'.val ∧ c.val ≤ 'Z'.val
  · have hlow : 0x41 ≤ c.toNat := h.1
    have hhigh : c.toNat ≤ 0x5A := h.2
    refine .inr ⟨hlow, hhigh, ?_⟩
    have hval : c.toLower.val = c.val + 32 := congrArg Char.val (dif_pos h)
    have hnat : (c.val + 32).toNat = c.val.toNat + 32 := by
      rw [UInt32.toNat_add]
      exact Nat.mod_eq_of_lt (Nat.lt_of_le_of_lt (Nat.add_le_add_right hhigh 32) (by decide))
    exact (congrArg UInt32.toNat hval).trans hnat
  · exact .inl (dif_neg h)

theorem toLower_toLower (c : Char) : c.toLower.toLower = c.toLower := by
  rcases toLower_eq_or_capital c with h | ⟨hlow, hhigh, h⟩
  · rw [h, h]
  · rcases toLower_eq_or_capital c.toLower with h' | ⟨-, hhigh', -⟩
    · exact h'
    · omega

theorem lowerChar_toLower (c : Char) : lowerChar c.toLower = lowerChar c := by
  rcases toLower_eq_or_capital c with h | ⟨hlow, hhigh, h⟩
  · rw [h]
  · have hlt : c.toLower.toNat < 0x80 := by omega
    have hlt' : c.toNat < 0x80 := by omega
    rw [lowerChar, lowerChar, if_pos hlt, if_pos hlt', toLower_toLower]

theorem toLower_eq_sigma_iff (c : Char) : c.toLower = 'Σ' ↔ c = 'Σ' := by
  rcases toLower_eq_or_capital c with h | ⟨hlow, hhigh, h⟩
  · rw [h]
  · have hsigma : 'Σ'.toNat = 0x3A3 := rfl
    constructor
    · intro heq
      rw [heq] at h
      omega
    · rintro rfl
      omega

def IsLetter (c : Char) : Prop :=
  0x41 ≤ c.toNat ∧ c.toNat ≤ 0x5A ∨ 0x61 ≤ c.toNat ∧ c.toNat ≤ 0x7A

theorem IsLetter.not_caseIgnorable {c : Char} (h : IsLetter c) :
    inRanges caseIgnorableRanges c = false := by
  have hapart : ∀ range ∈ caseIgnorableRanges,
      range.2 < 0x41 ∨ 0x5A < range.1 ∧ range.2 < 0x61 ∨ 0x7A < range.1 := by decide +kernel
  refine List.any_eq_false.2 fun range hrange => ?_
  have := hapart range hrange
  simp only [IsLetter] at h
  simp only [Bool.and_eq_true, decide_eq_true_eq]
  omega

theorem IsLetter.cased {c : Char} (h : IsLetter c) : inRanges casedRanges c = true := by
  have hmem : (0x41, 0x5A) ∈ casedRanges ∧ (0x61, 0x7A) ∈ casedRanges := by decide
  refine List.any_eq_true.2 ?_
  rcases h with h | h
  · exact ⟨_, hmem.1, by simpa using h⟩
  · exact ⟨_, hmem.2, by simpa using h⟩

theorem isLetter_of_capital {c : Char}
    (h : 0x41 ≤ c.toNat ∧ c.toNat ≤ 0x5A ∧ c.toLower.toNat = c.toNat + 32) :
    IsLetter c ∧ IsLetter c.toLower := by
  simp only [IsLetter]
  omega

theorem caseIgnorable_toLower (c : Char) :
    inRanges caseIgnorableRanges c.toLower = inRanges caseIgnorableRanges c := by
  rcases toLower_eq_or_capital c with h | h
  · rw [h]
  · obtain ⟨hc, hlower⟩ := isLetter_of_capital h
    rw [hc.not_caseIgnorable, hlower.not_caseIgnorable]

theorem cased_toLower (c : Char) : inRanges casedRanges c.toLower = inRanges casedRanges c := by
  rcases toLower_eq_or_capital c with h | h
  · rw [h]
  · obtain ⟨hc, hlower⟩ := isLetter_of_capital h
    rw [hc.cased, hlower.cased]

theorem nextIsCased_map_toLower (cs : List Char) :
    nextIsCased (cs.map Char.toLower) = nextIsCased cs := by
  have hignorable : inRanges caseIgnorableRanges ∘ Char.toLower = inRanges caseIgnorableRanges :=
    funext caseIgnorable_toLower
  simp only [nextIsCased, List.dropWhile_map, hignorable]
  cases cs.dropWhile (inRanges caseIgnorableRanges) with
  | nil => rfl
  | cons c rest => exact cased_toLower c

theorem lowerFrom_map_toLower (before cs : List Char) :
    lowerFrom (before.map Char.toLower) (cs.map Char.toLower) = lowerFrom before cs := by
  induction cs generalizing before with
  | nil => rfl
  | cons c cs ih =>
    have ih := ih (c :: before)
    rw [List.map_cons] at ih ⊢
    simp only [lowerFrom, toLower_eq_sigma_iff, nextIsCased_map_toLower, lowerChar_toLower, ih]

theorem lower_nameKey (name : String) : lower (nameKey name) = lower name := by
  rw [lower, nameKey, String.toList_ofList]
  exact congrArg String.ofList (lowerFrom_map_toLower [] name.toList)

end Text

theorem Record.key_eq {a b : String} (h : Text.sameName a b = true) : key a = key b := by
  rw [key, key, ← Text.lower_nameKey a, ← Text.lower_nameKey b, Text.sameName_iff.1 h]

end Flatfile
