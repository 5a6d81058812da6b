import Flatfile.Record.Basic
import Flatfile.Text.Name

/-!
# ASCII names

Names in layouts are compared by their ASCII letters only, but a record looks its names up in lower
case throughout. For names of ASCII characters the two are the same, so that two names of a layout
that are kept apart are kept apart by a record, too.
-/

namespace Flatfile

def Text.IsAscii (s : String) : Prop :=
  ∀ c ∈ s.toList, c.toNat < 0x80

namespace Text

instance (s : String) : Decidable (IsAscii s) :=
  decidable_of_iff (s.toList.all (·.toNat < 0x80) = true) (by simp [IsAscii])

theorem IsAscii.append {s t : String} (hs : IsAscii s) (ht : IsAscii t) : IsAscii (s ++ t) := by
  intro c hc
  rw [String.toList_append] at hc
  exact (List.mem_append.1 hc).elim (hs c) (ht c)

theorem lowerFrom_ascii {cs : List Char} (h : ∀ c ∈ cs, c.toNat < 0x80) (before : List Char) :
    lowerFrom before cs = cs.map Char.toLower := by
  induction cs generalizing before with
  | nil => rfl
  | cons c cs ih =>
    rw [List.forall_mem_cons] at h
    have hc : c ≠ 'Σ' := by
      rintro rfl
      exact absurd h.1 (by decide)
    simp [lowerFrom, hc, lowerChar, h.1, ih h.2]

theorem lower_ascii {s : String} (h : IsAscii s) : lower s = nameKey s := by
  rw [lower, nameKey, lowerFrom_ascii h]

end Text

theorem Record.key_ne {a b : String} (ha : Text.IsAscii a) (hb : Text.IsAscii b)
    (h : Text.sameName a b = false) : key a ≠ key b := by
  rw [key, key, Text.lower_ascii ha, Text.lower_ascii hb]
  intro heq
  rw [Text.sameName_iff.2 heq] at h
  exact absurd h (by decide)

end Flatfile
