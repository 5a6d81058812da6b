import Flatfile.Text.Name
import Mathlib.Data.List.Nodup

/-!
# Lists as tables

A list of pairs is looked up by the first components, and the first pair of a key counts. Where no
key stands twice, the pairs that are found are the pairs that are there. So it is with entries that
have names, and then their order is of no account.
-/

namespace Flatfile

-- ------------------------------------------------------------------
-- Pairs
-- ------------------------------------------------------------------

section Pairs

variable {α : Type u} {β : Type v} [BEq α] [LawfulBEq α] {table : List (α × β)} {k k' : α} {b : β}

theorem lookup_eq_some_iff_mem (h : (table.map Prod.fst).Nodup) :
    table.lookup k = some b ↔ (k, b) ∈ table := by
  induction table with
  | nil => simp
  | cons entry table ih =>
    obtain ⟨first, value⟩ := entry
    rw [List.map_cons, List.nodup_cons] at h
    obtain ⟨hfirst, h⟩ := h
    by_cases hk : k = first
    · subst hk
      have hnot : (k, b) ∉ table := fun hmem => hfirst (List.mem_map.2 ⟨(k, b), hmem, rfl⟩)
      simp [hnot, eq_comm]
    · have hapart : (k == first) = false := beq_false_of_ne hk
      simp [List.lookup_cons, hapart, hk, ih h]

theorem mem_keys_iff : k ∈ table.map Prod.fst ↔ (table.lookup k).isSome := by
  induction table with
  | nil => simp
  | cons entry table ih =>
    obtain ⟨first, value⟩ := entry
    by_cases hk : k = first
    · simp [hk]
    · have hapart : (k == first) = false := beq_false_of_ne hk
      rw [List.lookup_cons, hapart, ← ih]
      simp [hk]

variable [DecidableEq α]

theorem lookup_filter_of_ne (h : k ≠ k') :
    (table.filter fun (other, _) => other ≠ k').lookup k = table.lookup k := by
  induction table with
  | nil => rfl
  | cons entry table ih =>
    obtain ⟨first, value⟩ := entry
    by_cases hfirst : first = k'
    · have hapart : (k == first) = false := beq_false_of_ne (hfirst ▸ h)
      rw [List.filter_cons_of_neg (by simpa using hfirst), List.lookup_cons, hapart, ih]
    · rw [List.filter_cons_of_pos (by simpa using hfirst), List.lookup_cons, List.lookup_cons, ih]

theorem lookup_filter_self (table : List (α × β)) (k : α) :
    (table.filter fun (other, _) => other ≠ k).lookup k = none := by
  rw [List.lookup_eq_none_iff]
  intro entry hentry
  have hne : entry.1 ≠ k := of_decide_eq_true (List.mem_filter.1 hentry).2
  exact bne_iff_ne.2 hne.symm

end Pairs

-- ------------------------------------------------------------------
-- Entries with names
-- ------------------------------------------------------------------

section Names

variable {α : Type u} {nameOf : α → String} {entries entries' : List α} {a b : α} {name : String}

def NamesApart (nameOf : α → String) (entries : List α) : Prop :=
  entries.Pairwise fun a b => ¬ Text.sameName (nameOf a) (nameOf b)

theorem NamesApart.perm (h : NamesApart nameOf entries) (hperm : entries.Perm entries') :
    NamesApart nameOf entries' :=
  List.Pairwise.perm h hperm fun hab => Text.sameName_comm .. ▸ hab

theorem NamesApart.find?_eq_some_iff (h : NamesApart nameOf entries) :
    (entries.find? fun a => Text.sameName (nameOf a) name) = some a ↔
      a ∈ entries ∧ Text.sameName (nameOf a) name := by
  constructor
  · intro hfind
    have hname := List.find?_some hfind
    exact ⟨List.mem_of_find?_eq_some hfind, hname⟩
  rintro ⟨ha, hname⟩
  induction entries with
  | nil => cases ha
  | cons b entries ih =>
    obtain ⟨hb, h⟩ := List.pairwise_cons.1 h
    rcases List.mem_cons.1 ha with rfl | ha
    · simp only [List.find?_cons, hname]
    · have hapart : Text.sameName (nameOf b) name = false := Bool.eq_false_iff.2 fun hsame =>
        hb a ha (Text.sameName_iff.2 ((Text.sameName_iff.1 hsame).trans
          (Text.sameName_iff.1 hname).symm))
      simp only [List.find?_cons, hapart, ih h ha]

theorem NamesApart.eq_of_sameName (h : NamesApart nameOf entries) (ha : a ∈ entries)
    (hb : b ∈ entries) (hab : Text.sameName (nameOf a) (nameOf b)) : a = b := by
  have hfound := h.find?_eq_some_iff.2 ⟨ha, hab⟩
  exact Option.some.inj (hfound.symm.trans (h.find?_eq_some_iff.2 ⟨hb, Text.sameName_refl _⟩))

theorem NamesApart.find?_perm (h : NamesApart nameOf entries) (hperm : entries.Perm entries') :
    (entries.find? fun a => Text.sameName (nameOf a) name) =
      entries'.find? fun a => Text.sameName (nameOf a) name :=
  Option.ext fun a => by
    rw [h.find?_eq_some_iff, (h.perm hperm).find?_eq_some_iff, hperm.mem_iff]

end Names
end Flatfile
