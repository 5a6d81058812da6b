/-!
# Text between separators

A text is cut where a separator occurs first, and again in what follows. Occurrences do not
overlap. The text before the first separator is what a reader sees as the next piece, and the text
after it is where the reader goes on.
-/

namespace Flatfile.Text

/-- The pieces of a text between the occurrences of `pattern`, from left to right; an empty pattern
divides nothing. -/
def split (pattern : List Char) : List Char → List (List Char)
  | [] => [[]]
  | c :: rest =>
    if pattern ≠ [] ∧ pattern <+: c :: rest then
      [] :: split pattern (rest.drop (pattern.length - 1))
    else (split pattern rest).modifyHead (c :: ·)
termination_by cs => cs.length
decreasing_by all_goals (simp only [List.length_drop, List.length_cons]; omega)

/-- The first piece of a text, and what follows the separator after it, if there is one. -/
def cut (pattern : List Char) : List Char → List Char × Option (List Char)
  | [] => ([], none)
  | c :: rest =>
    if pattern <+: c :: rest then ([], some ((c :: rest).drop pattern.length))
    else (c :: (cut pattern rest).1, (cut pattern rest).2)

variable {pattern rest front cs : List Char} {c : Char}

-- ------------------------------------------------------------------
-- The first piece
-- ------------------------------------------------------------------

theorem cut_append (hp : pattern ≠ []) (rest : List Char) :
    cut pattern (pattern ++ rest) = ([], some rest) := by
  cases pattern with
  | nil => exact absurd rfl hp
  | cons p pattern => simp [cut]

theorem cut_cons (hp : ¬ pattern <+: c :: rest) :
    cut pattern (c :: rest) = (c :: (cut pattern rest).1, (cut pattern rest).2) := by
  rw [cut, if_neg hp]

theorem cut_of_disjoint (hp : pattern ≠ []) (hfront : ∀ c ∈ front, c ∉ pattern) :
    cut pattern (front ++ rest) = (front ++ (cut pattern rest).1, (cut pattern rest).2) := by
  induction front with
  | nil => rfl
  | cons c front ih =>
    have hc : ¬ pattern <+: c :: (front ++ rest) := by
      cases pattern with
      | nil => exact absurd rfl hp
      | cons p pattern =>
        intro h
        obtain ⟨rfl, -⟩ := List.cons_prefix_cons.1 h
        exact hfront p List.mem_cons_self List.mem_cons_self
    rw [List.cons_append, cut_cons hc, ih fun c hc => hfront c (List.mem_cons_of_mem _ hc)]
    rfl

theorem cut_prefix (pattern cs : List Char) : (cut pattern cs).1 <+: cs := by
  induction cs with
  | nil => exact List.nil_prefix
  | cons c cs ih =>
    rw [cut]
    split
    · exact List.nil_prefix
    · exact List.cons_prefix_cons.2 ⟨rfl, ih⟩

theorem cut_none (h : (cut pattern cs).2 = none) : (cut pattern cs).1 = cs := by
  induction cs with
  | nil => rfl
  | cons c cs ih =>
    rw [cut] at h ⊢
    split at h
    · simp at h
    · rename_i hp
      rw [if_neg hp, ih h]

def pastNext (pattern cs : List Char) : List Char :=
  (cut pattern cs).2.getD []

def OnlyAtEnd (pattern cs : List Char) : Prop :=
  ∀ front back, cs = front ++ (pattern ++ back) → back = []

theorem pastNext_of_begins (hp : pattern <+: cs) : pastNext pattern cs = cs.drop pattern.length := by
  cases cs with
  | nil => simp [pastNext, cut]
  | cons c cs => rw [pastNext, cut, if_pos hp, Option.getD_some]

theorem pastNext_cons (hp : ¬ pattern <+: c :: rest) :
    pastNext pattern (c :: rest) = pastNext pattern rest := by
  rw [pastNext, cut_cons hp, pastNext]

theorem pastNext_length_lt (hp : pattern ≠ []) (hcs : cs ≠ []) :
    (pastNext pattern cs).length < cs.length := by
  induction cs with
  | nil => exact absurd rfl hcs
  | cons c cs ih =>
    by_cases hbegins : pattern <+: c :: cs
    · have := List.length_pos_iff.2 hp
      rw [pastNext_of_begins hbegins, List.length_drop, List.length_cons]
      omega
    · rw [pastNext_cons hbegins, List.length_cons]
      by_cases hnil : cs = []
      · simp [hnil, pastNext, cut]
      · exact Nat.lt_succ_of_lt (ih hnil)

theorem onlyAtEnd_of_begins (hp : pattern <+: cs) :
    OnlyAtEnd pattern cs ↔ pattern.length = cs.length := by
  obtain ⟨back, rfl⟩ := hp
  constructor
  · intro h
    simp [h [] back rfl]
  · intro hlen front back' heq
    have := congrArg List.length heq
    rw [List.length_append] at hlen
    simp only [List.length_append] at this
    exact List.length_eq_zero_iff.1 (by omega)

theorem onlyAtEnd_cons (hp : ¬ pattern <+: c :: cs) :
    OnlyAtEnd pattern (c :: cs) ↔ OnlyAtEnd pattern cs := by
  constructor
  · intro h front back heq
    exact h (c :: front) back (by rw [heq, List.cons_append])
  · intro h front back heq
    cases front with
    | nil => exact absurd ⟨back, heq.symm⟩ hp
    | cons c' front => exact h front back (List.cons.inj heq).2

theorem OnlyAtEnd.of_append (h : OnlyAtEnd pattern (front ++ cs)) : OnlyAtEnd pattern cs := by
  intro before back heq
  exact h (front ++ before) back (by rw [heq, List.append_assoc])

/-- The first separator in a text and what follows it is the one at the end of the text exactly if
there is none before. -/
theorem pastNext_append_iff (h : pattern <:+ cs ∨ rest = []) :
    pastNext pattern (cs ++ rest) = rest ↔ OnlyAtEnd pattern cs := by
  induction cs with
  | nil =>
    have hrest : pastNext pattern rest = rest := by
      rcases h with hsuffix | rfl
      · obtain rfl := List.suffix_nil.1 hsuffix
        exact pastNext_of_begins List.nil_prefix
      · rfl
    refine iff_of_true hrest fun front back heq => ?_
    exact (List.append_eq_nil_iff.1 (List.append_eq_nil_iff.1 heq.symm).2).2
  | cons c cs ih =>
    by_cases hp : pattern <+: c :: (cs ++ rest)
    · have hshort : pattern.length ≤ (c :: cs).length := by
        rcases h with hsuffix | rfl
        · exact hsuffix.length_le
        · simpa using hp.length_le
      have hin : pattern <+: c :: cs :=
        List.prefix_of_prefix_length_le hp (List.prefix_append (c :: cs) rest) hshort
      rw [onlyAtEnd_of_begins hin, List.cons_append, pastNext_of_begins hp]
      constructor
      · intro heq
        have := congrArg List.length heq
        simp only [List.length_drop, List.length_cons, List.length_append] at this hshort ⊢
        omega
      · intro hlen
        rw [hlen, ← List.cons_append, List.drop_left]
    · have hin : ¬ pattern <+: c :: cs := fun hin => hp (hin.trans (List.prefix_append _ rest))
      rw [onlyAtEnd_cons hin, List.cons_append, pastNext_cons hp]
      refine ih (h.imp_left fun hsuffix => ?_)
      exact (List.suffix_cons_iff.1 hsuffix).resolve_left fun heq => hin (heq ▸ List.prefix_rfl)

-- ------------------------------------------------------------------
-- All pieces
-- ------------------------------------------------------------------

@[simp] theorem split_nil : split pattern [] = [[]] := by
  rw [split]

theorem split_append (hp : pattern ≠ []) (rest : List Char) :
    split pattern (pattern ++ rest) = [] :: split pattern rest := by
  cases pattern with
  | nil => exact absurd rfl hp
  | cons p pattern => simp [split]

theorem split_cons (hp : ¬ pattern <+: c :: rest) :
    split pattern (c :: rest) = (split pattern rest).modifyHead (c :: ·) := by
  rw [split, if_neg fun h => hp h.2]

theorem split_eq_cut (hp : pattern ≠ []) (cs : List Char) :
    split pattern cs = (cut pattern cs).1 ::
      ((cut pattern cs).2.map (split pattern)).getD [] := by
  induction cs with
  | nil => rw [split_nil, cut]; rfl
  | cons c cs ih =>
    by_cases h : pattern <+: c :: cs
    · obtain ⟨rest, hrest⟩ := h
      rw [← hrest, split_append hp, cut_append hp]
      rfl
    · rw [split_cons h, cut_cons h, ih]
      rfl

example : split "||".toList "a|||b||".toList = ["a", "|b", ""].map String.toList := by
  decide +kernel

end Flatfile.Text
