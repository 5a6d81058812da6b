import Flatfile.Delimited.Blank
import Flatfile.Proofs.Stream.Remaining

/-!
# Going back to a mark

Between a mark and the way back to it a stream notes what it takes and forgets what it is given
back. `Rewinds` ties the notes to the characters that are left: read in the order in which they were
taken, and with what is left behind them, they are what was left at the mark. Every operation of a
look-ahead keeps this, in the middle of a match too, so that going back restores all of it.
-/

namespace Flatfile

namespace TextStream

/-- Since the mark, at which `start` was left, all but `cs` was taken. -/
structure Rewinds (s : TextStream) (start cs : List Char) : Prop extends Holds s cs where
  noted : ∃ taken, s.journal = some taken ∧ start = taken.reverse ++ cs

variable {s s' : TextStream} {start cs seen pattern : List Char} {c : Char}

theorem Holds.mark (h : s.Holds cs) : s.mark.Rewinds cs cs :=
  ⟨⟨h.quiet, h.remaining⟩, [], rfl, rfl⟩

theorem Rewinds.reset (h : s.Rewinds start cs) : s.reset.Holds start := by
  obtain ⟨taken, hjournal, rfl⟩ := h.noted
  have hreset : s.reset = { s with ahead := taken.reverse ++ s.ahead, journal := none } := by
    simp [TextStream.reset, hjournal]
  rw [hreset]
  refine ⟨h.quiet, ?_⟩
  rw [← h.remaining]
  exact List.append_assoc ..

theorem next_journal (s : TextStream) :
    s.next.2.journal = match s.next.1 with
      | .ok (some c) => s.journal.map (c :: ·)
      | _ => s.journal := by
  simp only [next]
  cases s.ahead with
  | cons c ahead => rfl
  | nil =>
    simp only
    split <;> rfl

theorem Rewinds.next (h : s.Rewinds start cs) :
    ∃ s', s.next = (.ok cs.head?, s') ∧ s'.Rewinds start cs.tail := by
  obtain ⟨s', hnext, hs'⟩ := h.toHolds.next
  obtain ⟨taken, hjournal, rfl⟩ := h.noted
  have hnoted := s.next_journal
  rw [hnext] at hnoted
  refine ⟨s', hnext, hs', ?_⟩
  cases cs with
  | nil => exact ⟨taken, hnoted.trans hjournal, rfl⟩
  | cons c cs => exact ⟨c :: taken, hnoted.trans (by rw [hjournal]; rfl), by simp⟩

theorem Rewinds.unread (h : s.Rewinds start cs) (hc : c :: cs <:+ start) :
    (s.unread c).Rewinds start (c :: cs) := by
  obtain ⟨taken, hjournal, rfl⟩ := h.noted
  refine ⟨h.toHolds.unread c, ?_⟩
  obtain ⟨before, hbefore⟩ := hc
  have hlast : before ++ [c] = taken.reverse := by
    apply List.append_cancel_right
    rw [List.append_assoc]
    exact hbefore
  refine ⟨before.reverse, ?_, by rw [List.reverse_reverse, hbefore]⟩
  have htaken : taken = c :: before.reverse := by
    rw [← taken.reverse_reverse, ← hlast, List.reverse_append]
    rfl
  simp [TextStream.unread, hjournal, htaken]

theorem Rewinds.unreadAll (h : s.Rewinds start cs) (hseen : seen.reverse ++ cs <:+ start) :
    (s.unreadAll seen).Rewinds start (seen.reverse ++ cs) := by
  induction seen generalizing s cs with
  | nil => exact h
  | cons c seen ih =>
    rw [List.reverse_cons, List.append_assoc] at hseen ⊢
    exact ih (h.unread ((List.suffix_append _ _).trans hseen)) hseen

/-- A match that breaks off gives back the characters that it has seen, and only these. -/
theorem Rewinds.matchFrom (h : s.Rewinds start cs) (hseen : seen.reverse ++ cs <:+ start) :
    ∃ left, (s.matchFrom seen pattern).2.Rewinds start left := by
  induction pattern generalizing s cs seen with
  | nil => exact ⟨cs, h⟩
  | cons expected pattern ih =>
    obtain ⟨s₁, hnext, h₁⟩ := h.next
    simp only [TextStream.matchFrom, hnext]
    cases cs with
    | nil => exact ⟨seen.reverse ++ [], h₁.unreadAll hseen⟩
    | cons c cs =>
      simp only [List.head?_cons]
      split
      · exact ih h₁ (by simpa using hseen)
      · have hback := h₁.unread ((List.suffix_append _ _).trans hseen)
        exact ⟨_, hback.unreadAll hseen⟩

theorem Rewinds.suffix (h : s.Rewinds start cs) : cs <:+ start := by
  obtain ⟨taken, -, rfl⟩ := h.noted
  exact List.suffix_append _ _

theorem Rewinds.tryMatch (h : s.Rewinds start cs) (pattern : List Char) :
    ∃ left, (s.tryMatch pattern).2.Rewinds start left :=
  h.matchFrom h.suffix

theorem Rewinds.atEnd (h : s.Rewinds start cs) : ∃ left, s.atEnd.2.Rewinds start left := by
  obtain ⟨s₁, hnext, h₁⟩ := h.next
  simp only [TextStream.atEnd, hnext]
  cases cs with
  | nil => exact ⟨[], h₁⟩
  | cons c cs => exact ⟨c :: cs, h₁.unread h.suffix⟩

end TextStream

namespace Delimited

open TextStream (Rewinds)

variable {s : TextStream} {start cs separator : List Char} {count : Nat}

theorem skipBlanks_rewinds (h : s.Rewinds start cs) :
    ∃ left, (skipBlanks separator s count).2.Rewinds start left := by
  fun_induction skipBlanks separator s count generalizing cs with
  | case1 => exact ⟨cs, h⟩
  | case2 s count _ s₁ hmatch ih =>
    obtain ⟨left, h₁⟩ := h.tryMatch separator
    rw [hmatch] at h₁
    exact ih h₁
  | case3 s count _ s₁ hmatch =>
    obtain ⟨left, h₁⟩ := h.tryMatch separator
    rw [hmatch] at h₁
    exact ⟨left, h₁⟩
  | case4 s count _ fault s₁ hmatch =>
    obtain ⟨left, h₁⟩ := h.tryMatch separator
    rw [hmatch] at h₁
    exact ⟨left, h₁⟩

theorem toRecord_rewinds (h : s.Rewinds start cs) (ignoreBlanks : Bool) (separator : List Char) :
    ∃ left, (toRecord ignoreBlanks separator s).2.Rewinds start left := by
  have hskip : ∃ left,
      (if ignoreBlanks then skipBlanks separator s 0 else (.ok 0, s)).2.Rewinds start left := by
    cases ignoreBlanks with
    | false => exact ⟨cs, h⟩
    | true => exact skipBlanks_rewinds h
  simp only [toRecord]
  split <;> rename_i heq <;> rw [heq] at hskip <;> obtain ⟨left, h₁⟩ := hskip
  · exact ⟨left, h₁⟩
  · have hend := h₁.atEnd
    split <;> rename_i hend' <;> rw [hend'] at hend <;> exact hend

end Delimited
end Flatfile
