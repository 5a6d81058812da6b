import Flatfile.Proofs.Stream.Rewinding
import Flatfile.Proofs.Text.Split

/-!
# Streams as the text that is left of them

Matching takes a pattern off the text that is left, or nothing of it, also where the data ends in
the middle of the pattern. Skipping leaves what follows the first occurrence. And whatever is taken,
matched and given back after a mark, going back restores the text that was left there
(`operations_of_quiet`).
-/

namespace Flatfile

-- ------------------------------------------------------------------
-- First occurrences
-- ------------------------------------------------------------------

namespace Text

structure FirstAt (pattern front back cs : List Char) : Prop where
  occurs : cs = front ++ (pattern ++ back)
  first : ∀ front' back', cs = front' ++ (pattern ++ back') → front.length ≤ front'.length

variable {pattern front back cs : List Char} {c : Char}

theorem FirstAt.cons (h : FirstAt pattern front back cs) (hp : ¬ pattern <+: c :: cs) :
    FirstAt pattern (c :: front) back (c :: cs) := by
  constructor
  · simp [h.occurs]
  · intro front' back' heq
    cases front' with
    | nil => exact absurd ⟨back', heq.symm⟩ hp
    | cons c' front' =>
      have hrest : cs = front' ++ (pattern ++ back') := (List.cons.inj heq).2
      exact Nat.succ_le_succ (h.first front' back' hrest)

/-- The text past the next occurrence of a pattern is what follows the first one. -/
theorem pastNext_cases (pattern cs : List Char) :
    (∃ front, FirstAt pattern front (pastNext pattern cs) cs) ∨
      ¬ pattern <:+: cs ∧ pastNext pattern cs = [] := by
  induction cs with
  | nil =>
    cases pattern with
    | nil => exact .inl ⟨[], rfl, fun _ _ _ => Nat.zero_le _⟩
    | cons p pattern => exact .inr ⟨by simp, rfl⟩
  | cons c cs ih =>
    by_cases hp : pattern <+: c :: cs
    · have hback := pastNext_of_begins hp
      refine .inl ⟨[], ?_, fun _ _ _ => Nat.zero_le _⟩
      rw [hback]
      exact (List.prefix_iff_eq_append.1 hp).symm
    · have hback := pastNext_cons hp
      cases ih with
      | inl hfound =>
        obtain ⟨front, hfront⟩ := hfound
        exact .inl ⟨c :: front, hback ▸ hfront.cons hp⟩
      | inr hnone =>
        refine .inr ⟨?_, hback.trans hnone.2⟩
        rintro hinfix
        cases List.infix_cons_iff.1 hinfix with
        | inl hprefix => exact hp hprefix
        | inr hlater => exact hnone.1 hlater

end Text

namespace TextStream

variable {s : TextStream} {start cs taken : List Char}

theorem Holds.unique {cs' : List Char} (h : s.Holds cs) (h' : s.Holds cs') : cs = cs' :=
  h.remaining.symm.trans h'.remaining

-- ------------------------------------------------------------------
-- Matching and skipping
-- ------------------------------------------------------------------

theorem Holds.tryMatch (pattern : List Char) (h : s.Holds cs) :
    ∃ s', s.tryMatch pattern = (.ok (decide (pattern <+: cs)), s') ∧
      s'.Holds (if pattern <+: cs then cs.drop pattern.length else cs) := by
  by_cases hp : pattern <+: cs
  · obtain ⟨rest, rfl⟩ := hp
    obtain ⟨s', hmatch, h'⟩ := h.tryMatch_append
    exact ⟨s', by simpa using hmatch, by simpa using h'⟩
  · obtain ⟨s', hmatch, h'⟩ := h.tryMatch_of_absent hp
    exact ⟨s', by simpa [hp] using hmatch, by simpa [hp] using h'⟩

theorem skipPast_eq (s : TextStream) (separator : List Char) :
    s.skipPast separator =
      match s.tryMatch separator with
      | (.ok true, rest) => (.ok (), rest)
      | (.ok false, rest) =>
        match rest.next with
        | (.ok (some _), rest) => rest.skipPast separator
        | (.ok none, rest) => (.ok (), rest)
        | (.error fault, rest) => (.error fault, rest)
      | (.error fault, rest) => (.error fault, rest) := by
  rw [TextStream.skipPast]
  rcases s.tryMatch separator with ⟨_ | _ | _, s₁⟩
  · rfl
  · simp only
    rcases s₁.next with ⟨_ | _ | c, s₂⟩ <;> rfl
  · rfl

theorem Holds.skipPast (separator : List Char) (h : s.Holds cs) :
    ∃ s', s.skipPast separator = (.ok (), s') ∧ s'.Holds (Text.pastNext separator cs) := by
  induction cs generalizing s with
  | nil =>
    obtain ⟨s₁, hmatch, h₁⟩ := h.tryMatch separator
    by_cases hp : separator <+: []
    · rw [decide_eq_true hp] at hmatch
      rw [if_pos hp, List.drop_nil] at h₁
      exact ⟨s₁, by rw [skipPast_eq, hmatch], h₁⟩
    · rw [decide_eq_false hp] at hmatch
      rw [if_neg hp] at h₁
      obtain ⟨s₂, hnext, h₂⟩ := h₁.next_nil
      exact ⟨s₂, by rw [skipPast_eq]; simp only [hmatch, hnext], h₂⟩
  | cons c cs ih =>
    by_cases hp : separator <+: c :: cs
    · rw [Text.pastNext_of_begins hp]
      obtain ⟨rest, hrest⟩ := hp
      rw [← hrest] at h ⊢
      obtain ⟨s', hmatch, h'⟩ := h.tryMatch_append
      exact ⟨s', by rw [skipPast_eq, hmatch], by rwa [List.drop_left]⟩
    · obtain ⟨s₁, hmatch, h₁⟩ := h.tryMatch_of_absent hp
      obtain ⟨s₂, hnext, h₂⟩ := h₁.next_cons
      obtain ⟨s', hskip, h'⟩ := ih h₂
      refine ⟨s', ?_, by rwa [Text.pastNext_cons hp]⟩
      rw [skipPast_eq]
      simp only [hmatch, hnext, hskip]

-- ------------------------------------------------------------------
-- Looking ahead
-- ------------------------------------------------------------------

/-- What can be done between a mark and the way back to it. -/
inductive Peek where
  | next
  | tryMatch (pattern : List Char)
  | atEnd
  | unread
  deriving DecidableEq, Repr

/-- A stream, with the characters that its user has been given since the mark and has not given
back, the last one first. -/
structure Peeked where
  stream : TextStream
  taken : List Char := []

/-- The user knows by the answers alone what was taken. Without a character nothing is given
back. -/
def Peeked.perform (p : Peeked) : Peek → Peeked
  | .next =>
    match p.stream.next with
    | (.ok (some c), stream) => { stream, taken := c :: p.taken }
    | (_, stream) => { p with stream }
  | .tryMatch pattern =>
    match p.stream.tryMatch pattern with
    | (.ok true, stream) => { stream, taken := pattern.reverse ++ p.taken }
    | (_, stream) => { p with stream }
  | .atEnd => { p with stream := p.stream.atEnd.2 }
  | .unread =>
    match p.taken with
    | c :: taken => { stream := p.stream.unread c, taken }
    | [] => p

/-- What the user has been given since the mark, and what is left behind it, is what was left at the
mark; and the stream has noted as much. -/
def Peeked.From (p : Peeked) (start : List Char) : Prop :=
  ∃ cs, p.stream.Rewinds start cs ∧ start = p.taken.reverse ++ cs

variable {p : Peeked}

theorem Peeked.From.next (h : p.From start) : (p.perform .next).From start := by
  obtain ⟨cs, hs, hstart⟩ := h
  obtain ⟨s', hnext, hs'⟩ := hs.next
  cases cs with
  | nil =>
    simp only [Peeked.perform, hnext, List.head?_nil]
    exact ⟨[], hs', hstart⟩
  | cons c cs =>
    simp only [Peeked.perform, hnext, List.head?_cons]
    exact ⟨cs, hs', by simpa using hstart⟩

theorem Peeked.From.tryMatch (h : p.From start) (pattern : List Char) :
    (p.perform (.tryMatch pattern)).From start := by
  obtain ⟨cs, hs, hstart⟩ := h
  obtain ⟨s', hmatch, hs'⟩ := hs.toHolds.tryMatch pattern
  obtain ⟨left, hleft⟩ := hs.tryMatch pattern
  rw [hmatch] at hleft
  cases hs'.unique hleft.toHolds
  by_cases hp : pattern <+: cs
  · obtain ⟨rest, rfl⟩ := hp
    simp only [List.prefix_append, if_true, List.drop_left] at hleft
    simp only [Peeked.perform, hmatch, List.prefix_append, decide_true]
    exact ⟨rest, hleft, by simpa using hstart⟩
  · simp only [hp, if_false] at hleft
    simp only [Peeked.perform, hmatch, hp, decide_false]
    exact ⟨cs, hleft, hstart⟩

theorem Peeked.From.atEnd (h : p.From start) : (p.perform .atEnd).From start := by
  obtain ⟨cs, hs, hstart⟩ := h
  obtain ⟨s', hend, hs'⟩ := hs.toHolds.atEnd
  obtain ⟨left, hleft⟩ := hs.atEnd
  rw [hend] at hleft
  cases hs'.unique hleft.toHolds
  simp only [Peeked.perform, hend]
  exact ⟨cs, hleft, hstart⟩

theorem Peeked.From.unread (h : p.From start) : (p.perform .unread).From start := by
  obtain ⟨stream, taken⟩ := p
  obtain ⟨cs, hs, hstart⟩ := h
  cases taken with
  | nil => exact ⟨cs, hs, hstart⟩
  | cons c taken =>
    have hlast : start = taken.reverse ++ (c :: cs) := by simpa using hstart
    refine ⟨c :: cs, ?_, hlast⟩
    apply hs.unread
    rw [hlast]
    exact List.suffix_append _ _

theorem Peeked.From.perform (h : p.From start) (peek : Peek) : (p.perform peek).From start := by
  cases peek with
  | next => exact h.next
  | tryMatch pattern => exact h.tryMatch pattern
  | atEnd => exact h.atEnd
  | unread => exact h.unread

theorem Peeked.From.performAll (h : p.From start) (peeks : List Peek) :
    (peeks.foldl Peeked.perform p).From start := by
  induction peeks generalizing p with
  | nil => exact h
  | cons peek peeks ih => exact ih (h.perform peek)

theorem Holds.peeked_mark (h : s.Holds cs) : Peeked.From { stream := s.mark } cs :=
  ⟨cs, h.mark, rfl⟩

theorem Peeked.From.reset (h : p.From start) : p.stream.reset.Holds start := by
  obtain ⟨cs, hs, -⟩ := h
  exact hs.reset

-- ------------------------------------------------------------------
-- All operations
-- ------------------------------------------------------------------

/-- Where no interruption and no fault lies ahead, the operations on a stream are those on the text
that is left of it, and the stream stays as quiet as it was. -/
theorem operations_of_quiet (h : s.source.Quiet) :
    (∀ pattern, ∃ s', s.tryMatch pattern = (.ok (decide (pattern <+: s.remaining)), s') ∧
      s'.source.Quiet ∧
      (pattern <+: s.remaining → s.remaining = pattern ++ s'.remaining) ∧
      (¬ pattern <+: s.remaining → s'.remaining = s.remaining)) ∧
    (∀ pattern, ∃ s', s.skipPast pattern = (.ok (), s') ∧ s'.source.Quiet ∧
      ((∃ front, Text.FirstAt pattern front s'.remaining s.remaining) ∨
        ¬ pattern <:+: s.remaining ∧ s'.remaining = [])) ∧
    ∀ peeks : List Peek, let p := peeks.foldl Peeked.perform { stream := s.mark }
      p.stream.reset.source.Quiet ∧ p.stream.reset.remaining = s.remaining := by
  have hs : s.Holds s.remaining := ⟨h, rfl⟩
  refine ⟨fun pattern => ?_, fun pattern => ?_, fun peeks => ?_⟩
  · obtain ⟨s', hmatch, hs'⟩ := hs.tryMatch pattern
    refine ⟨s', hmatch, hs'.quiet, fun hp => ?_, fun hp => ?_⟩
    · rw [hs'.remaining, if_pos hp]
      exact (List.prefix_iff_eq_append.1 hp).symm
    · rw [hs'.remaining, if_neg hp]
  · obtain ⟨s', hskip, hs'⟩ := hs.skipPast pattern
    refine ⟨s', hskip, hs'.quiet, ?_⟩
    rw [hs'.remaining]
    exact Text.pastNext_cases pattern s.remaining
  · have hreset := (hs.peeked_mark.performAll peeks).reset
    exact ⟨hreset.quiet, hreset.remaining⟩

def givenBack : TextStream :=
  { source := .ofBytes [0x61, 0x61, 0x62, 0x2C], charset := .utf8, ahead := ['a'] }

def brokenMatches : List Peek :=
  [.tryMatch ['a', 'a', 'b'], .next, .tryMatch ['a', 'a', 'b', ',', '!'], .unread, .next, .atEnd,
    .tryMatch ['a', 'a']]

theorem operations_of_quiet_givenBack :
    givenBack.source.Quiet ∧ givenBack.remaining = ['a', 'a', 'a', 'b', ','] ∧
      (∃ s', givenBack.tryMatch ['a', 'a', 'b'] = (.ok false, s') ∧
        s'.remaining = ['a', 'a', 'a', 'b', ',']) ∧
      (∃ s', givenBack.skipPast ['a', 'a', 'b'] = (.ok (), s') ∧ s'.remaining = [',']) ∧
      (brokenMatches.foldl Peeked.perform { stream := givenBack.mark }).taken = ['a', 'a', 'a'] ∧
      (brokenMatches.foldl Peeked.perform { stream := givenBack.mark }).stream.reset.remaining =
        ['a', 'a', 'a', 'b', ','] := by
  have hquiet : givenBack.source.Quiet := ⟨by decide, rfl⟩
  have hleft : givenBack.remaining = ['a', 'a', 'a', 'b', ','] := by decide +kernel
  obtain ⟨hmatch, hskip, hpeeks⟩ := operations_of_quiet hquiet
  refine ⟨hquiet, hleft, ?_, ?_, by decide +kernel, ?_⟩
  · obtain ⟨s', hs', -, -, hkept⟩ := hmatch ['a', 'a', 'b']
    rw [hleft] at hs' hkept
    exact ⟨s', hs', hkept (by decide)⟩
  · obtain ⟨s', hs', -, hpast⟩ := hskip ['a', 'a', 'b']
    refine ⟨s', hs', ?_⟩
    rw [hleft] at hpast
    cases hpast with
    | inl hfound =>
      obtain ⟨front, hoccurs, hfirst⟩ := hfound
      have hlength : front.length ≤ 1 := hfirst ['a'] [','] rfl
      match front, hlength with
      | [], _ => simp at hoccurs
      | [c], _ => simpa using (List.cons.inj hoccurs).2.symm
    | inr hnone => exact absurd ⟨['a'], [','], rfl⟩ hnone.1
  · rw [← hleft]
    exact (hpeeks brokenMatches).2

end TextStream
end Flatfile
