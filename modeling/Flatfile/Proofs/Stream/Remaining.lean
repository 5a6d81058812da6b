import Flatfile.Stream.TextStream

/-!
# What is left of a stream

A stream without interruptions and faults ahead is known by the characters that are left of it:
those that were given back, then those of the bytes that the source still holds, however these
arrive. `Holds` names this view, and each operation on streams has a lemma that says what it does to
the characters that are left.
-/

namespace Flatfile

-- ------------------------------------------------------------------
-- Bytes
-- ------------------------------------------------------------------

namespace Source

structure Quiet (s : Source) : Prop where
  deliveries : .interruption ∉ s.deliveries
  fault : s.fault = none

variable {s : Source}

theorem Quiet.next_nil (h : s.Quiet) (hr : s.rest = []) : s.next = (.ok none, s) := by
  obtain ⟨ready, deliveries, fault⟩ := s
  obtain ⟨hd, rfl⟩ := h
  obtain ⟨rfl, hflat⟩ := List.append_eq_nil_iff.1 hr
  cases deliveries with
  | nil => rfl
  | cons d more =>
    cases d with
    | chunk b rest => simp [Delivery.bytes] at hflat
    | interruption => simp at hd

theorem Quiet.next_cons (h : s.Quiet) {b : UInt8} {bs : List UInt8} (hr : s.rest = b :: bs) :
    ∃ s', s.next = (.ok (some b), s') ∧ s'.Quiet ∧ s'.rest = bs := by
  obtain ⟨ready, deliveries, fault⟩ := s
  obtain ⟨hd, rfl⟩ := h
  cases ready with
  | cons b' ready =>
    obtain ⟨rfl, rfl⟩ := List.cons.inj hr
    exact ⟨_, rfl, ⟨hd, rfl⟩, rfl⟩
  | nil =>
    cases deliveries with
    | nil => simp [rest] at hr
    | cons d more =>
      cases d with
      | chunk b' chunk =>
        obtain ⟨rfl, rfl⟩ := List.cons.inj hr
        exact ⟨_, rfl, ⟨fun hm => hd (List.mem_cons_of_mem _ hm), rfl⟩, rfl⟩
      | interruption => simp at hd

theorem Quiet.takeStrictly (h : s.Quiet) (n : Nat) :
    ∃ s', takeStrictly n s = (.ok (s.rest.take n), s') ∧ s'.Quiet ∧ s'.rest = s.rest.drop n := by
  induction n generalizing s with
  | zero => exact ⟨s, rfl, h, rfl⟩
  | succ n ih =>
    cases hr : s.rest with
    | nil =>
      refine ⟨s, ?_, h, hr⟩
      simp [Source.takeStrictly, h.next_nil hr]
    | cons b bs =>
      obtain ⟨s₁, hnext, h₁, rfl⟩ := h.next_cons hr
      obtain ⟨s₂, htake, h₂, hrest⟩ := ih h₁
      refine ⟨s₂, ?_, h₂, hrest⟩
      simp [Source.takeStrictly, hnext, htake, Except.map]

end Source

-- ------------------------------------------------------------------
-- Characters
-- ------------------------------------------------------------------

namespace TextStream

/-- The character that a stream reads first from some bytes, and the bytes after it. -/
def firstChar? (charset : Charset) : List UInt8 → Option (Char × List UInt8)
  | [] => none
  | lead :: rest =>
    if charset.singleByte ∨ lead < 0x80 then some (charset.decodeByte lead, rest)
    else
      match groupTail? lead with
      | none => some (Text.Utf8.replacement, rest)
      | some n => some (groupChar (lead :: rest.take n), rest.drop n)

theorem firstChar?_length {charset : Charset} {bytes rest : List UInt8} {c : Char}
    (h : firstChar? charset bytes = some (c, rest)) : rest.length < bytes.length := by
  cases bytes with
  | nil => simp [firstChar?] at h
  | cons lead bytes =>
    simp only [firstChar?] at h
    split at h
    · simp only [Option.some.injEq, Prod.mk.injEq] at h
      simp [← h.2]
    · split at h
      · simp only [Option.some.injEq, Prod.mk.injEq] at h
        simp [← h.2]
      · simp only [Option.some.injEq, Prod.mk.injEq] at h
        simp only [← h.2, List.length_drop, List.length_cons]
        omega

def charsOf (charset : Charset) (bytes : List UInt8) : List Char :=
  match _h : firstChar? charset bytes with
  | none => []
  | some (c, rest) => c :: charsOf charset rest
termination_by bytes.length
decreasing_by exact firstChar?_length _h

@[simp] theorem charsOf_nil (charset : Charset) : charsOf charset [] = [] := by
  rw [charsOf]
  rfl

theorem charsOf_cons {charset : Charset} {bytes rest : List UInt8} {c : Char}
    (h : firstChar? charset bytes = some (c, rest)) :
    charsOf charset bytes = c :: charsOf charset rest := by
  rw [charsOf]
  generalize firstChar? charset bytes = first at h ⊢
  subst h
  rfl

theorem charsOf_eq_map {charset : Charset} {bytes : List UInt8}
    (h : ∀ b ∈ bytes, charset.singleByte ∨ b < 0x80) :
    charsOf charset bytes = bytes.map charset.decodeByte := by
  induction bytes with
  | nil => simp
  | cons b bytes ih =>
    rw [List.forall_mem_cons] at h
    have hfirst : firstChar? charset (b :: bytes) = some (charset.decodeByte b, bytes) := if_pos h.1
    rw [charsOf_cons hfirst, ih h.2, List.map_cons]

theorem readChar_quiet (charset : Charset) {source : Source} (h : source.Quiet) :
    ∃ found source', readChar charset source = (.ok found, source') ∧ source'.Quiet ∧
      charsOf charset source.rest = found.toList ++ charsOf charset source'.rest ∧
      (found = none → source.rest = []) := by
  cases hr : source.rest with
  | nil => exact ⟨none, source, by simp [readChar, h.next_nil hr], h, by simp [hr], fun _ => rfl⟩
  | cons lead bytes =>
    obtain ⟨source₁, hnext, h₁, rfl⟩ := h.next_cons hr
    simp only [readChar, hnext]
    split
    · rename_i hsingle
      refine ⟨some _, source₁, rfl, h₁, charsOf_cons ?_, by simp⟩
      simp [firstChar?, hsingle]
    · rename_i hsingle
      split
      · rename_i htail
        refine ⟨some _, source₁, rfl, h₁, charsOf_cons ?_, by simp⟩
        simp [firstChar?, hsingle, htail]
      · rename_i n htail
        obtain ⟨source₂, htake, h₂, hrest⟩ := h₁.takeStrictly n
        refine ⟨some _, source₂, by rw [htake]; rfl, h₂, charsOf_cons ?_, by simp⟩
        simp [firstChar?, hsingle, htail, hrest]

def remaining (s : TextStream) : List Char :=
  s.ahead ++ charsOf s.charset s.source.rest

/-- These characters are left, and nothing keeps the stream from giving them. -/
structure Holds (s : TextStream) (cs : List Char) : Prop where
  quiet : s.source.Quiet
  remaining : s.remaining = cs

theorem holds_ofBytes (charset : Charset) (bytes : List UInt8) :
    (ofSource charset (Source.ofBytes bytes)).Holds (charsOf charset bytes) := by
  cases bytes with
  | nil => exact ⟨⟨by simp [ofSource, Source.ofBytes, Delivery.ofBytes], rfl⟩, rfl⟩
  | cons b bytes =>
    refine ⟨⟨by simp [ofSource, Source.ofBytes, Delivery.ofBytes], rfl⟩, ?_⟩
    simp [TextStream.remaining, ofSource, Source.ofBytes, Source.rest, Delivery.ofBytes,
      Delivery.bytes]

theorem holds_ofSource (charset : Charset) {deliveries : List Delivery}
    (h : .interruption ∉ deliveries) :
    (ofSource charset { deliveries }).Holds
      (charsOf charset (deliveries.flatMap Delivery.bytes)) :=
  ⟨⟨h, rfl⟩, by simp [TextStream.remaining, ofSource, Source.rest]⟩

theorem holds_ofBytes_map {charset : Charset} {bytes : List UInt8}
    (h : ∀ b ∈ bytes, charset.singleByte ∨ b < 0x80) :
    (ofSource charset (Source.ofBytes bytes)).Holds (bytes.map charset.decodeByte) :=
  charsOf_eq_map h ▸ holds_ofBytes charset bytes

variable {s : TextStream} {c : Char} {cs rest pattern : List Char}

theorem Holds.unread (h : s.Holds cs) (c : Char) : (s.unread c).Holds (c :: cs) :=
  ⟨h.quiet, congrArg (c :: ·) h.remaining⟩

theorem Holds.unreadAll (h : s.Holds cs) (given : List Char) :
    (s.unreadAll given).Holds (given.reverse ++ cs) := by
  induction given generalizing s cs with
  | nil => exact h
  | cons c given ih => simpa [TextStream.unreadAll] using ih (h.unread c)

theorem Holds.next (h : s.Holds cs) :
    ∃ s', s.next = (.ok cs.head?, s') ∧ s'.Holds cs.tail := by
  obtain ⟨source, charset, ahead, journal⟩ := s
  obtain ⟨hq, rfl⟩ := h
  cases ahead with
  | cons c ahead => exact ⟨_, rfl, hq, rfl⟩
  | nil =>
    obtain ⟨found, source', hread, hq', hchars, hnone⟩ := readChar_quiet charset hq
    simp only [TextStream.next, hread, TextStream.remaining, List.nil_append, hchars]
    cases found with
    | none =>
      have hend : charsOf charset source'.rest = [] := by simpa [hnone rfl] using hchars
      refine ⟨⟨source', charset, [], journal⟩, by simp [hend], hq', ?_⟩
      simp [TextStream.remaining, hend]
    | some c => exact ⟨_, rfl, hq', by simp [TextStream.remaining, note]⟩

theorem Holds.next_nil (h : s.Holds []) : ∃ s', s.next = (.ok none, s') ∧ s'.Holds [] :=
  h.next

theorem Holds.next_cons (h : s.Holds (c :: cs)) :
    ∃ s', s.next = (.ok (some c), s') ∧ s'.Holds cs :=
  h.next

theorem Holds.matchFrom_append (h : s.Holds (pattern ++ rest)) (seen : List Char) :
    ∃ s', s.matchFrom seen pattern = (.ok true, s') ∧ s'.Holds rest := by
  induction pattern generalizing s seen with
  | nil => exact ⟨s, rfl, h⟩
  | cons c pattern ih =>
    obtain ⟨s₁, hnext, h₁⟩ := h.next_cons
    obtain ⟨s₂, hmatch, h₂⟩ := ih h₁ (c :: seen)
    exact ⟨s₂, by simp [TextStream.matchFrom, hnext, hmatch], h₂⟩

theorem Holds.matchFrom_of_absent (h : s.Holds cs) (hp : ¬ pattern <+: cs)
    (seen : List Char) :
    ∃ s', s.matchFrom seen pattern = (.ok false, s') ∧ s'.Holds (seen.reverse ++ cs) := by
  induction pattern generalizing s cs seen with
  | nil => exact absurd List.nil_prefix hp
  | cons expected pattern ih =>
    cases cs with
    | nil =>
      obtain ⟨s₁, hnext, h₁⟩ := h.next_nil
      exact ⟨s₁.unreadAll seen, by simp [TextStream.matchFrom, hnext], h₁.unreadAll seen⟩
    | cons c cs =>
      obtain ⟨s₁, hnext, h₁⟩ := h.next_cons
      by_cases hc : c = expected
      · obtain ⟨s₂, hmatch, h₂⟩ :=
          ih h₁ (fun hm => hp (List.cons_prefix_cons.2 ⟨hc.symm, hm⟩)) (c :: seen)
        exact ⟨s₂, by simp [TextStream.matchFrom, hnext, hc, ← hmatch], by simpa using h₂⟩
      · refine ⟨(s₁.unread c).unreadAll seen, ?_, (h₁.unread c).unreadAll seen⟩
        simp [TextStream.matchFrom, hnext, hc]

theorem Holds.tryMatch_append (h : s.Holds (pattern ++ rest)) :
    ∃ s', s.tryMatch pattern = (.ok true, s') ∧ s'.Holds rest :=
  h.matchFrom_append []

theorem Holds.tryMatch_of_absent (h : s.Holds cs) (hp : ¬ pattern <+: cs) :
    ∃ s', s.tryMatch pattern = (.ok false, s') ∧ s'.Holds cs :=
  h.matchFrom_of_absent hp []

theorem Holds.atEnd (h : s.Holds cs) : ∃ s', s.atEnd = (.ok cs.isEmpty, s') ∧ s'.Holds cs := by
  cases cs with
  | nil =>
    obtain ⟨s', hnext, h'⟩ := h.next_nil
    exact ⟨s', by simp [TextStream.atEnd, hnext], h'⟩
  | cons c cs =>
    obtain ⟨s', hnext, h'⟩ := h.next_cons
    exact ⟨s'.unread c, by simp [TextStream.atEnd, hnext], h'.unread c⟩

-- ------------------------------------------------------------------
-- What an answer says of the characters
-- ------------------------------------------------------------------

variable {s' : TextStream}

theorem Holds.of_next_some (h : s.Holds cs) (hnext : s.next = (.ok (some c), s')) :
    ∃ rest, cs = c :: rest ∧ s'.Holds rest := by
  obtain ⟨s₁, hnext', h₁⟩ := h.next
  obtain ⟨hhead, rfl⟩ := Prod.mk.inj (hnext.symm.trans hnext')
  cases cs with
  | nil => simp at hhead
  | cons c' rest =>
    obtain rfl : c = c' := by simpa using hhead
    exact ⟨rest, rfl, h₁⟩

theorem Holds.of_next_none (h : s.Holds cs) (hnext : s.next = (.ok none, s')) :
    cs = [] ∧ s'.Holds [] := by
  obtain ⟨s₁, hnext', h₁⟩ := h.next
  obtain ⟨hhead, rfl⟩ := Prod.mk.inj (hnext.symm.trans hnext')
  cases cs with
  | nil => exact ⟨rfl, h₁⟩
  | cons c' rest => simp at hhead

theorem Holds.of_atEnd (h : s.Holds cs) {found : Bool}
    (hend : s.atEnd = (.ok found, s')) : found = cs.isEmpty ∧ s'.Holds cs := by
  obtain ⟨s₁, hend', h₁⟩ := h.atEnd
  obtain ⟨hfound, rfl⟩ := Prod.mk.inj (hend.symm.trans hend')
  exact ⟨Except.ok.inj hfound, h₁⟩

theorem Holds.of_tryMatch_true (h : s.Holds cs) (hmatch : s.tryMatch pattern = (.ok true, s')) :
    ∃ rest, cs = pattern ++ rest ∧ s'.Holds rest := by
  by_cases hp : pattern <+: cs
  · obtain ⟨rest, rfl⟩ := hp
    obtain ⟨s₁, hmatch', h₁⟩ := h.tryMatch_append
    obtain ⟨-, rfl⟩ := Prod.mk.inj (hmatch.symm.trans hmatch')
    exact ⟨rest, rfl, h₁⟩
  · obtain ⟨s₁, hmatch', -⟩ := h.tryMatch_of_absent hp
    simp [hmatch] at hmatch'

theorem Holds.of_tryMatch_false (h : s.Holds cs) (hmatch : s.tryMatch pattern = (.ok false, s')) :
    ¬ pattern <+: cs ∧ s'.Holds cs := by
  by_cases hp : pattern <+: cs
  · obtain ⟨rest, rfl⟩ := hp
    obtain ⟨s₁, hmatch', -⟩ := h.tryMatch_append
    simp [hmatch] at hmatch'
  · obtain ⟨s₁, hmatch', h₁⟩ := h.tryMatch_of_absent hp
    obtain ⟨-, rfl⟩ := Prod.mk.inj (hmatch.symm.trans hmatch')
    exact ⟨hp, h₁⟩

end TextStream
end Flatfile
