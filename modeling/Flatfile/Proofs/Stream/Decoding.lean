import Flatfile.Proofs.Stream.Remaining

/-!
# Reading a stream and reading a buffer

Two readings of the same bytes. A stream takes as many bytes for a character as its first byte
announces; the reading of a whole buffer takes the longest start of a character, and leaves the byte
that cannot continue it for the next one. Both give the same character for what they take, so that
they part only where an announced byte does not belong to the character: there a stream gives one
replacement character and the bytes that it has overrun are lost, separators and quotes among them.
`drain_decodes` says where this is and what is lost.
-/

namespace Flatfile

namespace Text.Utf8

variable {n : Nat} {low high lead : UInt8} {bs rest : List UInt8}

theorem followers_prefix (n : Nat) (low high : UInt8) (bs : List UInt8) :
    followers n low high bs <+: bs.take n := by
  unfold followers
  split
  · split
    · exact List.cons_prefix_cons.2 ⟨rfl, List.takeWhile_prefix _⟩
    · exact List.nil_prefix
  · exact List.nil_prefix

theorem followers_take (n : Nat) (low high : UInt8) (bs : List UInt8) :
    followers n low high (bs.take n) = followers n low high bs := by
  cases n with
  | zero => rfl
  | succ n =>
    cases bs with
    | nil => rfl
    | cons b rest => simp [followers, List.take_take]

theorem groupTail?_of_follow? (h : follow? lead = some (n, low, high)) :
    TextStream.groupTail? lead = some n := by
  unfold follow? at h
  repeat' split at h
  case isFalse.isFalse.isFalse.isFalse.isFalse.isFalse.isFalse => simp at h
  all_goals
    obtain ⟨rfl, -⟩ := Prod.mk.inj (Option.some.inj h)
    grind [TextStream.groupTail?]

theorem groupTail?_of_ascii (h : lead < 0x80) : TextStream.groupTail? lead = none := by
  grind [TextStream.groupTail?]

end Text.Utf8

namespace TextStream

open Text.Utf8 (readAfter replacement decodeLossy decode?)

-- ------------------------------------------------------------------
-- What is announced, and what belongs to a character
-- ------------------------------------------------------------------

def announced (lead : UInt8) : Nat :=
  (groupTail? lead).getD 0

/-- The bytes after `lead` that a stream takes with it although they do not belong to it. -/
def overrun (lead : UInt8) (rest : List UInt8) : List UInt8 :=
  (rest.take (announced lead)).drop (readAfter lead rest).2.length

variable {lead : UInt8} {bytes rest : List UInt8}

theorem readAfter_prefix (lead : UInt8) (rest : List UInt8) :
    (readAfter lead rest).2 <+: rest.take (announced lead) := by
  unfold readAfter
  split
  · exact List.nil_prefix
  · split
    · exact List.nil_prefix
    · rename_i n low high hfollow
      rw [announced, Text.Utf8.groupTail?_of_follow? hfollow]
      exact Text.Utf8.followers_prefix n low high rest

theorem readAfter_take (lead : UInt8) (rest : List UInt8) :
    readAfter lead (rest.take (announced lead)) = readAfter lead rest := by
  unfold readAfter
  split
  · rfl
  · split
    · rfl
    · rename_i n low high hfollow
      rw [announced, Text.Utf8.groupTail?_of_follow? hfollow, Option.getD_some,
        Text.Utf8.followers_take]

theorem readAfter_take_append (h : announced lead ≤ rest.length) (after : List UInt8) :
    readAfter lead (rest.take (announced lead) ++ after) = readAfter lead rest := by
  have htake : (rest.take (announced lead) ++ after).take (announced lead) =
      rest.take (announced lead) := by
    rw [List.take_append_of_le_length (by simp [h]), List.take_take, Nat.min_self]
  rw [← readAfter_take, htake, readAfter_take]

theorem take_announced (lead : UInt8) (rest : List UInt8) :
    rest.take (announced lead) = (readAfter lead rest).2 ++ overrun lead rest := by
  obtain ⟨more, hmore⟩ := readAfter_prefix lead rest
  rw [overrun, ← hmore, List.drop_left]

/-- What is left after a character of the buffer: the bytes that a stream overruns, and then what is
left of the stream. -/
theorem drop_readAfter (lead : UInt8) (rest : List UInt8) :
    rest.drop (readAfter lead rest).2.length =
      overrun lead rest ++ rest.drop (announced lead) := by
  have hrest : rest =
      (readAfter lead rest).2 ++ (overrun lead rest ++ rest.drop (announced lead)) := by
    rw [← List.append_assoc, ← take_announced, List.take_append_drop]
  have hdrop := congrArg (List.drop (readAfter lead rest).2.length) hrest
  rwa [List.drop_left] at hdrop

theorem broken_of_overrun (h : overrun lead rest ≠ []) : (readAfter lead rest).1 = none := by
  by_cases hascii : lead < 0x80
  · simp [overrun, announced, Text.Utf8.groupTail?_of_ascii hascii] at h
  · cases hfollow : Text.Utf8.follow? lead with
    | none => simp [readAfter, hascii, hfollow]
    | some found =>
      obtain ⟨n, low, high⟩ := found
      have hn : announced lead = n := by
        rw [announced, Text.Utf8.groupTail?_of_follow? hfollow, Option.getD_some]
      simp only [overrun, hn, readAfter, hascii, hfollow, if_false] at h ⊢
      refine if_neg fun hwhole => h ?_
      rw [hwhole]
      exact List.drop_eq_nil_of_le (List.length_take_le _ _)

-- ------------------------------------------------------------------
-- One character
-- ------------------------------------------------------------------

theorem groupChar_take (lead : UInt8) (rest : List UInt8) :
    groupChar (lead :: rest.take (announced lead)) =
      (readAfter lead rest).1.getD replacement := by
  rw [groupChar, decode?]
  simp only [readAfter_take]
  cases hread : (readAfter lead rest).1 with
  | none => rfl
  | some c =>
    have hend : overrun lead rest = [] :=
      Classical.byContradiction fun h => by simp [broken_of_overrun h] at hread
    simp only [show (rest.take (announced lead)).drop (readAfter lead rest).2.length = [] from hend]
    simp [decode?]

/-- A stream gives the character that the buffer begins with, and takes what is announced. -/
theorem firstChar?_utf8 (lead : UInt8) (rest : List UInt8) :
    firstChar? .utf8 (lead :: rest) =
      some ((readAfter lead rest).1.getD replacement, rest.drop (announced lead)) := by
  by_cases hascii : lead < 0x80
  · have htail := Text.Utf8.groupTail?_of_ascii hascii
    simp [firstChar?, announced, htail, readAfter, hascii, Charset.decodeByte]
  · rw [← groupChar_take]
    simp only [firstChar?, Charset.singleByte, hascii, Bool.false_eq_true, or_self, if_false]
    cases htail : groupTail? lead with
    | none =>
      have hfollow : Text.Utf8.follow? lead = none := by
        cases hfollow : Text.Utf8.follow? lead with
        | none => rfl
        | some found => simp [Text.Utf8.groupTail?_of_follow? hfollow] at htail
      simp [announced, htail, groupChar, decode?, readAfter, hascii, hfollow]
    | some n => simp [announced, htail]

theorem charsOf_utf8_cons (lead : UInt8) (rest : List UInt8) :
    charsOf .utf8 (lead :: rest) =
      (readAfter lead rest).1.getD replacement :: charsOf .utf8 (rest.drop (announced lead)) :=
  charsOf_cons (firstChar?_utf8 lead rest)

theorem decodeLossy_cons (lead : UInt8) (rest : List UInt8) :
    decodeLossy (lead :: rest) =
      (readAfter lead rest).1.getD replacement ::
        decodeLossy (overrun lead rest ++ rest.drop (announced lead)) := by
  rw [decodeLossy, drop_readAfter]

-- ------------------------------------------------------------------
-- All characters
-- ------------------------------------------------------------------

/-- No byte is overrun where characters begin. -/
def Aligned : List UInt8 → Prop
  | [] => True
  | lead :: rest => overrun lead rest = [] ∧ Aligned (rest.drop (announced lead))
termination_by bytes => bytes.length
decreasing_by simp only [List.length_drop, List.length_cons]; omega

theorem charsOf_eq_decodeLossy (h : Aligned bytes) : charsOf .utf8 bytes = decodeLossy bytes := by
  fun_induction Aligned bytes with
  | case1 => simp [decodeLossy]
  | case2 lead rest ih => rw [charsOf_utf8_cons, decodeLossy_cons, h.1, List.nil_append, ih h.2]

theorem aligned_of_decode? {cs : List Char} (h : decode? bytes = some cs) :
    Aligned bytes ∧ decodeLossy bytes = cs := by
  fun_induction decode? bytes generalizing cs with
  | case1 => exact ⟨by simp [Aligned], by simpa [decodeLossy] using h⟩
  | case2 => simp at h
  | case3 lead rest read c hread =>
    rename_i ih
    obtain ⟨cs, hcs, rfl⟩ := Option.map_eq_some_iff.1 h
    have hnone : overrun lead rest = [] :=
      Classical.byContradiction fun hne => by simp [read, broken_of_overrun hne] at hread
    rw [show rest.drop read.2.length = rest.drop (announced lead) by
      rw [drop_readAfter, hnone, List.nil_append]] at hcs ih
    obtain ⟨haligned, hdecode⟩ := ih hcs
    refine ⟨by rw [Aligned]; exact ⟨hnone, haligned⟩, ?_⟩
    rw [decodeLossy_cons, hnone, List.nil_append, hdecode,
      show (readAfter lead rest).1 = _ from hread]
    rfl

/-- Where bytes are overrun, it happens a first time: up to there both readings agree, then both
give a replacement character, and a stream goes on after the bytes that it has overrun. -/
theorem exists_overrun (h : ¬ Aligned bytes) :
    ∃ front lead rest, bytes = front ++ lead :: rest ∧ overrun lead rest ≠ [] ∧
      decodeLossy bytes = decodeLossy front ++
        replacement :: decodeLossy (overrun lead rest ++ rest.drop (announced lead)) ∧
      charsOf .utf8 bytes = decodeLossy front ++
        replacement :: charsOf .utf8 (rest.drop (announced lead)) := by
  fun_induction Aligned bytes with
  | case1 => exact absurd trivial h
  | case2 lead rest ih =>
    by_cases hnone : overrun lead rest = []
    · have htail : ¬ Aligned (rest.drop (announced lead)) := fun ha => h ⟨hnone, ha⟩
      obtain ⟨front, lead', rest', heq, hne, hdecode, hchars⟩ := ih htail
      have hlong : announced lead ≤ rest.length := by
        refine Nat.le_of_not_lt fun hlt => ?_
        rw [List.drop_eq_nil_of_le (Nat.le_of_lt hlt)] at heq
        simp at heq
      have hread := readAfter_take_append hlong front
      have hunit : (readAfter lead rest).2 = rest.take (announced lead) := by
        rw [take_announced, hnone, List.append_nil]
      have hfront : decodeLossy (lead :: (rest.take (announced lead) ++ front)) =
          (readAfter lead rest).1.getD replacement :: decodeLossy front := by
        rw [decodeLossy, hread, hunit, List.drop_left]
      refine ⟨lead :: (rest.take (announced lead) ++ front), lead', rest', ?_, hne, ?_, ?_⟩
      · rw [List.cons_append, List.append_assoc, ← heq, List.take_append_drop]
      · rw [decodeLossy_cons, hnone, List.nil_append, hdecode, hfront, List.cons_append]
      · rw [charsOf_utf8_cons, hchars, hfront, List.cons_append]
    · refine ⟨[], lead, rest, rfl, hnone, ?_, ?_⟩
      · simp [decodeLossy_cons, broken_of_overrun hnone, decodeLossy]
      · simp [charsOf_utf8_cons, broken_of_overrun hnone, decodeLossy]

def drain (s : TextStream) : Except IoFault (List Char) × TextStream :=
  match _h : s.next with
  | (.error fault, s) => (.error fault, s)
  | (.ok none, s) => (.ok [], s)
  | (.ok (some c), s) =>
    let (cs, s) := s.drain
    (cs.map (c :: ·), s)
termination_by s.size
decreasing_by exact next_size_lt _h

theorem Holds.drain {s : TextStream} {cs : List Char} (h : s.Holds cs) :
    ∃ s', s.drain = (.ok cs, s') ∧ s'.Holds [] := by
  induction cs generalizing s with
  | nil =>
    obtain ⟨s', hnext, hs'⟩ := h.next_nil
    refine ⟨s', ?_, hs'⟩
    rw [TextStream.drain]
    generalize s.next = answer at hnext ⊢
    subst hnext
    rfl
  | cons c cs ih =>
    obtain ⟨s₁, hnext, hs₁⟩ := h.next_cons
    obtain ⟨s', hdrain, hs'⟩ := ih hs₁
    refine ⟨s', ?_, hs'⟩
    rw [TextStream.drain]
    generalize s.next = answer at hnext ⊢
    subst hnext
    simp only [hdrain]
    rfl

theorem charsOf_singleByte {charset : Charset} (h : charset.singleByte = true)
    (bytes : List UInt8) : charsOf charset bytes = charset.decodeChars bytes := by
  rw [charsOf_eq_map fun _ _ => .inl h]
  cases charset <;> first | rfl | cases h

theorem eq_utf8 {charset : Charset} (h : charset.singleByte ≠ true) : charset = .utf8 := by
  cases charset <;> first | rfl | exact absurd rfl h

/-- A stream gives all characters of its bytes, however these arrive. They are those of the buffer
where every byte is a character or no byte is overrun, and so for all well-formed text. Elsewhere
the readings agree up to the first bytes that are overrun, and a stream loses these. -/
theorem drain_decodes (charset : Charset) {source : Source} (h : source.Quiet) :
    ∃ cs s', (ofSource charset source).drain = (.ok cs, s') ∧ s'.Holds [] ∧
      (charset.singleByte = true ∨ Aligned source.rest →
        cs = charset.decodeChars source.rest) ∧
      (charset = .utf8 → ∀ text, decode? source.rest = some text → cs = text) ∧
      (¬ (charset.singleByte = true ∨ Aligned source.rest) →
        ∃ front lead rest, source.rest = front ++ lead :: rest ∧ overrun lead rest ≠ [] ∧
          charset.decodeChars source.rest = charset.decodeChars front ++
            replacement :: charset.decodeChars (overrun lead rest ++ rest.drop (announced lead)) ∧
          cs = charset.decodeChars front ++
            replacement :: charsOf charset (rest.drop (announced lead))) := by
  have hs : (ofSource charset source).Holds (charsOf charset source.rest) := ⟨h, rfl⟩
  obtain ⟨s', hdrain, hs'⟩ := hs.drain
  refine ⟨_, s', hdrain, hs', ?_, ?_, ?_⟩
  · rintro hwhole
    by_cases hsingle : charset.singleByte = true
    · exact charsOf_singleByte hsingle _
    · obtain rfl := eq_utf8 hsingle
      exact charsOf_eq_decodeLossy (hwhole.resolve_left hsingle)
  · rintro rfl text htext
    obtain ⟨haligned, rfl⟩ := aligned_of_decode? htext
    exact charsOf_eq_decodeLossy haligned
  · intro hpart
    obtain rfl := eq_utf8 fun hsingle => hpart (.inl hsingle)
    exact exists_overrun fun haligned => hpart (.inr haligned)

def brokenPair : List UInt8 := [0xC3, 0x2C, 0x62]

/-- The buffer has a comma after the replacement character, and the stream has none. -/
theorem drain_decodes_losesComma :
    ∃ cs s', (ofSource .utf8 (.ofBytes brokenPair)).drain = (.ok cs, s') ∧ s'.Holds [] ∧
      Charset.utf8.decodeChars brokenPair = [replacement, ',', 'b'] ∧ cs = [replacement, 'b'] := by
  have hquiet : (Source.ofBytes brokenPair).Quiet := (holds_ofBytes .utf8 brokenPair).quiet
  obtain ⟨cs, s', hdrain, hs', -⟩ := drain_decodes .utf8 hquiet
  obtain ⟨_, hchars, -⟩ := (holds_ofBytes .utf8 brokenPair).drain
  obtain ⟨hcs, -⟩ := Prod.mk.inj (hdrain.symm.trans hchars)
  refine ⟨cs, s', hdrain, hs', ?_, ?_⟩
  · decide +kernel
  · rw [Except.ok.inj hcs]
    decide +kernel

end TextStream
end Flatfile
