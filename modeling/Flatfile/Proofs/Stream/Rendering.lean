import Flatfile.Proofs.Stream.Decoding
import Mathlib.Data.List.TakeWhile

/-!
# Characters that were written and are read again

A charset writes a character as bytes, and a stream makes a character of these bytes again: the same
one if the charset has it, and the question mark's if not. In UTF-8 it is always the same
(`charsOf_encodeChars`).
-/

namespace Flatfile

-- ------------------------------------------------------------------
-- Characters in UTF-8
-- ------------------------------------------------------------------

namespace Text.Utf8

variable {lead b : UInt8} {rest : List UInt8} {m n k : Nat}

def Leads (k : Nat) (lead b : UInt8) : Prop :=
  ∃ low high, follow? lead = some (k, low, high) ∧ low ≤ b ∧ b ≤ high

theorem readAfter_whole (tail : List UInt8) (h : Leads (tail.length + 1) lead b)
    (htail : ∀ t ∈ tail, isContinuation t = true) (rest : List UInt8) :
    readAfter lead (b :: tail ++ rest) = (some (assemble lead (b :: tail)), b :: tail) := by
  obtain ⟨low, high, hfollow, hb⟩ := h
  have hlead : ¬ lead < 0x80 := by
    intro hascii
    simpa [groupTail?_of_ascii hascii] using groupTail?_of_follow? hfollow
  have htaken : tail.takeWhile isContinuation = tail := List.takeWhile_eq_self_iff.2 htail
  have hfollowers : followers (tail.length + 1) low high (b :: tail ++ rest) = b :: tail := by
    simp only [followers, List.cons_append, hb, and_self, if_true, List.take_left', htaken]
  rw [readAfter, if_neg hlead, hfollow]
  simp only [hfollowers, List.length_cons, if_true]

theorem isContinuation_ofNat (n : Nat) : isContinuation (UInt8.ofNat (n % 64 + 128)) = true := by
  simp only [isContinuation, Bool.and_eq_true, decide_eq_true_eq, UInt8.le_iff_toNat_le,
    UInt8.toNat_ofNat', UInt8.reduceToNat]
  omega

theorem leads_ofNat (hn : n < 64)
    (h : 0xC2 ≤ m ∧ m ≤ 0xDF ∧ k = 1 ∨
      0xE0 ≤ m ∧ m ≤ 0xEF ∧ k = 2 ∧ (m = 0xE0 → 0x20 ≤ n) ∧ (m = 0xED → n < 0x20) ∨
      0xF0 ≤ m ∧ m ≤ 0xF4 ∧ k = 3 ∧ (m = 0xF0 → 0x10 ≤ n) ∧ (m = 0xF4 → n < 0x10)) :
    Leads k (UInt8.ofNat m) (UInt8.ofNat (n + 128)) := by
  have htoNat : ∀ i < 256, (UInt8.ofNat i).toNat = i := fun i hi => by
    rw [UInt8.toNat_ofNat']
    omega
  simp only [Leads, follow?, UInt8.le_iff_toNat_le, ← UInt8.toNat_inj,
    htoNat m (by omega), htoNat (n + 128) (by omega), UInt8.reduceToNat]
  repeat' split
  all_goals first
    | omega
    | refine ⟨_, _, congrArg (fun k => some (k, _, _)) (by omega), ?_, ?_⟩ <;>
        · simp only [UInt8.reduceToNat]; omega

/-- A character is read from its encoding, whatever comes after it. -/
theorem readAfter_utf8EncodeChar (c : Char) (rest : List UInt8) :
    ∃ lead tail, String.utf8EncodeChar c = lead :: tail ∧
      readAfter lead (tail ++ rest) = (some c, tail) := by
  have hvalid : c.toNat < 0xD800 ∨ 0xDFFF < c.toNat ∧ c.toNat < 0x110000 := c.valid
  obtain ⟨v, hv⟩ : ∃ v, c.toNat = v := ⟨_, rfl⟩
  have hval : c.val.toNat = v := hv
  have hc : Char.ofNat v = c := by rw [← hv, Char.ofNat_toNat]
  have hmod (n : Nat) : n % 64 < 64 := Nat.mod_lt n (by decide)
  simp only [String.utf8EncodeChar, hval]
  rw [hv] at hvalid
  split
  · have hlead : UInt8.ofNat v < 0x80 := by
      simp only [UInt8.lt_iff_toNat_lt, UInt8.toNat_ofNat', UInt8.reduceToNat]
      omega
    refine ⟨_, _, rfl, ?_⟩
    rw [readAfter, if_pos hlead, UInt8.toNat_ofNat', Nat.mod_eq_of_lt (by omega), hc]
  -- The lead byte holds the first bits, and each of the others the next six.
  split
  · have hwhole := readAfter_whole []
      (leads_ofNat (k := 1) (m := v / 64 % 32 + 192) (hmod v) (by omega)) (by simp) rest
    refine ⟨_, _, rfl, hwhole.trans ?_⟩
    rw [← hc, assemble]
    simp only [List.length_cons, List.length_nil, List.foldl_cons, List.foldl_nil,
      UInt8.toNat_ofNat']
    congr 3
    omega
  split
  · have hwhole := readAfter_whole [UInt8.ofNat (v % 64 + 128)]
      (leads_ofNat (k := 2) (m := v / 4096 % 16 + 224) (hmod (v / 64)) (by omega))
      (List.forall_mem_singleton.2 (isContinuation_ofNat v)) rest
    refine ⟨_, _, rfl, hwhole.trans ?_⟩
    rw [← hc, assemble]
    simp only [List.length_cons, List.length_nil, List.foldl_cons, List.foldl_nil,
      UInt8.toNat_ofNat']
    congr 3
    omega
  · have hwhole := readAfter_whole [UInt8.ofNat (v / 64 % 64 + 128), UInt8.ofNat (v % 64 + 128)]
      (leads_ofNat (k := 3) (m := v / 262144 % 8 + 240) (hmod (v / 4096)) (by omega))
      (List.forall_mem_cons.2
        ⟨isContinuation_ofNat (v / 64), List.forall_mem_singleton.2 (isContinuation_ofNat v)⟩) rest
    refine ⟨_, _, rfl, hwhole.trans ?_⟩
    rw [← hc, assemble]
    simp only [List.length_cons, List.length_nil, List.foldl_cons, List.foldl_nil,
      UInt8.toNat_ofNat']
    congr 3
    omega

end Text.Utf8

-- ------------------------------------------------------------------
-- Texts
-- ------------------------------------------------------------------

def Charset.render (charset : Charset) (c : Char) : Char :=
  match charset with
  | utf8 => c
  | _ => charset.decodeByte (charset.encodeChar c)

def Charset.renderText (charset : Charset) (text : String) : String :=
  String.ofList (text.toList.map charset.render)

theorem Charset.encodeChars_append (charset : Charset) (cs cs' : List Char) :
    charset.encodeChars (cs ++ cs') = charset.encodeChars cs ++ charset.encodeChars cs' := by
  cases charset <;> simp [encodeChars]

theorem Charset.length_le_encodeChars (charset : Charset) (cs : List Char) :
    cs.length ≤ (charset.encodeChars cs).length := by
  cases charset with
  | ascii | latin1 | ebcdic037 | ebcdic500 => simp [encodeChars]
  | utf8 =>
    induction cs with
    | nil => exact Nat.le_refl _
    | cons c cs ih =>
      have hc : 0 < (String.utf8EncodeChar c).length := by
        obtain ⟨lead, tail, hencode, -⟩ := Text.Utf8.readAfter_utf8EncodeChar c []
        simp [hencode]
      simp only [encodeChars, List.flatMap_cons, List.length_append, List.length_cons] at ih ⊢
      omega

namespace TextStream

open Text.Utf8 (readAfter)

theorem charsOf_utf8EncodeChar (c : Char) (bytes : List UInt8) :
    charsOf .utf8 (String.utf8EncodeChar c ++ bytes) = c :: charsOf .utf8 bytes := by
  obtain ⟨lead, tail, hencode, hread⟩ := Text.Utf8.readAfter_utf8EncodeChar c bytes
  have hwhole : overrun lead (tail ++ bytes) = [] :=
    Classical.byContradiction fun h => by simpa [hread] using broken_of_overrun h
  have hafter := drop_readAfter lead (tail ++ bytes)
  rw [hread, List.drop_left, hwhole, List.nil_append] at hafter
  rw [hencode, List.cons_append, charsOf_utf8_cons, hread, ← hafter]
  rfl

theorem charsOf_encodeChars (charset : Charset) (cs : List Char) :
    charsOf charset (charset.encodeChars cs) = cs.map charset.render := by
  by_cases hsingle : charset.singleByte = true
  · rw [charsOf_eq_map fun _ _ => .inl hsingle]
    cases charset with
    | utf8 => cases hsingle
    | ascii | latin1 | ebcdic037 | ebcdic500 => exact List.map_map
  · obtain rfl := eq_utf8 hsingle
    rw [show Charset.utf8.render = id from rfl, List.map_id, Charset.encodeChars]
    induction cs with
    | nil => exact charsOf_nil _
    | cons c cs ih => rw [List.flatMap_cons, charsOf_utf8EncodeChar, ih]

end TextStream
end Flatfile
