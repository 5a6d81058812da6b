import Flatfile.Proofs.Charset.Ascii
import Flatfile.Proofs.Codec.BuiltIn
import Flatfile.Proofs.Codec.WrittenNumber

/-!
# Padding

A text field fills the room that a text leaves on one side with padding, and takes padding off the
same side when it is read. A text that has none of its own there is left (`unpad_beside`), and
nothing else is ever taken off (`exists_beside_unpad`).
-/

namespace Flatfile

namespace Align

variable {xs fill : List α}

/-- A text that stands on this side, and what fills the other. -/
def beside (align : Align) (xs fill : List α) : List α :=
  match align with
  | left => xs ++ fill
  | right => fill ++ xs

def edge (align : Align) (xs : List α) : Option α :=
  match align with
  | left => xs.getLast?
  | right => xs.head?

theorem nil_beside (align : Align) (fill : List α) : align.beside [] fill = fill := by
  cases align with
  | left => rfl
  | right => exact List.append_nil fill

theorem length_beside (align : Align) (xs fill : List α) :
    (align.beside xs fill).length = xs.length + fill.length := by
  cases align with
  | left => exact List.length_append
  | right => rw [beside, List.length_append, Nat.add_comm]

theorem mem_beside {align : Align} {x : α} : x ∈ align.beside xs fill ↔ x ∈ xs ∨ x ∈ fill := by
  cases align with
  | left => exact List.mem_append
  | right => exact List.mem_append.trans or_comm

theorem mem_of_mem_edge {align : Align} {x : α} (h : x ∈ align.edge xs) : x ∈ xs := by
  cases align with
  | left => exact List.mem_of_mem_getLast? h
  | right => exact List.mem_of_mem_head? h

theorem map_beside (align : Align) (f : α → β) (xs fill : List α) :
    (align.beside xs fill).map f = align.beside (xs.map f) (fill.map f) := by
  cases align <;> exact List.map_append

theorem beside_eq_self_iff {align : Align} : align.beside xs fill = xs ↔ fill = [] := by
  constructor
  · intro h
    have hlength := congrArg List.length h
    rw [length_beside] at hlength
    exact List.length_eq_zero_iff.1 (by omega)
  · rintro rfl
    cases align with
    | left => exact List.append_nil xs
    | right => rfl

end Align

namespace FixedText

variable {t : FixedText} {coding : Coding} {value : Value} {cs : List Char} {bytes : List UInt8}

theorem unpad_eq_self (h : t.pad ∉ t.align.edge cs) : t.unpad cs = cs := by
  have hne : ∀ c ∈ t.align.edge cs, (c == t.pad) = false := fun c hc =>
    beq_false_of_ne fun hpad => h (hpad ▸ hc)
  unfold unpad
  unfold Align.edge at hne
  cases halign : t.align with
  | left => exact Text.dropEndWhile_eq_self (by simpa [halign] using hne)
  | right => exact Text.dropWhile_eq_self (by simpa [halign] using hne)

theorem unpad_beside (h : t.pad ∉ t.align.edge cs) (n : Nat) :
    t.unpad (t.align.beside cs (List.replicate n t.pad)) = cs := by
  have hpads : ∀ c ∈ List.replicate n t.pad, (c == t.pad) = true := fun c hc =>
    beq_iff_eq.2 (List.eq_of_mem_replicate hc)
  refine Eq.trans ?_ (unpad_eq_self h)
  unfold unpad Align.beside
  cases t.align with
  | left =>
    simp only [Text.dropEndWhile, List.reverse_append, List.reverse_replicate]
    rw [List.dropWhile_append_of_pos hpads]
  | right => exact List.dropWhile_append_of_pos hpads

theorem unpad_replicate (t : FixedText) (n : Nat) (c : Char) :
    t.unpad (List.replicate n c) = if c = t.pad then [] else List.replicate n c := by
  split
  next hc =>
    have hnone : t.pad ∉ t.align.edge [] := by cases t.align <;> simp [Align.edge]
    have hpads := unpad_beside hnone n
    rwa [Align.nil_beside, ← hc] at hpads
  next hc =>
    exact unpad_eq_self fun hedge =>
      hc (List.eq_of_mem_replicate (Align.mem_of_mem_edge hedge)).symm

theorem exists_beside_unpad (t : FixedText) (cs : List Char) :
    ∃ n, cs = t.align.beside (t.unpad cs) (List.replicate n t.pad) := by
  have htaken (cs : List Char) : ∃ n, cs.takeWhile (· == t.pad) = List.replicate n t.pad := by
    refine ⟨_, List.eq_replicate_of_mem fun c hc => ?_⟩
    simpa using List.mem_takeWhile_imp hc
  unfold unpad Align.beside
  cases t.align with
  | left =>
    obtain ⟨n, hn⟩ := htaken cs.reverse
    refine ⟨n, ?_⟩
    simp only [Text.dropEndWhile]
    rw [← List.reverse_replicate, ← hn, ← List.reverse_append, List.takeWhile_append_dropWhile,
      List.reverse_reverse]
  | right =>
    obtain ⟨n, hn⟩ := htaken cs
    exact ⟨n, by rw [← hn, List.takeWhile_append_dropWhile]⟩

-- ------------------------------------------------------------------
-- Fields
-- ------------------------------------------------------------------

def padded (t : FixedText) (charset : Charset) (encoded : List UInt8) : List UInt8 :=
  t.align.beside encoded
    (List.replicate (t.size - encoded.length) (charset.encodeChar t.pad))

theorem encode_eq (t : FixedText) (coding : Coding) (value : Value) :
    t.encode coding value =
      let encoded := coding.charset.encode value.toText
      if t.size < encoded.length then .error (.tooLong encoded.length t.size)
      else .ok (t.padded coding.charset encoded) := by
  unfold encode padded
  cases t.align <;> rfl

theorem encode_eq_ok :
    t.encode coding value = .ok bytes ↔
      (coding.charset.encode value.toText).length ≤ t.size ∧
        t.padded coding.charset (coding.charset.encode value.toText) = bytes := by
  rw [encode_eq]
  simp only
  split
  next hlong => exact iff_of_false nofun fun h => absurd h.1 (Nat.not_le.2 hlong)
  next hfits => simp [Nat.not_lt.1 hfits]

theorem length_padded (charset : Charset) {encoded : List UInt8} (h : encoded.length ≤ t.size) :
    (t.padded charset encoded).length = t.size := by
  rw [padded, Align.length_beside, List.length_replicate, Nat.add_sub_cancel' h]

theorem decode_eq (hlength : bytes.length = t.size) :
    t.decode coding bytes =
      .ok (.text (String.ofList (t.unpad (coding.charset.decodeChars bytes)))) := by
  unfold decode
  rw [checkWidth_eq_ok.2 hlength]
  rfl

/-- A field of padding is read as an empty text, unless the padding is read as something else. -/
theorem decode_pad (hsize : 1 ≤ t.size) (coding : Coding) :
    ∃ s, t.decode coding (List.replicate t.size (coding.charset.encodeChar t.pad)) = .ok (.text s) ∧
      (s = "" ↔ coding.charset.decodeByte (coding.charset.encodeChar t.pad) = t.pad) := by
  have hchars := coding.charset.decodeChars_map_encodeChar (List.replicate t.size t.pad)
  rw [List.map_replicate, List.map_replicate] at hchars
  refine ⟨_, decode_eq List.length_replicate, ?_⟩
  rw [hchars, unpad_replicate, ← String.toList_eq_nil_iff, String.toList_ofList]
  split
  next hpad => simp [hpad]
  next hpad => simpa [hpad] using Nat.ne_of_gt hsize

end FixedText
end Flatfile
