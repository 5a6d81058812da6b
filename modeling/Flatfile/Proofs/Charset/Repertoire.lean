import Flatfile.Proofs.Charset.Ascii
import Flatfile.Proofs.Stream.Rendering
import Mathlib.Data.FinEnum

/-!
# The characters of a charset

A text is read from its bytes character by character: what the charset has comes back, and what it
lacks comes back as a question mark (`decodeChars_encodeChars_render`). Latin-1
and the EBCDIC pages have a character for every byte, and write it as that byte again
(`encodeChar_decodeByte`).
-/

namespace Flatfile.Charset

variable {charset : Charset} {c : Char} {b : UInt8} {page : List UInt8}

def Has (charset : Charset) (c : Char) : Prop :=
  match charset with
  | ascii => c.toNat < 0x80
  | utf8 => True
  | latin1 | ebcdic037 | ebcdic500 => c.toNat ≤ 0xFF

instance (charset : Charset) (c : Char) : Decidable (charset.Has c) := by
  cases charset <;> unfold Has <;> infer_instance

theorem has_substitute (charset : Charset) : charset.Has substitute := by
  cases charset <;> decide

-- ------------------------------------------------------------------
-- Characters that are written and read
-- ------------------------------------------------------------------

theorem ofNat_latin1Code (c : Char) :
    Char.ofNat (latin1Code c).toNat = if c.toNat ≤ 0xFF then c else substitute := by
  rw [latin1Code]
  split
  next h => rw [UInt8.toNat_ofNat_of_lt' (Nat.lt_succ_of_le h), Char.ofNat_toNat]
  next => rfl

def Ebcdic.Complete (page : List UInt8) : Prop :=
  page.length ≤ 256 ∧ ∀ code, code ∈ page

theorem Ebcdic.complete_page037 : Complete page037 :=
  ⟨by decide +kernel, fun code => by simpa using (mem_pages code.toNat_lt).1⟩

theorem Ebcdic.complete_page500 : Complete page500 :=
  ⟨by decide +kernel, fun code => by simpa using (mem_pages code.toNat_lt).2⟩

theorem ofNat_toLatin1_ofLatin1 (h : Ebcdic.Complete page) :
    Char.ofNat (Ebcdic.toLatin1 page (Ebcdic.ofLatin1 page (latin1Code c))).toNat =
      if c.toNat ≤ 0xFF then c else substitute := by
  rw [Ebcdic.toLatin1_ofLatin1 h.1 (h.2 _), ofNat_latin1Code]

/-- What the charset lacks comes back as a question mark. -/
theorem render_eq (charset : Charset) (c : Char) :
    charset.render c = if charset.Has c then c else substitute := by
  cases charset with
  | utf8 => rfl
  | latin1 => exact ofNat_latin1Code c
  | ebcdic037 => exact ofNat_toLatin1_ofLatin1 Ebcdic.complete_page037
  | ebcdic500 => exact ofNat_toLatin1_ofLatin1 Ebcdic.complete_page500
  | ascii =>
    by_cases hascii : c.toNat < 0x80
    · exact (decodeByte_encodeChar ascii hascii).trans (if_pos hascii).symm
    · have hquestion : ascii.encodeChar c = ascii.encodeChar substitute := by
        rw [encodeChar, if_neg hascii]
        rfl
      show ascii.decodeByte (ascii.encodeChar c) = _
      rw [hquestion, decodeByte_encodeChar ascii (by decide)]
      exact (if_neg hascii).symm

theorem render_of_has (h : charset.Has c) : charset.render c = c := by
  rw [render_eq, if_pos h]

theorem render_of_not_has (h : ¬ charset.Has c) : charset.render c = substitute := by
  rw [render_eq, if_neg h]

-- ------------------------------------------------------------------
-- Texts
-- ------------------------------------------------------------------

theorem decodeLossy_utf8EncodeChar (c : Char) (bytes : List UInt8) :
    Text.Utf8.decodeLossy (String.utf8EncodeChar c ++ bytes) =
      c :: Text.Utf8.decodeLossy bytes := by
  obtain ⟨lead, tail, hencode, hread⟩ := Text.Utf8.readAfter_utf8EncodeChar c bytes
  rw [hencode, List.cons_append, Text.Utf8.decodeLossy, hread]
  simp

theorem decodeChars_encodeChars_render (charset : Charset) (cs : List Char) :
    charset.decodeChars (charset.encodeChars cs) = cs.map charset.render := by
  cases charset with
  | ascii | latin1 | ebcdic037 | ebcdic500 => exact List.map_map
  | utf8 =>
    rw [show utf8.render = id from rfl, List.map_id, encodeChars, decodeChars]
    induction cs with
    | nil => simp [Text.Utf8.decodeLossy]
    | cons c cs ih => rw [List.flatMap_cons, decodeLossy_utf8EncodeChar, ih]

theorem encodeChars_replicate (h : (charset.byteFor? c).isNone = false) (n : Nat) :
    charset.encodeChars (List.replicate n c) = List.replicate n (charset.encodeChar c) := by
  cases charset with
  | ascii | latin1 | ebcdic037 | ebcdic500 => exact List.map_replicate
  | utf8 =>
    have hascii : c.toNat < 0x80 := by
      by_contra hlong
      simp [byteFor?, hlong] at h
    have hall : ∀ x ∈ List.replicate n c, x.toNat < 0x80 := fun x hx =>
      List.eq_of_mem_replicate hx ▸ hascii
    rw [encodeChars_ascii utf8 hall, List.map_replicate]

-- ------------------------------------------------------------------
-- Bytes that are read and written
-- ------------------------------------------------------------------

/-- A complete page has each code once, so its bytes are found again by their codes. -/
theorem Ebcdic.ofLatin1_toLatin1 (h : Complete page) (b : UInt8) :
    ofLatin1 page (toLatin1 page b) = b := by
  have hright : Function.RightInverse (ofLatin1 page) (toLatin1 page) :=
    fun code => toLatin1_ofLatin1 h.1 (h.2 code)
  have hinjective : Function.Injective (toLatin1 page) :=
    Finite.injective_iff_surjective.2 hright.surjective
  exact hright.leftInverse_of_injective hinjective b

theorem latin1Code_ofNat (b : UInt8) : latin1Code (Char.ofNat b.toNat) = b := by
  have hall : ∀ n < 256, latin1Code (Char.ofNat n) = UInt8.ofNat n := by decide +kernel
  rw [hall b.toNat b.toNat_lt, UInt8.ofNat_toNat]

theorem encodeChar_decodeByte (h : charset ∈ [latin1, ebcdic037, ebcdic500]) (b : UInt8) :
    charset.encodeChar (charset.decodeByte b) = b := by
  cases charset with
  | latin1 => exact latin1Code_ofNat b
  | ebcdic037 =>
    rw [decodeByte, encodeChar, latin1Code_ofNat]
    exact Ebcdic.ofLatin1_toLatin1 Ebcdic.complete_page037 b
  | ebcdic500 =>
    rw [decodeByte, encodeChar, latin1Code_ofNat]
    exact Ebcdic.ofLatin1_toLatin1 Ebcdic.complete_page500 b
  | ascii | utf8 => simp at h

theorem encodeChars_decodeChars (h : charset ∈ [latin1, ebcdic037, ebcdic500])
    (bytes : List UInt8) : charset.encodeChars (charset.decodeChars bytes) = bytes := by
  have hmap : (bytes.map charset.decodeByte).map charset.encodeChar = bytes := by
    simp [Function.comp_def, encodeChar_decodeByte h]
  cases charset with
  | latin1 | ebcdic037 | ebcdic500 => exact hmap
  | ascii | utf8 => simp at h

end Flatfile.Charset
