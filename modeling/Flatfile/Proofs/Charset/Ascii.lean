import Flatfile.Charset.Basic

/-!
# ASCII text in the charsets

Every charset has the characters of ASCII, and writes each of them with one byte. So a text of these
characters is read as it was written (`decodeChars_encodeChars`).
-/

namespace Flatfile.Charset

variable {c : Char} {cs : List Char} {bytes : List UInt8}

theorem Ebcdic.toLatin1_ofLatin1 {page : List UInt8} {code : UInt8} (hpage : page.length ≤ 256)
    (h : code ∈ page) : toLatin1 page (ofLatin1 page code) = code := by
  have hplace : page.idxOf code < page.length := List.idxOf_lt_length_iff.2 h
  have hbyte : (UInt8.ofNat (page.idxOf code)).toNat = page.idxOf code :=
    UInt8.toNat_ofNat_of_lt' (Nat.lt_of_lt_of_le hplace hpage)
  rw [toLatin1, ofLatin1, hbyte, List.getD_eq_getElem?_getD, List.getElem?_eq_getElem hplace,
    Option.getD_some, List.getElem_idxOf hplace]

theorem Ebcdic.mem_pages {n : Nat} (h : n < 0x100) :
    UInt8.ofNat n ∈ page037 ∧ UInt8.ofNat n ∈ page500 := by
  have hall : ∀ n < 0x100, n ∈ page037.map UInt8.toNat ∧ n ∈ page500.map UInt8.toNat := by
    decide +kernel
  have hmem {page : List UInt8} (hn : n ∈ page.map UInt8.toNat) : UInt8.ofNat n ∈ page := by
    obtain ⟨b, hb, rfl⟩ := List.mem_map.1 hn
    rwa [UInt8.ofNat_toNat]
  exact ⟨hmem (hall n h).1, hmem (hall n h).2⟩

theorem decodeByte_encodeChar (charset : Charset) (h : c.toNat < 0x80) :
    charset.decodeByte (charset.encodeChar c) = c := by
  have hbyte : (UInt8.ofNat c.toNat).toNat = c.toNat :=
    UInt8.toNat_ofNat_of_lt' (Nat.lt_trans h (by decide))
  have hlt : UInt8.ofNat c.toNat < 0x80 := by rwa [UInt8.lt_iff_toNat_lt, hbyte]
  have hlatin1 : latin1Code c = UInt8.ofNat c.toNat := by rw [latin1Code, if_pos (by omega)]
  obtain ⟨h037, h500⟩ := Ebcdic.mem_pages (Nat.lt_trans h (by decide))
  have hchar : Char.ofNat (UInt8.ofNat c.toNat).toNat = c := by rw [hbyte, Char.ofNat_toNat]
  cases charset with
  | ascii | utf8 => rw [decodeByte, encodeChar, if_pos h, if_pos hlt, hchar]
  | latin1 => rw [decodeByte, encodeChar, hlatin1, hchar]
  | ebcdic037 =>
    rw [decodeByte, encodeChar, hlatin1, Ebcdic.toLatin1_ofLatin1 (by decide +kernel) h037, hchar]
  | ebcdic500 =>
    rw [decodeByte, encodeChar, hlatin1, Ebcdic.toLatin1_ofLatin1 (by decide +kernel) h500, hchar]

theorem utf8EncodeChar_ascii (h : c.toNat < 0x80) :
    String.utf8EncodeChar c = [utf8.encodeChar c] := by
  have hval : c.val.toNat ≤ 0x7F := Nat.le_of_lt_succ h
  rw [String.utf8EncodeChar, encodeChar, if_pos hval, if_pos h]
  rfl

theorem encodeChars_ascii (charset : Charset) (h : ∀ c ∈ cs, c.toNat < 0x80) :
    charset.encodeChars cs = cs.map charset.encodeChar := by
  cases charset with
  | utf8 =>
    induction cs with
    | nil => rfl
    | cons c cs ih =>
      obtain ⟨hc, hcs⟩ := List.forall_mem_cons.1 h
      have ih : cs.flatMap String.utf8EncodeChar = _ := ih hcs
      rw [encodeChars, List.flatMap_cons, utf8EncodeChar_ascii hc, ih]
      rfl
  | ascii | latin1 | ebcdic037 | ebcdic500 => rfl

theorem utf8_encodeChar_lt (c : Char) : utf8.encodeChar c < 0x80 := by
  rw [encodeChar, UInt8.lt_iff_toNat_lt, UInt8.toNat_ofNat']
  split
  next h => exact Nat.lt_of_le_of_lt (Nat.mod_le _ _) h
  next => decide

theorem decodeLossy_ascii (h : ∀ b ∈ bytes, b < 0x80) :
    Text.Utf8.decodeLossy bytes = bytes.map utf8.decodeByte := by
  induction bytes with
  | nil => simp [Text.Utf8.decodeLossy]
  | cons b bytes ih =>
    obtain ⟨hb, hbytes⟩ := List.forall_mem_cons.1 h
    simp [Text.Utf8.decodeLossy, Text.Utf8.readAfter, decodeByte, hb, ih hbytes]

theorem decodeChars_map_encodeChar (charset : Charset) (cs : List Char) :
    charset.decodeChars (cs.map charset.encodeChar) =
      cs.map fun c => charset.decodeByte (charset.encodeChar c) := by
  cases charset with
  | utf8 =>
    have hbytes : ∀ b ∈ cs.map utf8.encodeChar, b < 0x80 := by
      simpa using fun c _ => utf8_encodeChar_lt c
    rw [decodeChars, decodeLossy_ascii hbytes, List.map_map]
    rfl
  | ascii | latin1 | ebcdic037 | ebcdic500 => exact List.map_map

theorem decodeChars_encodeChars (charset : Charset) (h : ∀ c ∈ cs, c.toNat < 0x80) :
    charset.decodeChars (charset.encodeChars cs) = cs := by
  rw [encodeChars_ascii charset h, decodeChars_map_encodeChar,
    List.map_congr_left fun c hc => decodeByte_encodeChar charset (h c hc), List.map_id']

end Flatfile.Charset
