import Flatfile.Proofs.Charset.Repertoire
import Flatfile.Proofs.Codec.Padding
import Flatfile.Proofs.Codec.SignedField

/-!
# Texts with padding

A text of the charset that has no padding of its own is read as it was written, if the charset has
the padding too. A padding that the charset lacks is written as question marks, and these are read
as a part of the text (`decode_encode_text`). Where each byte is a character of its own, whatever
bytes were read are written again (`encode_decode_bytes`).
-/

namespace Flatfile

theorem Charset.encodeChars_beside (charset : Charset) (align : Align) (cs fill : List Char) :
    charset.encodeChars (align.beside cs fill) =
      align.beside (charset.encodeChars cs) (charset.encodeChars fill) := by
  cases align <;> exact charset.encodeChars_append _ _

namespace FixedText

variable {t : FixedText} {args : Args} {env : FieldEnv} {coding : Coding} {cs : List Char}
  {bytes : List UInt8}

theorem decodeChars_padded {charset : Charset} (hpad : (charset.byteFor? t.pad).isNone = false)
    (cs : List Char) :
    charset.decodeChars (t.padded charset (charset.encodeChars cs)) =
      t.align.beside (cs.map charset.render)
        (List.replicate (t.size - (charset.encodeChars cs).length) (charset.render t.pad)) := by
  rw [padded, ← charset.encodeChars_replicate hpad, ← charset.encodeChars_beside,
    charset.decodeChars_encodeChars_render, Align.map_beside, List.map_replicate]

-- ------------------------------------------------------------------
-- Texts that are written and read
-- ------------------------------------------------------------------

theorem unpad_decodeChars_padded {charset : Charset}
    (hpad : (charset.byteFor? t.pad).isNone = false) (hcs : ∀ c ∈ cs, charset.Has c)
    (hedge : t.pad ∉ t.align.edge cs) :
    t.unpad (charset.decodeChars (t.padded charset (charset.encodeChars cs))) =
      if charset.Has t.pad then cs
      else t.align.beside cs
        (List.replicate (t.size - (charset.encodeChars cs).length) Charset.substitute) := by
  have hrender : cs.map charset.render = cs := by
    rw [List.map_congr_left fun c hc => Charset.render_of_has (hcs c hc), List.map_id']
  rw [decodeChars_padded hpad, hrender]
  split
  next hhas => rw [Charset.render_of_has hhas, unpad_beside hedge]
  next hlacks =>
    rw [Charset.render_of_not_has hlacks]
    refine unpad_eq_self fun hmem => hlacks ?_
    have hread : t.pad ∈ _ := Align.mem_of_mem_edge hmem
    rcases Align.mem_beside.1 hread with hc | hc
    · exact hcs _ hc
    · exact List.eq_of_mem_replicate hc ▸ charset.has_substitute

/-- A text is written if its bytes fit, and is read again unless a padding that the charset lacks
was written beside it. -/
theorem decode_encode_text (h : ofArgs args env = .ok t) (numeric : NumericFormat) (text : String)
    (htext : ∀ c ∈ text.toList, env.charset.Has c) (hedge : t.pad ∉ t.align.edge text.toList) :
    let coding : Coding := ⟨env.charset, numeric⟩
    let room := t.size - (env.charset.encode text).length
    ((∃ bytes, t.dataType.encodeBytes coding (.text text) = .ok bytes) ↔
        (env.charset.encode text).length ≤ t.size) ∧
      ∀ bytes, t.dataType.encodeBytes coding (.text text) = .ok bytes →
        bytes.length = t.size ∧
          ∃ read, t.dataType.decodeBytes coding bytes = .ok (.text read) ∧
            read.toList =
              (if env.charset.Has t.pad then text.toList
                else t.align.beside text.toList (List.replicate room Charset.substitute)) ∧
            (read = text ↔ env.charset.Has t.pad ∨ room = 0) := by
  intro coding room
  have hpad := (ofArgs_ok h).2
  refine ⟨⟨?_, fun hfits => ⟨_, encode_eq_ok.2 ⟨hfits, rfl⟩⟩⟩, ?_⟩
  · rintro ⟨bytes, hwritten⟩
    exact (encode_eq_ok.1 hwritten).1
  · intro bytes hwritten
    obtain ⟨hfits, rfl⟩ := encode_eq_ok.1 hwritten
    have hlength := length_padded env.charset hfits
    have hread := unpad_decodeChars_padded hpad htext hedge
    refine ⟨hlength, _, decode_eq hlength, ?_, ?_⟩
    · rw [String.toList_ofList]
      exact hread
    · rw [← String.toList_inj, String.toList_ofList]
      refine (Eq.congr_left hread).trans ?_
      split
      next hhas => exact iff_of_true rfl (.inl hhas)
      next hlacks =>
        rw [Align.beside_eq_self_iff, List.replicate_eq_nil_iff]
        exact (or_iff_right hlacks).symm

theorem decode_encode_text_questions :
    let items : List Literal := [.number (wholeNumber 5), .string "é", .string "right"]
    let coding : Coding := ⟨.ascii, {}⟩
    ∃ t bytes, ofArgs ⟨"X", items⟩ ⟨"name", .ascii⟩ = .ok t ∧
      t.dataType.encodeBytes coding (.text "ab") = .ok bytes ∧ bytes.length = 5 ∧
      t.dataType.decodeBytes coding bytes = .ok (.text "???ab") := by
  intro items coding
  have hmade : ofArgs ⟨"X", items⟩ ⟨"name", .ascii⟩ = .ok ⟨5, 'é', .right⟩ := rfl
  have htext : ∀ c ∈ "ab".toList, Charset.ascii.Has c :=
    List.forall_mem_cons.2 ⟨by decide, List.forall_mem_singleton.2 (by decide)⟩
  obtain ⟨hfits, hread⟩ := decode_encode_text hmade {} "ab" htext (by decide)
  obtain ⟨bytes, hwritten⟩ := hfits.2 (by decide)
  obtain ⟨hlength, read, hdecoded, hchars, -⟩ := hread bytes hwritten
  have hread : read = "???ab" := String.toList_inj.1 hchars
  exact ⟨_, bytes, hmade, hwritten, hlength, hread ▸ hdecoded⟩

-- ------------------------------------------------------------------
-- Bytes that are read and written
-- ------------------------------------------------------------------

/-- The bytes of a text are written again as they were read, whether its padding was taken off or
not. -/
theorem encode_decode_bytes (t : FixedText) (coding : Coding) (bytes : List UInt8)
    (hcharset : coding.charset ∈ [Charset.latin1, .ebcdic037, .ebcdic500])
    (hlength : bytes.length = t.size) :
    ∃ value, t.dataType.decodeBytes coding bytes = .ok value ∧
      t.dataType.encodeBytes coding value = .ok bytes := by
  have hpad : (coding.charset.byteFor? t.pad).isNone = false := by
    have hne : coding.charset ≠ .utf8 := fun h => by simp [h] at hcharset
    simp [Charset.byteFor?, hne]
  obtain ⟨n, hcs⟩ := exists_beside_unpad t (coding.charset.decodeChars bytes)
  have hbytes := Charset.encodeChars_decodeChars hcharset bytes
  rw [hcs, Charset.encodeChars_beside, Charset.encodeChars_replicate hpad] at hbytes
  -- As many padding bytes are put back as were taken off, for the width is the same.
  have hcount := congrArg List.length hbytes
  rw [Align.length_beside, List.length_replicate, hlength] at hcount
  refine ⟨_, decode_eq hlength, encode_eq_ok.2 ?_⟩
  rw [Value.toText, Charset.encode, String.toList_ofList, padded, ← hcount, Nat.add_sub_cancel_left]
  exact ⟨Nat.le_add_right _ n, hbytes⟩

/-- In page 037 the padding of this field is the byte 0x5C; what is read has one of its own at the
end. -/
theorem encode_decode_bytes_stars :
    let t : FixedText := ⟨5, '*', .right⟩
    let coding : Coding := ⟨.ebcdic037, {}⟩
    let bytes : List UInt8 := [0x5C, 0x5C, 0x81, 0x00, 0x5C]
    t.dataType.decodeBytes coding bytes = .ok (.text "a\x00*") ∧
      t.dataType.encodeBytes coding (.text "a\x00*") = .ok bytes := by
  intro t coding bytes
  obtain ⟨value, hread, hwritten⟩ := encode_decode_bytes t coding bytes (by decide) rfl
  have hvalue : t.dataType.decodeBytes coding bytes = .ok (.text "a\x00*") :=
    toOption_eq_some.1 (by decide +kernel)
  obtain rfl := Except.ok.inj (hread.symm.trans hvalue)
  exact ⟨hread, hwritten⟩

end FixedText
end Flatfile
