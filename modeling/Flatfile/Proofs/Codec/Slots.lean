import Flatfile.Proofs.Codec.Blank
import Flatfile.Proofs.Codec.SignedField
import Flatfile.Proofs.Codec.TwosComplement

/-!
# Slots that are written and read again

Whatever a built-in data type writes in a slot it can read again (`decodeBytes_encodeBytes`). A slot
of nothing is read as an empty text by those data types that have a form for it of its own
(`decodeBytes_blank`): integers and raw bytes have none, since to them zeros are as good as any
other bytes, and a text has none if its padding is read as another character.
-/

namespace Flatfile

theorem Decimal.toText_ne_empty (d : Decimal) : d.toText ≠ "" := by
  have hlength := le_length_padLeft (d.scale + 1) (digits d.coefficient)
  have hhead := head?_withPoint hlength
  intro hempty
  have hnil := congrArg String.toList hempty
  rw [toText, String.toList_ofList, String.toList_empty, List.append_eq_nil_iff] at hnil
  rw [hnil.2, List.head?_nil, eq_comm, List.head?_eq_none_iff] at hhead
  rw [hhead] at hlength
  exact absurd hlength (by simp)

theorem Text.Hex.encode_ne_empty {bytes : List UInt8} (h : bytes ≠ []) : encode bytes ≠ "" := by
  cases bytes with
  | nil => exact absurd rfl h
  | cons b bytes =>
    intro hempty
    have hnil := congrArg String.toList hempty
    rw [encode, String.toList_ofList] at hnil
    exact absurd hnil (by simp [encodeByte])

variable {coding : Coding} {value v : Value} {bytes : List UInt8}

-- ------------------------------------------------------------------
-- Numbers as text
-- ------------------------------------------------------------------

namespace FixedNumber

theorem decodeText_spaces (t : FixedNumber) (coding : Coding) (n : Nat) :
    t.decodeText coding (String.ofList (List.replicate n ' ')) = .ok .null := by
  have hnone : ∀ c ∈ [], Text.isBlank c = false := nofun
  have htrim := Text.trimChars_spaces n hnone
  rw [List.append_nil] at htrim
  rw [decodeText, String.toList_ofList, htrim, if_pos rfl]

theorem decodeBytes_encode {text : String} (t : FixedNumber) (coding : Coding)
    (hascii : ∀ c ∈ text.toList, c.toNat < 0x80) :
    t.dataType.decodeBytes coding (coding.charset.encode text) = t.decodeText coding text := by
  show t.decodeText coding (coding.charset.decode (coding.charset.encode text)) = _
  rw [Charset.decode, Charset.encode, Charset.decodeChars_encodeChars _ hascii, String.ofList_toList]

theorem decodeBytes_blank (t : FixedNumber) (coding : Coding) :
    t.dataType.decodeBytes coding (coding.blank t.size) = .ok .null := by
  have hascii : ∀ c ∈ (String.ofList (List.replicate t.size ' ')).toList, c.toNat < 0x80 := by
    intro c hc
    rw [String.toList_ofList] at hc
    rw [List.eq_of_mem_replicate hc]
    decide
  have hread := t.decodeBytes_encode coding hascii
  rwa [coding.charset.encode_spaces, t.decodeText_spaces] at hread

theorem decodeBytes_encodeBytes {t : FixedNumber} (hscale : t.scale ≤ 28)
    (h : t.dataType.encodeBytes coding value = .ok bytes) :
    ∃ v, t.dataType.decodeBytes coding bytes = .ok v := by
  obtain ⟨text, htext, rfl⟩ := map_eq_ok.1 h
  cases hnull : value.isNull with
  | true =>
    have hspaces : t.encodeText coding value = .ok (String.ofList (List.replicate t.size ' ')) := by
      rw [encodeText, hnull, if_pos rfl]
    obtain rfl := Except.ok.inj (hspaces.symm.trans htext)
    rw [coding.charset.encode_spaces]
    exact ⟨_, t.decodeBytes_blank coding⟩
  | false =>
    obtain ⟨_, -, hwritten, -⟩ := written_of_encodeText hnull htext
    obtain ⟨d, hd, -⟩ := decodeText_written hscale hwritten
    exact ⟨_, (t.decodeBytes_encode coding (ascii_of_written hwritten)).trans hd⟩

end FixedNumber

-- ------------------------------------------------------------------
-- Signed decimals
-- ------------------------------------------------------------------

theorem Coding.isBlank_blank (coding : Coding) (n : Nat) :
    coding.isBlank (coding.blank n) = true := by
  simp [Coding.isBlank, Coding.blank]

theorem FieldReadsBack.exists_ok {signs : Signs} {scale : Nat} {d : Decimal} {blank : Prop}
    {read : Except ConvertError Value} (h : FieldReadsBack signs scale d blank read) :
    ∃ v, read = .ok v := by
  by_cases hblank : blank
  · exact ⟨_, h.nothing.2 hblank⟩
  · obtain ⟨w, hw, -⟩ := h.number hblank
    exact ⟨_, hw⟩

structure SignedCodec where
  size : Nat
  encode : Decimal → Except ConvertError (List UInt8)
  decode : List UInt8 → Except ConvertError Decimal

namespace SignedCodec

variable {c : SignedCodec}

def read (c : SignedCodec) (coding : Coding) (bytes : List UInt8) : Except ConvertError Value := do
  checkWidth bytes c.size
  if coding.isBlank bytes then .ok .null
  else
    let d ← c.decode bytes
    .ok (.decimal d)

def write (c : SignedCodec) (coding : Coding) (value : Value) :
    Except ConvertError (List UInt8) := do
  if value.isNull then .ok (coding.blank c.size)
  else
    let d ← numberOf value
    c.encode d

theorem read_blank (c : SignedCodec) (coding : Coding) :
    c.read coding (coding.blank c.size) = .ok .null :=
  bind_eq_ok.2 ⟨(), checkWidth_eq_ok.2 List.length_replicate, if_pos (coding.isBlank_blank c.size)⟩

theorem exists_read_write
    (hnumbers : ∀ d, c.encode d = .ok bytes → ∃ v, c.read coding bytes = .ok v)
    (h : c.write coding value = .ok bytes) : ∃ v, c.read coding bytes = .ok v := by
  rw [write] at h
  split at h
  next => exact Except.ok.inj h ▸ ⟨_, c.read_blank coding⟩
  next =>
    obtain ⟨d, -, h⟩ := bind_eq_ok.1 h
    exact hnumbers d h

end SignedCodec

def Zoned.codec (t : Zoned) (numeric : NumericFormat) : SignedCodec :=
  { size := t.size
    encode := encode t.family (t.resolved numeric) t.scale t.size
    decode := decode t.family (t.resolved numeric) t.scale }

def Packed.codec (t : Packed) (numeric : NumericFormat) : SignedCodec :=
  { size := t.size
    encode := encode (t.resolved numeric) t.scale t.size
    decode := decode (t.resolved numeric) t.scale }

-- ------------------------------------------------------------------
-- Built-in data types
-- ------------------------------------------------------------------

namespace BuiltIn

variable {b : BuiltIn}

def ReadsAll : BuiltIn → Prop
  | integer _ | raw _ => True
  | _ => False

theorem readsAll_iff : b.ReadsAll ↔ b.dataType.name = "BI" ∨ b.dataType.name = "B" := by
  cases b <;> simp [ReadsAll, dataType, FixedText.dataType, FixedNumber.dataType, Zoned.dataType,
    Packed.dataType, BinaryInteger.dataType, RawBytes.dataType, ColumnText.dataType,
    ColumnNumber.dataType, ColumnHex.dataType]

/-- A slot of nothing is read as such. -/
def KeepsBlank (coding : Coding) : BuiltIn → Prop
  | fixedText t => coding.charset.decodeByte (coding.charset.encodeChar t.pad) = t.pad
  | integer _ | raw _ => False
  | _ => True

theorem decodeBytes_nonempty (h : b.Checked) (hall : b.ReadsAll) (coding : Coding)
    (hlength : bytes.length = b.dataType.width) :
    ∃ v, b.dataType.decodeBytes coding bytes = .ok v ∧ v.toText ≠ "" := by
  cases b with
  | integer t =>
    have hsize : t.size ≤ 8 := (BinaryInteger.size_le h.1).2
    have hscale : t.scale ≤ 28 := Nat.le_trans h.2 (by decide)
    exact ⟨_, BinaryInteger.decode_eq coding hsize hscale hlength,
      (t.number bytes).normalize.toText_ne_empty⟩
  | raw t =>
    refine ⟨.bytes bytes, bind_eq_ok.2 ⟨(), checkWidth_eq_ok.2 hlength, rfl⟩, ?_⟩
    exact Text.Hex.encode_ne_empty (List.ne_nil_of_length_pos (hlength ▸ h))
  | _ => exact absurd hall id

theorem decodeBytes_blank (h : b.Checked) (hfamily : b.family = .fixed) (coding : Coding) :
    ∃ v, b.dataType.decodeBytes coding (b.blank coding) = .ok v ∧
      (v.toText = "" ↔ b.KeepsBlank coding) := by
  have hlength : (b.blank coding).length = b.dataType.width := List.length_replicate
  cases b with
  | fixedText t =>
    obtain ⟨s, hs, hiff⟩ := FixedText.decode_pad h coding
    exact ⟨.text s, hs, hiff⟩
  | fixedNumber t =>
    exact ⟨.null, t.decodeBytes_blank coding, iff_of_true rfl trivial⟩
  | zoned t => exact ⟨.null, (t.codec coding.numeric).read_blank coding, iff_of_true rfl trivial⟩
  | packed t => exact ⟨.null, (t.codec coding.numeric).read_blank coding, iff_of_true rfl trivial⟩
  | integer t =>
    obtain ⟨v, hv, hsome⟩ := decodeBytes_nonempty h trivial coding hlength
    exact ⟨v, hv, iff_of_false hsome id⟩
  | raw t =>
    obtain ⟨v, hv, hsome⟩ := decodeBytes_nonempty h trivial coding hlength
    exact ⟨v, hv, iff_of_false hsome id⟩
  | columnText | columnNumber | columnHex => simp [family] at hfamily

def SignsFit (coding : Coding) : BuiltIn → Prop
  | zoned t => (t.resolved coding.numeric).Fit
  | packed t => (t.resolved coding.numeric).Fit
  | _ => True

theorem decodeBytes_encodeBytes (h : b.Checked) (hfamily : b.family = .fixed)
    (hsigns : b.SignsFit coding) (hlength : bytes.length = b.dataType.width)
    (hwrite : b.dataType.encodeBytes coding value = .ok bytes) :
    ∃ v, b.dataType.decodeBytes coding bytes = .ok v := by
  cases b with
  | fixedText t =>
    exact ⟨_, t.decode_eq hlength⟩
  | fixedNumber t =>
    exact FixedNumber.decodeBytes_encodeBytes (Nat.le_trans h.2 (by decide)) hwrite
  | zoned t =>
    exact SignedCodec.exists_read_write (c := t.codec coding.numeric)
      (fun d hd => (t.field_readsBack (v := d) h.1 h.2.1 hsigns hd).exists_ok) hwrite
  | packed t =>
    exact SignedCodec.exists_read_write (c := t.codec coding.numeric)
      (fun d hd => (t.field_readsBack (v := d) h.2.1 hsigns hd hlength).exists_ok) hwrite
  | integer t =>
    obtain ⟨v, hv, -⟩ := decodeBytes_nonempty h trivial coding hlength
    exact ⟨v, hv⟩
  | raw t =>
    obtain ⟨v, hv, -⟩ := decodeBytes_nonempty h trivial coding hlength
    exact ⟨v, hv⟩
  | columnText | columnNumber | columnHex => simp [family] at hfamily

end BuiltIn
end Flatfile
