import Flatfile.Proofs.Codec.Padding

/-!
# Fields of nothing

Every built-in data type has a form for nothing: one byte over and over in records of fixed length
(`encodeBytes_null`), an empty column among columns (`encodeText_null`).
-/

namespace Flatfile

namespace Charset

theorem encode_spaces (charset : Charset) (n : Nat) :
    charset.encode (String.ofList (List.replicate n ' ')) =
      List.replicate n (charset.encodeChar ' ') := by
  have hascii : ∀ c ∈ List.replicate n ' ', c.toNat < 0x80 := by
    intro c hc
    rw [List.eq_of_mem_replicate hc]
    decide
  rw [encode, String.toList_ofList, encodeChars_ascii charset hascii, List.map_replicate]

end Charset

theorem BinaryInteger.bytesOf_zero (size : Nat) : bytesOf size 0 = List.replicate size 0 := by
  induction size with
  | zero => rfl
  | succ size ih =>
    rw [bytesOf, Nat.zero_div, ih, List.replicate_succ']
    rfl

namespace BuiltIn

variable {b : BuiltIn}

def blankByte (coding : Coding) : BuiltIn → UInt8
  | fixedText t => coding.charset.encodeChar t.pad
  | integer _ | raw _ => 0
  | _ => coding.space

def blank (b : BuiltIn) (coding : Coding) : List UInt8 :=
  List.replicate b.dataType.width (b.blankByte coding)

/-- Nothing fits a field of any width. -/
theorem encodeBytes_null (h : b.family = .fixed) (coding : Coding) :
    b.dataType.encodeBytes coding .null = .ok (b.blank coding) := by
  cases b with
  | fixedText t =>
    have hencoded : coding.charset.encode (Value.toText .null) = [] := by
      cases hc : coding.charset <;> rfl
    refine FixedText.encode_eq_ok.2 ?_
    rw [hencoded, FixedText.padded, Align.nil_beside]
    exact ⟨Nat.zero_le _, rfl⟩
  | fixedNumber t => exact congrArg Except.ok (coding.charset.encode_spaces t.size)
  | zoned | packed => rfl
  | integer t =>
    have hzero : Decimal.mantissa .zero = 0 := rfl
    have hpos : 0 < Nat.pow 256 t.size := Nat.pow_pos (by decide)
    have hrange : BinaryInteger.inRange t.size 0 = true := by
      rw [BinaryInteger.inRange, Bool.and_eq_true, decide_eq_true_eq, decide_eq_true_eq]
      omega
    have hbytes : BinaryInteger.twosComplement t.size 0 = List.replicate t.size 0 := by
      rw [BinaryInteger.twosComplement, Int.zero_emod]
      exact BinaryInteger.bytesOf_zero t.size
    simp [dataType, BinaryInteger.dataType, BinaryInteger.encode, BinaryInteger.rescaled,
      Value.isNull, bind, Except.bind, hzero, hrange, hbytes, blank, blankByte]
  | raw t => simp [dataType, RawBytes.dataType, RawBytes.encode, RawBytes.bytesOf, bind,
      Except.bind, blank, blankByte]
  | columnText | columnNumber | columnHex => simp [family] at h

theorem encodeText_null (h : b.family = .columns) (coding : Coding) :
    b.dataType.encodeText coding .null = .ok "" := by
  cases b with
  | columnText t =>
    have hcheck : t.check "" = .ok () := by
      unfold ColumnText.check
      split <;> simp
    simp [dataType, ColumnText.dataType, ColumnText.encode, Value.toText, hcheck, bind, Except.bind]
  | columnNumber | columnHex => rfl
  | fixedText | fixedNumber | zoned | packed | integer | raw => simp [family] at h

end BuiltIn
end Flatfile
