import Flatfile.Proofs.Codec.Arguments
import Flatfile.Proofs.Guarded

/-!
# The data types of the registries

A registry that nobody has changed makes data types of a few kinds only, and their arguments are
checked when they are made. So reading needs no check of its own: every kind reads within its ranges
(`decodeBytes_gives`, `decodeText_gives`), for the number of bytes that an integer has and the scale
that goes into a decimal are among the arguments.
-/

namespace Flatfile

open Guarded

theorem checkWidth_eq_ok {bytes : List UInt8} {width : Nat} :
    checkWidth bytes width = .ok () ↔ bytes.length = width := by
  unfold checkWidth
  split
  next h => exact iff_of_true rfl h
  next h => exact iff_of_false nofun h

inductive BuiltIn where
  | fixedText (t : FixedText)
  | fixedNumber (t : FixedNumber)
  | zoned (t : Zoned)
  | packed (t : Packed)
  | integer (t : BinaryInteger)
  | raw (t : RawBytes)
  | columnText (t : ColumnText)
  | columnNumber (t : ColumnNumber)
  | columnHex

namespace BuiltIn

def dataType : BuiltIn → DataType
  | fixedText t => t.dataType
  | fixedNumber t => t.dataType
  | zoned t => t.dataType
  | packed t => t.dataType
  | integer t => t.dataType
  | raw t => t.dataType
  | columnText t => t.dataType
  | columnNumber t => t.dataType
  | columnHex => ColumnHex.dataType

def family : BuiltIn → Family
  | columnText _ | columnNumber _ | columnHex => .columns
  | _ => .fixed

-- ------------------------------------------------------------------
-- Reading
-- ------------------------------------------------------------------

def scaled (scale : Nat) (read : Except ConvertError Value) : Guarded ConvertError Value := do
  within (scale ≤ 28)
  outcome read

def readInteger (size : Nat) (bytes : List UInt8) : Guarded ConvertError Int := do
  within (size ∈ [1, 2, 4, 8] ∧ size ≤ bytes.length)
  pure (BinaryInteger.signed (bytes.take size))

def decodeInteger (t : BinaryInteger) (bytes : List UInt8) : Guarded ConvertError Value := do
  outcome (checkWidth bytes t.size)
  let n ← readInteger t.size bytes
  scaled t.scale
    (match Decimal.ofInt? n t.scale with
    | some d => .ok (.decimal d)
    | none => .error (.overflow (toString n) t.size))

def decodeBytes (b : BuiltIn) (coding : Coding) (bytes : List UInt8) :
    Guarded ConvertError Value :=
  let read := b.dataType.decodeBytes coding bytes
  match b with
  | fixedNumber t => scaled t.scale read
  | zoned t => scaled t.scale read
  | packed t => scaled t.scale read
  | integer t => decodeInteger t bytes
  | _ => outcome read

def decodeText (b : BuiltIn) (coding : Coding) (text : String) : Guarded ConvertError Value :=
  let read := b.dataType.decodeText coding text
  match b with
  | fixedNumber t => scaled t.scale read
  | _ => outcome read

/-- What the factories have checked. -/
def Checked : BuiltIn → Prop
  | fixedText t => 1 ≤ t.size
  | fixedNumber t => 1 ≤ t.size ∧ t.scale ≤ 18
  | zoned t => 1 ≤ t.size ∧ t.scale ≤ 18 ∧ t.signs.Fit
  | packed t => 1 ≤ t.size ∧ t.scale ≤ 18 ∧ t.signs.Fit
  | integer t => t.size ∈ [1, 2, 4, 8] ∧ t.scale ≤ 18
  | raw t => 1 ≤ t.size
  | columnText _ | columnNumber _ | columnHex => True

variable {b : BuiltIn} {args : Args} {env : FieldEnv} {scale : Nat}

theorem scaled_gives (h : scale ≤ 18) (read : Except ConvertError Value) :
    (scaled scale read).Gives read :=
  (gives_within (Nat.le_trans h (by decide))).bind_ok (gives_outcome read)

theorem decodeInteger_gives {t : BinaryInteger} (hsize : t.size ∈ [1, 2, 4, 8])
    (hscale : t.scale ≤ 18) (coding : Coding) (bytes : List UInt8) :
    (decodeInteger t bytes).Gives (t.decode coding bytes) := by
  refine (gives_outcome _).bind fun _ hwidth => ?_
  have hlength : bytes.length = t.size := checkWidth_eq_ok.1 hwidth
  have hread : (readInteger t.size bytes).Gives (.ok (BinaryInteger.signed bytes)) := by
    refine (gives_within ⟨hsize, Nat.le_of_eq hlength.symm⟩).bind_ok ?_
    rw [← hlength, List.take_length]
    exact gives_pure _
  exact hread.bind_ok (scaled_gives hscale _)

theorem decodeBytes_gives (h : b.Checked) (coding : Coding) (bytes : List UInt8) :
    (b.decodeBytes coding bytes).Gives (b.dataType.decodeBytes coding bytes) := by
  cases b with
  | fixedNumber => exact scaled_gives h.2 _
  | zoned | packed => exact scaled_gives h.2.1 _
  | integer t => exact decodeInteger_gives h.1 h.2 coding bytes
  | fixedText | raw | columnText | columnNumber | columnHex => exact gives_outcome _

theorem decodeText_gives (h : b.Checked) (coding : Coding) (text : String) :
    (b.decodeText coding text).Gives (b.dataType.decodeText coding text) := by
  cases b with
  | fixedNumber t => exact scaled_gives h.2 _
  | fixedText | zoned | packed | integer | raw | columnText | columnNumber | columnHex =>
    exact gives_outcome _

theorem width_pos (h : b.Checked) : 1 ≤ b.dataType.width := by
  cases b with
  | fixedText | raw => exact h
  | fixedNumber | zoned | packed => exact h.1
  | integer t =>
    simp only [Checked, List.mem_cons, List.not_mem_nil, or_false] at h
    simp only [dataType, BinaryInteger.dataType]
    omega
  | columnText | columnNumber | columnHex => exact Nat.le_refl 1

-- ------------------------------------------------------------------
-- Factories
-- ------------------------------------------------------------------

theorem fixedNumber_ofArgs {t : FixedNumber} (h : FixedNumber.ofArgs args env = .ok t) :
    (fixedNumber t).Checked := by
  obtain ⟨-, -, h⟩ := bind_eq_ok.1 h
  obtain ⟨size, hsize, h⟩ := bind_eq_ok.1 h
  obtain ⟨scale, hscale, h⟩ := bind_eq_ok.1 h
  obtain rfl := Except.ok.inj h
  exact ⟨Args.size_pos hsize, Args.scale_le hscale⟩

theorem integer_ofArgs {t : BinaryInteger} (h : BinaryInteger.ofArgs args env = .ok t) :
    (integer t).Checked := by
  obtain ⟨-, -, h⟩ := bind_eq_ok.1 h
  obtain ⟨size, -, h⟩ := bind_eq_ok.1 h
  split at h
  next => cases h
  next hsize =>
    obtain ⟨scale, hscale, h⟩ := bind_eq_ok.1 h
    obtain rfl := Except.ok.inj h
    exact ⟨not_not.1 hsize, Args.scale_le hscale⟩

theorem raw_ofArgs {t : RawBytes} (h : RawBytes.ofArgs args env = .ok t) : (raw t).Checked := by
  obtain ⟨-, -, h⟩ := bind_eq_ok.1 h
  obtain ⟨size, hsize, h⟩ := bind_eq_ok.1 h
  obtain rfl := Except.ok.inj h
  exact Args.size_pos hsize

theorem exists_of_dataType? {family : Family} {name : String} {items : List Literal}
    {t : DataType} (h : (Registry.builtin family).dataType? name items env = some (.ok t)) :
    ∃ b : BuiltIn, b.Checked ∧ b.family = family ∧ b.dataType = t := by
  obtain ⟨entry, hentry, h⟩ := Registry.exists_mem_of_dataType? h
  cases family with
  | fixed =>
    simp only [Registry.builtin, Registry.fixed, List.mem_cons, List.not_mem_nil, or_false]
      at hentry
    rcases hentry with rfl | rfl | rfl | rfl | rfl | rfl <;> obtain ⟨f, hf, rfl⟩ := map_eq_ok.1 h
    · exact ⟨fixedText f, (FixedText.ofArgs_ok hf).1, rfl, rfl⟩
    · exact ⟨fixedNumber f, fixedNumber_ofArgs hf, rfl, rfl⟩
    · exact ⟨zoned f, Zoned.ofArgs_ok hf, rfl, rfl⟩
    · exact ⟨packed f, Packed.ofArgs_ok hf, rfl, rfl⟩
    · exact ⟨integer f, integer_ofArgs hf, rfl, rfl⟩
    · exact ⟨raw f, raw_ofArgs hf, rfl, rfl⟩
  | columns =>
    simp only [Registry.builtin, Registry.columns, List.mem_cons, List.not_mem_nil, or_false]
      at hentry
    rcases hentry with rfl | rfl | rfl <;> obtain ⟨f, hf, rfl⟩ := map_eq_ok.1 h
    · exact ⟨columnText f, trivial, rfl, rfl⟩
    · exact ⟨columnNumber f, trivial, rfl, rfl⟩
    · exact ⟨columnHex, trivial, rfl, rfl⟩

end BuiltIn
end Flatfile
