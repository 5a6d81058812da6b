import Flatfile.Proofs.Layout.Reading

/-!
# Lines under other numbers

A line of a layout may stand anywhere in its text: its tokens are the same but for the number of the
line (`tokensFrom_onLine`). A directive or field that is read from it is then declared on another
line, and is otherwise what it was (`DirectiveTree.spell_unplaced`, `FieldTree.spell_unplaced`).
-/

namespace Flatfile

-- ------------------------------------------------------------------
-- Declarations without their lines
-- ------------------------------------------------------------------

def Directive.unplaced (d : Directive) : Directive :=
  { d with line := 0 }

def CodecCall.unplaced (call : CodecCall) : CodecCall :=
  { call with line := 0 }

def FieldDecl.unplaced (d : FieldDecl) : FieldDecl :=
  { d with
    dataType := d.dataType.map CodecCall.unplaced
    converters := d.converters.map CodecCall.unplaced
    line := 0 }

namespace Layout

-- ------------------------------------------------------------------
-- Tokens and lines
-- ------------------------------------------------------------------

def Token.onLine (n : Nat) (t : Token) : Token :=
  { t with line := n }

def Line.onLine (n : Nat) (line : Line) : Line where
  tokens := line.tokens.map (Token.onLine n)
  stop := (line.stop.map (Token.onLine n)).mapError fun e => { e with line := some n }

@[simp] theorem Token.onLine_nameOrRaw (n : Nat) (t : Token) :
    (t.onLine n).nameOrRaw = t.nameOrRaw := rfl

@[simp] theorem Token.onLine_literal (n : Nat) (t : Token) : (t.onLine n).literal = t.literal := rfl

@[simp] theorem Token.onLine_onLine (m n : Nat) (t : Token) :
    (t.onLine m).onLine n = t.onLine n := rfl

@[simp] theorem Line.onLine_onLine (m n : Nat) (line : Line) :
    (line.onLine m).onLine n = line.onLine n := by
  obtain ⟨tokens, stop⟩ := line
  cases stop <;> simp [onLine, Except.map, Except.mapError, Function.comp_def]

@[simp] theorem Line.onLine_isBlank (n : Nat) (line : Line) :
    (line.onLine n).isBlank = line.isBlank := by
  obtain ⟨tokens, stop⟩ := line
  cases stop <;> simp [onLine, isBlank, Except.map, Except.mapError, Except.toOption]

theorem tokensFrom_onLine (m n column : Nat) (cs : List Char) :
    (tokensFrom m column cs).onLine n = tokensFrom n column cs := by
  fun_induction tokensFrom m column cs with
  | case1 column cs rest column' hend =>
    rw [tokensFrom]
    simp only [rest, column'] at hend ⊢
    rw [if_pos hend]
    rfl
  | case2 column cs rest column' hne hnone text =>
    rw [tokensFrom]
    simp only [rest, column'] at hne hnone ⊢
    rw [if_neg hne]
    split
    · rfl
    · simp_all
  | case3 column cs rest column' hne found after hword raw cause hcause =>
    rw [tokensFrom]
    simp only [rest, column'] at hne hword ⊢
    rw [if_neg hne]
    split
    · simp_all
    · rename_i found' after' hword'
      obtain ⟨rfl, rfl⟩ := Prod.mk.inj (Option.some.inj (hword.symm.trans hword'))
      simp only [hcause]
      rfl
  | case4 column cs rest column' hne found after hword raw value hvalue more ih =>
    rw [tokensFrom]
    simp only [rest, column'] at hne hword ih ⊢
    rw [if_neg hne]
    split
    · simp_all
    · rename_i found' after' hword'
      obtain ⟨rfl, rfl⟩ := Prod.mk.inj (Option.some.inj (hword.symm.trans hword'))
      simp only [hvalue, ← ih]
      rfl

-- ------------------------------------------------------------------
-- Trees
-- ------------------------------------------------------------------

def Leaf.onLine {kinds : List TokenKind} (n : Nat) (t : Leaf kinds) : Leaf kinds :=
  ⟨t.val.onLine n, t.property⟩

@[simp] theorem Leaf.onLine_val {kinds : List TokenKind} (n : Nat) (t : Leaf kinds) :
    (t.onLine n).val = t.val.onLine n := rfl

@[simp] theorem Leaf.optional_onLine {kinds : List TokenKind} (n : Nat) (t : Option (Leaf kinds)) :
    Leaf.optional (t.map (Leaf.onLine n)) = (Leaf.optional t).map (Token.onLine n) := by
  cases t <;> rfl

def LiteralsTree.onLine (n : Nat) (t : LiteralsTree) : LiteralsTree where
  first := t.first.onLine n
  more := t.more.map fun (comma, value) => (comma.onLine n, value.onLine n)

@[simp] theorem LiteralsTree.onLine_tokens (n : Nat) (t : LiteralsTree) :
    (t.onLine n).tokens = t.tokens.map (Token.onLine n) := by
  simp [onLine, tokens, List.flatMap_map, List.map_flatMap]

@[simp] theorem LiteralsTree.onLine_spell (n : Nat) (t : LiteralsTree) :
    (t.onLine n).spell = t.spell := by
  simp [onLine, spell]

def ArgsTree.onLine (n : Nat) (t : ArgsTree) : ArgsTree where
  left := t.left.onLine n
  values := t.values.map (LiteralsTree.onLine n)
  right := t.right.onLine n

@[simp] theorem ArgsTree.onLine_tokens (n : Nat) (t : ArgsTree) :
    (t.onLine n).tokens = t.tokens.map (Token.onLine n) := by
  obtain ⟨left, values, right⟩ := t
  cases values <;> simp [onLine, tokens]

@[simp] theorem ArgsTree.onLine_spell (n : Nat) (t : ArgsTree) : (t.onLine n).spell = t.spell := by
  obtain ⟨left, values, right⟩ := t
  cases values <;> simp [onLine, spell]

def ConvertorTree.onLine (n : Nat) : ConvertorTree → ConvertorTree
  | call name args => call (name.onLine n) (args.map (ArgsTree.onLine n))
  | literal value => literal (value.onLine n)

@[simp] theorem ConvertorTree.onLine_tokens (n : Nat) (t : ConvertorTree) :
    (t.onLine n).tokens = t.tokens.map (Token.onLine n) := by
  cases t with
  | literal value => rfl
  | call name args => cases args <;> simp [onLine, tokens]

theorem ConvertorTree.onLine_spell (n : Nat) (t : ConvertorTree) :
    (t.onLine n).spell = { t.spell with line := n } := by
  cases t with
  | literal value => rfl
  | call name args => cases args <;> simp [onLine, spell] <;> exact ⟨rfl, rfl⟩

@[simp] theorem ConvertorTree.spell_unplaced (n : Nat) (t : ConvertorTree) :
    (t.onLine n).spell.unplaced = t.spell.unplaced := by
  rw [onLine_spell]
  rfl

@[simp] theorem ConvertorTree.onLine_isCall (n : Nat) (t : ConvertorTree) :
    (t.onLine n).isCall = t.isCall := by
  cases t <;> rfl

@[simp] theorem ConvertorTree.onLine_isEncoding (n : Nat) (t : ConvertorTree) :
    (t.onLine n).isEncoding = t.isEncoding := by
  simp [isEncoding, onLine_spell]

@[simp] theorem ConvertorTree.onLine_encoding? (n : Nat) (t : ConvertorTree) :
    (t.onLine n).encoding? = t.encoding? := by
  simp [encoding?, onLine_spell]

-- ------------------------------------------------------------------
-- Directives and fields
-- ------------------------------------------------------------------

def DirectiveTree.onLine (n : Nat) (t : DirectiveTree) : DirectiveTree where
  header := t.header.onLine n
  value := t.value.onLine n
  eol := t.eol.onLine n

theorem DirectiveTree.onLine_line (n : Nat) (t : DirectiveTree) :
    (t.onLine n).line = t.line.onLine n := rfl

theorem DirectiveTree.spell_unplaced (n : Nat) (t : DirectiveTree) :
    (t.onLine n).spell.unplaced = t.spell.unplaced := rfl

def FieldTree.onLine (n : Nat) (t : FieldTree) : FieldTree where
  position := t.position.onLine n
  filler := t.filler.map (Leaf.onLine n)
  mark := t.mark.map (Leaf.onLine n)
  space := t.space.map (Leaf.onLine n)
  name := t.name.onLine n
  size := t.size.map (Leaf.onLine n)
  convertors := t.convertors.map (ConvertorTree.onLine n)
  eol := t.eol.onLine n

theorem FieldTree.onLine_line (n : Nat) (t : FieldTree) :
    (t.onLine n).line = t.line.onLine n := by
  simp [onLine, line, Line.onLine, List.flatMap_map, List.map_flatMap, Except.map, Except.mapError]

theorem FieldTree.onLine_occurs (n : Nat) (t : FieldTree) : (t.onLine n).occurs = t.occurs := by
  obtain ⟨_, _, _, _, _, size, _, _⟩ := t
  cases size <;> rfl

theorem FieldTree.onLine_valid {n : Nat} {t : FieldTree} (h : t.Valid) : (t.onLine n).Valid where
  position := h.position
  bounds := FieldTree.onLine_occurs n t ▸ h.bounds
  single hmark := FieldTree.onLine_occurs n t ▸ h.single (by simpa [onLine] using hmark)
  dataType := by simpa [onLine] using h.dataType
  encoding := by simpa [onLine, ← List.map_tail] using h.encoding

theorem FieldTree.spell_unplaced (n : Nat) (t : FieldTree) :
    (t.onLine n).spell.unplaced = t.spell.unplaced := by
  have hname : (t.onLine n).spell.name = t.spell.name := by
    obtain ⟨_, _, _, space, _, _, _, _⟩ := t
    cases space <;> rfl
  have hencoding : (t.onLine n).spell.encoding = t.spell.encoding := by
    simp [spell, onLine, ← List.map_tail, List.filter_map, Function.comp_def, Option.bind_map]
  have hdataType : (t.onLine n).spell.dataType.map CodecCall.unplaced =
      t.spell.dataType.map CodecCall.unplaced := by
    simp [spell, onLine, Function.comp_def]
  have hconverters : (t.onLine n).spell.converters.map CodecCall.unplaced =
      t.spell.converters.map CodecCall.unplaced := by
    simp [spell, onLine, ← List.map_tail, List.filter_map, Function.comp_def]
  have hrequired : (t.onLine n).spell.isRequired = t.spell.isRequired := by
    rw [spell, spell, onLine_occurs]
    simp [onLine]
  rw [FieldDecl.unplaced, FieldDecl.unplaced, FieldDecl.mk.injEq]
  exact ⟨rfl, hname, hencoding, hrequired, Option.isSome_map, Option.isSome_map,
    onLine_occurs n t, hdataType, hconverters, rfl, rfl⟩

end Layout
end Flatfile
