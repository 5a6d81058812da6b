import Flatfile.Layout.Parser

/-!
# The grammar of layouts

    layout    := directive* record+ EOF
    directive := header (literal | identifier) EOL
    record    := recordHeader ('<' recordHeader)? EOL condition* field*
    condition := identifier '=' literals EOL
    field     := number '?'? '@'? header? identifier arraySize? convertor* EOL
    convertor := identifier args? | literal
    args      := '(' literals? ')'
    literals  := literal (',' literal)*

A derivation is a tree with a type for each rule and a tree or token for each part of it. Its
leaves are tokens of the kinds that the rule names, and nothing else is asked of their values. A
tree gives the tokens that it derives, the conditions that the grammar leaves open, and the layout
that it spells. None of this refers to how a layout is read.
-/

namespace Flatfile.Layout

abbrev Leaf (kinds : List TokenKind) := { t : Token // t.kind ∈ kinds }

def Leaf.optional {kinds : List TokenKind} (t : Option (Leaf kinds)) : List Token :=
  (t.map (·.val)).toList

namespace Token

/-- The literal that a token carries; a word that is none stands for its text. -/
def literal (t : Token) : Literal :=
  match t.value with
  | .literal l => l
  | _ => .string t.nameOrRaw

def bounds (t : Token) : Occurs :=
  match t.value with
  | .bounds min max => ⟨min, max⟩
  | _ => .once

def whole (t : Token) : Nat :=
  match t.value with
  | .literal (.number d) => d.coefficient / Decimal.tenPow d.scale
  | _ => 0

def IsPositive (t : Token) : Prop :=
  0 < t.whole ∧ ∃ d, t.value = .literal (.number d) ∧
    d.mantissa = (t.whole * Decimal.tenPow d.scale : Nat)

end Token

-- ------------------------------------------------------------------
-- Literals and directives
-- ------------------------------------------------------------------

structure LiteralsTree where
  first : Leaf TokenKind.literals
  more : List (Leaf [.comma] × Leaf TokenKind.literals)

namespace LiteralsTree

def tokens (n : LiteralsTree) : List Token :=
  n.first.val :: n.more.flatMap fun (comma, value) => [comma.val, value.val]

def spell (n : LiteralsTree) : List Literal :=
  n.first.val.literal :: n.more.map fun (_, value) => value.val.literal

end LiteralsTree

structure DirectiveTree where
  header : Leaf [.header]
  value : Leaf (TokenKind.literals ++ [.identifier])
  eol : Leaf [.endOfLine]

namespace DirectiveTree

def line (n : DirectiveTree) : Line :=
  ⟨[n.header.val, n.value.val], .ok n.eol.val⟩

def tokens (n : DirectiveTree) : List Token :=
  n.line.tokens ++ [n.eol.val]

def spell (n : DirectiveTree) : Directive :=
  { name := n.header.val.nameOrRaw
    value := n.value.val.literal
    line := n.header.val.line
    column := n.header.val.column }

end DirectiveTree

-- ------------------------------------------------------------------
-- Conditions and fields
-- ------------------------------------------------------------------

structure ConditionTree where
  field : Leaf [.identifier]
  equals : Leaf [.equals]
  values : LiteralsTree
  eol : Leaf [.endOfLine]

namespace ConditionTree

def line (n : ConditionTree) : Line :=
  ⟨n.field.val :: n.equals.val :: n.values.tokens, .ok n.eol.val⟩

def tokens (n : ConditionTree) : List Token :=
  n.line.tokens ++ [n.eol.val]

def spell (n : ConditionTree) : ConditionDecl :=
  { field := n.field.val.nameOrRaw, values := n.values.spell, line := n.field.val.line }

end ConditionTree

structure ArgsTree where
  left : Leaf [.leftParen]
  values : Option LiteralsTree
  right : Leaf [.rightParen]

namespace ArgsTree

def tokens (n : ArgsTree) : List Token :=
  n.left.val :: n.values.elim [] LiteralsTree.tokens ++ [n.right.val]

def spell (n : ArgsTree) : List Literal :=
  n.values.elim [] LiteralsTree.spell

end ArgsTree

inductive ConvertorTree where
  | call (name : Leaf [.identifier]) (args : Option ArgsTree)
  | literal (value : Leaf TokenKind.literals)

namespace ConvertorTree

def tokens : ConvertorTree → List Token
  | call name args => name.val :: args.elim [] ArgsTree.tokens
  | literal value => [value.val]

def spell : ConvertorTree → CodecCall
  | call name args =>
    { name := name.val.nameOrRaw
      args := args.elim [] ArgsTree.spell
      synthetic := false
      line := name.val.line
      column := name.val.column }
  | literal value =>
    { name := "Default"
      args := [value.val.literal]
      synthetic := true
      line := value.val.line
      column := value.val.column }

def isCall : ConvertorTree → Bool
  | call _ _ => true
  | literal _ => false

def isEncoding (n : ConvertorTree) : Bool :=
  n.isCall && Text.sameName n.spell.name "Encoding"

def encoding? (n : ConvertorTree) : Option String :=
  match n.spell.args with
  | [.string encoding] => some encoding
  | _ => none

end ConvertorTree

structure FieldTree where
  position : Leaf [.number]
  filler : Option (Leaf [.question])
  mark : Option (Leaf [.atSign])
  space : Option (Leaf [.header])
  name : Leaf [.identifier]
  size : Option (Leaf [.arraySize])
  convertors : List ConvertorTree
  eol : Leaf [.endOfLine]

namespace FieldTree

def line (n : FieldTree) : Line :=
  ⟨n.position.val :: (Leaf.optional n.filler ++ (Leaf.optional n.mark ++
      (Leaf.optional n.space ++ n.name.val :: (Leaf.optional n.size ++
        n.convertors.flatMap ConvertorTree.tokens)))),
    .ok n.eol.val⟩

def tokens (n : FieldTree) : List Token :=
  n.line.tokens ++ [n.eol.val]

def occurs (n : FieldTree) : Occurs :=
  n.size.elim .once (·.val.bounds)

/-- The first convertor is the data type. Of the others, those for an encoding are left out of the
converters, and the last of them gives the encoding of the field. -/
def spell (n : FieldTree) : FieldDecl :=
  { position := n.position.val.whole
    name := n.space.elim n.name.val.nameOrRaw (·.val.nameOrRaw ++ ":" ++ n.name.val.nameOrRaw)
    encoding := (n.convertors.tail.filter (·.isEncoding)).getLast?.bind (·.encoding?)
    isRequired := n.size.isSome && 1 ≤ n.occurs.min
    isAttribute := n.mark.isSome
    isFiller := n.filler.isSome
    occurs := n.occurs
    dataType := n.convertors.head?.map (·.spell)
    converters := (n.convertors.tail.filter (!·.isEncoding)).map (·.spell)
    line := n.position.val.line
    column := n.position.val.column }

structure Valid (n : FieldTree) : Prop where
  position : n.position.val.IsPositive ∧ n.position.val.whole < 0x100000000
  bounds : ∀ max ∈ n.occurs.max, n.occurs.min ≤ max ∧ 1 ≤ max
  single : n.mark.isSome → ¬ n.occurs.isArray
  dataType : ∀ c ∈ n.convertors.head?, c.isCall
  encoding : ∀ c ∈ n.convertors.tail, c.isEncoding → c.encoding?.isSome

end FieldTree

-- ------------------------------------------------------------------
-- Records and layouts
-- ------------------------------------------------------------------

structure RecordTree where
  header : Leaf [.recordHeader]
  base : Option (Leaf [.less] × Leaf [.recordHeader])
  eol : Leaf [.endOfLine]
  conditions : List ConditionTree
  fields : List FieldTree

namespace RecordTree

def head (n : RecordTree) : Line :=
  ⟨n.header.val :: n.base.elim [] fun (less, base) => [less.val, base.val], .ok n.eol.val⟩

def tokens (n : RecordTree) : List Token :=
  n.head.tokens ++ n.eol.val :: (n.conditions.flatMap (·.tokens) ++ n.fields.flatMap (·.tokens))

def name (n : RecordTree) : String :=
  n.header.val.nameOrRaw

def named? (earlier : List RecordDecl) (name : String) : Option RecordDecl :=
  earlier.find? fun r => !r.isClassifier && Text.sameName r.name name

/-- The record type that is spelled behind `earlier`. The base is named as it was declared. -/
def spell (earlier : List RecordDecl) (n : RecordTree) : RecordDecl :=
  { name := n.name
    base := n.base.bind fun (_, base) => (named? earlier base.val.nameOrRaw).map (·.name)
    conditions := n.conditions.map (·.spell)
    fields := n.fields.map (·.spell)
    line := n.header.val.line }

structure Valid (earlier : List RecordDecl) (n : RecordTree) : Prop where
  name : ∀ r ∈ earlier, ¬ Text.sameName r.name n.name
  base : ∀ p ∈ n.base, ¬ Text.sameName n.name "classifier" ∧
    ∃ r ∈ earlier, ¬ r.isClassifier ∧ Text.sameName r.name p.2.val.nameOrRaw
  fields : ∀ f ∈ n.fields, f.Valid

def spellAll (earlier : List RecordDecl) : List RecordTree → List RecordDecl
  | [] => []
  | n :: more => n.spell earlier :: spellAll (earlier ++ [n.spell earlier]) more

def AllValid (earlier : List RecordDecl) : List RecordTree → Prop
  | [] => True
  | n :: more => n.Valid earlier ∧ AllValid (earlier ++ [n.spell earlier]) more

end RecordTree

structure LayoutTree where
  directives : List DirectiveTree
  first : RecordTree
  more : List RecordTree
  eof : Leaf [.endOfInput]

namespace LayoutTree

def tokens (n : LayoutTree) : List Token :=
  n.directives.flatMap (·.tokens) ++ (n.first :: n.more).flatMap (·.tokens) ++ [n.eof.val]

def recordTypes (n : LayoutTree) : List RecordDecl :=
  RecordTree.spellAll [] (n.first :: n.more)

def spell (source : Option String) (n : LayoutTree) : Layout :=
  { source
    directives := n.directives.map (·.spell)
    recordTypes := n.recordTypes.filter (!·.isClassifier)
    classifier := n.recordTypes.find? (·.isClassifier) }

structure Valid (n : LayoutTree) : Prop where
  directives : n.directives.Pairwise fun a b => ¬ Text.sameName a.spell.name b.spell.name
  records : RecordTree.AllValid [] (n.first :: n.more)

end LayoutTree

end Flatfile.Layout
