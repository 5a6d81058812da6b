import Flatfile.Layout.Basic
import Flatfile.Layout.Line
import Flatfile.Outcome

/-!
# From lines to a layout

Each line of a layout is of one of four shapes, told apart by its first token:

    directive := header (literal | identifier)
    record    := recordHeader ('<' recordHeader)?
    condition := identifier '=' literal (',' literal)*
    field     := number '?'? '@'? header? identifier arraySize? convertor*
    convertor := identifier args? | literal
    args      := '(' (literal (',' literal)*)? ')'

A layout is directives, then at least one record; after each record line come its conditions,
then its fields. Errors are met in the order of the tokens.
-/

namespace Flatfile.Layout.Parser

def unexpected (t : Token) (wanted : List TokenKind) : SyntaxError :=
  { line := some t.line
    column := some t.column
    token := if t.raw.isEmpty then none else some t.raw
    cause := .unexpected wanted t.kind t.raw }

/-- What ends a line: its closing token, or the error of a bad word. -/
abbrev Stop := Except SyntaxError Token

def refuseEnd (stop : Stop) (wanted : List TokenKind) : Except SyntaxError α :=
  match stop with
  | .ok t => .error (unexpected t wanted)
  | .error e => .error e

def expect (stop : Stop) (wanted : List TokenKind) :
    List Token → Except SyntaxError (Token × List Token)
  | [] => refuseEnd stop wanted
  | t :: rest => if t.kind ∈ wanted then .ok (t, rest) else .error (unexpected t wanted)

def takeIf (stop : Stop) (kind : TokenKind) :
    List Token → Except SyntaxError (Option Token × List Token)
  | [] => stop.map fun _ => (none, [])
  | t :: rest => .ok (if t.kind = kind then (some t, rest) else (none, t :: rest))

def expectEnd (stop : Stop) : List Token → Except SyntaxError Unit
  | [] => stop.map fun _ => ()
  | t :: _ => .error (unexpected t [.endOfLine])

def literalOf (t : Token) : Except SyntaxError Literal :=
  match t.value with
  | .literal l => .ok l
  | _ => .error (unexpected t TokenKind.literals)

def expectLiteral (stop : Stop) (ts : List Token) : Except SyntaxError (Literal × List Token) := do
  let (t, rest) ← expect stop TokenKind.literals ts
  let l ← literalOf t
  .ok (l, rest)

-- ------------------------------------------------------------------
-- Directives
-- ------------------------------------------------------------------

/-- A directive line. A bare word is the text of that word. -/
def directive (line : Line) : Except SyntaxError Directive := do
  let (header, rest) ← expect line.stop [.header] line.tokens
  let (t, rest) ← expect line.stop [.string, .number, .boolean, .hex, .identifier] rest
  let value ← if t.kind = .identifier then .ok (.string t.nameOrRaw) else literalOf t
  expectEnd line.stop rest
  .ok { name := header.nameOrRaw, value, line := header.line, column := header.column }

-- ------------------------------------------------------------------
-- Conditions
-- ------------------------------------------------------------------

def moreValues (stop : Stop) : List Token → Except SyntaxError (List Literal)
  | [] => stop.map fun _ => []
  | t :: rest =>
    if t.kind = .comma then
      match rest with
      | [] => refuseEnd stop TokenKind.literals
      | v :: rest => do
        let (l, _) ← expectLiteral stop [v]
        let ls ← moreValues stop rest
        .ok (l :: ls)
    else .error (unexpected t [.endOfLine])

def condition (line : Line) : Except SyntaxError ConditionDecl := do
  let (field, rest) ← expect line.stop [.identifier] line.tokens
  let (_, rest) ← expect line.stop [.equals] rest
  let (first, rest) ← expectLiteral line.stop rest
  let more ← moreValues line.stop rest
  .ok { field := field.nameOrRaw, values := first :: more, line := field.line }

-- ------------------------------------------------------------------
-- Convertors
-- ------------------------------------------------------------------

def argumentList (stop : Stop) : List Token → Except SyntaxError (List Literal × List Token)
  | [] => refuseEnd stop TokenKind.literals
  | [t] => do
    let _ ← expectLiteral stop [t]
    refuseEnd stop [.comma, .rightParen]
  | t :: separator :: rest => do
    let (l, _) ← expectLiteral stop [t]
    let _ ← expect stop [.comma, .rightParen] [separator]
    if separator.kind = .rightParen then .ok ([l], rest)
    else do
      let (ls, rest) ← argumentList stop rest
      .ok (l :: ls, rest)

def arguments (stop : Stop) (ts : List Token) : Except SyntaxError (List Literal × List Token) := do
  let (paren, rest) ← takeIf stop .leftParen ts
  if paren.isNone then .ok ([], ts)
  else do
    let (close, after) ← takeIf stop .rightParen rest
    if close.isSome then .ok ([], after) else argumentList stop rest

theorem takeIf_length {stop : Stop} {kind : TokenKind} {ts rest : List Token} {t : Option Token}
    (h : takeIf stop kind ts = .ok (t, rest)) : rest.length ≤ ts.length := by
  cases ts with
  | nil => cases stop <;> simp [takeIf, Except.map] at h; simp [← h.2]
  | cons a ts =>
    simp only [takeIf, Except.ok.injEq] at h
    split at h <;> simp only [Prod.mk.injEq] at h <;> simp [← h.2]

theorem refuseEnd_ne_ok {stop : Stop} {wanted : List TokenKind} {a : α} :
    refuseEnd stop wanted ≠ .ok a := by
  cases stop <;> simp [refuseEnd]

theorem argumentList_length {stop : Stop} {ts rest : List Token} {ls : List Literal}
    (h : argumentList stop ts = .ok (ls, rest)) : rest.length ≤ ts.length := by
  fun_induction argumentList stop ts generalizing ls rest with
  | case1 => exact absurd h refuseEnd_ne_ok
  | case2 t =>
    obtain ⟨_, _, h⟩ := bind_eq_ok.1 h
    exact absurd h refuseEnd_ne_ok
  | case3 t separator after ih =>
    obtain ⟨_, _, h⟩ := bind_eq_ok.1 h
    obtain ⟨_, _, h⟩ := bind_eq_ok.1 h
    split at h
    · simp only [Except.ok.injEq, Prod.mk.injEq] at h
      simp only [← h.2, List.length_cons]
      omega
    · obtain ⟨⟨more, last⟩, hmore, h⟩ := bind_eq_ok.1 h
      simp only [Except.ok.injEq, Prod.mk.injEq] at h
      have := ih hmore
      simp only [← h.2, List.length_cons]
      omega

theorem arguments_length {stop : Stop} {ts rest : List Token} {ls : List Literal}
    (h : arguments stop ts = .ok (ls, rest)) : rest.length ≤ ts.length := by
  obtain ⟨⟨paren, inside⟩, hp, h⟩ := bind_eq_ok.1 h
  dsimp only at h
  split at h
  · simp only [Except.ok.injEq, Prod.mk.injEq] at h
    simp [← h.2]
  · obtain ⟨⟨close, after⟩, hc, h⟩ := bind_eq_ok.1 h
    dsimp only at h
    split at h
    · simp only [Except.ok.injEq, Prod.mk.injEq] at h
      exact h.2 ▸ Nat.le_trans (takeIf_length hc) (takeIf_length hp)
    · exact Nat.le_trans (argumentList_length h) (takeIf_length hp)

structure Convertors where
  dataType : Option CodecCall := none
  converters : List CodecCall := []
  encoding : Option String := none

def encodingConverter : String := "Encoding"

def defaultConverter : String := "Default"

/-- Take up a convertor given by name: the first is the data type, an encoding is kept apart, and
all others are converters. -/
def Convertors.addCall (acc : Convertors) (call : CodecCall) : Except SyntaxError Convertors :=
  match acc.dataType with
  | none => .ok { acc with dataType := some call }
  | some _ =>
    if Text.sameName call.name encodingConverter then
      match call.args with
      | [.string encoding] => .ok { acc with encoding := some encoding }
      | _ => .error (.located call.line call.column .encodingArguments)
    else .ok { acc with converters := acc.converters ++ [call] }

def Convertors.addLiteral (acc : Convertors) (field : String) (t : Token) :
    Except SyntaxError Convertors :=
  match acc.dataType with
  | none => .error (.atToken t.line t.column t.raw (.literalDataType field))
  | some _ => do
    let l ← literalOf t
    let call : CodecCall :=
      { name := defaultConverter, args := [l], synthetic := true, line := t.line,
        column := t.column }
    .ok { acc with converters := acc.converters ++ [call] }

def convertors (stop : Stop) (field : String) (acc : Convertors) (ts : List Token) :
    Except SyntaxError Convertors :=
  match ts with
  | [] => stop.map fun _ => acc
  | t :: rest =>
    if t.kind = .identifier then
      match _h : arguments stop rest with
      | .error e => .error e
      | .ok (args, after) =>
        match acc.addCall { name := t.nameOrRaw, args, synthetic := false, line := t.line,
                            column := t.column } with
        | .error e => .error e
        | .ok acc => convertors stop field acc after
    else if t.kind ∈ TokenKind.literals then
      match acc.addLiteral field t with
      | .error e => .error e
      | .ok acc => convertors stop field acc rest
    else .error (unexpected t (.identifier :: .endOfLine :: TokenKind.literals))
termination_by ts.length
decreasing_by
  · exact Nat.lt_succ_of_le (arguments_length _h)
  · simp

-- ------------------------------------------------------------------
-- Fields
-- ------------------------------------------------------------------

def positionOf (t : Token) : Except SyntaxError Nat :=
  match t.value with
  | .literal (.number d) =>
    match d.toWord? with
    | some n =>
      if 0 < n ∧ n < 0x100000000 then .ok n
      else .error (.atToken t.line t.column t.raw .badPosition)
    | none => .error (.atToken t.line t.column t.raw .badPosition)
  | _ => .error (.atToken t.line t.column t.raw .badPosition)

def occursOf (field : String) (isAttribute : Bool) (t : Token) : Except SyntaxError Occurs :=
  let fail (cause : SyntaxCause) : Except SyntaxError Occurs :=
    .error (.atToken t.line t.column t.raw cause)
  match t.value with
  | .bounds min none => if isAttribute then fail (.attributeArray field) else .ok ⟨min, none⟩
  | .bounds min (some max) =>
    if max < min then fail (.reversedBounds min max)
    else if max = 0 then fail .emptyBounds
    else if isAttribute ∧ 1 < max then fail (.attributeArray field)
    else .ok ⟨min, some max⟩
  | _ => .error (unexpected t [.arraySize])

/-- A field line. A field is required when its array size asks for at least one occurrence. -/
def field (line : Line) : Except SyntaxError FieldDecl := do
  let (first, rest) ← expect line.stop [.number] line.tokens
  let position ← positionOf first
  let (filler, rest) ← takeIf line.stop .question rest
  let (mark, rest) ← takeIf line.stop .atSign rest
  let (space, rest) ← takeIf line.stop .header rest
  let (t, rest) ← expect line.stop [.identifier] rest
  let name := match space with
    | some s => s.nameOrRaw ++ ":" ++ t.nameOrRaw
    | none => t.nameOrRaw
  let (size, rest) ← takeIf line.stop .arraySize rest
  let occurs ← match size with
    | some s => occursOf name mark.isSome s
    | none => .ok .once
  let found ← convertors line.stop name {} rest
  .ok
    { position, name
      encoding := found.encoding
      isRequired := size.isSome && 1 ≤ occurs.min
      isAttribute := mark.isSome
      isFiller := filler.isSome
      occurs
      dataType := found.dataType
      converters := found.converters
      line := first.line
      column := first.column }

-- ------------------------------------------------------------------
-- Records and layouts
-- ------------------------------------------------------------------

def linesOf (kind : TokenKind) (parse : Line → Except SyntaxError α) :
    List Line → Except SyntaxError (List α × List Line)
  | [] => .ok ([], [])
  | line :: rest => do
    let first ← line.first
    if first.kind = kind then
      let a ← parse line
      let (as, rest) ← linesOf kind parse rest
      .ok (a :: as, rest)
    else .ok ([], line :: rest)

theorem linesOf_length {kind : TokenKind} {parse : Line → Except SyntaxError α}
    {lines rest : List Line} {as : List α} (h : linesOf kind parse lines = .ok (as, rest)) :
    rest.length ≤ lines.length := by
  fun_induction linesOf kind parse lines generalizing as rest with
  | case1 => simp only [Except.ok.injEq, Prod.mk.injEq] at h; simp [← h.2]
  | case2 line lines ih =>
    obtain ⟨_, _, h⟩ := bind_eq_ok.1 h
    split at h
    · obtain ⟨_, _, h⟩ := bind_eq_ok.1 h
      obtain ⟨⟨more, last⟩, hmore, h⟩ := bind_eq_ok.1 h
      simp only [Except.ok.injEq, Prod.mk.injEq] at h
      exact h.2 ▸ Nat.le_succ_of_le (ih hmore)
    · simp only [Except.ok.injEq, Prod.mk.injEq] at h
      simp [← h.2]

def recordHead (declared : List RecordDecl) (line : Line) :
    Except SyntaxError (Token × Option String) := do
  let (header, rest) ← expect line.stop [.recordHeader] line.tokens
  let (less, rest) ← takeIf line.stop .less rest
  match less with
  | none =>
    expectEnd line.stop rest
    .ok (header, none)
  | some less =>
    let (base, rest) ← expect line.stop [.recordHeader] rest
    if Text.sameName header.nameOrRaw classifierName then
      .error (.located less.line less.column .classifierBase)
    else
      match declared.find? fun r => Text.sameName r.name base.nameOrRaw with
      | none =>
        .error (.atToken base.line base.column base.raw (.unknownBase base.nameOrRaw))
      | some found =>
        expectEnd line.stop rest
        .ok (header, some found.name)

def record (declared : List RecordDecl) (line : Line) (rest : List Line) :
    Except SyntaxError (RecordDecl × List Line) := do
  let (header, base) ← recordHead declared line
  let (conditions, rest) ← linesOf .identifier condition rest
  let (fields, rest) ← linesOf .number field rest
  .ok ({ name := header.nameOrRaw, base, conditions, fields, line := header.line }, rest)

theorem record_length {declared : List RecordDecl} {line : Line} {lines rest : List Line}
    {r : RecordDecl} (h : record declared line lines = .ok (r, rest)) :
    rest.length ≤ lines.length := by
  obtain ⟨_, _, h⟩ := bind_eq_ok.1 h
  obtain ⟨⟨conditions, middle⟩, hc, h⟩ := bind_eq_ok.1 h
  obtain ⟨⟨fields, last⟩, hf, h⟩ := bind_eq_ok.1 h
  simp only [Except.ok.injEq, Prod.mk.injEq] at h
  exact h.2 ▸ Nat.le_trans (linesOf_length hf) (linesOf_length hc)

def records (endOfInput : Token) (declared : List RecordDecl) (classifier : Option RecordDecl)
    (lines : List Line) : Except SyntaxError (List RecordDecl × Option RecordDecl) :=
  match lines with
  | [] => .ok (declared, classifier)
  | line :: rest =>
    match line.first with
    | .error e => .error e
    | .ok first =>
      if first.kind = .recordHeader then
        match _h : record declared line rest with
        | .error e => .error e
        | .ok (r, after) =>
          if (declared ++ classifier.toList).any fun d => Text.sameName d.name r.name then
            .error (.located r.line 1 (.duplicateRecordType r.name))
          else if r.isClassifier then records endOfInput declared (some r) after
          else records endOfInput (declared ++ [r]) classifier after
      else .error (unexpected first [.endOfInput, .recordHeader])
termination_by lines.length
decreasing_by all_goals exact Nat.lt_succ_of_le (record_length _h)

def directives (seen : List Directive) :
    List Line → Except SyntaxError (List Directive × List Line)
  | [] => .ok (seen, [])
  | line :: rest => do
    let first ← line.first
    if first.kind = .header then
      let d ← directive line
      if seen.any fun s => Text.sameName s.name d.name then
        .error (.located d.line d.column (.duplicateDirective d.name))
      else directives (seen ++ [d]) rest
    else .ok (seen, line :: rest)

def expectRecords (endOfInput : Token) : List Line → Except SyntaxError Unit
  | [] => .error { unexpected endOfInput [.header, .recordHeader] with cause := .noRecordType }
  | line :: _ => do
    let first ← line.first
    if first.kind = .recordHeader then .ok ()
    else .error (unexpected first [.header, .recordHeader])

def ofLines (source : Option String) (input : Lines) : Except SyntaxError Layout := do
  let (directives, rest) ← directives [] input.lines
  expectRecords input.endOfInput rest
  let (recordTypes, classifier) ← records input.endOfInput [] none rest
  .ok { source, directives, recordTypes, classifier }

end Parser

def parse (text : String) (source : Option String) : Except SyntaxError Layout :=
  (Parser.ofLines source (Lines.ofSource text)).mapError (·.inSource source)

end Flatfile.Layout
