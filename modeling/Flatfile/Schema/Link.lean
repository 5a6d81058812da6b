import Flatfile.Codec.Registry
import Flatfile.Layout.Parser
import Flatfile.Schema.Basic

/-!
# From a layout to a schema

Linking checks the directives against the file type, resolves the settings, gives each field its
data type and converters, lets record types take over fields from their base, and checks that the
fields of every record type follow one another without gap or overlap. The fields of the
classifier may lie anywhere.
-/

namespace Flatfile

structure LinkContext where
  fixed : Registry := .fixed
  columns : Registry := .columns
  defaults : Defaults := {}

namespace LinkContext

def registry (ctx : LinkContext) : Family → Registry
  | .fixed => ctx.fixed
  | .columns => ctx.columns

def withRegistry (ctx : LinkContext) (r : Registry) : LinkContext :=
  match r.family with
  | .fixed => { ctx with fixed := r }
  | .columns => { ctx with columns := r }

end LinkContext

namespace Link

def atField (record : String) (f : FieldDecl) (fault : FieldFault) : SyntaxError :=
  .located f.line f.column (.inField record f.name fault)

def atCall (record : String) (f : FieldDecl) (call : CodecCall) (fault : FieldFault) :
    SyntaxError :=
  .atToken call.line call.column call.name (.inField record f.name fault)

-- ------------------------------------------------------------------
-- Fields
-- ------------------------------------------------------------------

def charsetOf (record : String) (f : FieldDecl) (fallback : Charset) :
    Except SyntaxError Charset :=
  match f.encoding with
  | none => .ok fallback
  | some name =>
    match Charset.ofName? name with
    | some charset => .ok charset
    | none => .error (atField record f (.unknownEncoding name))

def dataTypeOf (registry : Registry) (record : String) (f : FieldDecl) (call : CodecCall)
    (charset : Charset) : Except SyntaxError DataType :=
  match registry.dataType? call.name call.args ⟨f.name, charset⟩ with
  | none => .error (atCall record f call (.unknownDataType call.name))
  | some made => made.mapError fun e => atCall record f call (.convert e)

def converterOf (registry : Registry) (record : String) (f : FieldDecl) (call : CodecCall) :
    Except SyntaxError Converter :=
  match registry.converter? call.name call.args with
  | none => .error (atCall record f call (.unknownConverter call.name))
  | some made => made.mapError fun e => atCall record f call (.convert e)

/-- Append the substitution of a data type, unless one of the converters goes by its name. -/
def withSubstitution (registry : Registry) (record : String) (f : FieldDecl) (dataType : String)
    (converters : List Converter) : Except SyntaxError (List Converter) :=
  match registry.substitution? dataType with
  | none => .ok converters
  | some s =>
    if converters.any fun c => Text.sameName c.name s.converter then .ok converters
    else
      match registry.converter? s.converter s.args with
      | none => .error (atField record f (.unknownSubstitution s.converter))
      | some (.error e) => .error (atField record f (.convert e))
      | some (.ok c) => .ok (converters ++ [c])

def field (registry : Registry) (charset : Charset) (record : String) (f : FieldDecl) :
    Except SyntaxError Field := do
  let charset ← charsetOf record f charset
  match f.dataType with
  | none => .error (atField record f .noDataType)
  | some call =>
    let dataType ← dataTypeOf registry record f call charset
    let converters ← f.converters.mapM (converterOf registry record f)
    let converters ← withSubstitution registry record f call.name converters
    .ok
      { name := f.name
        position := f.position
        offset := f.position - 1
        occurs := f.occurs
        isRequired := f.isRequired
        isAttribute := f.isAttribute
        isFiller := f.isFiller
        charset, dataType, converters
        line := f.line }

def insertField (f : Field) : List Field → List Field
  | [] => [f]
  | g :: rest => if g.position ≤ f.position then g :: insertField f rest else f :: g :: rest

def sortFields (fields : List Field) : List Field :=
  fields.foldl (fun sorted f => insertField f sorted) []

def fields (registry : Registry) (charset : Charset) (r : RecordDecl) :
    Except SyntaxError (List Field) := do
  let linked ← r.fields.mapM (field registry charset r.name)
  .ok (sortFields linked)

-- ------------------------------------------------------------------
-- Taking over the fields of a base
-- ------------------------------------------------------------------

def overlaps (a b : Field) : Bool :=
  a.position < Word64.wrap (b.position + b.size) && b.position < Word64.wrap (a.position + a.size)

/-- One of the fields takes the place or the name of `b`. -/
def covers (own : List Field) (b : Field) : Bool :=
  own.any fun o => overlaps o b || Text.sameName o.name b.name

/-- Two lists of fields as one: before each own field stand those of the other list that begin
earlier. -/
def mergeFields : List Field → List Field → List Field
  | [], base => base
  | o :: own, base =>
    base.takeWhile (·.position < o.position) ++
      o :: mergeFields own (base.dropWhile (·.position < o.position))

/-- The fields of a record type together with those of its base that it leaves alone, in order of
position; at one position its own fields come first. -/
def mergeBase (own base : List Field) : List Field :=
  mergeFields own (base.filter fun b => !covers own b)

-- ------------------------------------------------------------------
-- Checks on record types
-- ------------------------------------------------------------------

/-- Walk over the fields of a record type, where the next one should begin at `expected` and
`names` holds the names of the fillers' neighbours so far; the answer is where the last one ends. -/
def checkFrom (fixed : Bool) (record : String) (expected : Nat) (names : List String) :
    List Field → Except SyntaxError Nat
  | [] => .ok expected
  | f :: rest =>
    let fail (fault : FieldFault) : Except SyntaxError Nat :=
      .error (.located f.line 1 (.inField record f.name fault))
    if f.occurs.max = none ∧ fixed then fail .openArrayInFixed
    else if f.occurs.max = none ∧ rest ≠ [] then fail .openArrayNotLast
    else if f.position ≠ expected then fail (.wrongPosition expected f.position)
    else if f.isFiller then checkFrom fixed record (Word64.wrap (expected + f.size)) names rest
    else if names.any fun n => Text.sameName n f.name then fail .duplicateName
    else checkFrom fixed record (Word64.wrap (expected + f.size)) (names ++ [f.name]) rest

def checkLayout (fixed : Bool) (record : String) (fields : List Field) : Except SyntaxError Nat :=
  (checkFrom fixed record 1 [] fields).map (Word64.sub · 1)

def predicate (record : String) (fields : List Field) (classifier : Option RecordType)
    (c : ConditionDecl) : Except SyntaxError Predicate :=
  if fields.any (fun f => Text.sameName f.name c.field)
      || classifier.any fun t => (t.field? c.field).isSome then
    .ok { field := c.field, values := c.values.map Literal.toText }
  else .error (.located c.line 1 (.unknownConditionField record c.field))

def mergedFields (linked : List RecordType) (r : RecordDecl) (own : List Field) :
    Except SyntaxError (List Field) :=
  match r.base with
  | none => .ok own
  | some name =>
    match linked.find? fun t => Text.sameName t.name name with
    | some base => .ok (mergeBase own base.fields)
    | none => .error (.located r.line 1 (.unknownBase name))

def recordType (fileType : FileType) (registry : Registry) (settings : Settings)
    (classifier : Option RecordType) (linked : List RecordType) (r : RecordDecl) :
    Except SyntaxError RecordType := do
  let own ← fields registry settings.charset r
  let fields ← mergedFields linked r own
  let length ← checkLayout (fileType = .fixed) r.name fields
  if fileType = .fixed ∧ length ≠ settings.recordLength.getD 0 then
    .error (.located r.line 1 (.wrongLength r.name length (settings.recordLength.getD 0)))
  else
    let predicates ← r.conditions.mapM (predicate r.name fields classifier)
    .ok { name := r.name, base := r.base, predicates, fields, length }

def recordTypes (fileType : FileType) (registry : Registry) (settings : Settings)
    (classifier : Option RecordType) (records : List RecordDecl) :
    Except SyntaxError (List RecordType) :=
  records.foldlM
    (fun linked r => do
      let t ← recordType fileType registry settings classifier linked r
      .ok (linked ++ [t]))
    []

/-- The classifier, as long as its farthest field reaches. -/
def classifierType (registry : Registry) (settings : Settings) (r : RecordDecl) :
    Except SyntaxError RecordType := do
  let fields ← fields registry settings.charset r
  .ok
    { name := r.name
      base := none
      predicates := []
      fields
      length := fields.foldl (fun n f => max n f.stop) 0 }

-- ------------------------------------------------------------------
-- Layouts
-- ------------------------------------------------------------------

def fileTypeOf (layout : Layout) : Except SyntaxError FileType :=
  match layout.directive? Directive.fileType with
  | none => .error (.located 1 1 .missingFileType)
  | some d =>
    match FileType.ofName? (d.value.string?.getD "") with
    | some t => .ok t
    | none => .error (.located d.line d.column (.unknownFileType d.value))

def checkMandatory (layout : Layout) (t : FileType) : Except SyntaxError Unit :=
  match t.mandatory.find? fun name => (layout.directive? name).isNone with
  | some name => .error (.located 1 1 (.missingDirective name t))
  | none => .ok ()

def checkTitle (layout : Layout) (settings : Settings) : Except SyntaxError Unit :=
  if settings.requiresTitle ∧ (layout.recordType? settings.titleType).isNone then
    let d := layout.directive? Directive.requiresTitle
    .error (.located (d.elim 1 (·.line)) (d.elim 1 (·.column))
      (.missingTitleType settings.titleType))
  else .ok ()

def layout (ctx : LinkContext) (layout : Layout) : Except SyntaxError Schema := do
  let fileType ← fileTypeOf layout
  layout.directives.forM fileType.validate
  checkMandatory layout fileType
  let settings ← Settings.resolve fileType layout.directives ctx.defaults
  checkTitle layout settings
  let registry := ctx.registry (Family.ofFileType fileType)
  let classifier ← layout.classifier.mapM (classifierType registry settings)
  let recordTypes ← recordTypes fileType registry settings classifier layout.recordTypes
  .ok
    { source := layout.source
      fileType
      directives := layout.directives
      recordTypes, classifier, settings }

end Link

def Layout.link (layout : Layout) (ctx : LinkContext) : Except SyntaxError Schema :=
  (Link.layout ctx layout).mapError (·.inSource layout.source)

def Schema.compile (ctx : LinkContext) (text : String) (source : Option String) :
    Except SyntaxError Schema := do
  let layout ← Layout.parse text source
  layout.link ctx

end Flatfile
