import Flatfile.Formatter.Read
import Flatfile.Proofs.Codec.BuiltIn
import Flatfile.Proofs.Delimited.Columns
import Flatfile.Proofs.Formatter.Overruns
import Flatfile.Proofs.Schema.Select
import Flatfile.Proofs.Schema.Traverse

/-!
# Reading with every range guarded

Reading once more, step by step as in `Formatter.read`, with each operation guarded that has a
range: the bytes of fields and their slots, the room before an array at the end, the places that the
index of a record leads to, and what the data types read. Sizes are numbers without bounds here.
Each step has an answer if the fields are of built-in data types and lie in their record types, and
it is that of the plain step as long as words count how far the fields reach (`read_gives`). Nothing
else is asked of the fields: those of a classifier may overlap, leave gaps and reach beyond the
data.
-/

namespace Flatfile.GuardedRead

open Guarded

-- ------------------------------------------------------------------
-- Records
-- ------------------------------------------------------------------

section Records

variable {ε : Type}

def insert (r : Record) (name : String) (value : Value) : Guarded ε Record :=
  match r.place? name with
  | some i => do
    let entry ← item r.entries i
    pure { r with entries := r.entries.set i { entry with value } }
  | none => pure (r.insert name value)

def get? (r : Record) (name : String) : Guarded ε (Option Value) :=
  match r.place? name with
  | some i => do
    let entry ← item r.entries i
    pure (some entry.value)
  | none => pure none

def holds (r : Record) (p : Predicate) : Guarded ε Bool := do
  match ← get? r p.field with
  | some value => pure (!value.isNull && p.values.contains value.toText)
  | none => pure false

def accepts (t : RecordType) (r : Record) : Guarded ε Bool :=
  t.predicates.allM (holds r)

def describeEntry (entry : Entry) : Guarded ε String := do
  let name ← item entry.names 0
  pure (name ++ "=" ++ Text.quoted entry.value.toText)

def describeFields (r : Record) : Guarded ε String := do
  let shown ← r.entries.mapM describeEntry
  pure ("\x7b" ++ ", ".intercalate shown ++ "\x7d")

variable {r : Record} {name : String}

theorem insert_gives (hr : r.Placed) (name : String) (value : Value) :
    (insert r name value : Guarded ε Record).Gives (.ok (r.insert name value)) := by
  unfold insert
  cases hplace : r.place? name with
  | none => exact gives_pure _
  | some i =>
    have hentry := List.getElem?_eq_getElem (hr name i hplace)
    have hinsert : r.insert name value =
        { r with entries := r.entries.set i { r.entries.get ⟨i, hr name i hplace⟩ with value } } := by
      simp only [Record.insert, hplace, List.modify_eq_set_getElem?, hentry]
      rfl
    rw [hinsert]
    exact (gives_item hentry).bind_ok (gives_pure _)

theorem get?_gives (hr : r.Placed) (name : String) :
    (get? r name : Guarded ε (Option Value)).Gives (.ok (r.get? name)) := by
  unfold get?
  cases hplace : r.place? name with
  | none =>
    rw [Record.get?, Record.entry?, hplace]
    exact gives_pure _
  | some i =>
    have hentry := List.getElem?_eq_getElem (hr name i hplace)
    rw [Record.get?, Record.entry?, hplace, Option.bind_some, hentry]
    exact (gives_item hentry).bind_ok (gives_pure _)

theorem accepts_gives (hr : r.Placed) (t : RecordType) :
    (accepts t r : Guarded ε Bool).Gives (.ok (t.accepts r)) := by
  refine gives_allM fun p _ => (get?_gives hr p.field).bind_ok ?_
  rw [Predicate.holds]
  cases r.get? p.field <;> exact gives_pure _

theorem describeFields_gives (r : Record) :
    (describeFields r : Guarded ε String).Gives (.ok (Schema.describeFields r)) := by
  have hshown : (r.entries.mapM describeEntry : Guarded ε (List String)).Gives
      (r.entries.mapM fun entry => pure (entry.name ++ "=" ++ Text.quoted entry.value.toText)) :=
    gives_mapM fun entry _ => (gives_item rfl).bind_ok (gives_pure _)
  rw [List.mapM_pure] at hshown
  refine hshown.bind_ok ?_
  rw [Schema.describeFields, Record.toList, List.map_map]
  exact gives_pure _

end Records

-- ------------------------------------------------------------------
-- Fields in turn
-- ------------------------------------------------------------------

section Fields

def readFields (read : Field → Bool → Guarded InvalidData Value) :
    List Field → Record → Guarded InvalidData Record
  | [], r => pure r
  | f :: rest, r => do
    let value ← mapError (·.inField f.name) (read f rest.isEmpty)
    let r ← if f.isFiller then pure r else insert r f.name value
    readFields read rest r

def readRecord (t : RecordType) (read : Field → Bool → Guarded InvalidData Value) :
    Guarded InvalidData Record :=
  readFields read t.fields (.ofType t.name)

variable {read : Field → Bool → Except InvalidData Value} {fields : List Field} {r : Record}
  {t : RecordType} {read' : Field → Bool → Guarded InvalidData Value}

theorem readFields_gives (h : ∀ f ∈ fields, ∀ last, (read' f last).Gives (read f last))
    (hr : r.Placed) :
    (readFields read' fields r).Gives (RecordType.readFields read fields r) := by
  induction fields generalizing r with
  | nil => exact gives_pure _
  | cons f rest ih =>
    obtain ⟨hf, hrest⟩ := List.forall_mem_cons.1 h
    refine ((hf rest.isEmpty).mapError _).bind fun value _ => ?_
    cases f.isFiller with
    | true => exact (gives_pure r).bind_ok (ih hrest hr)
    | false =>
      exact (insert_gives hr f.name value).bind_ok (ih hrest (hr.insert f.name value))

theorem readRecord_gives (h : ∀ f ∈ t.fields, ∀ last, (read' f last).Gives (read f last)) :
    (readRecord t read').Gives (t.read read) :=
  readFields_gives h (Record.ofType_placed t.name)

end Fields

-- ------------------------------------------------------------------
-- Fields in bytes and in columns
-- ------------------------------------------------------------------

variable (codec : Field → BuiltIn) (settings : Settings)

def readSlot (f : Field) (read : BuiltIn → Coding → Guarded ConvertError Value) :
    Guarded InvalidData Value :=
  mapError .ofConvert do
    let value ← read (codec f) (f.coding settings)
    outcome (f.readValue value)

namespace Fixed

def decodeSlot (f : Field) (bytes : List UInt8) : Guarded InvalidData Value :=
  readSlot codec settings f fun b coding => b.decodeBytes coding bytes

def decodeField (bytes : List UInt8) (f : Field) : Guarded InvalidData Value := do
  let stop := f.offset + f.extent
  if bytes.length < stop then throw { cause := .fieldBeyondRecord stop bytes.length }
  else if f.isArray then
    let starts ← steps f.offset stop f.width
    let items ← starts.mapM fun start => do
      let slot ← slice bytes start (start + f.width)
      decodeSlot codec settings f slot
    pure (.array (Flatfile.Fixed.dropUnused f.occurs.min (items.map Value.toText)))
  else
    let slot ← slice bytes f.offset stop
    decodeSlot codec settings f slot

def decodeRecord (t : RecordType) (bytes : List UInt8) : Guarded InvalidData Record :=
  readRecord t fun f _ => decodeField codec settings bytes f

end Fixed

namespace Delimited

def columnBounds (t : RecordType) : Guarded InvalidData (Nat × Option Nat) :=
  match t.fields.getLast? with
  | some last =>
    if last.isArray then do
      let head ← minus t.length last.extent
      pure (head + last.occurs.min * last.width,
        last.occurs.max.map fun max => head + max * last.width)
    else pure (t.length, some t.length)
  | none => pure (t.length, some t.length)

def checkCount (t : RecordType) (count : Nat) : Guarded InvalidData Unit := do
  let (min, max) ← columnBounds t
  if min ≤ count ∧ max.all (count ≤ ·) then pure ()
  else throw { cause := .columnCount t.name min max count }

def decodeColumn (f : Field) (column : Option String) : Guarded InvalidData Value :=
  readSlot codec settings f fun b coding => column.elim (pure .null) (b.decodeText coding)

def decodeField (columns : List String) (f : Field) (last : Bool) :
    Guarded InvalidData Value :=
  if f.isArray then do
    let items ← (Flatfile.Delimited.arrayColumns columns f last).mapM (decodeColumn codec settings f)
    pure (.array (items.map Value.toText))
  else decodeColumn codec settings f columns[f.offset]?

def decodeLoosely (t : RecordType) (columns : List String) : Guarded InvalidData Record :=
  readRecord t (decodeField codec settings columns)

def decodeRecord (t : RecordType) (columns : List String) : Guarded InvalidData Record := do
  checkCount t columns.length
  decodeLoosely codec settings t columns

end Delimited

variable {codec : Field → BuiltIn} {settings : Settings} {f : Field} {t : RecordType}

def ReadBy (codec : Field → BuiltIn) (f : Field) : Prop :=
  (codec f).dataType = f.dataType ∧ (codec f).Checked

namespace Fixed

theorem decodeSlot_gives (h : ReadBy codec f) (bytes : List UInt8) :
    (decodeSlot codec settings f bytes).Gives (Flatfile.Fixed.decodeSlot settings f bytes) := by
  have hread := BuiltIn.decodeBytes_gives h.2 (f.coding settings) bytes
  rw [h.1] at hread
  exact (hread.bind fun value _ => gives_outcome _).mapError _

theorem decodeField_gives (h : ReadBy codec f) (bytes : List UInt8) :
    (decodeField codec settings bytes f).Gives
      (Flatfile.Fixed.exactField settings bytes f) := by
  have hwidth : 1 ≤ f.width := by
    rw [Field.width, ← h.1]
    exact BuiltIn.width_pos h.2
  unfold decodeField Flatfile.Fixed.exactField
  simp only
  split
  next => exact gives_throw _
  next hroom =>
    replace hroom := Nat.le_of_not_lt hroom
    split
    next =>
      refine (gives_steps hwidth f.offset f.slots).bind_ok ?_
      rw [List.mapM_map]
      refine (gives_mapM fun k hk => ?_).bind fun items _ => gives_pure _
      -- Slot `k` ends within the field, and the field within the record.
      have hslot : f.offset + k * f.width + f.width ≤ bytes.length := by
        have := f.slot_le (List.mem_range.1 hk)
        omega
      refine (gives_slice (Nat.le_add_right _ _) hslot).bind_ok ?_
      rw [Nat.add_sub_cancel_left]
      exact decodeSlot_gives h _
    next =>
      refine (gives_slice (Nat.le_add_right _ _) hroom).bind_ok ?_
      rw [Nat.add_sub_cancel_left]
      exact decodeSlot_gives h _

def exactRecord (settings : Settings) (t : RecordType) (bytes : List UInt8) :
    Except InvalidData Record :=
  t.read fun f _ => Flatfile.Fixed.exactField settings bytes f

theorem exactRecord_inRange {bytes : List UInt8} {e : InvalidData}
    (h : exactRecord settings t bytes = .error e) : e.cause ≠ .outOfRange := by
  obtain ⟨f, -, -, e', hf, hcause⟩ := RecordType.exists_of_read_error h
  exact hcause ▸ Flatfile.Fixed.exactField_inRange hf

theorem decodeRecord_gives (h : ∀ f ∈ t.fields, ReadBy codec f) (bytes : List UInt8) :
    (decodeRecord codec settings t bytes).Gives (exactRecord settings t bytes) :=
  readRecord_gives fun f hf _ => decodeField_gives (h f hf) bytes

theorem decodeRecord_gives_plain (h : ∀ f ∈ t.fields, ReadBy codec f)
    (hwords : ∀ f ∈ t.fields, ¬ f.Overruns) (bytes : List UInt8) :
    (decodeRecord codec settings t bytes).Gives (Flatfile.Fixed.decodeRecord settings t bytes) :=
  readRecord_gives fun f hf _ => by
    rw [Flatfile.Fixed.decodeField_exact (hwords f hf)]
    exact decodeField_gives (h f hf) bytes

end Fixed

/-- A word counts the columns of a record type, and there is room in it for the last field. -/
structure HasRoom (t : RecordType) : Prop where
  length_lt : t.length < 2 ^ 64
  ordered : ∀ last, t.fields.getLast? = some last → last.occurs.Ordered
  room : ∀ last, t.fields.getLast? = some last → last.extent ≤ t.length

namespace Delimited

theorem columnBounds_gives (h : HasRoom t) :
    (columnBounds t).Gives (.ok (Flatfile.Delimited.columnBounds t)) := by
  cases hlast : t.fields.getLast? with
  | none =>
    simp only [columnBounds, Flatfile.Delimited.columnBounds, hlast]
    exact gives_pure _
  | some last =>
    cases harray : last.isArray with
    | false =>
      simp only [columnBounds, Flatfile.Delimited.columnBounds, hlast, harray, Bool.false_eq_true,
        if_false]
      exact gives_pure _
    | true =>
      rw [Flatfile.Delimited.columnBounds_array h.length_lt hlast (h.ordered last hlast) harray
        (h.room last hlast)]
      simp only [columnBounds, hlast, harray, if_true]
      exact (gives_minus (h.room last hlast)).bind_ok (gives_pure _)

theorem checkCount_gives (h : HasRoom t) (count : Nat) :
    (checkCount t count).Gives (Flatfile.Delimited.checkCount t count) := by
  refine (columnBounds_gives h).bind_ok ?_
  unfold Flatfile.Delimited.checkCount
  simp only
  split
  next => exact gives_pure _
  next => exact gives_throw _

theorem decodeColumn_gives (h : ReadBy codec f) (column : Option String) :
    (decodeColumn codec settings f column).Gives
      (Flatfile.Delimited.decodeColumn settings f column) := by
  cases column with
  | none => exact ((gives_pure _).bind fun value _ => gives_outcome _).mapError _
  | some text =>
    have hread := BuiltIn.decodeText_gives h.2 (f.coding settings) text
    rw [h.1] at hread
    exact (hread.bind fun value _ => gives_outcome _).mapError _

theorem decodeField_gives (h : ReadBy codec f) (columns : List String) (last : Bool) :
    (decodeField codec settings columns f last).Gives
      (Flatfile.Delimited.decodeField settings columns f last) := by
  unfold decodeField Flatfile.Delimited.decodeField
  split
  next =>
    refine (gives_mapM fun column _ => decodeColumn_gives h column).bind fun items _ => ?_
    exact gives_pure _
  next => exact decodeColumn_gives h _

theorem decodeLoosely_gives (h : ∀ f ∈ t.fields, ReadBy codec f) (columns : List String) :
    (decodeLoosely codec settings t columns).Gives
      (Flatfile.Delimited.decodeLoosely settings t columns) :=
  readRecord_gives fun f hf last => decodeField_gives (h f hf) columns last

theorem decodeRecord_gives (h : ∀ f ∈ t.fields, ReadBy codec f) (hroom : HasRoom t)
    (columns : List String) :
    (decodeRecord codec settings t columns).Gives
      (Flatfile.Delimited.decodeRecord settings t columns) :=
  (checkCount_gives hroom columns.length).bind fun _ _ => decodeLoosely_gives h columns

end Delimited

-- ------------------------------------------------------------------
-- Which record type
-- ------------------------------------------------------------------

def tryType (decode : RecordType → Guarded InvalidData Record) (t : RecordType) :
    Guarded InvalidData (Option (RecordType × Record)) := do
  match ← attempt (decode t) with
  | some r =>
    if ← accepts t r then pure (some (t, r)) else pure none
  | none => pure none

def selectForRead (s : Schema) (exclude : Option String)
    (decodeKey decode : RecordType → Guarded InvalidData Record) :
    Guarded InvalidData (RecordType × Record) :=
  match s.classifier with
  | some classifier => do
    let key ← decodeKey classifier
    match ← (s.candidates exclude).findM? (accepts · key) with
    | none =>
      let shown ← describeFields key
      throw { cause := .noTypeForClassifier shown }
    | some t =>
      let r ← decode t
      pure (t, r)
  | none =>
    match s.candidates exclude with
    | [only] => do
      let r ← decode only
      pure (only, r)
    | types => do
      match ← types.findSomeM? (tryType decode) with
      | some found => pure found
      | none => throw { cause := .noTypeMatches (Schema.describeTypes types) }

section Select

variable {s : Schema} {exclude : Option String} {r : Record}
  {decodeKey decode : RecordType → Except InvalidData Record}
  {decodeKey' decode' : RecordType → Guarded InvalidData Record}

/-- Reading a type stays within its ranges, and the index of the record leads to its entries. -/
structure Reads (decode' : RecordType → Guarded InvalidData Record)
    (decode : RecordType → Except InvalidData Record) (t : RecordType) : Prop where
  gives : (decode' t).Gives (decode t)
  placed : ∀ r, decode t = .ok r → r.Placed
  inRange : ∀ e, decode t = .error e → e.cause ≠ .outOfRange

def accepted? (decode : RecordType → Except InvalidData Record) (t : RecordType) :
    Option (RecordType × Record) :=
  match decode t with
  | .ok r => if t.accepts r then some (t, r) else none
  | .error _ => none

theorem firstAccepted_eq {types : List RecordType} (h : ∀ t ∈ types, Reads decode' decode t) :
    Schema.firstAccepted decode types = .ok (types.findSome? (accepted? decode)) := by
  induction types with
  | nil => rfl
  | cons t types ih =>
    obtain ⟨ht, htypes⟩ := List.forall_mem_cons.1 h
    rw [Schema.firstAccepted, List.findSome?_cons, accepted?, ih htypes]
    cases hdecode : decode t with
    | error e => simp only [ht.inRange e hdecode, if_false]
    | ok r =>
      simp only
      split <;> rfl

theorem tryType_gives (h : Reads decode' decode t) :
    (tryType decode' t).Gives (.ok (accepted? decode t)) := by
  rw [accepted?]
  refine h.gives.attempt.bind_ok ?_
  cases hdecode : decode t with
  | error e => exact gives_pure none
  | ok r =>
    refine (accepts_gives (h.placed r hdecode) t).bind_ok ?_
    simp only
    split <;> exact gives_pure _

theorem firstAccepted_gives {types : List RecordType}
    (h : ∀ t ∈ types, Reads decode' decode t) :
    (types.findSomeM? (tryType decode')).Gives (Schema.firstAccepted decode types) := by
  rw [firstAccepted_eq h]
  exact gives_findSomeM? fun t ht => tryType_gives (h t ht)

theorem selectForRead_gives (hkey : ∀ c ∈ s.classifier, Reads decodeKey' decodeKey c)
    (htypes : ∀ t ∈ s.recordTypes, Reads decode' decode t) :
    (selectForRead s exclude decodeKey' decode').Gives
      (s.selectForRead exclude decodeKey decode) := by
  have hcandidates : ∀ t ∈ s.candidates exclude, Reads decode' decode t :=
    fun t ht => htypes t (List.mem_of_mem_filter ht)
  unfold selectForRead Schema.selectForRead
  cases hclassifier : s.classifier with
  | some classifier =>
    have hc := hkey classifier hclassifier
    refine hc.gives.bind fun key hread => ?_
    have hfind : ((s.candidates exclude).findM? (accepts · key) :
        Guarded InvalidData (Option RecordType)).Gives
        (.ok ((s.candidates exclude).find? (·.accepts key))) :=
      gives_findM? fun t _ => accepts_gives (hc.placed key hread) t
    refine hfind.bind_ok ?_
    cases hfound : (s.candidates exclude).find? (·.accepts key) with
    | none => exact (describeFields_gives key).bind_ok (gives_throw _)
    | some t =>
      have ht := hcandidates t (List.mem_of_find?_eq_some hfound)
      exact ht.gives.bind fun r _ => gives_pure _
  | none =>
    generalize s.candidates exclude = types at hcandidates
    cases types with
    | nil => exact gives_throw _
    | cons first rest =>
      cases rest with
      | nil =>
        have ht := hcandidates first List.mem_cons_self
        exact ht.gives.bind fun r _ => gives_pure _
      | cons second rest =>
        refine (firstAccepted_gives hcandidates).bind fun found _ => ?_
        cases found with
        | some found => exact gives_pure _
        | none => exact gives_throw _

end Select

-- ------------------------------------------------------------------
-- Formatters
-- ------------------------------------------------------------------

section Formatters

variable (codec : Field → BuiltIn) (f : Formatter)

def selectBytes (bytes : List UInt8) : Guarded FormatError (RecordType × Record) :=
  let decode (t : RecordType) := Fixed.decodeRecord codec f.settings t bytes
  mapError f.readError (selectForRead f.schema none decode decode)

def titleOfColumns (columns : List String) : Guarded FormatError (RecordType × Record) := do
  let title ← outcome (Flatfile.Delimited.titleType f.schema f.settings)
  let r ← mapError f.readError (Delimited.decodeRecord codec f.settings title columns)
  pure (title, r)

def isTitle (title t : RecordType) (r : Record) : Guarded InvalidData Bool :=
  if Text.sameName t.name title.name then pure true
  else if title.predicates.isEmpty then pure false
  else accepts title r

def checkNotTitle (title t : RecordType) (r : Record) : Guarded InvalidData Unit := do
  if ← isTitle title t r then throw { cause := .onlyFirstIsTitle title.name } else pure ()

def selectColumns (first : Bool) (columns : List String) :
    Guarded FormatError (RecordType × Record) :=
  if f.settings.requiresTitle ∧ first then titleOfColumns codec f columns
  else do
    let title ← outcome (Flatfile.Delimited.titleType? f.schema f.settings)
    let selected := selectForRead f.schema (title.map (·.name))
      (Delimited.decodeLoosely codec f.settings · columns)
      (Delimited.decodeRecord codec f.settings · columns)
    let (t, r) ← mapError f.readError selected
    match title with
    | some title => mapError f.readError (checkNotTitle title t r)
    | none => pure ()
    pure (t, r)

def finish (select : α → Guarded FormatError (RecordType × Record)) :
    Except RawError α → Guarded FormatError (Option Record)
  | .error e => throw (f.rawError e)
  | .ok raw => do
    let (_, r) ← select raw
    pure (some { r with sequence := f.records })

def answer (answer : Guarded FormatError (Option Record)) (f : Formatter) :
    Option (Except FormatError (Option Record) × Formatter) :=
  answer.run.map (·, f)

def readFixed (input : Input) (length : Nat) (separator : List UInt8) :
    Option (Except FormatError (Option Record) × Formatter) :=
  match Flatfile.Fixed.readRaw length separator input.stream.source with
  | (.error fault, source) => some (.error (.onStream input.path fault), f.withSource input source)
  | (.ok none, source) => some (.ok none, f.withSource input source)
  | (.ok (some raw), source) =>
    let f := { f.withSource input source with records := Word32.wrap (f.records + 1) }
    answer (finish f (selectBytes codec f) raw) f

def readDelimited (input : Input) (d : Flatfile.Delimited.Delimiters) :
    Option (Except FormatError (Option Record) × Formatter) :=
  match Flatfile.Delimited.toRecord f.settings.ignoreBlankLines d.record.toList input.stream with
  | (.error fault, stream) => some (.error (.onStream input.path fault), f.withStream input stream)
  | (.ok none, stream) => some (.ok none, f.withStream input stream)
  | (.ok (some blanks), stream) =>
    let (raw, stream) := Flatfile.Delimited.scanRecord d stream
    let first := !f.titleRead
    let records := Word32.wrap (f.records + (blanks + 1))
    let f := { f.withStream input stream with records, titleRead := true }
    answer (finish f (selectColumns codec f first) raw) f

/-- Read the next record. Nothing is given if an operation leaves its range. -/
def read : Option (Except FormatError (Option Record) × Formatter) :=
  match f.checkReady, f.input with
  | .error e, _ => some (.error e, f)
  | .ok (), none => some (.error (.state .noInput), f)
  | .ok (), some input =>
    match f.engine with
    | .fixed length separator => readFixed codec f input length separator
    | .delimited d => readDelimited codec f input d

structure Reliable (codec : Field → BuiltIn) (s : Schema) : Prop where
  classifier : ∀ c ∈ s.classifier, ∀ f ∈ c.fields, ReadBy codec f
  fields : ∀ t ∈ s.recordTypes, ∀ f ∈ t.fields, ReadBy codec f

variable {codec : Field → BuiltIn} {f : Formatter}

theorem Reliable.readBy (h : Reliable codec f.schema) {t : RecordType}
    (ht : t ∈ f.schema.classifier.toList ++ f.schema.recordTypes) :
    ∀ f ∈ t.fields, ReadBy codec f :=
  (List.mem_append.1 ht).elim (fun ht => h.classifier t (Option.mem_toList.1 ht)) (h.fields t)

theorem selectBytes_gives (h : Reliable codec f.schema) (bytes : List UInt8) :
    ∃ selected, (selectBytes codec f bytes).Gives selected ∧
      (¬ f.schema.Overruns → selected = f.selectBytes bytes) := by
  have hselect (decode : RecordType → Except InvalidData Record)
      (hreads : ∀ t ∈ f.schema.classifier.toList ++ f.schema.recordTypes,
        Reads (Fixed.decodeRecord codec f.settings · bytes) decode t) :
      (selectBytes codec f bytes).Gives
        ((f.schema.selectForRead none decode decode).mapError f.readError) :=
    (selectForRead_gives
      (fun c hc => hreads c (List.mem_append_left _ (Option.mem_toList.2 hc)))
      fun t ht => hreads t (List.mem_append_right _ ht)).mapError _
  by_cases hoverruns : f.schema.Overruns
  · refine ⟨_, hselect (Fixed.exactRecord f.settings · bytes) fun t ht => ?_,
      fun hnot => absurd hoverruns hnot⟩
    exact ⟨Fixed.decodeRecord_gives (h.readBy ht) bytes, fun r => RecordType.read_placed,
      fun e => Fixed.exactRecord_inRange⟩
  · refine ⟨_, hselect (Flatfile.Fixed.decodeRecord f.settings · bytes) fun t ht => ?_,
      fun _ => rfl⟩
    have hwords : ∀ g ∈ t.fields, ¬ g.Overruns := fun g hg hg' => hoverruns ⟨t, ht, g, hg, hg'⟩
    exact ⟨Fixed.decodeRecord_gives_plain (h.readBy ht) hwords bytes,
      fun r => RecordType.read_placed, fun e => Flatfile.Fixed.decodeRecord_inRange hwords⟩

theorem decodeRecord_placed {settings : Settings} {columns : List String} {r : Record}
    (h : Flatfile.Delimited.decodeRecord settings t columns = .ok r) : r.Placed := by
  obtain ⟨-, -, h⟩ := bind_eq_ok.1 h
  exact RecordType.read_placed h

theorem titleType_mem {s : Schema} {settings : Settings} {title : RecordType}
    (h : Flatfile.Delimited.titleType s settings = .ok title) : title ∈ s.recordTypes := by
  unfold Flatfile.Delimited.titleType at h
  split at h
  next t ht =>
    obtain rfl := Except.ok.inj h
    exact Schema.recordType?_mem ht
  next => cases h

theorem titleOfColumns_gives (h : Reliable codec f.schema)
    (hroom : ∀ t ∈ f.schema.recordTypes, HasRoom t) (columns : List String) :
    (titleOfColumns codec f columns).Gives (f.titleOfColumns columns) := by
  refine (gives_outcome _).bind fun title htitle => ?_
  have ht := titleType_mem htitle
  refine (Gives.mapError ?_ _).bind fun r _ => gives_pure _
  exact Delimited.decodeRecord_gives (h.fields title ht) (hroom title ht) columns

theorem checkNotTitle_gives {r : Record} (hr : r.Placed) (title t : RecordType) :
    (checkNotTitle title t r).Gives (Flatfile.Delimited.checkNotTitle title t r) := by
  have htitle : (isTitle title t r).Gives (.ok (Flatfile.Delimited.isTitle title t r)) := by
    unfold isTitle Flatfile.Delimited.isTitle
    cases Text.sameName t.name title.name with
    | true => exact gives_pure _
    | false =>
      cases title.predicates.isEmpty with
      | true => exact gives_pure _
      | false => exact accepts_gives hr title
  refine htitle.bind_ok ?_
  unfold Flatfile.Delimited.checkNotTitle
  split
  next => exact gives_throw _
  next => exact gives_pure _

theorem selectColumns_gives (h : Reliable codec f.schema)
    (hroom : ∀ t ∈ f.schema.recordTypes, HasRoom t) (first : Bool) (columns : List String) :
    (selectColumns codec f first columns).Gives (f.selectColumns first columns) := by
  unfold selectColumns Formatter.selectColumns
  split
  next => exact titleOfColumns_gives h hroom columns
  next =>
    refine (gives_outcome _).bind fun title htitle => ?_
    have hkey : ∀ c ∈ f.schema.classifier,
        Reads (Delimited.decodeLoosely codec f.settings · columns)
          (Flatfile.Delimited.decodeLoosely f.settings · columns) c := fun c hc =>
      ⟨Delimited.decodeLoosely_gives (h.classifier c hc) columns, fun r => RecordType.read_placed,
        fun e => Flatfile.Delimited.decodeLoosely_inRange⟩
    have htypes : ∀ t ∈ f.schema.recordTypes,
        Reads (Delimited.decodeRecord codec f.settings · columns)
          (Flatfile.Delimited.decodeRecord f.settings · columns) t := fun t ht =>
      ⟨Delimited.decodeRecord_gives (h.fields t ht) (hroom t ht) columns,
        fun r => decodeRecord_placed, fun e => Flatfile.Delimited.decodeRecord_inRange⟩
    refine ((selectForRead_gives hkey htypes).mapError _).bind fun selected hselected => ?_
    obtain ⟨t, r⟩ := selected
    obtain ⟨-, hdecode, -⟩ := Schema.selectForRead_ok (mapError_eq_ok.1 hselected)
    cases title with
    | none => exact gives_pure _
    | some title =>
      have hcheck := checkNotTitle_gives (decodeRecord_placed hdecode) title t
      exact (hcheck.mapError _).bind fun _ _ => gives_pure _

theorem finish_gives {select' : α → Guarded FormatError (RecordType × Record)}
    {select : α → Except FormatError (RecordType × Record)}
    (h : ∀ raw, (select' raw).Gives (select raw)) (raw : Except RawError α) :
    (finish f select' raw).Gives (f.finish select raw) := by
  cases raw with
  | error e => exact gives_throw _
  | ok raw => exact (h raw).bind fun selected _ => gives_pure _

theorem answer_eq {x : Guarded FormatError (Option Record)}
    {y : Except FormatError (Option Record)} (h : x.Gives y) (f : Formatter) :
    answer x f = some (y, f) := by
  rw [answer, h, Option.map_some]

theorem readFixed_gives (h : Reliable codec f.schema) (input : Input) (length : Nat)
    (separator : List UInt8) :
    ∃ answer, readFixed codec f input length separator = some answer ∧
      (¬ f.schema.Overruns → answer = f.readFixed input length separator) := by
  unfold readFixed Formatter.readFixed
  rcases Flatfile.Fixed.readRaw length separator input.stream.source with ⟨_ | _ | raw, source⟩
  · exact ⟨_, rfl, fun _ => rfl⟩
  · exact ⟨_, rfl, fun _ => rfl⟩
  · let counted := { f.withSource input source with records := Word32.wrap (f.records + 1) }
    choose select hselect hplain using selectBytes_gives (f := counted) h
    refine ⟨_, answer_eq (finish_gives hselect raw) counted, fun hwords => ?_⟩
    rw [funext fun bytes => hplain bytes hwords]

theorem readDelimited_eq (h : Reliable codec f.schema)
    (hroom : ∀ t ∈ f.schema.recordTypes, HasRoom t) (input : Input)
    (d : Flatfile.Delimited.Delimiters) :
    readDelimited codec f input d = some (f.readDelimited input d) := by
  unfold readDelimited Formatter.readDelimited
  rcases Flatfile.Delimited.toRecord f.settings.ignoreBlankLines d.record.toList input.stream with
    ⟨_ | _ | blanks, stream⟩
  · rfl
  · rfl
  · refine answer_eq (finish_gives (selectColumns_gives ?_ ?_ _) _) _
    · exact h
    · exact hroom

/-- Reading from a schema that can be relied on keeps all ranges, whatever the data, and goes as it
does without the guards unless a field reaches further than its words count. -/
theorem read_gives (h : Reliable codec f.schema)
    (hroom : ∀ d, f.engine = .delimited d → ∀ t ∈ f.schema.recordTypes, HasRoom t) :
    ∃ answer, read codec f = some answer ∧ (¬ f.schema.Overruns → answer = f.read) := by
  unfold read Formatter.read Formatter.withInput
  cases f.checkReady with
  | error e => exact ⟨_, rfl, fun _ => rfl⟩
  | ok _ =>
    cases hinput : f.input with
    | none => exact ⟨_, rfl, fun _ => rfl⟩
    | some input =>
      simp only
      cases hengine : f.engine with
      | fixed length separator => exact readFixed_gives h input length separator
      | delimited d => exact ⟨_, readDelimited_eq h (hroom d hengine) input d, fun _ => rfl⟩

end Formatters
end Flatfile.GuardedRead
