import Flatfile.Proofs.Formatter.Requests
import Flatfile.Proofs.Formatter.Rereading

/-!
# Titles come first

Where a title is required, the first record of an input is read as the title or refused, and the
first record of an output is written as the title. No later record is of the title type, and none
that is read satisfies the conditions of the title. This holds at every point of a session, whatever
was requested before, with what was scanned and written counted from the last change of the input
and of the output (`titleFirst_of_trace`).
-/

namespace Flatfile

open Delimited (Delimiters)

-- ------------------------------------------------------------------
-- The title type
-- ------------------------------------------------------------------

namespace Delimited

variable {schema : Schema} {settings : Settings} {title t : RecordType} {r : Record}

theorem titleType_eq_ok (h : schema.recordType? settings.titleType = some title) :
    titleType schema settings = .ok title := by
  rw [titleType, h]

theorem titleType?_eq_ok (hrequired : settings.requiresTitle = true)
    (h : schema.recordType? settings.titleType = some title) :
    titleType? schema settings = .ok (some title) := by
  rw [titleType?, if_pos hrequired, titleType_eq_ok h]
  rfl

theorem checkNotTitle_ok (h : checkNotTitle title t r = .ok ()) :
    Text.sameName t.name title.name = false ∧
      (title.predicates ≠ [] → title.accepts r = false) := by
  have hno : isTitle title t r = false := by
    cases hyes : isTitle title t r with
    | false => rfl
    | true => simp [checkNotTitle, hyes] at h
  rw [isTitle, Bool.or_eq_false_iff] at hno
  refine ⟨hno.1, fun hconditions => ?_⟩
  have hsome : (!title.predicates.isEmpty) = true := by simpa using hconditions
  simpa only [hsome, Bool.true_and] using hno.2

end Delimited

-- ------------------------------------------------------------------
-- One call
-- ------------------------------------------------------------------

namespace Formatter

variable {f f' : Formatter} {d : Delimiters} {title : RecordType} {store : Store}
  {explicit : Option String} {r : Record} {raw : Except RawError (List String)}
  {columns : List String}

/-- What a call for a record scans, which is the columns of a record or the error in it. Nothing is
scanned at the end of the data, or if it is not even reached. -/
def scan? (f : Formatter) : Option (Except RawError (List String)) :=
  match f.checkReady, f.input, f.engine with
  | .ok (), some input, .delimited d =>
    match Delimited.toRecord f.settings.ignoreBlankLines d.record.toList input.stream with
    | (.ok (some _), stream) => some (Delimited.scanRecord d stream).1
    | _ => none
  | _, _, _ => none

def ReadAs (f : Formatter) (t : RecordType) (columns : List String) (number : Nat) (r : Record) :
    Prop :=
  ∃ decoded, Delimited.decodeRecord f.settings t columns = .ok decoded ∧
    r = { decoded with sequence := number }

def WrittenAs (f : Formatter) (t : RecordType) (store : Store) (explicit : Option String)
    (r : Record) : Prop :=
  ∃ d columns line, f.engine = .delimited d ∧ Delimited.encodeRecord f.settings t r = .ok columns ∧
    Delimited.joinColumns d f.settings.minimalQuoting columns = .ok line ∧
    f.write store explicit r = f.emit store (f.settings.charset.encodeChars line)

theorem ReadAs.typeName {t : RecordType} {number : Nat} (h : f.ReadAs t columns number r) :
    r.typeName = some t.name := by
  obtain ⟨decoded, hdecode, rfl⟩ := h
  exact (decode_typeName (show f.decode (.columns columns) t = .ok decoded from hdecode) :)

theorem read_of_scan? (h : f.scan? = some raw) :
    f.read.1 = f.read.2.finish (f.read.2.selectColumns (!f.titleRead)) raw ∧
      f.read.2.titleRead = true := by
  simp only [scan?] at h
  split at h
  · rename_i input d hready hinput hengine
    split at h
    · rename_i blanks stream hto
      obtain rfl := Option.some.inj h
      simp only [read, withInput, hready, hinput, hengine, readDelimited, hto, and_self]
    · simp at h
  · simp at h

theorem read_titleRead (f : Formatter) :
    f.read.2.titleRead = (f.titleRead || f.scan?.isSome) := by
  cases hscan : f.scan? with
  | some raw => rw [(read_of_scan? hscan).2, Option.isSome_some, Bool.or_true]
  | none =>
    rw [Option.isSome_none, Bool.or_false]
    simp only [scan?] at hscan
    simp only [read, withInput]
    cases hready : f.checkReady with
    | error e => rfl
    | ok =>
      cases hinput : f.input with
      | none => rfl
      | some input =>
        cases hengine : f.engine with
        | fixed length separator =>
          simp only [readFixed]
          cases Fixed.readRaw length separator input.stream.source with
          | mk found source => rcases found with _ | _ | _ <;> rfl
        | delimited d =>
          simp only [hready, hinput, hengine] at hscan
          simp only [readDelimited]
          split at hscan
          · simp at hscan
          · split <;> simp_all [withStream]

theorem scan?_of_read (hengine : f.engine = .delimited d) (h : f.read.1 = .ok (some r)) :
    ∃ columns, f.scan? = some (.ok columns) := by
  have hread : f.read = (.ok (some r), f.read.2) := Prod.ext h rfl
  cases read_answersWith hread with
  | fixed hready hinput hengine' => simp [hengine] at hengine'
  | delimited hready hinput hengine' hto hafter hr =>
    obtain ⟨columns, t, selected, hraw, -, -⟩ := finish_ok hr
    exact ⟨columns, by simp only [scan?, hready, hinput, hengine', hto, hraw]⟩

theorem finish_ne_none (select : α → Except FormatError (RecordType × Record))
    (raw : Except RawError α) : f.finish select raw ≠ .ok none := by
  intro h
  have hresult := isResult_finish f select raw
  rw [h] at hresult
  exact Bool.noConfusion hresult

theorem titleOfColumns_ok {t : RecordType}
    (htitle : f.schema.recordType? f.settings.titleType = some title) :
    f.titleOfColumns columns = .ok (t, r) ↔
      t = title ∧ Delimited.decodeRecord f.settings title columns = .ok r := by
  simp only [titleOfColumns, Delimited.titleType_eq_ok htitle, bind_eq_ok, mapError_eq_ok,
    Except.ok.injEq, exists_eq_left', Prod.mk.injEq]
  constructor
  · rintro ⟨r', hdecode, rfl, rfl⟩
    exact ⟨rfl, hdecode⟩
  · rintro ⟨rfl, hdecode⟩
    exact ⟨r, hdecode, rfl, rfl⟩

theorem write_writtenAs (hengine : f.engine = .delimited d)
    (h : (f.write store explicit r).1 = .ok ()) :
    ∃ t, f.delimitedType explicit r = .ok t ∧ f.WrittenAs t store explicit r := by
  rcases f.write_cases store explicit r with ⟨e, hwrite⟩ | ⟨bytes, -, hencode, hwrite⟩
  · simp [hwrite] at h
  · simp only [encode, hengine] at hencode
    obtain ⟨t, ht, hencode⟩ := bind_eq_ok.1 hencode
    obtain ⟨columns, hcolumns, hencode⟩ := bind_eq_ok.1 hencode
    obtain ⟨line, hline, hencode⟩ := bind_eq_ok.1 hencode
    obtain rfl := Except.ok.inj hencode
    rw [mapError_eq_ok] at hcolumns hline
    exact ⟨t, ht, d, columns, line, hengine, hcolumns, hline, hwrite⟩

variable (hrequired : f.settings.requiresTitle = true)
  (htitle : f.schema.recordType? f.settings.titleType = some title)

include hrequired htitle

theorem read_first (hfirst : f.titleRead = false) (hscan : f.scan? = some raw) :
    f.read.1 ≠ .ok none ∧ ∀ r, f.read.1 = .ok (some r) ↔
      ∃ columns, raw = .ok columns ∧ f.ReadAs title columns f.read.2.records r := by
  obtain ⟨hread, -⟩ := read_of_scan? hscan
  obtain ⟨hschema, hsettings, -⟩ := f.read_sameOutput.toOpenedAs
  have hselect (columns : List String) :
      f.read.2.selectColumns (!f.titleRead) columns = f.read.2.titleOfColumns columns := by
    rw [selectColumns, if_pos ⟨by rwa [hsettings], by simp [hfirst]⟩]
  have htitle' : f.read.2.schema.recordType? f.read.2.settings.titleType = some title := by
    rwa [hschema, hsettings]
  rw [hread]
  refine ⟨finish_ne_none _ raw, fun r => ⟨fun h => ?_, ?_⟩⟩
  · obtain ⟨columns, t, decoded, rfl, hdecoded, rfl⟩ := finish_ok h
    rw [hselect, titleOfColumns_ok htitle', hsettings] at hdecoded
    exact ⟨columns, rfl, decoded, hdecoded.2, rfl⟩
  · rintro ⟨columns, rfl, decoded, hdecoded, rfl⟩
    rw [← hsettings] at hdecoded
    have hcolumns := (titleOfColumns_ok htitle').2 ⟨rfl, hdecoded⟩
    simp only [finish, hselect, hcolumns]
    rfl

theorem selectColumns_later {t : RecordType} (h : f.selectColumns false columns = .ok (t, r)) :
    t ∈ f.schema.recordTypes ∧ Delimited.decodeRecord f.settings t columns = .ok r ∧
      Delimited.checkNotTitle title t r = .ok () := by
  rw [selectColumns, if_neg (by simp), Delimited.titleType?_eq_ok hrequired htitle] at h
  obtain ⟨_, ⟨⟩, h⟩ := bind_eq_ok.1 h
  obtain ⟨⟨t', r'⟩, hselect, h⟩ := bind_eq_ok.1 h
  obtain ⟨⟨⟩, hcheck, h⟩ := bind_eq_ok.1 h
  obtain ⟨rfl, rfl⟩ := Prod.mk.inj (Except.ok.inj h)
  obtain ⟨hmem, hdecode, -⟩ := Schema.selectForRead_ok (mapError_eq_ok.1 hselect)
  exact ⟨(List.mem_filter.1 hmem).1, hdecode, mapError_eq_ok.1 hcheck⟩

theorem read_later (hlater : f.titleRead = true) (hscan : f.scan? = some (.ok columns))
    (h : f.read.1 = .ok (some r)) :
    ∃ t ∈ f.schema.recordTypes, f.ReadAs t columns f.read.2.records r ∧
      r.typeName = some t.name ∧ Text.sameName t.name title.name = false ∧
      (title.predicates ≠ [] → title.accepts r = false) := by
  obtain ⟨hread, -⟩ := read_of_scan? hscan
  obtain ⟨hschema, hsettings, -⟩ := f.read_sameOutput.toOpenedAs
  rw [hread, hlater, Bool.not_true] at h
  obtain ⟨_, t, decoded, ⟨⟩, hselect, rfl⟩ := finish_ok h
  obtain ⟨hmem, hdecode, hcheck⟩ :=
    selectColumns_later (by rwa [hsettings]) (by rwa [hschema, hsettings]) hselect
  rw [hschema] at hmem
  rw [hsettings] at hdecode
  have hreadAs : f.ReadAs t columns f.read.2.records
      { decoded with sequence := f.read.2.records } := ⟨decoded, hdecode, rfl⟩
  -- The check was made before the record had its number, which is no field of it.
  exact ⟨t, hmem, hreadAs, hreadAs.typeName, Delimited.checkNotTitle_ok hcheck⟩

theorem delimitedType_first (hfirst : f.titleWritten = false) {t : RecordType}
    (h : f.delimitedType explicit r = .ok t) : t = title := by
  rw [delimitedType, Delimited.titleType?_eq_ok hrequired htitle] at h
  replace h := mapError_eq_ok.1 h
  rw [if_neg (by simp [hfirst])] at h
  exact titleForWrite_ok h

theorem delimitedType_later (hlater : f.titleWritten = true) {t : RecordType}
    (h : f.delimitedType explicit r = .ok t) :
    t ∈ f.schema.recordTypes ∧ Delimited.checkNotTitle title t r = .ok () := by
  refine ⟨delimitedType_mem h, ?_⟩
  rw [delimitedType, Delimited.titleType?_eq_ok hrequired htitle] at h
  replace h := mapError_eq_ok.1 h
  rw [if_pos hlater] at h
  obtain ⟨t', ht', h⟩ := bind_eq_ok.1 h
  obtain ⟨⟨⟩, hcheck, h⟩ := bind_eq_ok.1 h
  exact Except.ok.inj h ▸ hcheck

end Formatter

-- ------------------------------------------------------------------
-- All requests of a session
-- ------------------------------------------------------------------

/-- How many records have been scanned from the present input, and how many have been written to the
present output. -/
structure Progress where
  scanned : Nat := 0
  written : Nat := 0
  deriving DecidableEq, Repr

namespace Session

variable {s : Session} {p : Progress} {opened : Formatter} {title : RecordType}

def progress (s : Session) (p : Progress) : Request → Progress
  | .read => { p with scanned := p.scanned + s.formatter.scan?.isSome.toNat }
  | .write explicit r => { p with written := p.written + (s.write explicit r).1.isOk.toNat }
  | .setInput _ => { p with scanned := 0 }
  | .setInputPath path => bif (s.setInputPath path).1.isOk then { p with scanned := 0 } else p
  | .setOutput _ => { p with written := 0 }
  | .setOutputPath path => bif (s.setOutputPath path).1.isOk then { p with written := 0 } else p
  | _ => p

def trace : List Request → Session → Progress → Session × Progress
  | [], s, p => (s, p)
  | request :: requests, s, p => trace requests (s.perform request) (s.progress p request)

/-- A formatter that was opened as `opened` knows what progress it has made. -/
structure Tracks (opened : Formatter) (s : Session) (p : Progress) : Prop
    extends opened.OpenedAs s.formatter where
  titleRead : s.formatter.titleRead = decide (0 < p.scanned)
  titleWritten : s.formatter.titleWritten = decide (0 < p.written)

theorem pos_add_toNat (n : Nat) (b : Bool) :
    decide (0 < n + b.toNat) = (decide (0 < n) || b) := by
  cases b <;> simp

theorem start_titles (s : Session) :
    s.start.2.formatter.titleRead = s.formatter.titleRead ∧
      s.start.2.formatter.titleWritten = s.formatter.titleWritten := by
  rcases s.start_cases with h | h <;> rw [h] <;> exact ⟨rfl, rfl⟩

theorem Tracks.perform (h : Tracks opened s p) (request : Request) :
    Tracks opened (s.perform request) (s.progress p request) := by
  refine ⟨h.toOpenedAs.trans (s.perform_openedAs request), ?_, ?_⟩
  · cases request with
    | start => exact s.start_titles.1.trans h.titleRead
    | close => exact h.titleRead
    | read =>
      rw [progress, pos_add_toNat, ← h.titleRead]
      exact s.formatter.read_titleRead
    | hasNext => exact s.formatter.hasNext_titleRead.trans h.titleRead
    | write explicit r =>
      exact (s.formatter.write_sameInput s.store explicit r).titleRead.trans h.titleRead
    | setInput source => rfl
    | setInputPath path =>
      rw [Session.perform, progress]
      rcases s.setInputPath_cases path with ⟨e, hpath⟩ | ⟨source, cursor, hpath⟩
      · exact hpath ▸ h.titleRead
      · exact hpath ▸ rfl
    | setOutput sink => exact h.titleRead
    | setOutputPath path =>
      rw [Session.perform, progress]
      rcases s.setOutputPath_cases path with ⟨e, hpath⟩ | ⟨place, files, hpath⟩ <;>
        exact hpath ▸ h.titleRead
  · cases request with
    | start => exact s.start_titles.2.trans h.titleWritten
    | close => exact h.titleWritten
    | read => exact s.formatter.read_sameOutput.titleWritten.trans h.titleWritten
    | hasNext => exact s.formatter.hasNext_sameOutput.titleWritten.trans h.titleWritten
    | write explicit r =>
      rw [progress, pos_add_toNat, ← h.titleWritten]
      exact s.formatter.write_titleWritten s.store explicit r
    | setInput source => exact h.titleWritten
    | setInputPath path =>
      rw [Session.perform, progress]
      rcases s.setInputPath_cases path with ⟨e, hpath⟩ | ⟨source, cursor, hpath⟩ <;>
        exact hpath ▸ h.titleWritten
    | setOutput sink => rfl
    | setOutputPath path =>
      rw [Session.perform, progress]
      rcases s.setOutputPath_cases path with ⟨e, hpath⟩ | ⟨place, files, hpath⟩
      · exact hpath ▸ h.titleWritten
      · exact hpath ▸ rfl

theorem Tracks.trace (h : Tracks opened s p) (requests : List Request) :
    Tracks opened (trace requests s p).1 (trace requests s p).2 := by
  induction requests generalizing s p with
  | nil => exact h
  | cons request requests ih => exact ih (h.perform request)

structure TitleFirst (schema : Schema) (settings : Settings) (title : RecordType) (s : Session)
    (p : Progress) : Prop where
  openedFor : s.formatter.schema = schema ∧ s.formatter.settings = settings
  /-- The first record that is scanned is answered exactly if it can be read as the title. -/
  firstRead : p.scanned = 0 → ∀ raw, s.formatter.scan? = some raw → s.read.1 ≠ .ok none ∧
    ∀ r, s.read.1 = .ok (some r) ↔ ∃ columns, raw = .ok columns ∧
      s.formatter.ReadAs title columns s.read.2.formatter.records r
  scanned : ∀ r, s.read.1 = .ok (some r) → s.formatter.scan?.isSome
  laterRead : 0 < p.scanned → ∀ r, s.read.1 = .ok (some r) →
    ∃ columns, s.formatter.scan? = some (.ok columns) ∧ ∃ t ∈ schema.recordTypes,
      s.formatter.ReadAs t columns s.read.2.formatter.records r ∧ r.typeName = some t.name ∧
      Text.sameName t.name title.name = false ∧ (title.predicates ≠ [] → title.accepts r = false)
  firstWritten : p.written = 0 → ∀ explicit r, (s.write explicit r).1 = .ok () →
    s.formatter.WrittenAs title s.store explicit r
  laterWritten : 0 < p.written → ∀ explicit r, (s.write explicit r).1 = .ok () →
    ∃ t ∈ schema.recordTypes, Text.sameName t.name title.name = false ∧
      s.formatter.WrittenAs t s.store explicit r
  /-- The title counts as written once a record has been, and not by a record that is refused. -/
  written : s.formatter.titleWritten = decide (0 < p.written)
  failedWrite : ∀ explicit r e, (s.write explicit r).1 = .error e →
    (s.write explicit r).2.formatter.titleWritten = s.formatter.titleWritten

theorem Tracks.titleFirst (h : Tracks opened s p) {d : Delimiters}
    (hengine : opened.engine = .delimited d) (hrequired : opened.settings.requiresTitle = true)
    (htitle : opened.schema.recordType? opened.settings.titleType = some title) :
    TitleFirst opened.schema opened.settings title s p := by
  rw [← h.engine] at hengine
  rw [← h.settings] at hrequired
  rw [← h.schema, ← h.settings] at htitle
  constructor
  case openedFor => exact ⟨h.schema, h.settings⟩
  case firstRead =>
    intro hnone raw hscan
    exact Formatter.read_first hrequired htitle (h.titleRead.trans (by simp [hnone])) hscan
  case scanned =>
    intro r hread
    obtain ⟨columns, hscan⟩ := Formatter.scan?_of_read hengine hread
    simp [hscan]
  case laterRead =>
    intro hsome r hread
    obtain ⟨columns, hscan⟩ := Formatter.scan?_of_read hengine hread
    have hlater := Formatter.read_later hrequired htitle (h.titleRead.trans (by simp [hsome]))
      hscan hread
    exact ⟨columns, hscan, h.schema ▸ hlater⟩
  case firstWritten =>
    intro hnone explicit r hwrite
    obtain ⟨t, ht, hwritten⟩ := Formatter.write_writtenAs hengine hwrite
    obtain rfl := Formatter.delimitedType_first hrequired htitle
      (h.titleWritten.trans (by simp [hnone])) ht
    exact hwritten
  case laterWritten =>
    intro hsome explicit r hwrite
    obtain ⟨t, ht, hwritten⟩ := Formatter.write_writtenAs hengine hwrite
    obtain ⟨hmem, hcheck⟩ := Formatter.delimitedType_later hrequired htitle
      (h.titleWritten.trans (by simp [hsome])) ht
    exact ⟨t, h.schema ▸ hmem, (Delimited.checkNotTitle_ok hcheck).1, hwritten⟩
  case written => exact h.titleWritten
  case failedWrite =>
    intro explicit r e hwrite
    replace hwrite : (s.formatter.write s.store explicit r).1 = .error e := hwrite
    refine (s.formatter.write_titleWritten s.store explicit r).trans ?_
    simp [hwrite, Except.isOk, Except.toBool]

/-- Whatever is requested of a formatter that was opened with a title, the title comes first in
every input and in every output. -/
theorem titleFirst_of_trace {schema : Schema} {settings : Settings} {opened : Formatter}
    {title : RecordType} (hopen : Formatter.delimited schema settings = .ok opened)
    (hrequired : settings.requiresTitle = true)
    (htitle : schema.recordType? settings.titleType = some title) (store : Store)
    (requests : List Request) :
    let start : Session := { formatter := opened, store }
    TitleFirst schema settings title (trace requests start {}).1 (trace requests start {}).2 := by
  intro start
  obtain ⟨-, -, hopen⟩ := bind_eq_ok.1 hopen
  obtain ⟨field, -, hopen⟩ := bind_eq_ok.1 hopen
  obtain ⟨record, -, hopen⟩ := bind_eq_ok.1 hopen
  obtain rfl := Except.ok.inj hopen
  have hstart : Tracks start.formatter start {} := ⟨.refl _, rfl, rfl⟩
  exact (hstart.trace requests).titleFirst rfl hrequired htitle

def itemLayout : String :=
  "file-type: Variable\ntext-encoding: \"UTF-8\"\nfield-separator: \",\"\n" ++
  "record-separator: \"\\n\"\nrequires-title: true\ntitle-record-type-name: \"Head\"\n" ++
  "[Head]\nkind = \"H\"\n1 kind X\n2 a X\n[Item]\n1 kind X\n2 a X\n"

def headOrItem (kind : String) : Record :=
  .ofList [("kind", .text kind), ("a", .text "x")]

def itemRequests : List Request :=
  [.start, .setOutput {}, .setInput (.ofBytes (Charset.utf8.encode "H,x\nI,y\nH,z\n")), .read,
    .write (some "Item") (headOrItem "I"), .write none (headOrItem "H")]

/-- The item that comes next is answered, and an item can be written but no second title. -/
theorem titleFirst_of_trace_items :
    ∃ schema opened title s, Schema.compile {} itemLayout none = .ok schema ∧
      Formatter.delimited schema schema.settings = .ok opened ∧
      schema.settings.requiresTitle = true ∧
      schema.recordType? schema.settings.titleType = some title ∧
      trace itemRequests { formatter := opened } {} = (s, { scanned := 1, written := 1 }) ∧
      (∃ r, s.read.1 = .ok (some r) ∧ r.typeName = some "Item" ∧ title.accepts r = false) ∧
      (∃ t, Text.sameName t.name title.name = false ∧
        s.formatter.WrittenAs t s.store none (headOrItem "I")) ∧
      ∃ e, (s.write none (headOrItem "H")).1 = .error e ∧
        (s.write none (headOrItem "H")).2.formatter.titleWritten = true := by
  have h : (Schema.compile {} itemLayout none).toOption.any fun schema =>
      (Formatter.delimited schema schema.settings).toOption.any fun opened =>
        (schema.recordType? schema.settings.titleType).any fun title =>
          let after := trace itemRequests { formatter := opened } {}
          schema.settings.requiresTitle ∧ title.predicates ≠ [] ∧
            after.2 = { scanned := 1, written := 1 } ∧
            after.1.read.1.toOption.join.map (·.typeName) = some (some "Item") ∧
            (after.1.write none (headOrItem "I")).1.isOk ∧
            (after.1.write none (headOrItem "H")).1.isOk = false := by
    decide +kernel
  obtain ⟨schema, hschema, h⟩ := (Option.any_eq_true _ _).1 h
  obtain ⟨opened, hopened, h⟩ := (Option.any_eq_true _ _).1 h
  obtain ⟨title, htitle, h⟩ := (Option.any_eq_true _ _).1 h
  obtain ⟨s, p, htrace⟩ : ∃ s p, trace itemRequests { formatter := opened } {} = (s, p) :=
    ⟨_, _, rfl⟩
  rw [htrace] at h
  obtain ⟨hrequired, hconditions, rfl, hread, hitem, hhead⟩ := of_decide_eq_true h
  rw [toOption_eq_some] at hschema hopened
  have hfirst := titleFirst_of_trace hopened hrequired htitle {} itemRequests
  simp only [htrace] at hfirst
  obtain ⟨r, hr, hname⟩ := Option.map_eq_some_iff.1 hread
  rw [Option.join_eq_some_iff, toOption_eq_some] at hr
  obtain ⟨columns, -, t, -, -, -, -, hunlike⟩ := hfirst.laterRead Nat.one_pos r hr
  refine ⟨schema, opened, title, s, hschema, hopened, hrequired, htitle, htrace,
    ⟨r, hr, hname, hunlike hconditions⟩, ?_, ?_⟩
  · cases hwrite : (s.write none (headOrItem "I")).1 with
    | error e => simp [hwrite, Except.isOk, Except.toBool] at hitem
    | ok =>
      obtain ⟨t, -, hother, hwritten⟩ := hfirst.laterWritten Nat.one_pos none _ hwrite
      exact ⟨t, hother, hwritten⟩
  · cases hwrite : (s.write none (headOrItem "H")).1 with
    | ok => simp [hwrite, Except.isOk, Except.toBool] at hhead
    | error e => exact ⟨e, rfl, (hfirst.failedWrite none _ e hwrite).trans hfirst.written⟩

end Session
end Flatfile
