import Flatfile.Formatter.Write
import Flatfile.Proofs.Delimited.Written
import Flatfile.Proofs.Schema.Select
import Flatfile.Proofs.Store.Receiving

/-!
# Records that are written and read again

A formatter writes records one after the other to an output that takes everything. What the output
has received at the end is the text of one line for each record, in the charset of the file
(`Wrote.writeAll`). A formatter that is given this text reads one record for each line, apart from
empty lines that are to be ignored (`run_readsWritten`).
-/

namespace Flatfile

open Delimited (Delimiters Line textOf kept KeepsMarks SingleField)

-- ------------------------------------------------------------------
-- Types
-- ------------------------------------------------------------------

theorem Delimited.titleType?_mem {schema : Schema} {settings : Settings} {title : RecordType}
    (h : titleType? schema settings = .ok (some title)) : title ∈ schema.recordTypes := by
  simp only [titleType?, titleType] at h
  split at h
  · split at h
    · rename_i found hfound
      obtain rfl : found = title := by simpa [Except.map] using h
      exact Schema.recordType?_mem hfound
    · simp [Except.map] at h
  · simp at h

namespace Formatter

variable {f f' f'' : Formatter} {d : Delimiters} {explicit : Option String} {r : Record}
  {store store' : Store} {bytes : List UInt8} {origin : Target} {lines : List Line}

theorem titleForWrite_ok {title t : RecordType} (h : titleForWrite title explicit r = .ok t) :
    t = title := by
  simp only [titleForWrite] at h
  split at h
  · split at h
    · exact (Except.ok.inj h).symm
    · simp at h
  · exact (Except.ok.inj h).symm

theorem delimitedType_mem {t : RecordType} (h : f.delimitedType explicit r = .ok t) :
    t ∈ f.schema.recordTypes := by
  obtain ⟨title, htitle, h⟩ := bind_eq_ok.1 h
  cases title with
  | none => exact Schema.selectForWrite_mem (mapError_eq_ok.1 h)
  | some title =>
    rw [mapError_eq_ok] at h
    split at h
    · obtain ⟨t', ht', h⟩ := bind_eq_ok.1 h
      obtain ⟨-, -, h⟩ := bind_eq_ok.1 h
      exact Except.ok.inj h ▸ Schema.selectForWrite_mem ht'
    · exact titleForWrite_ok h ▸ Delimited.titleType?_mem htitle

-- ------------------------------------------------------------------
-- Writing
-- ------------------------------------------------------------------

def writeAll (f : Formatter) (store : Store) :
    List (Option String × Record) → Except FormatError (Formatter × Store)
  | [] => .ok (f, store)
  | (explicit, r) :: calls =>
    match f.write store explicit r with
    | (.ok (), f, store) => f.writeAll store calls
    | (.error e, _, _) => .error e

/-- The line is one that the record is written as. -/
structure Encodes (schema : Schema) (settings : Settings) (d : Delimiters) (r : Record)
    (line : Line) : Prop where
  columns : ∃ t ∈ schema.recordTypes, Delimited.encodeRecord settings t r = .ok line.columns
  written : line.Written d settings.minimalQuoting

theorem encode_ok (hengine : f.engine = .delimited d) (h : f.encode explicit r = .ok bytes) :
    ∃ line, Encodes f.schema f.settings d r line ∧
      bytes = f.settings.charset.encodeChars (line.chars ++ d.record.toList) := by
  simp only [encode, hengine] at h
  obtain ⟨t, ht, h⟩ := bind_eq_ok.1 h
  obtain ⟨columns, hcolumns, h⟩ := bind_eq_ok.1 h
  obtain ⟨text, htext, h⟩ := bind_eq_ok.1 h
  rw [mapError_eq_ok] at hcolumns htext
  obtain ⟨chars, hchars, htext⟩ := bind_eq_ok.1 htext
  obtain rfl := Except.ok.inj htext
  exact ⟨⟨columns, chars⟩, ⟨⟨t, delimitedType_mem ht, hcolumns⟩, hchars⟩, (Except.ok.inj h).symm⟩

theorem deliver_sent {w : Writer} (f : Formatter) (h : w.Sent store bytes) (more : List UInt8) :
    ∃ w' store', f.deliver w store more = (.ok (), w', store') ∧ w'.Sent store' (bytes ++ more) ∧
      w'.target.origin = w.target.origin := by
  obtain ⟨w₁, store₁, hwrite, hsent, horigin⟩ := h.write more
  by_cases hflush : f.settings.flushPerRecord = true
  · obtain ⟨w₂, store₂, hflushed, hsent₂, -, horigin₂⟩ := hsent.flush
    exact ⟨w₂, store₂, by simp [deliver, hwrite, hflush, hflushed], hsent₂,
      horigin₂.trans horigin⟩
  · exact ⟨w₁, store₁, by simp [deliver, hwrite, hflush], hsent, horigin⟩

/-- The formatter `f` has gone over into `f'`, and the output that began at `origin` has been sent
these lines. -/
structure Wrote (f : Formatter) (d : Delimiters) (origin : Target) (lines : List Line)
    (f' : Formatter) (store : Store) : Prop where
  schema : f'.schema = f.schema
  settings : f'.settings = f.settings
  engine : f'.engine = .delimited d
  output : ∃ output, f'.output = some output ∧
    output.writer.Sent store (f.settings.charset.encodeChars (textOf d lines)) ∧
    output.writer.target.origin = origin

theorem Wrote.start (hengine : f.engine = .delimited d) {target : Target} (path : Option String)
    (h : store.Accepts target []) : Wrote f d target.origin [] (f.setOutput target path) store := by
  refine ⟨rfl, rfl, hengine, _, rfl, ?_, rfl⟩
  have hnil : f.settings.charset.encodeChars (textOf d []) = [] := by
    cases f.settings.charset <;> rfl
  rw [hnil]
  exact Writer.sent_of_accepts h

theorem Wrote.write (h : Wrote f d origin lines f' store)
    (hw : f'.write store explicit r = (.ok (), f'', store')) :
    ∃ line, Encodes f.schema f.settings d r line ∧ Wrote f d origin (lines ++ [line]) f'' store' := by
  obtain ⟨hschema, hsettings, hengine, output, houtput, hsent, horigin⟩ := h
  simp only [Formatter.write] at hw
  split at hw
  · simp at hw
  rename_i bytes hbytes
  obtain ⟨-, -, hencode⟩ := bind_eq_ok.1 hbytes
  obtain ⟨line, ⟨hcolumns, hwritten⟩, rfl⟩ := encode_ok hengine hencode
  rw [hschema, hsettings] at hcolumns
  rw [hsettings] at hwritten hw
  obtain ⟨w, store₁, hdeliver, hsent', horigin'⟩ :=
    f'.deliver_sent hsent (f.settings.charset.encodeChars (line.chars ++ d.record.toList))
  simp only [emit, houtput, hdeliver, Prod.mk.injEq, true_and] at hw
  obtain ⟨rfl, rfl⟩ := hw
  refine ⟨line, ⟨hcolumns, hwritten⟩, hschema, hsettings, hengine, _, rfl, ?_,
    horigin'.trans horigin⟩
  rw [textOf, List.flatMap_append, Charset.encodeChars_append, List.flatMap_singleton]
  exact hsent'

theorem Wrote.writeAll {calls : List (Option String × Record)} (h : Wrote f d origin lines f' store)
    (hw : f'.writeAll store calls = .ok (f'', store')) :
    ∃ more, List.Forall₂ (fun call line => Encodes f.schema f.settings d call.2 line) calls more ∧
      Wrote f d origin (lines ++ more) f'' store' := by
  induction calls generalizing lines f' store with
  | nil =>
    obtain ⟨rfl, rfl⟩ := Prod.mk.inj (Except.ok.inj hw)
    exact ⟨[], .nil, by rwa [List.append_nil]⟩
  | cons call calls ih =>
    obtain ⟨explicit, r⟩ := call
    simp only [Formatter.writeAll] at hw
    split at hw
    · rename_i f₁ store₁ hwrite
      obtain ⟨line, hline, h₁⟩ := h.write hwrite
      obtain ⟨more, hmore, h'⟩ := ih h₁ hw
      exact ⟨line :: more, .cons hline hmore, by rwa [List.append_cons]⟩
    · simp at hw

theorem Wrote.close (h : Wrote f d origin lines f' store) :
    (f'.close store).2.received? origin =
      some (f.settings.charset.encodeChars (textOf d lines)) := by
  obtain ⟨-, -, -, output, houtput, hsent, rfl⟩ := h
  simp only [Formatter.close, flushOutput, houtput]
  exact hsent.received?

-- ------------------------------------------------------------------
-- Reading
-- ------------------------------------------------------------------

def isResult : Except FormatError (Option Record) → Bool
  | .ok none => false
  | _ => true

theorem isResult_finish (f : Formatter)
    (select : α → Except FormatError (RecordType × Record)) (raw : Except RawError α) :
    isResult (f.finish select raw) = true := by
  cases raw with
  | error e => rfl
  | ok data =>
    simp only [finish]
    cases select data <;> rfl

variable {items : List (Except RawError (List String) × Nat)}

theorem isResult_answerNth (f : Formatter) (i : Nat) :
    isResult (f.answerNth items i) = decide (i < items.length) := by
  rw [answerNth]
  split
  · rename_i hnone
    simpa [isResult] using hnone
  · rename_i hsome
    have hi := (List.getElem?_eq_some_iff.1 hsome).1
    rw [answerScanned, isResult_finish, decide_eq_true hi]

theorem countP_isResult (f : Formatter) (n : Nat) :
    ((List.range n).map (f.answerNth items)).countP isResult = min n items.length := by
  induction n with
  | zero => simp
  | succ n ih =>
    rw [List.range_succ, List.map_append, List.countP_append, ih, List.map_singleton,
      List.countP_singleton, isResult_answerNth]
    simp only [decide_eq_true_eq]
    split <;> omega

/-- A formatter that is given the text of some lines answers with one result for each of them that
is not passed over. -/
theorem run_readsLines {c : Char} {sparing : Bool} (hd : SingleField d c)
    (hengine : f.engine = .delimited d) (hphase : f.phase = .ready) (hrecords : f.records = 0)
    (hlines : ∀ line ∈ lines, line.Written d sparing ∧ line.Recoverable d)
    (hk : KeepsMarks f.settings.charset d (textOf d lines)) {deliveries : List Delivery}
    (hquiet : .interruption ∉ deliveries)
    (hbytes : deliveries.flatMap Delivery.bytes = f.settings.charset.encodeChars (textOf d lines))
    (path : Option String) (cursor : Option Cursor) (n : Nat) :
    let reader := f.setInput { deliveries } path cursor
    let answers := (run (List.replicate n .read) reader).1
    ∃ items,
      List.Forall₂ (fun (line, number) (raw, number') =>
          (line.render f.settings.charset).Outcome d raw ∧ number' = number)
        (kept f.settings.ignoreBlankLines 1 lines) items ∧
      answers = (List.range n).map (reader.answerNth items) ∧
      answers.countP isResult = min n (lines.countP fun line =>
        !(f.settings.ignoreBlankLines && line.chars.isEmpty)) := by
  intro reader answers
  have hs := TextStream.holds_ofSource f.settings.charset hquiet
  rw [hbytes, TextStream.charsOf_encodeChars] at hs
  obtain ⟨items, hyields, hitems⟩ :=
    Delimited.yields_rendered hd f.settings.ignoreBlankLines hlines hk hs 1
  obtain ⟨hanswers, -⟩ := run_yields (f := reader) hengine hphase hrecords rfl rfl hyields n
  refine ⟨items, hitems, hanswers, ?_⟩
  rw [← Delimited.kept_length _ 1, hitems.length_eq, ← countP_isResult reader n, ← hanswers]

/-- The records that were written to one output are read again from what it has received, one for
each line. A line is read back as its columns, or refused as too long if it is. Only empty lines are
passed over, and only if blank lines are to be ignored. The field separator has to be a single
character that the record separator and the quote do not hold, the record separator must not be
empty or begin with the quote, the charset must have the separators and quotes of the text, and a
line that is too long must not hold a record separator between quotes. -/
theorem run_readsWritten {schema : Schema} {defaults : Defaults} {opened : Formatter}
    (hdelimited : schema.fileType = .delimited) (hopen : ofSchema schema defaults = .ok opened) :
    ∃ settings field record ready, schema.settingsUnder defaults = .ok settings ∧
      settings.fieldSeparator = some field ∧ settings.recordSeparator = some record ∧
      opened.start = .ok ready ∧
      let d : Delimiters :=
        { field, record, quote := settings.quote, max := settings.maxRecordLength }
      ∀ (c : Char), SingleField d c →
        ∀ (store : Store) (target : Target) (path : Option String)
          (calls : List (Option String × Record)) (writer : Formatter) (after : Store),
          store.Accepts target [] →
          (ready.setOutput target path).writeAll store calls = .ok (writer, after) →
          ∃ lines : List Line,
            List.Forall₂ (fun call line => Encodes schema settings d call.2 line) calls lines ∧
            (writer.close after).2.received? target.origin =
              some (settings.charset.encodeChars (textOf d lines)) ∧
            (KeepsMarks settings.charset d (textOf d lines) →
              (∀ line ∈ lines, line.Recoverable d) →
              ∀ (deliveries : List Delivery) (source : Option String) (cursor : Option Cursor)
                (n : Nat),
                .interruption ∉ deliveries →
                (writer.close after).2.received? target.origin =
                  some (deliveries.flatMap Delivery.bytes) →
                let reader := ready.setInput { deliveries } source cursor
                let answers := (run (List.replicate n .read) reader).1
                ∃ items,
                  List.Forall₂ (fun (line, number) (raw, number') =>
                      (line.render settings.charset).Outcome d raw ∧ number' = number)
                    (kept settings.ignoreBlankLines 1 lines) items ∧
                  answers = (List.range n).map (reader.answerNth items) ∧
                  answers.countP isResult = min n (lines.countP fun line =>
                    !(settings.ignoreBlankLines && line.chars.isEmpty))) := by
  obtain ⟨settings, field, record, hsettings, hfield, hrecord, rfl⟩ :=
    ofSchema_delimited hdelimited hopen
  refine ⟨settings, field, record, _, hsettings, hfield, hrecord, rfl, ?_⟩
  intro d c hd store target path calls writer after haccepts hwrite
  let ready : Formatter := { schema, settings, engine := .delimited d, phase := .ready }
  have hstart : Wrote ready d target.origin [] (ready.setOutput target path) store :=
    .start rfl path haccepts
  obtain ⟨lines, hlines, hwrote⟩ := hstart.writeAll hwrite
  rw [List.nil_append] at hwrote
  refine ⟨lines, hlines, hwrote.close, ?_⟩
  intro hk hends deliveries source cursor n hquiet hreceived
  have hbytes := Option.some.inj (hreceived.symm.trans hwrote.close)
  have hwritten : ∀ line ∈ lines,
      line.Written d settings.minimalQuoting ∧ line.Recoverable d := by
    intro line hline
    obtain ⟨_, _, hencodes⟩ := exists_mem_left_of_forall₂ hlines hline
    exact ⟨hencodes.written, hends line hline⟩
  exact run_readsLines (f := ready) hd rfl rfl rfl hwritten hk hquiet hbytes source cursor n

def newSink : Target × Store :=
  ({} : Store).addSink {}

def receives (ready : Formatter) (calls : List (Option String × Record)) :
    Option (List UInt8) := do
  let (writer, after) ← ((ready.setOutput newSink.1 none).writeAll newSink.2 calls).toOption
  (writer.close after).2.received? newSink.1.origin

def quotedLayout : String :=
  "file-type: Variable\ntext-encoding: \"UTF-8\"\nfield-separator: \",\"\n" ++
  "record-separator: \"\\r\\n\"\nquoting-delimiter: \"\\\"\"\n[R]\n1 a X\n2 b X\n"

def quotedCalls : List (Option String × Record) :=
  [("a,b", "é"), ("", "two\r\nlines"), ("\"", "")].map fun (a, b) =>
    (none, .ofList [("a", .text a), ("b", .text b)])

def quotedText : String :=
  "\"a,b\",\"é\"\r\n\"\",\"two\r\nlines\"\r\n\"\"\"\",\"\"\r\n"

theorem receives_eq_some {ready : Formatter} {calls : List (Option String × Record)}
    (h : receives ready calls = some bytes) :
    ∃ writer after, (ready.setOutput newSink.1 none).writeAll newSink.2 calls = .ok (writer, after) ∧
      (writer.close after).2.received? newSink.1.origin = some bytes := by
  obtain ⟨⟨writer, after⟩, hwrite, h⟩ := Option.bind_eq_some_iff.1 h
  exact ⟨writer, after, toOption_eq_some.1 hwrite, h⟩

theorem run_readsWritten_quoted :
    ∃ schema opened ready, Schema.compile {} quotedLayout none = .ok schema ∧
      ofSchema schema {} = .ok opened ∧ opened.start = .ok ready ∧
      receives ready quotedCalls = some (Charset.utf8.encode quotedText) ∧
      let deliveries := [.chunk 0x22 (Charset.utf8.encode quotedText).tail]
      (run (List.replicate 5 .read) (ready.setInput { deliveries } none none)).1.countP isResult =
        3 := by
  have h : (opened? quotedLayout).any fun found =>
      (found.1.settingsUnder {}).toOption.any fun settings =>
        found.1.fileType = .delimited ∧ settings.fieldSeparator.map (·.chars) = some [','] ∧
        settings.recordSeparator = some "\r\n" ∧ settings.quote = some '"' ∧
        settings.charset = .utf8 ∧ settings.maxRecordLength = 65536 ∧
        settings.ignoreBlankLines = false ∧
        receives found.2.2 quotedCalls = some (Charset.utf8.encode quotedText) := by
    decide +kernel
  obtain ⟨⟨schema, opened, ready⟩, hopened, h⟩ := (Option.any_eq_true _ _).1 h
  obtain ⟨settings, hsettings, h⟩ := (Option.any_eq_true _ _).1 h
  obtain ⟨hdelimited, hfield, hrecord, hquote, hcharset, hmax, hblank, hreceives⟩ :=
    of_decide_eq_true h
  obtain ⟨hcompile, hopen, hstart⟩ := opened?_eq_some hopened
  rw [toOption_eq_some] at hsettings
  refine ⟨schema, opened, ready, hcompile, hopen, hstart, hreceives, ?_⟩
  obtain ⟨settings', field, record, ready', hsettings', hfield', hrecord', hstart', hrun⟩ :=
    run_readsWritten hdelimited hopen
  obtain rfl := Except.ok.inj (hsettings.symm.trans hsettings')
  obtain rfl := Except.ok.inj (hstart.symm.trans hstart')
  obtain rfl := Option.some.inj (hrecord.symm.trans hrecord')
  have hchars : field.chars = [','] := by simpa [hfield'] using hfield
  let d : Delimiters :=
    { field, record := "\r\n", quote := settings.quote, max := settings.maxRecordLength }
  have hd : SingleField d ',' := ⟨hchars, by simp [d], by simp [d], by simp [d, hquote]⟩
  obtain ⟨writer, after, hwrite, hreceived⟩ := receives_eq_some hreceives
  obtain ⟨lines, hlines, htext, hread⟩ :=
    hrun ',' hd _ _ _ _ _ _ (Store.addSink_accepts {}) hwrite
  have hbytes := Option.some.inj (htext.symm.trans hreceived)
  rw [hcharset] at hbytes hread
  have hshort : (textOf d lines).length ≤ d.max :=
    calc (textOf d lines).length
      _ ≤ (Charset.utf8.encodeChars (textOf d lines)).length :=
        Charset.length_le_encodeChars _ _
      _ = (Charset.utf8.encode quotedText).length := congrArg List.length hbytes
      _ ≤ 65536 := by decide +kernel
      _ = d.max := hmax.symm
  obtain ⟨items, -, -, hcount⟩ := hread (fun _ _ _ => rfl)
    (Delimited.recoverable_of_length hshort)
    [.chunk 0x22 (Charset.utf8.encode quotedText).tail] none none 5 (by decide)
    (hreceived.trans (by decide +kernel))
  refine hcount.trans ?_
  have hall : lines.countP (fun line => !(false && line.chars.isEmpty)) = lines.length := by
    simp
  rw [hblank, hall, ← hlines.length_eq]
  rfl

def lossyLayout : String :=
  "file-type: Variable\ntext-encoding: \"UTF-8\"\nfield-separator: \",\"\n" ++
  "record-separator: \"\\n\"\nmax-record-length: 3\nignore-blank-lines: true\n[R]\n1 a X\n"

/-- Of two records that are written, one with nothing in its column and one with four characters,
the first is passed over as a blank line and the second is refused as too long. -/
theorem run_readsWritten_lossy :
    ∃ schema opened ready settings, Schema.compile {} lossyLayout none = .ok schema ∧
      ofSchema schema {} = .ok opened ∧ opened.start = .ok ready ∧
      schema.settingsUnder {} = .ok settings ∧ schema.fileType = .delimited ∧
      settings.fieldSeparator.map (·.chars) = some [','] ∧
      settings.recordSeparator = some "\n" ∧ settings.quote = none ∧
      receives ready (["", "abcd"].map fun a => (none, .ofList [("a", .text a)])) =
        some (Charset.utf8.encode "\nabcd\n") ∧
      (run (List.replicate 2 .read)
        (ready.setInput (.ofBytes (Charset.utf8.encode "\nabcd\n")) none none)).1 =
        [.error (.invalidData { record := some 2, cause := .oversize 3 }), .ok none] := by
  have h : (opened? lossyLayout).any fun found =>
      (found.1.settingsUnder {}).toOption.any fun settings =>
        found.1.fileType = .delimited ∧ settings.fieldSeparator.map (·.chars) = some [','] ∧
        settings.recordSeparator = some "\n" ∧ settings.quote = none ∧
        receives found.2.2 (["", "abcd"].map fun a => (none, .ofList [("a", .text a)])) =
          some (Charset.utf8.encode "\nabcd\n") ∧
        (run (List.replicate 2 .read)
          (found.2.2.setInput (.ofBytes (Charset.utf8.encode "\nabcd\n")) none none)).1 =
          [.error (.invalidData { record := some 2, cause := .oversize 3 }), .ok none] := by
    decide +kernel
  obtain ⟨⟨schema, opened, ready⟩, hopened, h⟩ := (Option.any_eq_true _ _).1 h
  obtain ⟨settings, hsettings, h⟩ := (Option.any_eq_true _ _).1 h
  obtain ⟨hcompile, hopen, hstart⟩ := opened?_eq_some hopened
  exact ⟨schema, opened, ready, settings, hcompile, hopen, hstart, toOption_eq_some.1 hsettings,
    of_decide_eq_true h⟩

end Formatter
end Flatfile
