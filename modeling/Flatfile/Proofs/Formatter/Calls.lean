import Flatfile.Formatter.Read
import Flatfile.Proofs.Outcome
import Flatfile.Schema.Link

/-!
# Calls for records

A reader asks a formatter for one record after the other, and may ask in between whether there is
one more.
-/

namespace Flatfile.Formatter

inductive Call where
  | read
  | hasNext
  deriving DecidableEq, Repr

def run : List Call → Formatter → List (Except FormatError (Option Record)) × Formatter
  | [], f => ([], f)
  | .read :: calls, f =>
    let (answer, f) := f.read
    let (answers, f) := run calls f
    (answer :: answers, f)
  | .hasNext :: calls, f => run calls f.hasNext.2

def reads (calls : List Call) : Nat :=
  calls.count .read

/-- Each answer belongs to the place that it is given at, where calls for a record go on to the next
place and other calls stay. -/
theorem run_induct {At : Nat → Formatter → Prop} {answer : Nat → Except FormatError (Option Record)}
    (hread : ∀ {i f}, At i f → ∃ f', f.read = (answer i, f') ∧ At (i + 1) f')
    (calls : List Call) (hnext : .hasNext ∈ calls → ∀ {i f}, At i f → At i f.hasNext.2) {i : Nat}
    {f : Formatter} (h : At i f) :
    (run calls f).1 = (List.range' i (reads calls)).map answer ∧
      At (i + reads calls) (run calls f).2 := by
  induction calls generalizing i f with
  | nil => exact ⟨rfl, h⟩
  | cons call calls ih =>
    have ih := @ih fun hmem => hnext (List.mem_cons_of_mem call hmem)
    cases call with
    | read =>
      obtain ⟨f', hanswer, h'⟩ := hread h
      obtain ⟨hanswers, hafter⟩ := ih h'
      have hcount : reads (.read :: calls) = reads calls + 1 := by simp [reads]
      rw [run, hanswer, hcount, List.range'_succ, Nat.add_comm (reads calls), ← Nat.add_assoc]
      exact ⟨congrArg (answer i :: ·) hanswers, hafter⟩
    | hasNext =>
      have hcount : reads (.hasNext :: calls) = reads calls := by simp [reads]
      rw [run, hcount]
      exact ih (hnext List.mem_cons_self h)

theorem require_eq_ok {schema : Schema} {name : String} {found : Option α} {a : α} :
    require schema name found = .ok a ↔ found = some a := by
  cases found <;> simp [require]

theorem ofSchema_opened {schema : Schema} {defaults : Defaults} {f : Formatter}
    (h : ofSchema schema defaults = .ok f) : f.schema = schema ∧ f.records = 0 := by
  obtain ⟨settings, -, h⟩ := bind_eq_ok.1 h
  cases hfile : schema.fileType with
  | fixed =>
    simp only [hfile] at h
    obtain ⟨-, -, h⟩ := bind_eq_ok.1 h
    obtain ⟨length, -, h⟩ := bind_eq_ok.1 h
    exact Except.ok.inj h ▸ ⟨rfl, rfl⟩
  | delimited =>
    simp only [hfile] at h
    obtain ⟨-, -, h⟩ := bind_eq_ok.1 h
    obtain ⟨field, -, h⟩ := bind_eq_ok.1 h
    obtain ⟨record, -, h⟩ := bind_eq_ok.1 h
    exact Except.ok.inj h ▸ ⟨rfl, rfl⟩
  | json | xml => simp [hfile] at h

def opened? (layout : String) : Option (Schema × Formatter × Formatter) := do
  let schema ← (Schema.compile {} layout none).toOption
  let opened ← (ofSchema schema {}).toOption
  let ready ← opened.start.toOption
  some (schema, opened, ready)

theorem opened?_eq_some {layout : String} {schema : Schema} {opened ready : Formatter}
    (h : opened? layout = some (schema, opened, ready)) :
    Schema.compile {} layout none = .ok schema ∧ ofSchema schema {} = .ok opened ∧
      opened.start = .ok ready := by
  obtain ⟨schema', hschema, h⟩ := Option.bind_eq_some_iff.1 h
  obtain ⟨opened', hopened, h⟩ := Option.bind_eq_some_iff.1 h
  obtain ⟨ready', hready, h⟩ := Option.bind_eq_some_iff.1 h
  obtain ⟨rfl, rfl, rfl⟩ : schema' = schema ∧ opened' = opened ∧ ready' = ready := by
    simpa using h
  exact ⟨toOption_eq_some.1 hschema, toOption_eq_some.1 hopened, toOption_eq_some.1 hready⟩

theorem inputPath_of_stream {f f' : Formatter} {input : Input} {stream : TextStream}
    (hf : f.input = some input) (hf' : f'.input = some { input with stream }) :
    f'.inputPath = f.inputPath := by
  rw [inputPath, inputPath, hf, hf']
  rfl

inductive AnswersWith (f f' : Formatter) (r : Record) : Prop
  | fixed {input : Input} {length : Nat} {separator : List UInt8}
      {raw : Except RawError (List UInt8)} {source : Source} (hready : f.checkReady = .ok ())
      (hinput : f.input = some input) (hengine : f.engine = .fixed length separator)
      (hraw : Fixed.readRaw length separator input.stream.source = (.ok (some raw), source))
      (hafter : f' = { f.withSource input source with records := Word32.wrap (f.records + 1) })
      (hr : f'.finish f'.selectBytes raw = .ok (some r))
  | delimited {input : Input} {d : Delimited.Delimiters} {blanks : Nat} {stream : TextStream}
      (hready : f.checkReady = .ok ()) (hinput : f.input = some input)
      (hengine : f.engine = .delimited d)
      (hto : Delimited.toRecord f.settings.ignoreBlankLines d.record.toList input.stream =
        (.ok (some blanks), stream))
      (hafter : f' =
        { f.withStream input (Delimited.scanRecord d stream).2 with
          records := Word32.wrap (f.records + (blanks + 1)), titleRead := true })
      (hr : f'.finish (f'.selectColumns (!f.titleRead)) (Delimited.scanRecord d stream).1 =
        .ok (some r))

theorem read_answersWith {f f' : Formatter} {r : Record} (h : f.read = (.ok (some r), f')) :
    AnswersWith f f' r := by
  simp only [read, withInput] at h
  split at h
  · simp at h
  rename_i hready
  split at h
  · simp at h
  rename_i input hinput
  split at h
  · rename_i length separator hengine
    simp only [readFixed] at h
    split at h
    · simp at h
    · simp at h
    · rename_i hraw
      obtain ⟨hr, rfl⟩ := Prod.mk.inj h
      exact .fixed hready hinput hengine hraw rfl hr
  · rename_i d hengine
    simp only [readDelimited] at h
    split at h
    · simp at h
    · simp at h
    · rename_i hto
      obtain ⟨hr, rfl⟩ := Prod.mk.inj h
      exact .delimited hready hinput hengine hto rfl hr

theorem finish_ok {f : Formatter} {select : α → Except FormatError (RecordType × Record)}
    {raw : Except RawError α} {r : Record} (h : f.finish select raw = .ok (some r)) :
    ∃ data t selected, raw = .ok data ∧ select data = .ok (t, selected) ∧
      r = { selected with sequence := f.records } := by
  cases raw with
  | error e => simp [finish] at h
  | ok data =>
    obtain ⟨⟨t, selected⟩, hselect, h⟩ := bind_eq_ok.1 h
    exact ⟨data, t, selected, rfl, hselect, (Option.some.inj (Except.ok.inj h)).symm⟩

end Flatfile.Formatter
