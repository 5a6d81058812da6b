import Flatfile.Proofs.Formatter.Calls
import Flatfile.Proofs.Schema.Linked
import Flatfile.Proofs.Word

/-!
# Reading records of fixed length

The data is cut into slices, each as long as a record and the separator, and every slice is answered
for by itself, however the data arrives and whatever became of the slices before it
(`run_answersSlices`).
-/

namespace Flatfile

-- ------------------------------------------------------------------
-- Sources that are interrupted
-- ------------------------------------------------------------------

namespace Source

variable {s : Source}

theorem rest_dropWhile_interruption (ds : List Delivery) :
    (ds.dropWhile (· == .interruption)).flatMap Delivery.bytes = ds.flatMap Delivery.bytes := by
  induction ds with
  | nil => rfl
  | cons d ds ih =>
    cases d with
    | chunk first rest => rfl
    | interruption => simpa [Delivery.bytes] using ih

theorem calm_rest (s : Source) : s.calm.rest = s.rest := by
  unfold calm
  split
  · simp only [rest, rest_dropWhile_interruption]
  · rfl

theorem calm_next (hf : s.fault = none) :
    ∃ s', s.calm.next = (.ok s.rest.head?, s') ∧ s'.fault = none ∧ s'.rest = s.rest.tail := by
  obtain ⟨ready, deliveries, fault⟩ := s
  subst hf
  cases ready with
  | cons b ready => exact ⟨_, rfl, rfl, rfl⟩
  | nil =>
    rw [← calm_rest]
    simp only [calm, List.isEmpty_nil, if_true]
    cases hd : deliveries.dropWhile (· == .interruption) with
    | nil => exact ⟨_, rfl, rfl, rfl⟩
    | cons d more =>
      cases d with
      | chunk b chunk => exact ⟨_, rfl, rfl, rfl⟩
      | interruption =>
        have hne : deliveries.dropWhile (· == .interruption) ≠ [] := by simp [hd]
        have hhead := List.head_dropWhile_not (· == Delivery.interruption) hne
        simp [hd] at hhead

theorem take_eq (hf : s.fault = none) (n : Nat) :
    ∃ s', take n s = (.ok (s.rest.take n), s') ∧ s'.fault = none ∧ s'.rest = s.rest.drop n := by
  induction n generalizing s with
  | zero => exact ⟨s, rfl, hf, rfl⟩
  | succ n ih =>
    obtain ⟨s₁, hnext, hf₁, hrest₁⟩ := calm_next hf
    cases hr : s.rest with
    | nil =>
      rw [hr] at hnext hrest₁
      exact ⟨s₁, by simp [take, hnext], hf₁, hrest₁⟩
    | cons b bs =>
      rw [hr] at hnext hrest₁
      obtain ⟨s₂, htake, hf₂, hrest₂⟩ := ih hf₁
      refine ⟨s₂, ?_, hf₂, by rw [hrest₂, hrest₁]; rfl⟩
      simp [take, hnext, htake, hrest₁, Except.map]

theorem hasMore_rest (s : Source) : s.hasMore.2.rest = s.rest ∧ s.hasMore.2.fault = s.fault := by
  obtain ⟨ready, deliveries, fault⟩ := s
  cases ready with
  | cons b ready => exact ⟨rfl, rfl⟩
  | nil =>
    cases deliveries with
    | nil => cases fault <;> exact ⟨rfl, rfl⟩
    | cons d more => cases d <;> exact ⟨rfl, rfl⟩

end Source

-- ------------------------------------------------------------------
-- One slice
-- ------------------------------------------------------------------

namespace Fixed

/-- What is taken for a record whose bytes, and those of the separator after it, are `slice`. -/
def frame (length : Nat) (separator slice : List UInt8) :
    Option (Except DataCause (List UInt8)) :=
  if slice = [] then none
  else if slice.length < length then some (.error (.truncated slice.length length))
  else if slice.drop length ≠ [] ∧ slice.drop length ≠ separator then
    some (.error (.wrongSeparator separator (slice.drop length)))
  else some (.ok (slice.take length))

theorem exists_frame (length : Nat) (separator : List UInt8) {slice : List UInt8}
    (hne : slice ≠ []) :
    ∃ raw, frame length separator slice = some raw := by
  rw [frame, if_neg hne]
  split
  · exact ⟨_, rfl⟩
  · split <;> exact ⟨_, rfl⟩

theorem frame_short {length : Nat} {separator slice : List UInt8} (hs : slice.length < length)
    (hne : slice ≠ []) :
    frame length separator slice = some (.error (.truncated slice.length length)) := by
  rw [frame, if_neg hne, if_pos hs]

theorem frame_long {length : Nat} {separator slice : List UInt8} (hs : length ≤ slice.length)
    (hne : slice ≠ []) :
    (frame length separator slice).map (·.mapError RawError.data) =
      some ((checkSeparator separator (slice.drop length)).map fun _ => slice.take length) := by
  rw [frame, if_neg hne, if_neg (Nat.not_lt.2 hs), checkSeparator]
  by_cases hsep : slice.drop length = [] ∨ slice.drop length = separator
  · rw [if_neg (by simpa [not_and, or_iff_not_imp_left] using hsep), if_pos hsep]
    rfl
  · rw [if_pos (not_or.1 hsep), if_neg hsep]
    rfl

/-- Whatever is made of a slice, it is taken as a whole and nothing after it is. -/
theorem readRaw_eq {length : Nat} (hl : 0 < length) (separator : List UInt8) {s : Source}
    (hf : s.fault = none) :
    ∃ s', readRaw length separator s =
        (.ok ((frame length separator (s.rest.take (length + separator.length))).map
          (·.mapError .data)), s') ∧
      s'.fault = none ∧ s'.rest = s.rest.drop (length + separator.length) := by
  obtain ⟨s₁, htake, hf₁, hrest₁⟩ := Source.take_eq hf length
  by_cases hshort : s.rest.length < length
  · have hslice : s.rest.take (length + separator.length) = s.rest :=
      List.take_of_length_le (by omega)
    have hrest : s₁.rest = s.rest.drop (length + separator.length) := by
      rw [hrest₁, List.drop_eq_nil_of_le (by omega), List.drop_eq_nil_of_le (by omega)]
    refine ⟨s₁, ?_, hf₁, hrest⟩
    rw [List.take_of_length_le (Nat.le_of_lt hshort)] at htake
    simp only [readRaw, htake, hslice, List.isEmpty_iff]
    split
    · rename_i hnil
      simp [hnil, frame]
    · rename_i hne
      rw [frame_short hshort hne]
      rfl
  · obtain ⟨s₂, hsep, hf₂, hrest₂⟩ := Source.take_eq hf₁ separator.length
    have hlong : length ≤ (s.rest.take (length + separator.length)).length := by
      rw [List.length_take]
      omega
    have hne : s.rest.take length ≠ [] := by
      rw [← List.length_pos_iff, List.length_take]
      omega
    have hfound : (s.rest.take (length + separator.length)).drop length =
        s₁.rest.take separator.length := by
      rw [List.drop_take, Nat.add_sub_cancel_left, hrest₁]
    refine ⟨s₂, ?_, hf₂, by rw [hrest₂, hrest₁, List.drop_drop]⟩
    rw [frame_long hlong (List.length_pos_iff.1 (Nat.lt_of_lt_of_le hl hlong)), hfound,
      List.take_take, Nat.min_eq_left (Nat.le_add_right _ _)]
    simp only [readRaw, htake, hsep]
    rw [if_neg (by simpa using hne), if_neg (by rw [List.length_take]; omega)]

end Fixed

-- ------------------------------------------------------------------
-- All slices
-- ------------------------------------------------------------------

namespace Formatter

def answerSlice (schema : Schema) (settings : Settings) (path : Option String) (length : Nat)
    (separator : List UInt8) (number : Nat) (slice : List UInt8) :
    Except FormatError (Option Record) :=
  match Fixed.frame length separator slice with
  | none => .ok none
  | some (.error cause) => .error (.invalidData (InvalidData.inRecord path number { cause }))
  | some (.ok bytes) =>
    let decode (t : RecordType) := Fixed.decodeRecord settings t bytes
    match schema.selectForRead none decode decode with
    | .error e => .error (.ofRecord path number e)
    | .ok (_, r) => .ok (some { r with sequence := number })

variable {f : Formatter} {length i : Nat} {separator bytes : List UInt8}

theorem finish_data (f : Formatter) (raw : Except DataCause (List UInt8)) :
    f.finish f.selectBytes (raw.mapError .data) = match raw with
      | .error cause => .error (.invalidData (InvalidData.inRecord f.inputPath f.records { cause }))
      | .ok bytes =>
        let decode (t : RecordType) := Fixed.decodeRecord f.settings t bytes
        match f.schema.selectForRead none decode decode with
        | .error e => .error (.ofRecord f.inputPath f.records e)
        | .ok (_, r) => .ok (some { r with sequence := f.records }) := by
  cases raw with
  | error cause => rfl
  | ok bytes =>
    simp only [Except.mapError, finish, selectBytes]
    cases f.schema.selectForRead none (Fixed.decodeRecord f.settings · bytes)
      (Fixed.decodeRecord f.settings · bytes) <;> rfl

/-- A call for a record answers for the next slice, and counts it if there is data in it. -/
theorem readFixed_eq (hl : 0 < length) (separator : List UInt8) {input : Input}
    (hinput : f.input = some input) (hfault : input.stream.source.fault = none) :
    ∃ source records, source.fault = none ∧
      source.rest = input.stream.source.rest.drop (length + separator.length) ∧
      (input.stream.source.rest ≠ [] → records = Word32.wrap (f.records + 1)) ∧
      f.readFixed input length separator =
        (answerSlice f.schema f.settings f.inputPath length separator (Word32.wrap (f.records + 1))
          (input.stream.source.rest.take (length + separator.length)),
          { f.withSource input source with records }) := by
  obtain ⟨source, hraw, hfault', hrest⟩ := Fixed.readRaw_eq hl separator hfault
  by_cases hnil : input.stream.source.rest = []
  · refine ⟨source, f.records, hfault', hrest, fun hne => absurd hnil hne, ?_⟩
    rw [hnil, List.take_nil, Fixed.frame, if_pos rfl] at hraw
    simp only [readFixed, hraw, hnil, List.take_nil, Option.map_none]
    rfl
  · refine ⟨source, Word32.wrap (f.records + 1), hfault', hrest, fun _ => rfl, ?_⟩
    have hslice : input.stream.source.rest.take (length + separator.length) ≠ [] := by
      simp only [ne_eq, List.take_eq_nil_iff, hnil, or_false]
      omega
    obtain ⟨raw, hframe⟩ := Fixed.exists_frame length separator hslice
    rw [hframe] at hraw
    have hpath : Formatter.inputPath
        { f.withSource input source with records := Word32.wrap (f.records + 1) } =
        f.inputPath := inputPath_of_stream hinput rfl
    simp only [readFixed, hraw, Option.map_some, finish_data, answerSlice, hframe, hpath]
    cases raw <;> rfl

/-- After `i` calls for a record, `bytes` having been the data: the calls have gone over as many
slices. -/
structure AtSlice (f : Formatter) (length : Nat) (separator bytes : List UInt8) (i : Nat)
    (f' : Formatter) : Prop where
  schema : f'.schema = f.schema
  settings : f'.settings = f.settings
  engine : f'.engine = .fixed length separator
  phase : f'.phase = .ready
  path : f'.inputPath = f.inputPath
  /-- As long as there is data, every slice was counted. -/
  records : i * (length + separator.length) < bytes.length →
    f'.records = Word32.wrap (f.records + i)
  input : ∃ input, f'.input = some input ∧ input.stream.source.fault = none ∧
    input.stream.source.rest = bytes.drop (i * (length + separator.length))

variable {f f' : Formatter} {length i : Nat} {separator bytes : List UInt8}

theorem AtSlice.hasNext (h : AtSlice f length separator bytes i f') :
    AtSlice f length separator bytes i f'.hasNext.2 := by
  obtain ⟨hschema, hsettings, hengine, hphase, hpath, hrecords, input, hinput, hfault, hrest⟩ := h
  have hmore := input.stream.source.hasMore_rest
  have hcall : f'.hasNext.2 = f'.withSource input input.stream.source.hasMore.2 := by
    simp [Formatter.hasNext, withInput, checkReady, hphase, hinput, hengine]
  rw [hcall]
  refine ⟨hschema, hsettings, hengine, hphase, ?_, hrecords, _, rfl, ?_, ?_⟩
  · rw [← hpath, inputPath, inputPath, hinput]
    rfl
  · exact hmore.2.trans hfault
  · exact hmore.1.trans hrest

theorem AtSlice.read (hl : 0 < length) (h : AtSlice f length separator bytes i f') :
    ∃ f'', f'.read = (answerSlice f.schema f.settings f.inputPath length separator
        (Word32.wrap (f.records + (i + 1)))
        ((bytes.drop (i * (length + separator.length))).take (length + separator.length)), f'') ∧
      AtSlice f length separator bytes (i + 1) f'' := by
  obtain ⟨hschema, hsettings, hengine, hphase, hpath, hrecords, input, hinput, hfault, hrest⟩ := h
  obtain ⟨source, records, hfault', hrest', hcount, hcall⟩ :=
    readFixed_eq hl separator hinput hfault
  have hread : f'.read = f'.readFixed input length separator := by
    simp [Formatter.read, withInput, checkReady, hphase, hinput, hengine]
  rw [hschema, hsettings, hpath, hrest] at hcall
  refine ⟨{ f'.withSource input source with records }, ?_, hschema, hsettings, hengine, hphase,
    ?_, ?_, _, rfl, hfault', ?_⟩
  · rw [hread, hcall]
    by_cases hdata : i * (length + separator.length) < bytes.length
    · rw [hrecords hdata, Word32.wrap_wrap_add, Nat.add_assoc]
    · rw [List.drop_eq_nil_of_le (Nat.not_lt.1 hdata), List.take_nil]
      rfl
  · exact (inputPath_of_stream hinput rfl).trans hpath
  · intro hmore
    have hdata : i * (length + separator.length) < bytes.length := by
      rw [Nat.succ_mul] at hmore
      omega
    rw [hcount (by rw [hrest]; simpa using hdata), hrecords hdata, Word32.wrap_wrap_add,
      Nat.add_assoc]
  · rw [Nat.succ_mul, ← List.drop_drop, ← hrest]
    exact hrest'

theorem positive?_pos {directives : List Directive} {name : String} {n : Nat}
    (h : Settings.positive? directives name = .ok (some n)) : 0 < n := by
  simp only [Settings.positive?, Settings.fail] at h
  split at h
  · simp at h
  · split at h
    · split at h
      · simp_all
      · simp at h
    · simp at h

theorem ofSchema_fixed {schema : Schema} {defaults : Defaults} (hfixed : schema.fileType = .fixed)
    (h : ofSchema schema defaults = .ok f) :
    ∃ settings length, schema.settingsUnder defaults = .ok settings ∧
      settings.recordLength = some length ∧ 0 < length ∧
      f = { schema, settings,
            engine := .fixed length (settings.recordSeparator.elim [] settings.charset.encode) } := by
  obtain ⟨settings, hsettings, h⟩ := bind_eq_ok.1 h
  rw [mapError_eq_ok] at hsettings
  simp only [hfixed] at h
  obtain ⟨-, -, h⟩ := bind_eq_ok.1 h
  obtain ⟨length, hlength, h⟩ := bind_eq_ok.1 h
  have hsome : settings.recordLength = some length := require_eq_ok.1 hlength
  have hpos := Link.resolve_recordLength (mapError_eq_ok.1 hsettings)
  rw [hsome] at hpos
  exact ⟨settings, length, hsettings, hsome, positive?_pos hpos, (Except.ok.inj h).symm⟩

/-- A formatter that was opened for a schema of records of fixed length answers for the data slice
by slice, each slice being as long as a record and the separator. However the data is delivered, and
whatever other calls and however many interruptions come in between: the `i`-th answer hangs on the
`i`-th slice alone, and after it the data goes on behind that slice. -/
theorem run_answersSlices {schema : Schema} {defaults : Defaults} {opened : Formatter}
    (hfixed : schema.fileType = .fixed) (hopen : ofSchema schema defaults = .ok opened) :
    ∃ settings length ready, schema.settingsUnder defaults = .ok settings ∧
      settings.recordLength = some length ∧ opened.start = .ok ready ∧
      ∀ (deliveries : List Delivery) (path : Option String) (cursor : Option Cursor)
        (calls : List Call),
        let bytes := deliveries.flatMap Delivery.bytes
        let separator := settings.recordSeparator.elim [] settings.charset.encode
        let size := length + separator.length
        let after := run calls (ready.setInput { deliveries } path cursor)
        after.1 = (List.range (reads calls)).map (fun i =>
          answerSlice schema settings path length separator (Word32.wrap (i + 1))
            ((bytes.drop (i * size)).take size)) ∧
        ∃ input, after.2.input = some input ∧
          input.stream.source.rest = bytes.drop (min (reads calls * size) bytes.length) := by
  obtain ⟨settings, length, hsettings, hlength, hpos, rfl⟩ := ofSchema_fixed hfixed hopen
  refine ⟨settings, length, _, hsettings, hlength, rfl, ?_⟩
  intro deliveries path cursor calls bytes separator size after
  let first := setInput { schema, settings, engine := .fixed length separator, phase := .ready }
    { deliveries } path cursor
  have hstart : AtSlice first length separator bytes 0 first :=
    ⟨rfl, rfl, rfl, rfl, rfl, fun _ => rfl, _, rfl, rfl,
      by simp [Source.rest, bytes, TextStream.ofSource]⟩
  obtain ⟨hanswers, -, -, -, -, -, -, input, hinput, -, hrest⟩ :=
    run_induct (AtSlice.read hpos) calls (fun _ => AtSlice.hasNext) hstart
  refine ⟨?_, input, hinput, ?_⟩
  · rw [List.range_eq_range', hanswers]
    simp only [show first.records = 0 from rfl, Nat.zero_add]
    rfl
  · rw [Nat.zero_add] at hrest
    rw [hrest]
    rcases Nat.le_total (reads calls * size) bytes.length with hle | hle
    · rw [Nat.min_eq_left hle]
    · rw [Nat.min_eq_right hle, List.drop_eq_nil_of_le hle, List.drop_length]

def pairsLayout : String :=
  "file-type: Fixed\ntext-encoding: \"US-ASCII\"\nrecord-length: 2\nrecord-separator: \"\\n\"\n" ++
  "[R]\n1 a X(2)\n"

def pairsData : List Delivery :=
  [.interruption, .chunk 0x61 [0x62, 0x0A, 0x63], .interruption, .interruption, .chunk 0x64 [0x3B],
    .chunk 0x65 [], .chunk 0x66 []]

def pairsAnswers : List (Except FormatError (Option Record)) :=
  let r (text : String) := { Record.ofList [("a", .text text)] with typeName := some "R" }
  [.ok (some { r "ab" with sequence := 1 }),
    .error (.invalidData { record := some 2, cause := .wrongSeparator [0x0A] [0x3B] }),
    .ok (some { r "ef" with sequence := 3 }), .ok none]

theorem run_answersSlices_pairs :
    ∃ schema opened ready, Schema.compile {} pairsLayout none = .ok schema ∧
      schema.fileType = .fixed ∧ ofSchema schema {} = .ok opened ∧ opened.start = .ok ready ∧
      (run [.hasNext, .read, .read, .hasNext, .read, .read]
        (ready.setInput { deliveries := pairsData } none none)).1 = pairsAnswers := by
  have hanswers : ((Schema.compile {} pairsLayout none).toOption.bind fun schema =>
      (schema.settingsUnder {}).toOption.bind fun settings =>
        (ofSchema schema {}).toOption.bind fun _ => settings.recordLength.map fun length =>
          let separator := settings.recordSeparator.elim [] settings.charset.encode
          let size := length + separator.length
          (schema.fileType, (List.range 4).map fun i =>
            answerSlice schema settings none length separator (Word32.wrap (i + 1))
              (((pairsData.flatMap Delivery.bytes).drop (i * size)).take size))) =
      some (.fixed, pairsAnswers) := by decide +kernel
  obtain ⟨schema, hschema, hanswers⟩ := Option.bind_eq_some_iff.1 hanswers
  obtain ⟨settings, hsettings, hanswers⟩ := Option.bind_eq_some_iff.1 hanswers
  obtain ⟨opened, hopen, hanswers⟩ := Option.bind_eq_some_iff.1 hanswers
  obtain ⟨length, hlength, hanswers⟩ := Option.map_eq_some_iff.1 hanswers
  obtain ⟨hfixed, hanswers⟩ := Prod.mk.inj hanswers
  rw [toOption_eq_some] at hschema hsettings hopen
  obtain ⟨settings', length', ready, hsettings', hlength', hstart, hrun⟩ :=
    run_answersSlices hfixed hopen
  obtain rfl := Except.ok.inj (hsettings.symm.trans hsettings')
  obtain rfl := Option.some.inj (hlength.symm.trans hlength')
  exact ⟨schema, opened, ready, hschema, hfixed, hopen, hstart,
    (hrun pairsData none none _).1.trans hanswers⟩

end Formatter
end Flatfile
