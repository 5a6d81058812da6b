import Flatfile.Proofs.Formatter.LookAhead
import Flatfile.Proofs.Formatter.Overruns
import Flatfile.Tool.DecodeRecords

/-!
# Reading comes to an end

A call for a record is answered with the end of the data, when nothing is left, or it takes
something, whether the record is answered or refused (`Readable.read`). So a loop that reads on
after records that were refused comes to its end, and what bounds it, the data that is left, does
not show in what it gives (`printAll_ends`).
-/

namespace Flatfile

-- ------------------------------------------------------------------
-- How much is left
-- ------------------------------------------------------------------

theorem Source.rest_length_le_size (s : Source) : s.rest.length ≤ s.size := by
  have hdeliveries (ds : List Delivery) :
      (ds.flatMap Delivery.bytes).length ≤ ds.foldr (fun d n => d.weight + n) 0 := by
    induction ds with
    | nil => exact Nat.le_refl 0
    | cons d ds ih =>
      rw [List.flatMap_cons, List.length_append, List.foldr_cons]
      refine Nat.add_le_add ?_ ih
      cases d with
      | chunk first rest => exact Nat.le_refl _
      | interruption => exact Nat.zero_le 1
  rw [rest, size, List.length_append]
  exact Nat.add_le_add_left (hdeliveries s.deliveries) _

theorem TextStream.charsOf_length_le (charset : Charset) (bytes : List UInt8) :
    (charsOf charset bytes).length ≤ bytes.length := by
  induction hlen : bytes.length using Nat.strongRecOn generalizing bytes with
  | ind n ih =>
  cases hfirst : firstChar? charset bytes with
  | none =>
    rw [charsOf]
    split
    · exact Nat.zero_le n
    · simp_all
  | some found =>
    have hshort := firstChar?_length hfirst
    rw [charsOf_cons hfirst, List.length_cons]
    exact Nat.lt_of_le_of_lt (ih _ (hlen ▸ hshort) found.2 rfl) (hlen ▸ hshort)

theorem TextStream.remaining_length_le_size (s : TextStream) : s.remaining.length ≤ s.size := by
  rw [remaining, size, List.length_append]
  exact Nat.add_le_add_left
    (Nat.le_trans (charsOf_length_le _ _) s.source.rest_length_le_size) _

-- ------------------------------------------------------------------
-- Refusals
-- ------------------------------------------------------------------

namespace Formatter

variable {α : Type} {f : Formatter} {input : Input} {e : FormatError}

/-- The error is one of a record or of the settings, unless a field of the schema lets the reader
panic. -/
def IsRefusal (s : Schema) : FormatError → Prop
  | .invalidData _ => True
  | .config _ => True
  | .panic => s.Overruns
  | _ => False

theorem isRefusal_of_mapError {x : Except InvalidData α}
    (hx : ∀ e, x = .error e → e.cause = .outOfRange → f.schema.Overruns)
    (h : x.mapError f.readError = .error e) : IsRefusal f.schema e := by
  obtain ⟨e', hx', rfl⟩ := mapError_eq_error.1 h
  rw [readError, FormatError.ofRecord]
  split
  next hcause => exact hx e' hx' hcause
  next => trivial

theorem isRefusal_of_inRange {x : Except InvalidData α}
    (hx : ∀ e, x = .error e → e.cause ≠ .outOfRange) (h : x.mapError f.readError = .error e) :
    IsRefusal f.schema e :=
  isRefusal_of_mapError (fun e he hcause => absurd hcause (hx e he)) h

theorem isRefusal_of_titleType {schema : Schema} {settings : Settings}
    (h : Delimited.titleType schema settings = .error e) : IsRefusal schema e := by
  simp only [Delimited.titleType] at h
  split at h
  · simp at h
  · obtain rfl := Except.error.inj h
    trivial

theorem isRefusal_of_titleType? {schema : Schema} {settings : Settings}
    (h : Delimited.titleType? schema settings = .error e) : IsRefusal schema e := by
  simp only [Delimited.titleType?] at h
  split at h
  · cases htitle : Delimited.titleType schema settings with
    | ok title => simp [htitle, Except.map] at h
    | error e' =>
      rw [htitle] at h
      obtain rfl := Except.error.inj h
      exact isRefusal_of_titleType htitle
  · simp at h

theorem isRefusal_of_selectBytes {bytes : List UInt8} (h : f.selectBytes bytes = .error e) :
    IsRefusal f.schema e :=
  isRefusal_of_mapError (fun _ => selectBytes_overruns) h

theorem isRefusal_of_selectColumns {first : Bool} {columns : List String}
    (h : f.selectColumns first columns = .error e) : IsRefusal f.schema e := by
  simp only [selectColumns, titleOfColumns] at h
  split at h
  · rcases bind_eq_error.1 h with h | ⟨title, -, h⟩
    · exact isRefusal_of_titleType h
    · rcases bind_eq_error.1 h with h | ⟨r, -, h⟩
      · exact isRefusal_of_inRange (fun _ => Delimited.decodeRecord_inRange) h
      · simp at h
  · rcases bind_eq_error.1 h with h | ⟨title, -, h⟩
    · exact isRefusal_of_titleType? h
    · rcases bind_eq_error.1 h with h | ⟨⟨t, r⟩, -, h⟩
      · refine isRefusal_of_inRange (fun _ => Schema.selectForRead_inRange ?_ ?_) h
        · exact fun c _ _ => Delimited.decodeLoosely_inRange
        · exact fun t _ _ => Delimited.decodeRecord_inRange
      · cases title with
        | none => simp [bind, Except.bind] at h
        | some title =>
          rcases bind_eq_error.1 h with h | ⟨-, -, h⟩
          · exact isRefusal_of_inRange (fun _ => Delimited.checkNotTitle_inRange) h
          · simp at h

-- ------------------------------------------------------------------
-- One call
-- ------------------------------------------------------------------

def leftLength (f : Formatter) : Nat :=
  f.left.elim 0 (Sum.elim List.length List.length)

/-- How a call for a record goes on: to the end of the data, or over some of the data that was
left. -/
inductive Proceeds (f : Formatter) : Except FormatError (Option Record) × Formatter → Prop
  | ended {f' : Formatter} (h : f'.leftLength = 0) : Proceeds f (.ok none, f')
  | record {f' : Formatter} {r : Record} (h : f'.leftLength < f.leftLength) :
    Proceeds f (.ok (some r), f')
  | rejected {f' : Formatter} {e : InvalidData} (h : f'.leftLength < f.leftLength) :
    Proceeds f (.error (.invalidData e), f')
  | misconfigured {f' : Formatter} {fault : ConfigFault} (h : f'.leftLength < f.leftLength) :
    Proceeds f (.error (.config fault), f')
  /-- A field of fixed length can let the reader panic, but the data of the record is taken. -/
  | panicked {f' : Formatter} (h : f'.leftLength < f.leftLength) (hfield : f.schema.Overruns) :
    Proceeds f (.error .panic, f')

theorem Proceeds.of_refusal {f' : Formatter} (he : IsRefusal f.schema e)
    (h : f'.leftLength < f.leftLength) : Proceeds f (.error e, f') := by
  cases e with
  | invalidData e => exact .rejected h
  | config fault => exact .misconfigured h
  | panic => exact .panicked h he
  | _ => exact False.elim he

theorem proceeds_finish {f' : Formatter} {select : α → Except FormatError (RecordType × Record)}
    (hselect : ∀ data e, select data = .error e → IsRefusal f'.schema e)
    (hschema : f'.schema = f.schema) (raw : Except DataCause α)
    (h : f'.leftLength < f.leftLength) :
    Proceeds f (f'.finish select (raw.mapError .data), f') := by
  cases raw with
  | error cause => exact .rejected h
  | ok data =>
    simp only [Except.mapError, finish]
    cases hdata : select data with
    | error e => exact .of_refusal (hschema ▸ hselect data e hdata) h
    | ok selected => exact .record h

structure Readable (f : Formatter) : Prop where
  ready : f.phase = .ready
  input : ∃ input, f.input = some input
  quiet : f.Quiet
  framed : f.Framed
  separated : ∀ d, f.engine = .delimited d → d.record ≠ ""

theorem leftLength_fixed {length : Nat} {separator : List UInt8}
    (hengine : f.engine = .fixed length separator) (hinput : f.input = some input) :
    f.leftLength = input.stream.source.rest.length := by
  simp only [leftLength, left, hinput, hengine, Option.map_some, Option.elim_some, Sum.elim_inl]

theorem leftLength_delimited {d : Delimited.Delimiters} (hengine : f.engine = .delimited d)
    (hinput : f.input = some input) : f.leftLength = input.stream.remaining.length := by
  simp only [leftLength, left, hinput, hengine, Option.map_some, Option.elim_some, Sum.elim_inr]

theorem quiet_of_input (hinput : f.input = some input) (h : input.stream.source.Quiet) :
    f.Quiet := by
  intro input' hinput'
  obtain rfl := Option.some.inj (hinput.symm.trans hinput')
  exact h

theorem readFixed_proceeds {length : Nat} {separator : List UInt8} (hpos : 0 < length)
    (hengine : f.engine = .fixed length separator) (hinput : f.input = some input)
    (hquiet : input.stream.source.Quiet) :
    Proceeds f (f.readFixed input length separator) ∧
      (∃ input', (f.readFixed input length separator).2.input = some input') ∧
      (f.readFixed input length separator).2.Quiet := by
  obtain ⟨source, hraw, -, hrest⟩ := Fixed.readRaw_eq hpos separator hquiet.fault
  have hquiet' : source.Quiet := by
    have h := Fixed.readRaw_quiet hquiet length separator
    rwa [hraw] at h
  have hbefore := leftLength_fixed hengine hinput
  have hafter : (f.withSource input source).leftLength = source.rest.length :=
    leftLength_fixed (f := f.withSource input source) hengine rfl
  simp only [readFixed, hraw]
  cases hframe : Fixed.frame length separator
      (input.stream.source.rest.take (length + separator.length)) with
  | none =>
    have hnil := (Fixed.frame_take_eq_none hpos).1 hframe
    refine ⟨.ended ?_, ⟨_, rfl⟩, quiet_of_input rfl hquiet'⟩
    rw [hafter, hrest, hnil, List.drop_nil, List.length_nil]
  | some raw =>
    have hne : input.stream.source.rest ≠ [] := by
      intro hnil
      rw [(Fixed.frame_take_eq_none hpos).2 hnil] at hframe
      exact absurd hframe.symm (Option.some_ne_none raw)
    have hlength := List.length_pos_iff.2 hne
    refine ⟨proceeds_finish (fun _ _ => isRefusal_of_selectBytes) (by rfl) raw ?_, ⟨_, rfl⟩,
      quiet_of_input rfl hquiet'⟩
    calc (f.withSource input source).leftLength
      _ = input.stream.source.rest.length - (length + separator.length) := by
        rw [hafter, hrest, List.length_drop]
      _ < input.stream.source.rest.length := by omega
      _ = f.leftLength := hbefore.symm

theorem readDelimited_proceeds {d : Delimited.Delimiters} (hne : d.record ≠ "")
    (hengine : f.engine = .delimited d) (hinput : f.input = some input)
    (hquiet : input.stream.source.Quiet) :
    Proceeds f (f.readDelimited input d) ∧
      (∃ input', (f.readDelimited input d).2.input = some input') ∧
      (f.readDelimited input d).2.Quiet := by
  have hs : input.stream.Holds input.stream.remaining := ⟨hquiet, rfl⟩
  have hbefore := leftLength_delimited hengine hinput
  have hafter {s : TextStream} {cs : List Char} (hs : s.Holds cs) :
      (f.withStream input s).leftLength = cs.length :=
    (leftLength_delimited (f := f.withStream input s) hengine rfl).trans
      (congrArg List.length hs.remaining)
  obtain ⟨found, behind, hto, hnone⟩ := Delimited.takes_toRecord f.settings.ignoreBlankLines
    d.record.toList input.stream.remaining
  obtain ⟨s₁, h₁, hs₁⟩ := hto.run hs
  simp only [readDelimited, h₁]
  cases found with
  | none =>
    refine ⟨.ended ?_, ⟨_, rfl⟩, quiet_of_input rfl hs₁.quiet⟩
    rw [hafter hs₁, hnone.1 rfl, List.length_nil]
  | some blanks =>
    have hbehind : behind ≠ [] := fun hnil => Option.some_ne_none blanks (hnone.2 hnil)
    obtain ⟨columns, rest, hscan, hprogress⟩ := Delimited.takes_scanRecord d behind
    obtain ⟨s₂, h₂, hs₂⟩ := hscan.run hs₁
    simp only [h₂]
    refine ⟨proceeds_finish (fun _ _ => isRefusal_of_selectColumns) (by rfl) columns ?_, ⟨_, rfl⟩,
      quiet_of_input rfl hs₂.quiet⟩
    calc (f.withStream input s₂).leftLength
      _ = rest.length := hafter hs₂
      _ < behind.length := hprogress hbehind hne
      _ ≤ input.stream.remaining.length := hto.length_le
      _ = f.leftLength := hbefore.symm

/-- A call for a record proceeds, and so will the next one. -/
theorem Readable.read (h : f.Readable) : Proceeds f f.read ∧ f.read.2.Readable := by
  obtain ⟨hready, ⟨input, hinput⟩, hquiet, hframed, hseparated⟩ := h
  have hsame := f.read_sameOutput
  have hcall : Proceeds f f.read ∧ (∃ input', f.read.2.input = some input') ∧ f.read.2.Quiet := by
    simp only [Formatter.read, withInput, checkReady, hready, hinput]
    cases hengine : f.engine with
    | fixed length separator =>
      exact readFixed_proceeds (hframed _ _ hengine) hengine hinput (hquiet input hinput)
    | delimited d =>
      exact readDelimited_proceeds (hseparated d hengine) hengine hinput (hquiet input hinput)
  obtain ⟨hproceeds, hinput', hquiet'⟩ := hcall
  refine ⟨hproceeds, hsame.phase.trans hready, hinput', hquiet', hsame.toOpenedAs.framed hframed,
    fun d hengine => hseparated d ?_⟩
  rw [← hsame.engine, hengine]

end Formatter

-- ------------------------------------------------------------------
-- The loop
-- ------------------------------------------------------------------

namespace Tool.DecodeRecords

open Formatter (Proceeds Readable)

variable {o : Options} {f : Formatter} {p : Progress} {n fuel : Nat}
  {result : Except FormatError Unit × Progress}

def Progress.print (p : Progress) (line : String) : Progress :=
  { p with lines := line :: p.lines, decoded := p.decoded + 1 }

def Progress.reject (p : Progress) (line : String) : Progress :=
  { p with errorLines := line :: p.errorLines, rejected := p.rejected + 1 }

/-- The loop, from this formatter and this progress on, calls for a record `n` times and then ends
with the result. It reads on after a record and after one that was refused. -/
inductive Prints (o : Options) :
    Formatter → Progress → Nat → Except FormatError Unit × Progress → Prop
  | limit {f : Formatter} {p : Progress} (h : o.limit.any (· ≤ p.decoded) = true) :
    Prints o f p 0 (.ok (), p)
  | ended {f f' : Formatter} {p : Progress} (hlimit : ¬ o.limit.any (· ≤ p.decoded) = true)
    (h : f.read = (.ok none, f')) : Prints o f p 1 (.ok (), p)
  | record {f f' : Formatter} {p : Progress} {r : Record} {n : Nat}
    {result : Except FormatError Unit × Progress}
    (hlimit : ¬ o.limit.any (· ≤ p.decoded) = true) (h : f.read = (.ok (some r), f'))
    (hmore : Prints o f' (p.print (shown o.human f'.schema r)) n result) :
    Prints o f p (n + 1) result
  | rejected {f f' : Formatter} {p : Progress} {e : InvalidData} {n : Nat}
    {result : Except FormatError Unit × Progress}
    (hlimit : ¬ o.limit.any (· ≤ p.decoded) = true)
    (h : f.read = (.error (.invalidData e), f')) (hmore : Prints o f' (p.reject e.message) n result) :
    Prints o f p (n + 1) result
  | failed {f f' : Formatter} {p : Progress} {e : FormatError}
    (hlimit : ¬ o.limit.any (· ≤ p.decoded) = true) (h : f.read = (.error e, f'))
    (he : ∀ e', e ≠ .invalidData e') : Prints o f p 1 (.error e, p)

theorem Prints.printAll (h : Prints o f p n result) (hfuel : n ≤ fuel) :
    printAll o fuel f p = result := by
  induction h generalizing fuel with
  | limit h =>
    cases fuel with
    | zero => rfl
    | succ fuel => rw [DecodeRecords.printAll, if_pos h]
  | ended hlimit h =>
    obtain ⟨fuel, rfl⟩ := Nat.exists_eq_add_of_le' hfuel
    rw [DecodeRecords.printAll, if_neg hlimit, h]
  | record hlimit h hmore ih =>
    obtain ⟨fuel, rfl⟩ := Nat.exists_eq_add_of_le' (Nat.le_trans (Nat.le_add_left 1 _) hfuel)
    rw [DecodeRecords.printAll, if_neg hlimit, h]
    exact ih (Nat.le_of_succ_le_succ hfuel)
  | rejected hlimit h hmore ih =>
    obtain ⟨fuel, rfl⟩ := Nat.exists_eq_add_of_le' (Nat.le_trans (Nat.le_add_left 1 _) hfuel)
    rw [DecodeRecords.printAll, if_neg hlimit, h]
    exact ih (Nat.le_of_succ_le_succ hfuel)
  | failed hlimit h he =>
    obtain ⟨fuel, rfl⟩ := Nat.exists_eq_add_of_le' hfuel
    rw [DecodeRecords.printAll, if_neg hlimit, h]
    split <;> simp_all

/-- The loop calls for a record at most once more than there are bytes or characters. -/
theorem exists_prints (o : Options) (h : f.Readable) (p : Progress) :
    ∃ n result, n ≤ f.leftLength + 1 ∧ Prints o f p n result := by
  induction hleft : f.leftLength using Nat.strongRecOn generalizing f p with
  | ind left ih =>
  by_cases hlimit : o.limit.any (· ≤ p.decoded) = true
  · exact ⟨0, _, Nat.zero_le _, .limit hlimit⟩
  obtain ⟨hproceeds, hnext⟩ := h.read
  generalize hread : f.read = call at hproceeds hnext
  cases hproceeds with
  | ended => exact ⟨1, _, Nat.le_add_left 1 _, .ended hlimit hread⟩
  | record hless =>
    obtain ⟨n, result, hn, hmore⟩ := ih _ (hleft ▸ hless) hnext _ rfl
    have hcalls : n + 1 ≤ left + 1 := Nat.succ_le_succ (Nat.le_trans hn (hleft ▸ hless))
    exact ⟨n + 1, result, hcalls, .record hlimit hread hmore⟩
  | rejected hless =>
    obtain ⟨n, result, hn, hmore⟩ := ih _ (hleft ▸ hless) hnext _ rfl
    have hcalls : n + 1 ≤ left + 1 := Nat.succ_le_succ (Nat.le_trans hn (hleft ▸ hless))
    exact ⟨n + 1, result, hcalls, .rejected hlimit hread hmore⟩
  | misconfigured => exact ⟨1, _, Nat.le_add_left 1 _, .failed hlimit hread (by simp)⟩
  | panicked => exact ⟨1, _, Nat.le_add_left 1 _, .failed hlimit hread (by simp)⟩

theorem leftLength_le_size {input : Input} (hinput : f.input = some input) :
    f.leftLength ≤ input.stream.size := by
  cases hengine : f.engine with
  | fixed length separator =>
    rw [Formatter.leftLength_fixed hengine hinput]
    exact Nat.le_trans (Source.rest_length_le_size _) (Nat.le_add_left _ _)
  | delimited d =>
    rw [Formatter.leftLength_delimited hengine hinput]
    exact TextStream.remaining_length_le_size _

/-- Whatever was requested of a formatter that was opened, with a record separator if its records
are delimited: where no interruption and no fault lies ahead, a call for a record is answered with
the end of the data, or takes some of it for a record, for one that is refused, for an error in the
settings, or before it panics over a field of the schema. A loop that prints records and reads on
after those that are refused ends after at most one call more than there are bytes or characters. It
is never cut short. -/
theorem printAll_ends {schema : Schema} {defaults : Defaults} {opened : Formatter} {input : Input}
    (hopen : Formatter.ofSchema schema defaults = .ok opened)
    (hseparated : ∀ d, opened.engine = .delimited d → d.record ≠ "") (store : Store)
    (requests : List Request)
    (hf : (requests.foldl Session.perform { formatter := opened, store }).formatter = f)
    (hready : f.phase = .ready) (hinput : f.input = some input)
    (hquiet : input.stream.source.Quiet) :
    Proceeds f f.read ∧
      ∀ (o : Options) (p : Progress), ∃ n result, n ≤ f.leftLength + 1 ∧ Prints o f p n result ∧
        printAll o (readings f) f p = result ∧ ∀ fuel, n ≤ fuel → printAll o fuel f p = result := by
  have hopened := Session.performAll_openedAs { formatter := opened, store } requests
  rw [hf] at hopened
  have hreadable : f.Readable :=
    ⟨hready, ⟨input, hinput⟩, Formatter.quiet_of_input hinput hquiet,
      hopened.framed (Formatter.ofSchema_framed hopen),
      fun d hengine => hseparated d (hopened.engine ▸ hengine)⟩
  refine ⟨hreadable.read.1, fun o p => ?_⟩
  obtain ⟨n, result, hn, hprints⟩ := exists_prints o hreadable p
  have henough : n ≤ readings f := by
    have hsize := leftLength_le_size hinput
    rw [readings, hinput, Option.elim_some]
    omega
  exact ⟨n, result, hn, hprints, hprints.printAll henough, fun _ => hprints.printAll⟩

def brokenLayout : String :=
  "file-type: Variable\ntext-encoding: \"US-ASCII\"\nfield-separator: \",\"\n" ++
  "record-separator: \"\\r\\n\"\nquoting-delimiter: \"\\\"\"\n[R]\n1 a X\n2 b X\n"

def brokenText : String :=
  "a,b\r\nc\r\n\"d,e\r\n"

def brokenRequests : List Request :=
  [.start, .setInput (.ofBytes (Charset.ascii.encode brokenText))]

theorem printAll_ends_broken :
    ∃ schema opened, Schema.compile {} brokenLayout none = .ok schema ∧
      Formatter.ofSchema schema {} = .ok opened ∧
      let f := (brokenRequests.foldl Session.perform { formatter := opened }).formatter
      f.leftLength = 14 ∧ Proceeds f f.read ∧
        ∀ (o : Options) (p : Progress), ∃ n result, n ≤ 15 ∧ Prints o f p n result ∧
          printAll o (readings f) f p = result := by
  have h : ((Schema.compile {} brokenLayout none).toOption.bind fun schema =>
      (Formatter.ofSchema schema {}).toOption.map fun opened =>
        let f := (brokenRequests.foldl Session.perform { formatter := opened }).formatter
        (f.phase, f.leftLength, schema.fileType, opened.settings.recordSeparator)) =
      some (.ready, 14, .delimited, some "\r\n") := by
    decide +kernel
  obtain ⟨schema, hschema, h⟩ := Option.bind_eq_some_iff.1 h
  obtain ⟨opened, hopen, h⟩ := Option.map_eq_some_iff.1 h
  obtain ⟨hready, h⟩ := Prod.mk.inj h
  obtain ⟨hleft, h⟩ := Prod.mk.inj h
  obtain ⟨hdelimited, hrecord⟩ := Prod.mk.inj h
  rw [toOption_eq_some] at hschema hopen
  have hseparated : ∀ d, opened.engine = .delimited d → d.record ≠ "" := by
    obtain ⟨settings, field, record, -, -, hsettings, hopened⟩ :=
      Formatter.ofSchema_delimited hdelimited hopen
    rw [hopened] at hrecord ⊢
    obtain rfl := Option.some.inj (hsettings.symm.trans hrecord)
    intro d hengine
    obtain rfl := Engine.delimited.inj hengine
    exact (by decide : "\r\n" ≠ "")
  obtain ⟨hproceeds, hloop⟩ := printAll_ends hopen hseparated {} brokenRequests rfl hready rfl
    (TextStream.holds_ofBytes _ _).quiet
  refine ⟨schema, opened, hschema, hopen, hleft, hproceeds, fun o p => ?_⟩
  obtain ⟨n, result, hn, hprints, hresult, -⟩ := hloop o p
  exact ⟨n, result, hn.trans_eq (congrArg (· + 1) hleft), hprints, hresult⟩

end Tool.DecodeRecords
end Flatfile
