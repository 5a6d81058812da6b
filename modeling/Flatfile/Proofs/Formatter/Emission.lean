import Flatfile.Proofs.Formatter.Requests
import Flatfile.Proofs.Formatter.Rereading

/-!
# What the calls put out

An output that takes everything receives the encodings of the records that are written, in order,
and nothing of a record that is refused. Flushing after each record or only at the end makes no
difference to what is received, and none to the answers unless the file that is written is read at
the same time (`emitsInOrder_of_sendsTo`).
-/

namespace Flatfile

-- ------------------------------------------------------------------
-- One call
-- ------------------------------------------------------------------

namespace Formatter

variable {f f' : Formatter} {store store' : Store} {origin : Target} {front bytes : List UInt8}
  {explicit : Option String} {r : Record}

/-- The output began at `origin`, takes everything, and has been sent these bytes. -/
def SendsTo (f : Formatter) (store : Store) (origin : Target) (sent : List UInt8) : Prop :=
  ∃ output, f.output = some output ∧ output.writer.Sent store sent ∧
    output.writer.target.origin = origin

def encoding? (f : Formatter) (explicit : Option String) (r : Record) : Option (List UInt8) :=
  (f.checkReady >>= fun () => f.encode explicit r).toOption

def afterWrite (f : Formatter) (output : Output) : Formatter :=
  { f with output := some output, records := Word32.wrap (f.records + 1), titleWritten := true }

theorem encoding?_eq_some :
    f.encoding? explicit r = some bytes ↔
      f.checkReady = .ok () ∧ f.encode explicit r = .ok bytes := by
  rw [encoding?, toOption_eq_some, bind_eq_ok]
  exact ⟨fun ⟨_, hready, h⟩ => ⟨hready, h⟩, fun ⟨hready, h⟩ => ⟨(), hready, h⟩⟩

theorem deliver_confined (f : Formatter) (w : Writer) (store : Store) (bytes : List UInt8) :
    w.Confined store (f.deliver w store bytes).2.1 (f.deliver w store bytes).2.2 := by
  have hwrite := w.write_confined store bytes
  simp only [deliver]
  cases hwritten : w.write store bytes with
  | mk done rest =>
    rw [hwritten] at hwrite
    cases done with
    | error fault => exact hwrite
    | ok =>
      simp only
      split
      · exact hwrite.trans (rest.1.flush_confined rest.2)
      · exact hwrite

theorem SendsTo.emit (h : f.SendsTo store origin front) (bytes : List UInt8) :
    ∃ output store', f.emit store bytes = (.ok (), f.afterWrite output, store') ∧
      output.path = (f.output.bind (·.path)) ∧
      (f.afterWrite output).SendsTo store' origin (front ++ bytes) ∧
      store.SameElsewhere origin store' := by
  obtain ⟨output, houtput, hsent, rfl⟩ := h
  obtain ⟨w, store', hdeliver, hsent', horigin⟩ := f.deliver_sent hsent bytes
  have hconfined := f.deliver_confined output.writer store bytes
  rw [hdeliver] at hconfined
  refine ⟨{ output with writer := w }, store', ?_, ?_, ⟨_, rfl, hsent', horigin⟩,
    hconfined.elsewhere⟩
  · simp only [Formatter.emit, houtput, hdeliver, afterWrite]
  · rw [houtput]
    rfl

theorem SendsTo.close (h : f.SendsTo store origin front) :
    (f.close store).2.received? origin = some front := by
  obtain ⟨output, houtput, hsent, rfl⟩ := h
  simp only [Formatter.close, flushOutput, houtput]
  exact hsent.received?

theorem write_of_encoding? (h : f.encoding? explicit r = some bytes) (store : Store) :
    f.write store explicit r = f.emit store bytes := by
  rw [encoding?, toOption_eq_some] at h
  rw [write, h]

theorem write_of_not_encoding? (h : f.encoding? explicit r = none) (store : Store) :
    ∃ e, (f.checkReady >>= fun () => f.encode explicit r) = .error e ∧
      f.write store explicit r = (.error e, f, store) := by
  rw [encoding?] at h
  cases hencode : (f.checkReady >>= fun () => f.encode explicit r) with
  | ok bytes => simp [hencode, Except.toOption] at h
  | error e => exact ⟨e, rfl, by rw [write, hencode]⟩

-- ------------------------------------------------------------------
-- Another output
-- ------------------------------------------------------------------

def retarget (f : Formatter) (flush : Bool) (output : Option Output) : Formatter :=
  { f with settings := { f.settings with flushPerRecord := flush }, output }

theorem withInput_retarget (f : Formatter) (flush : Bool) (output : Option Output)
    {action action' : Input → Except FormatError α × Formatter}
    (h : ∀ input, action' input = ((action input).1, (action input).2.retarget flush output)) :
    (f.retarget flush output).withInput action' =
      ((f.withInput action).1, (f.withInput action).2.retarget flush output) := by
  have hready : (f.retarget flush output).checkReady = f.checkReady := rfl
  have hinput : (f.retarget flush output).input = f.input := rfl
  simp only [withInput, hready, hinput]
  cases f.checkReady with
  | error e => rfl
  | ok =>
    cases f.input with
    | none => rfl
    | some input => exact h input

theorem readFixed_retarget (f : Formatter) (flush : Bool) (output : Option Output) (input : Input)
    (length : Nat) (separator : List UInt8) :
    (f.retarget flush output).readFixed input length separator =
      ((f.readFixed input length separator).1,
        (f.readFixed input length separator).2.retarget flush output) := by
  simp only [readFixed]
  cases Fixed.readRaw length separator input.stream.source with
  | mk found source => rcases found with _ | _ | _ <;> rfl

theorem readDelimited_retarget (f : Formatter) (flush : Bool) (output : Option Output)
    (input : Input) (d : Delimited.Delimiters) :
    (f.retarget flush output).readDelimited input d =
      ((f.readDelimited input d).1, (f.readDelimited input d).2.retarget flush output) := by
  have hblank : (f.retarget flush output).settings.ignoreBlankLines = f.settings.ignoreBlankLines :=
    rfl
  simp only [readDelimited, hblank]
  cases Delimited.toRecord f.settings.ignoreBlankLines d.record.toList input.stream with
  | mk found stream => rcases found with _ | _ | _ <;> rfl

theorem read_retarget (f : Formatter) (flush : Bool) (output : Option Output) :
    (f.retarget flush output).read = (f.read.1, f.read.2.retarget flush output) := by
  refine f.withInput_retarget flush output fun input => ?_
  have hengine : (f.retarget flush output).engine = f.engine := rfl
  rw [hengine]
  cases f.engine with
  | fixed length separator => exact f.readFixed_retarget flush output input length separator
  | delimited d => exact f.readDelimited_retarget flush output input d

theorem hasNext_retarget (f : Formatter) (flush : Bool) (output : Option Output) :
    (f.retarget flush output).hasNext = (f.hasNext.1, f.hasNext.2.retarget flush output) := by
  refine f.withInput_retarget flush output fun input => ?_
  have hengine : (f.retarget flush output).engine = f.engine := rfl
  have hblank : (f.retarget flush output).settings.ignoreBlankLines = f.settings.ignoreBlankLines :=
    rfl
  rw [hengine, hblank]
  cases f.engine with
  | fixed length separator => rfl
  | delimited d =>
    simp only
    split <;> rfl

theorem encode_retarget {flush : Bool} {output : Option Output}
    (hpath : output.bind (·.path) = f.output.bind (·.path)) (explicit : Option String)
    (r : Record) : (f.retarget flush output).encode explicit r = f.encode explicit r := by
  have hwriteError : (f.retarget flush output).writeError = f.writeError := by
    funext e
    simp only [writeError, retarget, hpath]
  simp only [encode, delimitedType, hwriteError]
  rfl

/-- The formatters encode records alike. What they have read, and how many records, has no part in
it. -/
structure EncodesAlike (f f' : Formatter) : Prop where
  schema : f'.schema = f.schema
  settings : ∃ flush, f'.settings = { f.settings with flushPerRecord := flush }
  engine : f'.engine = f.engine
  phase : f'.phase = f.phase
  titleWritten : f'.titleWritten = f.titleWritten

theorem delimitedType_ok {t : RecordType} :
    f.delimitedType explicit r = .ok t ↔
      ∃ title, Delimited.titleType? f.schema f.settings = .ok title ∧
        (match title with
          | none => f.schema.selectForWrite explicit none r
          | some title =>
            if f.titleWritten then laterForWrite f.schema title explicit r
            else titleForWrite title explicit r) = .ok t := by
  simp only [delimitedType, bind_eq_ok]
  refine exists_congr fun title => and_congr_right fun _ => ?_
  cases title <;> exact mapError_eq_ok

theorem EncodesAlike.encoding? (h : EncodesAlike f f') (explicit : Option String) (r : Record) :
    f'.encoding? explicit r = f.encoding? explicit r := by
  obtain ⟨hschema, ⟨flush, hsettings⟩, hengine, hphase, htitle⟩ := h
  have htype (t : RecordType) :
      f'.delimitedType explicit r = .ok t ↔ f.delimitedType explicit r = .ok t := by
    rw [delimitedType_ok, delimitedType_ok, hschema, hsettings, htitle]
    rfl
  refine Option.ext fun bytes => ?_
  rw [encoding?_eq_some, encoding?_eq_some, checkReady, checkReady, hphase]
  refine and_congr_right fun _ => ?_
  simp only [encode, hengine]
  cases f.engine with
  | fixed length separator =>
    simp only [bind_eq_ok, mapError_eq_ok, hschema, hsettings]
    rfl
  | delimited d =>
    simp only [bind_eq_ok, mapError_eq_ok, htype, hsettings]
    rfl

theorem retarget_encodesAlike (f : Formatter) (flush : Bool) (output : Option Output) :
    f.EncodesAlike (f.retarget flush output) :=
  ⟨rfl, ⟨flush, rfl⟩, rfl, rfl, rfl⟩

theorem EncodesAlike.after {g g' : Formatter} (h : EncodesAlike f f') (hg : f.OpenedAs g)
    (hg' : f'.OpenedAs g') (hphase : g.phase = f.phase) (hphase' : g'.phase = f'.phase)
    (htitle : g'.titleWritten = g.titleWritten) : EncodesAlike g g' := by
  obtain ⟨flush, hsettings⟩ := h.settings
  refine ⟨?_, ⟨flush, ?_⟩, ?_, ?_, htitle⟩
  · rw [hg'.schema, hg.schema, h.schema]
  · rw [hg'.settings, hg.settings, hsettings]
  · rw [hg'.engine, hg.engine, h.engine]
  · rw [hphase', hphase, h.phase]

-- ------------------------------------------------------------------
-- The file that is read
-- ------------------------------------------------------------------

def inputPlace? (f : Formatter) : Option Place :=
  f.input.bind fun input => input.cursor.map (·.place)

theorem withStream_inputPlace? {input : Input} (hinput : f.input = some input)
    (stream : TextStream) : (f.withStream input stream).inputPlace? = f.inputPlace? := by
  rw [inputPlace?, inputPlace?, hinput]
  rfl

theorem withInput_inputPlace? {action : Input → Except FormatError α × Formatter}
    (h : ∀ input, f.input = some input → (action input).2.inputPlace? = f.inputPlace?) :
    (f.withInput action).2.inputPlace? = f.inputPlace? := by
  simp only [withInput]
  cases f.checkReady with
  | error e => rfl
  | ok =>
    cases hinput : f.input with
    | none => rfl
    | some input => exact h input hinput

theorem read_inputPlace? (f : Formatter) : f.read.2.inputPlace? = f.inputPlace? := by
  refine withInput_inputPlace? fun input hinput => ?_
  have hkeep := withStream_inputPlace? hinput
  cases f.engine with
  | fixed length separator =>
    simp only [readFixed]
    cases Fixed.readRaw length separator input.stream.source with
    | mk found source => rcases found with _ | _ | _ <;> exact hkeep _
  | delimited d =>
    simp only [readDelimited]
    cases Delimited.toRecord f.settings.ignoreBlankLines d.record.toList input.stream with
    | mk found stream => rcases found with _ | _ | _ <;> exact hkeep _

theorem hasNext_inputPlace? (f : Formatter) : f.hasNext.2.inputPlace? = f.inputPlace? := by
  refine withInput_inputPlace? fun input hinput => ?_
  have hkeep := withStream_inputPlace? hinput
  cases f.engine with
  | fixed length separator => exact hkeep _
  | delimited d =>
    simp only
    split <;> exact hkeep _

end Formatter

namespace Input

variable {input : Input} {files files' : Files}

theorem refresh_place (files : Files) (input : Input) :
    (input.refresh files).cursor.map (·.place) = input.cursor.map (·.place) := by
  simp only [refresh]
  split <;> rename_i hcursor <;> simp [hcursor]

theorem refresh_congr
    (h : ∀ cursor, input.cursor = some cursor →
      files'.content? cursor.place = files.content? cursor.place) :
    input.refresh files' = input.refresh files := by
  simp only [refresh]
  split
  · rfl
  · rename_i cursor hcursor
    rw [h cursor hcursor]

end Input

-- ------------------------------------------------------------------
-- The calls one after the other
-- ------------------------------------------------------------------

/-- A call on a formatter at work, whose input and output stay. -/
inductive Exchange where
  | read
  | hasNext
  | write (explicit : Option String) (r : Record)

inductive Answer where
  | read (found : Except FormatError (Option Record))
  | hasNext (found : Except FormatError Bool)
  | write (done : Except FormatError Unit)
  deriving DecidableEq

namespace Session

variable {s s' : Session} {origin : Target} {front : List UInt8}

def exchange (s : Session) : Exchange → Answer × Session
  | .read => s.read.map .read id
  | .hasNext => s.hasNext.map .hasNext id
  | .write explicit r => (s.write explicit r).map .write id

def exchanges : List Exchange → Session → List Answer × Session
  | [], s => ([], s)
  | call :: calls, s =>
    let (answer, s) := s.exchange call
    let (answers, s) := exchanges calls s
    (answer :: answers, s)

def emitted (s : Session) : Exchange → List UInt8
  | .write explicit r =>
    match (s.write explicit r).1, s.formatter.encode explicit r with
    | .ok (), .ok bytes => bytes
    | _, _ => []
  | .read => []
  | .hasNext => []

def emittedAll : List Exchange → Session → List UInt8
  | [], _ => []
  | call :: calls, s => s.emitted call ++ emittedAll calls (s.exchange call).2

def flushing (s : Session) (flush : Bool) : Session :=
  { s with formatter := s.formatter.retarget flush s.formatter.output }

def SendsTo (s : Session) (origin : Target) (sent : List UInt8) : Prop :=
  s.formatter.SendsTo s.store origin sent

/-- The input does not come from the file that begins at `origin`. -/
def ReadsElsewhere (s : Session) (origin : Target) : Prop :=
  ∀ place ∈ s.formatter.inputPlace?, Target.file place 0 ≠ origin

theorem SendsTo.write_cases (h : s.SendsTo origin front) (explicit : Option String) (r : Record) :
    (∃ e, s.formatter.encoding? explicit r = none ∧
        s.write explicit r = (.error e, s.refresh)) ∨
      ∃ bytes after, s.formatter.encoding? explicit r = some bytes ∧
        s.write explicit r = (.ok (), after) ∧ after.SendsTo origin (front ++ bytes) := by
  simp only [write]
  cases hencoding : s.formatter.encoding? explicit r with
  | none =>
    obtain ⟨e, -, hwrite⟩ := Formatter.write_of_not_encoding? hencoding s.store
    exact .inl ⟨e, rfl, by rw [hwrite]⟩
  | some bytes =>
    obtain ⟨output, store', hemit, -, hsent, -⟩ := Formatter.SendsTo.emit h bytes
    rw [Formatter.write_of_encoding? hencoding, hemit]
    exact .inr ⟨bytes, _, rfl, rfl, hsent⟩

theorem SendsTo.write_isOk (h : s.SendsTo origin front) (explicit : Option String) (r : Record) :
    (s.write explicit r).1.isOk = (s.formatter.encoding? explicit r).isSome := by
  rcases h.write_cases explicit r with ⟨e, hnone, hwrite⟩ | ⟨bytes, after, hsome, hwrite, -⟩
  · rw [hnone, hwrite]
    rfl
  · rw [hsome, hwrite]
    rfl

theorem SendsTo.write_ok_iff (h : s.SendsTo origin front) (explicit : Option String) (r : Record) :
    (s.write explicit r).1 = .ok () ↔
      s.formatter.checkReady = .ok () ∧ ∃ bytes, s.formatter.encode explicit r = .ok bytes := by
  have hok : (s.write explicit r).1 = .ok () ↔ (s.write explicit r).1.isOk = true := by
    cases (s.write explicit r).1 <;> simp [Except.isOk, Except.toBool]
  simp only [hok, h.write_isOk, Option.isSome_iff_exists, Formatter.encoding?_eq_some,
    exists_and_left]

theorem SendsTo.emitted_write (h : s.SendsTo origin front) (explicit : Option String) (r : Record) :
    s.emitted (.write explicit r) = (s.formatter.encoding? explicit r).getD [] := by
  rcases h.write_cases explicit r with ⟨e, hnone, hwrite⟩ | ⟨bytes, after, hsome, hwrite, -⟩
  · rw [emitted, hwrite, hnone]
    rfl
  · rw [emitted, hwrite, hsome, (Formatter.encoding?_eq_some.1 hsome).2]
    rfl

theorem SendsTo.exchange (h : s.SendsTo origin front) (call : Exchange) :
    (s.exchange call).2.SendsTo origin (front ++ s.emitted call) := by
  cases call with
  | read =>
    obtain ⟨output, houtput, hsent⟩ := h
    rw [emitted, List.append_nil]
    exact ⟨output, s.formatter.read_sameOutput.output.trans houtput, hsent⟩
  | hasNext =>
    obtain ⟨output, houtput, hsent⟩ := h
    rw [emitted, List.append_nil]
    exact ⟨output, s.formatter.hasNext_sameOutput.output.trans houtput, hsent⟩
  | write explicit r =>
    rw [h.emitted_write, Session.exchange]
    rcases h.write_cases explicit r with ⟨e, hnone, hwrite⟩ | ⟨bytes, after, hsome, hwrite, hsent⟩
    · rw [hnone, hwrite, Option.getD_none, List.append_nil]
      exact h
    · rw [hsome, hwrite]
      exact hsent

theorem SendsTo.exchanges (h : s.SendsTo origin front) (calls : List Exchange) :
    (exchanges calls s).2.SendsTo origin (front ++ emittedAll calls s) := by
  induction calls generalizing s front with
  | nil =>
    rw [emittedAll, List.append_nil]
    exact h
  | cons call calls ih =>
    rw [emittedAll, ← List.append_assoc]
    exact ih (h.exchange call)

theorem SendsTo.flushing (h : s.SendsTo origin front) (flush : Bool) :
    (s.flushing flush).SendsTo origin front :=
  h

theorem setOutput_sendsTo (h : s.formatter.output = none) :
    (s.setOutput {}).SendsTo (.sink s.store.sinks.length) [] := by
  have hkept : s.formatter.flushOutput (s.store.addSink {}).2 = (s.store.addSink {}).2 := by
    rw [Formatter.flushOutput, h]
  refine ⟨_, rfl, Writer.sent_of_accepts ?_, rfl⟩
  exact (congrArg (Store.Accepts · _ _) hkept).mpr s.store.addSink_accepts

theorem setOutputPath_sendsTo (h : s.formatter.output = none) {path : String} {place : Place}
    {files : Files} (hcreate : s.store.files.create path = .ok (place, files)) :
    (s.setOutputPath path).2.SendsTo (.file place 0) [] := by
  have hempty := Files.content?_create hcreate
  have hkept (store : Store) : s.formatter.flushOutput store = store := by
    rw [Formatter.flushOutput, h]
  simp only [setOutputPath, hcreate]
  refine ⟨_, rfl, Writer.sent_of_accepts ?_, rfl⟩
  exact (congrArg (Store.Accepts · _ _) (hkept _)).mpr ⟨hempty, rfl⟩

theorem setInputPath_keeps (s : Session) (path : String) :
    (s.setInputPath path).2.store = s.store ∧
      (s.setInputPath path).2.formatter.output = s.formatter.output := by
  rcases s.setInputPath_cases path with ⟨e, h⟩ | ⟨source, cursor, h⟩ <;> exact h ▸ ⟨rfl, rfl⟩

-- ------------------------------------------------------------------
-- Two ways to flush
-- ------------------------------------------------------------------

theorem emitted_of_encodesAlike (h : s.formatter.EncodesAlike s'.formatter)
    (hs : s.SendsTo origin front) (hs' : s'.SendsTo origin front) (call : Exchange) :
    s'.emitted call = s.emitted call := by
  cases call with
  | read | hasNext => rfl
  | write explicit r => rw [hs.emitted_write, hs'.emitted_write, h.encoding?]

theorem exchange_encodesAlike (h : s.formatter.EncodesAlike s'.formatter)
    (hs : s.SendsTo origin front) (hs' : s'.SendsTo origin front) (call : Exchange) :
    (s.exchange call).2.formatter.EncodesAlike (s'.exchange call).2.formatter := by
  cases call with
  | read =>
    have hf := s.formatter.read_sameOutput
    have hf' := s'.formatter.read_sameOutput
    exact h.after hf.toOpenedAs hf'.toOpenedAs hf.phase hf'.phase
      (hf'.titleWritten.trans (h.titleWritten.trans hf.titleWritten.symm))
  | hasNext =>
    have hf := s.formatter.hasNext_sameOutput
    have hf' := s'.formatter.hasNext_sameOutput
    exact h.after hf.toOpenedAs hf'.toOpenedAs hf.phase hf'.phase
      (hf'.titleWritten.trans (h.titleWritten.trans hf.titleWritten.symm))
  | write explicit r =>
    have hf := s.formatter.write_sameInput s.store explicit r
    have hf' := s'.formatter.write_sameInput s'.store explicit r
    have hok : (s'.formatter.write s'.store explicit r).1.isOk =
        (s.formatter.write s.store explicit r).1.isOk := by
      have hs'' := hs'.write_isOk explicit r
      rw [h.encoding?, ← hs.write_isOk] at hs''
      exact hs''
    refine h.after ⟨hf.schema, hf.settings, hf.engine⟩ ⟨hf'.schema, hf'.settings, hf'.engine⟩
      hf.phase hf'.phase ?_
    exact (Formatter.write_titleWritten ..).trans
      ((congrArg₂ _ h.titleWritten hok).trans (Formatter.write_titleWritten ..).symm)

theorem emittedAll_of_encodesAlike (h : s.formatter.EncodesAlike s'.formatter)
    (hs : s.SendsTo origin front) (hs' : s'.SendsTo origin front) (calls : List Exchange) :
    emittedAll calls s' = emittedAll calls s := by
  induction calls generalizing s s' front with
  | nil => rfl
  | cons call calls ih =>
    have hcall := emitted_of_encodesAlike h hs hs' call
    have hsent := hs'.exchange call
    rw [hcall] at hsent
    rw [emittedAll, emittedAll, hcall,
      ih (exchange_encodesAlike h hs hs' call) (hs.exchange call) hsent]

/-- The sessions differ in how the output is flushed, and so in what the file that is written holds.
The input comes from elsewhere. -/
structure Twins (origin : Target) (s s' : Session) : Prop where
  formatter : ∃ flush output, s'.formatter = s.formatter.retarget flush output ∧
    output.bind (·.path) = s.formatter.output.bind (·.path)
  sent : ∃ front, s.SendsTo origin front ∧ s'.SendsTo origin front
  store : s.store.SameElsewhere origin s'.store
  elsewhere : s.ReadsElsewhere origin

theorem ReadsElsewhere.of_inputPlace? (h : s.ReadsElsewhere origin)
    (hplace : s'.formatter.inputPlace? = s.formatter.inputPlace?) : s'.ReadsElsewhere origin := by
  rw [ReadsElsewhere, hplace]
  exact h

theorem ReadsElsewhere.refresh (h : s.ReadsElsewhere origin) : s.refresh.ReadsElsewhere origin := by
  refine h.of_inputPlace? ?_
  simp only [Session.refresh, Formatter.inputPlace?]
  cases s.formatter.input with
  | none => rfl
  | some input => exact input.refresh_place s.store.files

theorem Twins.refresh (h : Twins origin s s') : Twins origin s.refresh s'.refresh := by
  obtain ⟨⟨flush, output, hformatter, hpath⟩, hsent, hstore, helsewhere⟩ := h
  refine ⟨⟨flush, output, ?_, hpath⟩, hsent, hstore, helsewhere.refresh⟩
  have hinput : s.formatter.input.map (·.refresh s'.store.files) =
      s.formatter.input.map (·.refresh s.store.files) := by
    refine Option.map_congr fun input hinput => Input.refresh_congr fun cursor hcursor => ?_
    refine hstore _ (helsewhere _ ?_)
    simp [Formatter.inputPlace?, hinput, hcursor]
  let withInput (input : Option Input) : Formatter := { s.formatter with input }
  simp only [Session.refresh, hformatter]
  exact congrArg (fun input => (withInput input).retarget flush output) hinput

theorem Twins.write (h : Twins origin s s') (explicit : Option String) (r : Record) :
    (s'.write explicit r).1 = (s.write explicit r).1 ∧
      Twins origin (s.write explicit r).2 (s'.write explicit r).2 := by
  have htwins := h
  obtain ⟨⟨flush, output, hformatter, hpath⟩, ⟨front, hs, hs'⟩, hstore, helsewhere⟩ := h
  have hbytes : (s'.formatter.checkReady >>= fun () => s'.formatter.encode explicit r) =
      (s.formatter.checkReady >>= fun () => s.formatter.encode explicit r) := by
    rw [hformatter, Formatter.encode_retarget hpath]
    rfl
  have hencoding' : s'.formatter.encoding? explicit r = s.formatter.encoding? explicit r :=
    congrArg Except.toOption hbytes
  simp only [Session.write]
  cases hencoding : s.formatter.encoding? explicit r with
  | none =>
    obtain ⟨e, he, hwrite⟩ := Formatter.write_of_not_encoding? hencoding s.store
    obtain ⟨e', he', hwrite'⟩ :=
      Formatter.write_of_not_encoding? (hencoding'.trans hencoding) s'.store
    obtain rfl := Except.error.inj (he'.symm.trans (hbytes.trans he))
    rw [hwrite, hwrite']
    exact ⟨rfl, htwins.refresh⟩
  | some bytes =>
    obtain ⟨o, store, hemit, ho, hsent, hfiles⟩ := Formatter.SendsTo.emit hs bytes
    obtain ⟨o', store', hemit', ho', hsent', hfiles'⟩ := Formatter.SendsTo.emit hs' bytes
    rw [Formatter.write_of_encoding? hencoding, hemit,
      Formatter.write_of_encoding? (hencoding'.trans hencoding), hemit']
    refine ⟨rfl, Twins.refresh ⟨⟨flush, some o', ?_, ?_⟩, ⟨_, hsent, hsent'⟩, ?_, ?_⟩⟩
    · rw [hformatter]
      rfl
    · rw [hformatter] at ho'
      exact ho'.trans (hpath.trans ho.symm)
    · exact fun place hplace => (hfiles' place hplace).trans
        ((hstore place hplace).trans (hfiles place hplace).symm)
    · exact helsewhere

theorem Twins.exchange (h : Twins origin s s') (call : Exchange) :
    (s'.exchange call).1 = (s.exchange call).1 ∧
      Twins origin (s.exchange call).2 (s'.exchange call).2 := by
  cases call with
  | write explicit r =>
    obtain ⟨hanswer, htwins⟩ := h.write explicit r
    exact ⟨congrArg Answer.write hanswer, htwins⟩
  | read =>
    obtain ⟨⟨flush, output, hformatter, hpath⟩, ⟨front, hs, hs'⟩, hstore, helsewhere⟩ := h
    have hread := s.formatter.read_retarget flush output
    rw [← hformatter] at hread
    obtain ⟨hfound, hafter⟩ := Prod.ext_iff.1 hread
    refine ⟨congrArg Answer.read hfound,
      ⟨flush, output, hafter, ?_⟩,
      ⟨_, hs.exchange .read, hs'.exchange .read⟩, hstore,
      helsewhere.of_inputPlace? s.formatter.read_inputPlace?⟩
    rw [hpath]
    exact (congrArg (Option.bind · Output.path) s.formatter.read_sameOutput.output).symm
  | hasNext =>
    obtain ⟨⟨flush, output, hformatter, hpath⟩, ⟨front, hs, hs'⟩, hstore, helsewhere⟩ := h
    have hnext := s.formatter.hasNext_retarget flush output
    rw [← hformatter] at hnext
    obtain ⟨hfound, hafter⟩ := Prod.ext_iff.1 hnext
    refine ⟨congrArg Answer.hasNext hfound,
      ⟨flush, output, hafter, ?_⟩,
      ⟨_, hs.exchange .hasNext, hs'.exchange .hasNext⟩, hstore,
      helsewhere.of_inputPlace? s.formatter.hasNext_inputPlace?⟩
    rw [hpath]
    exact (congrArg (Option.bind · Output.path) s.formatter.hasNext_sameOutput.output).symm

theorem Twins.exchanges (h : Twins origin s s') (calls : List Exchange) :
    (exchanges calls s').1 = (exchanges calls s).1 ∧
      Twins origin (exchanges calls s).2 (exchanges calls s').2 := by
  induction calls generalizing s s' with
  | nil => exact ⟨rfl, h⟩
  | cons call calls ih =>
    obtain ⟨hanswer, htwins⟩ := h.exchange call
    obtain ⟨hanswers, htwins⟩ := ih htwins
    exact ⟨congrArg₂ List.cons hanswer hanswers, htwins⟩

-- ------------------------------------------------------------------
-- What is received
-- ------------------------------------------------------------------

/-- What comes of some calls on a session whose output began at `origin` and has been sent the bytes
of `front`. -/
structure EmitsInOrder (origin : Target) (front : List UInt8) (calls : List Exchange)
    (s : Session) : Prop where
  /-- In the end the output holds the encodings of the records that were written, in order. -/
  received : (exchanges calls s).2.close.store.received? origin = some (front ++ emittedAll calls s)
  /-- After the calls, a record is written exactly if the formatter is ready and can encode it. -/
  writes : ∀ explicit r, ((exchanges calls s).2.write explicit r).1 = .ok () ↔
    (exchanges calls s).2.formatter.checkReady = .ok () ∧
      ∃ bytes, (exchanges calls s).2.formatter.encode explicit r = .ok bytes
  /-- A record that is refused is not sent in part, not counted, and not taken for the title. -/
  refuses : ∀ explicit r e after, (exchanges calls s).2.write explicit r = (.error e, after) →
    after.store = (exchanges calls s).2.store ∧
      after.formatter.output = (exchanges calls s).2.formatter.output ∧
      after.formatter.records = (exchanges calls s).2.formatter.records ∧
      after.formatter.titleWritten = (exchanges calls s).2.formatter.titleWritten
  /-- How often the output is flushed makes no difference to what it holds in the end. -/
  flushes : ∀ flush, (exchanges calls (s.flushing flush)).2.close.store.received? origin =
    (exchanges calls s).2.close.store.received? origin
  /-- Nor does it to the answers, if the file that is written is not the one that is read. -/
  answers : s.ReadsElsewhere origin → ∀ flush,
    (exchanges calls (s.flushing flush)).1 = (exchanges calls s).1 ∧
      (exchanges calls (s.flushing flush)).2.formatter.records =
        (exchanges calls s).2.formatter.records

/-- What the calls put out is what is written, in order, whatever else is called and however the
output is flushed. -/
theorem emitsInOrder_of_sendsTo {s : Session} {origin : Target} {front : List UInt8}
    (h : s.SendsTo origin front) (calls : List Exchange) : EmitsInOrder origin front calls s := by
  have hafter := h.exchanges calls
  constructor
  case received => exact Formatter.SendsTo.close hafter
  case writes => exact hafter.write_ok_iff
  case refuses =>
    intro explicit r e after hwrite
    rcases hafter.write_cases explicit r with ⟨_, -, hrefused⟩ | ⟨_, _, -, hwritten, -⟩
    · obtain ⟨-, rfl⟩ := Prod.mk.inj (hwrite.symm.trans hrefused)
      exact ⟨rfl, rfl, rfl, rfl⟩
    · simp [hwritten] at hwrite
  case flushes =>
    intro flush
    have halike : s.formatter.EncodesAlike (s.flushing flush).formatter :=
      s.formatter.retarget_encodesAlike flush s.formatter.output
    have hflushing := (h.flushing flush).exchanges calls
    rw [emittedAll_of_encodesAlike halike h (h.flushing flush)] at hflushing
    exact (Formatter.SendsTo.close hflushing).trans (Formatter.SendsTo.close hafter).symm
  case answers =>
    intro helsewhere flush
    have htwins : Twins origin s (s.flushing flush) :=
      ⟨⟨flush, _, rfl, rfl⟩, ⟨front, h, h.flushing flush⟩, .refl _ _, helsewhere⟩
    obtain ⟨hanswers, ⟨_, _, hformatter, -⟩, -⟩ := htwins.exchanges calls
    exact ⟨hanswers, by rw [hformatter]; rfl⟩

def besideSink (f : Formatter) : Session :=
  (({ formatter := f } : Session).setInput (.ofBytes [0x78])).setOutput {}

def emptyFile : Files :=
  { contents := [(["f"], [])] }

theorem emptyFile_find : emptyFile.find "f" = .ok (.file ["f"]) := by
  -- The path is cut by hand, since the cutting does not reduce.
  have hparts : Files.parts "f" = ["f"] := by
    rw [Files.parts, String.splitOn, if_neg (by decide), String.splitOnAux, if_neg (by decide),
      if_neg (by decide), String.splitOnAux, if_pos (by decide)]
    decide
  have hfind : emptyFile.find "f" = emptyFile.walk [] (Files.parts "f") := rfl
  rw [hfind, hparts]
  decide

def onOwnFile (f : Formatter) : Session :=
  let formatter := f.setInput {} (some "f") (some ⟨["f"], 0⟩)
  let reader := refresh { formatter, store := { files := emptyFile } }
  reader.redirect { files := emptyFile.put ["f"] [] } (.file ["f"] 0) (some "f")

theorem onOwnFile_eq (f : Formatter) :
    let s : Session := { formatter := f, store := { files := emptyFile } }
    (s.setInputPath "f").2.setOutputPath "f" = (.ok (), onOwnFile f) := by
  simp only [setInputPath, setOutputPath, refresh, Files.create, emptyFile_find]
  rfl

theorem onOwnFile_sendsTo {f : Formatter} (h : f.output = none) :
    (onOwnFile f).SendsTo (.file ["f"] 0) [] := by
  let s : Session := { formatter := f, store := { files := emptyFile } }
  obtain ⟨hstore, houtput⟩ := s.setInputPath_keeps "f"
  have hcreate : (s.setInputPath "f").2.store.files.create "f" =
      .ok (["f"], emptyFile.put ["f"] []) := by
    rw [hstore, Files.create, emptyFile_find]
  have hsends := setOutputPath_sendsTo (houtput.trans h) hcreate
  rwa [onOwnFile_eq] at hsends

def characterCalls : List Exchange :=
  [.write none (character "z"), .read, .write none (character "zz"), .hasNext,
    .write none (character "y")]

def rereadingCalls : List Exchange :=
  [.write none (character "z"), .read]

theorem opened?_characters :
    ∃ schema opened ready, Formatter.opened? characterLayout = some (schema, opened, ready) ∧
      ready.output = none ∧ emittedAll characterCalls (besideSink ready) = [0x7A, 0x79] ∧
      (exchanges rereadingCalls ((onOwnFile ready).flushing true)).1 =
        [.write (.ok ()), .read (.ok (some { character "z" with sequence := 2 }))] ∧
      (exchanges rereadingCalls ((onOwnFile ready).flushing false)).1 =
        [.write (.ok ()), .read (.ok none)] := by
  have h : (Formatter.opened? characterLayout).any fun found =>
      found.2.2.output.isNone ∧ emittedAll characterCalls (besideSink found.2.2) = [0x7A, 0x79] ∧
      (exchanges rereadingCalls ((onOwnFile found.2.2).flushing true)).1 =
        [.write (.ok ()), .read (.ok (some { character "z" with sequence := 2 }))] ∧
      (exchanges rereadingCalls ((onOwnFile found.2.2).flushing false)).1 =
        [.write (.ok ()), .read (.ok none)] := by decide +kernel
  obtain ⟨⟨schema, opened, ready⟩, hopened, h⟩ := (Option.any_eq_true _ _).1 h
  obtain ⟨hnone, h⟩ := of_decide_eq_true h
  exact ⟨schema, opened, ready, hopened, Option.isNone_iff_eq_none.1 hnone, h⟩

theorem emitsInOrder_of_sendsTo_characters :
    ∃ schema opened ready, Schema.compile {} characterLayout none = .ok schema ∧
      Formatter.ofSchema schema {} = .ok opened ∧ opened.start = .ok ready ∧
      (besideSink ready).SendsTo (.sink 0) [] ∧ (besideSink ready).ReadsElsewhere (.sink 0) ∧
      (exchanges characterCalls (besideSink ready)).2.close.store.received? (.sink 0) =
        some [0x7A, 0x79] ∧
      ∀ flush, (exchanges characterCalls ((besideSink ready).flushing flush)).1 =
        (exchanges characterCalls (besideSink ready)).1 := by
  obtain ⟨schema, opened, ready, hopened, hnone, hemitted, -⟩ := opened?_characters
  obtain ⟨hcompile, hopen, hstart⟩ := Formatter.opened?_eq_some hopened
  have hsends : (besideSink ready).SendsTo (.sink 0) [] := setOutput_sendsTo hnone
  have helsewhere : (besideSink ready).ReadsElsewhere (.sink 0) := fun _ _ => by simp
  have hemits := emitsInOrder_of_sendsTo hsends characterCalls
  refine ⟨schema, opened, ready, hcompile, hopen, hstart, hsends, helsewhere, ?_,
    fun flush => (hemits.answers helsewhere flush).1⟩
  rw [hemits.received, hemitted]
  rfl

/-- A formatter that reads the file that it writes finds there only what was flushed. -/
theorem answers_tell_flushing :
    ∃ schema opened ready, Schema.compile {} characterLayout none = .ok schema ∧
      Formatter.ofSchema schema {} = .ok opened ∧ opened.start = .ok ready ∧
      (onOwnFile ready).SendsTo (.file ["f"] 0) [] ∧
      (exchanges rereadingCalls ((onOwnFile ready).flushing true)).1 ≠
        (exchanges rereadingCalls ((onOwnFile ready).flushing false)).1 := by
  obtain ⟨schema, opened, ready, hopened, hnone, -, htrue, hfalse⟩ := opened?_characters
  obtain ⟨hcompile, hopen, hstart⟩ := Formatter.opened?_eq_some hopened
  refine ⟨schema, opened, ready, hcompile, hopen, hstart, onOwnFile_sendsTo hnone, ?_⟩
  rw [htrue, hfalse]
  decide

end Session
end Flatfile
