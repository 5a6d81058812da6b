import Flatfile.Proofs.Formatter.Numbering

/-!
# What a request changes

A formatter keeps the schema, the settings and the engine that it was opened with. Reading leaves
the output as it is and writing the input, and a record that is refused for writing changes nothing
that counts.
-/

namespace Flatfile

-- ------------------------------------------------------------------
-- One call
-- ------------------------------------------------------------------

namespace Formatter

structure OpenedAs (f f' : Formatter) : Prop where
  schema : f'.schema = f.schema
  settings : f'.settings = f.settings
  engine : f'.engine = f.engine

/-- The formatters have all in common but the input and what is read from it. -/
structure SameOutput (f f' : Formatter) : Prop extends OpenedAs f f' where
  phase : f'.phase = f.phase
  output : f'.output = f.output
  titleWritten : f'.titleWritten = f.titleWritten

structure SameInput (f f' : Formatter) : Prop extends OpenedAs f f' where
  phase : f'.phase = f.phase
  input : f'.input = f.input
  titleRead : f'.titleRead = f.titleRead

variable {f f' f'' : Formatter} {store : Store} {explicit : Option String} {r : Record}

theorem OpenedAs.refl (f : Formatter) : OpenedAs f f :=
  ⟨rfl, rfl, rfl⟩

theorem OpenedAs.trans (h : OpenedAs f f') (h' : OpenedAs f' f'') : OpenedAs f f'' :=
  ⟨h'.schema.trans h.schema, h'.settings.trans h.settings, h'.engine.trans h.engine⟩

theorem SameOutput.refl (f : Formatter) : SameOutput f f :=
  ⟨.refl f, rfl, rfl, rfl⟩

theorem SameInput.refl (f : Formatter) : SameInput f f :=
  ⟨.refl f, rfl, rfl, rfl⟩

theorem withInput_sameOutput {action : Input → Except FormatError α × Formatter}
    (h : ∀ input, SameOutput f (action input).2) : SameOutput f (f.withInput action).2 := by
  simp only [withInput]
  cases f.checkReady with
  | error e => exact .refl f
  | ok =>
    cases f.input with
    | none => exact .refl f
    | some input => exact h input

theorem readFixed_sameOutput (f : Formatter) (input : Input) (length : Nat)
    (separator : List UInt8) : SameOutput f (f.readFixed input length separator).2 := by
  simp only [readFixed]
  cases Fixed.readRaw length separator input.stream.source with
  | mk found source => rcases found with _ | _ | _ <;> exact ⟨⟨rfl, rfl, rfl⟩, rfl, rfl, rfl⟩

theorem readDelimited_sameOutput (f : Formatter) (input : Input) (d : Delimited.Delimiters) :
    SameOutput f (f.readDelimited input d).2 := by
  simp only [readDelimited]
  cases Delimited.toRecord f.settings.ignoreBlankLines d.record.toList input.stream with
  | mk found stream => rcases found with _ | _ | _ <;> exact ⟨⟨rfl, rfl, rfl⟩, rfl, rfl, rfl⟩

theorem read_sameOutput (f : Formatter) : SameOutput f f.read.2 := by
  refine withInput_sameOutput fun input => ?_
  cases f.engine with
  | fixed length separator => exact f.readFixed_sameOutput input length separator
  | delimited d => exact f.readDelimited_sameOutput input d

theorem hasNext_sameOutput (f : Formatter) : SameOutput f f.hasNext.2 := by
  refine withInput_sameOutput fun input => ?_
  cases f.engine with
  | fixed length separator => exact ⟨⟨rfl, rfl, rfl⟩, rfl, rfl, rfl⟩
  | delimited d =>
    simp only
    split <;> exact ⟨⟨rfl, rfl, rfl⟩, rfl, rfl, rfl⟩

theorem hasNext_titleRead (f : Formatter) : f.hasNext.2.titleRead = f.titleRead := by
  simp only [hasNext, withInput]
  cases f.checkReady with
  | error e => rfl
  | ok =>
    cases f.input with
    | none => rfl
    | some input =>
      cases f.engine with
      | fixed length separator => rfl
      | delimited d =>
        simp only
        split <;> rfl

theorem write_cases (f : Formatter) (store : Store) (explicit : Option String) (r : Record) :
    (∃ e, f.write store explicit r = (.error e, f, store)) ∨
      ∃ bytes, f.checkReady = .ok () ∧ f.encode explicit r = .ok bytes ∧
        f.write store explicit r = f.emit store bytes := by
  simp only [write]
  cases hready : f.checkReady with
  | error e => exact .inl ⟨e, rfl⟩
  | ok =>
    cases hbytes : f.encode explicit r with
    | error e => exact .inl ⟨e, by simp [bind, Except.bind]⟩
    | ok bytes => exact .inr ⟨bytes, rfl, rfl, by simp [bind, Except.bind]⟩

theorem emit_sameInput (f : Formatter) (store : Store) (bytes : List UInt8) :
    SameInput f (f.emit store bytes).2.1 := by
  simp only [emit]
  cases f.output with
  | none => exact .refl f
  | some output =>
    simp only
    cases (f.deliver output.writer store bytes).1 <;> exact ⟨⟨rfl, rfl, rfl⟩, rfl, rfl, rfl⟩

theorem write_sameInput (f : Formatter) (store : Store) (explicit : Option String) (r : Record) :
    SameInput f (f.write store explicit r).2.1 := by
  rcases f.write_cases store explicit r with ⟨e, h⟩ | ⟨bytes, -, -, h⟩
  · rw [h]
    exact .refl f
  · rw [h]
    exact f.emit_sameInput store bytes

theorem emit_titleWritten (f : Formatter) (store : Store) (bytes : List UInt8) :
    (f.emit store bytes).2.1.titleWritten = (f.titleWritten || (f.emit store bytes).1.isOk) := by
  simp only [emit]
  cases f.output with
  | none => exact (Bool.or_false _).symm
  | some output =>
    simp only
    cases (f.deliver output.writer store bytes).1 with
    | error fault => exact (Bool.or_false _).symm
    | ok => exact (Bool.or_true _).symm

theorem write_titleWritten (f : Formatter) (store : Store) (explicit : Option String) (r : Record) :
    (f.write store explicit r).2.1.titleWritten =
      (f.titleWritten || (f.write store explicit r).1.isOk) := by
  rcases f.write_cases store explicit r with ⟨e, h⟩ | ⟨bytes, -, -, h⟩
  · rw [h]
    exact (Bool.or_false _).symm
  · rw [h]
    exact f.emit_titleWritten store bytes

end Formatter

-- ------------------------------------------------------------------
-- All requests of a session
-- ------------------------------------------------------------------

namespace Session

/-- A file that cannot be opened leaves the session as it was. -/
theorem setInputPath_cases (s : Session) (path : String) :
    (∃ e, s.setInputPath path = (.error e, s)) ∨
      ∃ source cursor, s.setInputPath path = (.ok (),
        refresh { s with formatter := s.formatter.setInput source (some path) cursor }) := by
  simp only [setInputPath]
  split
  · exact .inr ⟨_, _, rfl⟩
  · exact .inr ⟨_, _, rfl⟩
  · exact .inl ⟨_, rfl⟩
  · exact .inl ⟨_, rfl⟩

theorem setOutputPath_cases (s : Session) (path : String) :
    (∃ e, s.setOutputPath path = (.error e, s)) ∨
      ∃ place files, s.setOutputPath path =
        (.ok (), s.redirect { s.store with files } (.file place 0) (some path)) := by
  simp only [setOutputPath]
  split
  · exact .inr ⟨_, _, rfl⟩
  · exact .inl ⟨_, rfl⟩

theorem start_cases (s : Session) :
    s.start.2 = s ∨ s.start.2 = { s with formatter := { s.formatter with phase := .ready } } := by
  by_cases hclosed : s.formatter.phase = .closed
  · exact .inl (by simp [start, Formatter.start, hclosed])
  · exact .inr (by simp [start, Formatter.start, hclosed])

theorem start_openedAs (s : Session) : s.formatter.OpenedAs s.start.2.formatter := by
  rcases s.start_cases with h | h <;> rw [h] <;> exact ⟨rfl, rfl, rfl⟩

theorem perform_openedAs (s : Session) (request : Request) :
    s.formatter.OpenedAs (s.perform request).formatter := by
  cases request with
  | start => exact s.start_openedAs
  | close => exact ⟨rfl, rfl, rfl⟩
  | read => exact s.formatter.read_sameOutput.toOpenedAs
  | hasNext => exact s.formatter.hasNext_sameOutput.toOpenedAs
  | write explicit r =>
    have h := (s.formatter.write_sameInput s.store explicit r).toOpenedAs
    exact ⟨h.schema, h.settings, h.engine⟩
  | setInput source => exact ⟨rfl, rfl, rfl⟩
  | setInputPath path =>
    rw [perform]
    rcases s.setInputPath_cases path with ⟨e, h⟩ | ⟨source, cursor, h⟩ <;>
      exact h ▸ ⟨rfl, rfl, rfl⟩
  | setOutput sink => exact ⟨rfl, rfl, rfl⟩
  | setOutputPath path =>
    rw [perform]
    rcases s.setOutputPath_cases path with ⟨e, h⟩ | ⟨place, files, h⟩ <;>
      exact h ▸ ⟨rfl, rfl, rfl⟩

end Session
end Flatfile
