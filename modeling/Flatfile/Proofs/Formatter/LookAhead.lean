import Flatfile.Proofs.Delimited.Consumption
import Flatfile.Proofs.Fixed.Reading
import Flatfile.Proofs.Formatter.Titles
import Flatfile.Proofs.Stream.Rewinding

/-!
# Looking for a record

Whether a record lies ahead, and which one, hangs on the data that is left of the input and not on
how it lies there: in a chunk, as bytes at hand, or as characters that were given back. Looking for
a record moves the data about and takes none of it. So looking again gives the same answer, and
reading the same record as if nobody had looked (`Session.hasNext_looksAhead`).
-/

namespace Flatfile

-- ------------------------------------------------------------------
-- Bytes
-- ------------------------------------------------------------------

namespace Source

variable {s : Source}

theorem Quiet.hasMore (h : s.Quiet) :
    ∃ s', s.hasMore = (.ok (!s.rest.isEmpty), s') ∧ s'.Quiet ∧ s'.rest = s.rest := by
  have hrest := s.hasMore_rest.1
  obtain ⟨ready, deliveries, fault⟩ := s
  obtain ⟨hd, rfl⟩ := h
  cases ready with
  | cons b ready => exact ⟨_, rfl, ⟨hd, rfl⟩, rfl⟩
  | nil =>
    cases deliveries with
    | nil => exact ⟨_, rfl, ⟨hd, rfl⟩, rfl⟩
    | cons d more =>
      cases d with
      | chunk b chunk => exact ⟨_, rfl, ⟨fun hm => hd (List.mem_cons_of_mem _ hm), rfl⟩, hrest⟩
      | interruption => simp at hd

theorem Quiet.calm (h : s.Quiet) : s.calm = s := by
  have hd : s.deliveries.dropWhile (· == .interruption) = s.deliveries := by
    rw [List.dropWhile_eq_self_iff]
    intro hlength hhead
    refine h.deliveries ?_
    rw [← beq_iff_eq.1 hhead]
    exact List.getElem_mem hlength
  rw [Source.calm, hd, ite_self]

theorem Quiet.take_eq_takeStrictly (h : s.Quiet) (n : Nat) :
    Source.take n s = Source.takeStrictly n s := by
  induction n generalizing s with
  | zero => rfl
  | succ n ih =>
    rw [Source.take, Source.takeStrictly, h.calm]
    cases hr : s.rest with
    | nil => rw [h.next_nil hr]
    | cons b bs =>
      obtain ⟨s₁, hnext, h₁, -⟩ := h.next_cons hr
      simp only [hnext, ih h₁]

theorem Quiet.take (h : s.Quiet) (n : Nat) :
    ∃ s', Source.take n s = (.ok (s.rest.take n), s') ∧ s'.Quiet := by
  obtain ⟨s', htake, h', -⟩ := h.takeStrictly n
  exact ⟨s', (h.take_eq_takeStrictly n).trans htake, h'⟩

end Source

namespace Fixed

variable {length : Nat} {separator bytes : List UInt8}

theorem readRaw_quiet {s : Source} (h : s.Quiet) (length : Nat) (separator : List UInt8) :
    (readRaw length separator s).2.Quiet := by
  obtain ⟨s₁, htake, h₁⟩ := h.take length
  obtain ⟨s₂, hsep, h₂⟩ := h₁.take separator.length
  simp only [readRaw, htake, hsep]
  split
  · exact h₁
  · split
    · exact h₁
    · exact h₂

theorem frame_take_eq_none (hpos : 0 < length) :
    frame length separator (bytes.take (length + separator.length)) = none ↔ bytes = [] := by
  constructor
  · intro hnone
    by_contra hne
    have hslice : bytes.take (length + separator.length) ≠ [] := by
      rw [ne_eq, List.take_eq_nil_iff]
      exact not_or.2 ⟨by omega, hne⟩
    obtain ⟨raw, hframe⟩ := exists_frame length separator hslice
    rw [hframe] at hnone
    exact absurd hnone (Option.some_ne_none raw)
  · rintro rfl
    rw [List.take_nil, frame, if_pos rfl]

end Fixed

-- ------------------------------------------------------------------
-- The data that is left
-- ------------------------------------------------------------------

namespace Formatter

variable {f f' g : Formatter} {input : Input} {d : Delimited.Delimiters} {length : Nat}
  {separator : List UInt8} {b : Bool}

def Quiet (f : Formatter) : Prop :=
  ∀ input, f.input = some input → input.stream.source.Quiet

def Framed (f : Formatter) : Prop :=
  ∀ length separator, f.engine = .fixed length separator → 0 < length

/-- What is left of the input: bytes, or the characters that they are read as. -/
def left (f : Formatter) : Option (List UInt8 ⊕ List Char) :=
  f.input.map fun input =>
    match f.engine with
    | .fixed _ _ => .inl input.stream.source.rest
    | .delimited _ => .inr input.stream.remaining

/-- The formatters differ in nothing but how the data that is left lies in the input. -/
structure SameData (f f' : Formatter) : Prop extends SameOutput f f' where
  records : f'.records = f.records
  titleRead : f'.titleRead = f.titleRead
  path : f'.inputPath = f.inputPath
  left : f'.left = f.left

theorem SameOutput.trans (h : SameOutput f f') (h' : SameOutput f' g) : SameOutput f g :=
  ⟨h.toOpenedAs.trans h'.toOpenedAs, h'.phase.trans h.phase, h'.output.trans h.output,
    h'.titleWritten.trans h.titleWritten⟩

theorem SameData.refl (f : Formatter) : SameData f f :=
  ⟨.refl f, rfl, rfl, rfl, rfl⟩

theorem SameData.trans (h : SameData f f') (h' : SameData f' g) : SameData f g :=
  ⟨h.toSameOutput.trans h'.toSameOutput, h'.records.trans h.records,
    h'.titleRead.trans h.titleRead, h'.path.trans h.path, h'.left.trans h.left⟩

theorem SameData.checkReady (h : SameData f g) : g.checkReady = f.checkReady := by
  simp only [Formatter.checkReady, h.phase]

theorem SameData.input_none (h : SameData f g) (hinput : f.input = none) : g.input = none := by
  have hleft := h.left
  rw [Formatter.left, Formatter.left, hinput, Option.map_none, Option.map_eq_none_iff] at hleft
  exact hleft

theorem SameData.fixed (h : SameData f g) (hg : g.Quiet) (hinput : f.input = some input)
    (hengine : f.engine = .fixed length separator) :
    ∃ input', g.input = some input' ∧ input'.stream.source.Quiet ∧
      input'.stream.source.rest = input.stream.source.rest := by
  have hleft := h.left
  simp only [Formatter.left, hinput, h.engine, hengine, Option.map_some] at hleft
  obtain ⟨input', hinput', heq⟩ := Option.map_eq_some_iff.1 hleft
  exact ⟨input', hinput', hg input' hinput', Sum.inl.inj heq⟩

theorem SameData.delimited (h : SameData f g) (hg : g.Quiet) (hinput : f.input = some input)
    (hengine : f.engine = .delimited d) :
    ∃ input', g.input = some input' ∧ input'.stream.Holds input.stream.remaining := by
  have hleft := h.left
  simp only [Formatter.left, hinput, h.engine, hengine, Option.map_some] at hleft
  obtain ⟨input', hinput', heq⟩ := Option.map_eq_some_iff.1 hleft
  exact ⟨input', hinput', hg input' hinput', Sum.inr.inj heq⟩

-- ------------------------------------------------------------------
-- Reading
-- ------------------------------------------------------------------

theorem finish_bytes_congr (hschema : f.schema = g.schema) (hsettings : f.settings = g.settings)
    (hpath : f.inputPath = g.inputPath) (hrecords : f.records = g.records)
    (raw : Except RawError (List UInt8)) :
    f.finish f.selectBytes raw = g.finish g.selectBytes raw := by
  have hread : f.readError = g.readError := by
    funext e
    simp only [readError, hpath, hrecords]
  cases raw with
  | error e => simp only [finish, rawError, hpath, hrecords]
  | ok bytes => simp only [finish, selectBytes, hread, hschema, hsettings, hrecords]

theorem SameData.withStream {input' : Input} {stream stream' : TextStream} (h : SameData f g)
    (hinput : f.input = some input) (hinput' : g.input = some input')
    (hleft : (g.withStream input' stream').left = (f.withStream input stream).left) :
    SameData (f.withStream input stream) (g.withStream input' stream') := by
  have hf : (f.withStream input stream).inputPath = f.inputPath := inputPath_of_stream hinput rfl
  have hg : (g.withStream input' stream').inputPath = g.inputPath := inputPath_of_stream hinput' rfl
  exact ⟨⟨⟨h.schema, h.settings, h.engine⟩, h.phase, h.output, h.titleWritten⟩, h.records,
    h.titleRead, hg.trans (h.path.trans hf.symm), hleft⟩

theorem SameData.counted (h : SameData f g) (more : Nat) (first : Bool) :
    SameData { f with records := Word32.wrap (f.records + more), titleRead := first || f.titleRead }
      { g with records := Word32.wrap (g.records + more), titleRead := first || g.titleRead } :=
  ⟨⟨⟨h.schema, h.settings, h.engine⟩, h.phase, h.output, h.titleWritten⟩,
    congrArg (Word32.wrap <| · + more) h.records, congrArg (first || ·) h.titleRead, h.path,
    h.left⟩

theorem SameData.readFixed {input' : Input} (h : SameData f g) (hf : f.Quiet) (hg : g.Quiet)
    (hpos : 0 < length) (hengine : f.engine = .fixed length separator)
    (hinput : f.input = some input) (hinput' : g.input = some input') :
    (g.readFixed input' length separator).1 = (f.readFixed input length separator).1 ∧
      SameData (f.readFixed input length separator).2 (g.readFixed input' length separator).2 := by
  obtain ⟨_, hsame, hquiet', hrest⟩ := h.fixed hg hinput hengine
  obtain rfl := Option.some.inj (hinput'.symm.trans hsame)
  obtain ⟨source, hraw, -, hleft⟩ := Fixed.readRaw_eq hpos separator (hf input hinput).fault
  obtain ⟨source', hraw', -, hleft'⟩ := Fixed.readRaw_eq hpos separator hquiet'.fault
  rw [hrest, ← hleft] at hleft'
  rw [hrest] at hraw'
  have hafter : SameData (f.withSource input source) (g.withSource input' source') := by
    apply h.withStream hinput hinput'
    simp only [Formatter.left, Formatter.withStream, h.engine, hengine, Option.map_some, hleft']
  simp only [Formatter.readFixed, hraw, hraw']
  cases Fixed.frame length separator
      (input.stream.source.rest.take (length + separator.length)) with
  | none => exact ⟨rfl, hafter⟩
  | some raw =>
    have hcounted := hafter.counted 1 false
    refine ⟨?_, hcounted⟩
    exact finish_bytes_congr hcounted.schema hcounted.settings hcounted.path hcounted.records _

theorem SameData.readDelimited {input' : Input} (h : SameData f g) (hf : f.Quiet) (hg : g.Quiet)
    (hengine : f.engine = .delimited d) (hinput : f.input = some input)
    (hinput' : g.input = some input') :
    (g.readDelimited input' d).1 = (f.readDelimited input d).1 ∧
      SameData (f.readDelimited input d).2 (g.readDelimited input' d).2 := by
  obtain ⟨_, hsame, hs'⟩ := h.delimited hg hinput hengine
  obtain rfl := Option.some.inj (hinput'.symm.trans hsame)
  have hs : input.stream.Holds input.stream.remaining := ⟨hf input hinput, rfl⟩
  have hafter {s s' : TextStream} {cs : List Char} (hs : s.Holds cs) (hs' : s'.Holds cs) :
      SameData (f.withStream input s) (g.withStream input' s') := by
    apply h.withStream hinput hinput'
    simp only [Formatter.left, Formatter.withStream, h.engine, hengine, Option.map_some,
      hs.remaining, hs'.remaining]
  obtain ⟨found, behind, hto, -⟩ := Delimited.takes_toRecord f.settings.ignoreBlankLines
    d.record.toList input.stream.remaining
  obtain ⟨s₁, h₁, hs₁⟩ := hto.run hs
  obtain ⟨s₁', h₁', hs₁'⟩ := hto.run hs'
  simp only [Formatter.readDelimited, h.settings, h₁, h₁']
  cases found with
  | none => exact ⟨rfl, hafter hs₁ hs₁'⟩
  | some blanks =>
    obtain ⟨columns, rest, hscan, -⟩ := Delimited.takes_scanRecord d behind
    obtain ⟨s₂, h₂, hs₂⟩ := hscan.run hs₁
    obtain ⟨s₂', h₂', hs₂'⟩ := hscan.run hs₁'
    have hcounted := (hafter hs₂ hs₂').counted (blanks + 1) true
    simp only [h₂, h₂', h.titleRead]
    refine ⟨?_, hcounted⟩
    exact finish_congr hcounted.schema hcounted.settings hcounted.path hcounted.records _ _

/-- What is read hangs on the data that is left, and so does what is left then. -/
theorem SameData.read (h : SameData f g) (hf : f.Quiet) (hg : g.Quiet) (hframed : f.Framed) :
    g.read.1 = f.read.1 ∧ SameData f.read.2 g.read.2 := by
  have hengines := h.engine
  simp only [Formatter.read, withInput, h.checkReady]
  cases f.checkReady with
  | error e => exact ⟨rfl, h⟩
  | ok =>
  cases hinput : f.input with
  | none =>
    simp only [h.input_none hinput]
    exact ⟨trivial, h⟩
  | some input =>
  cases hengine : f.engine with
  | fixed length separator =>
    obtain ⟨input', hinput', -⟩ := h.fixed hg hinput hengine
    simp only [hinput', hengines, hengine]
    exact h.readFixed hf hg (hframed _ _ hengine) hengine hinput hinput'
  | delimited d =>
    obtain ⟨input', hinput', -⟩ := h.delimited hg hinput hengine
    simp only [hinput', hengines, hengine]
    exact h.readDelimited hf hg hengine hinput hinput'

-- ------------------------------------------------------------------
-- Looking
-- ------------------------------------------------------------------

theorem hasNext_fixed (hready : f.checkReady = .ok ()) (hinput : f.input = some input)
    (hengine : f.engine = .fixed length separator) (hf : f.Quiet) :
    ∃ f', f.hasNext = (.ok (!input.stream.source.rest.isEmpty), f') ∧ SameData f f' ∧
      f'.Quiet := by
  obtain ⟨source, hmore, hquiet, hrest⟩ := (hf input hinput).hasMore
  refine ⟨f.withSource input source, ?_, ?_, ?_⟩
  · simp only [hasNext, withInput, hready, hinput, hengine, hmore, Except.mapError]
  · refine ⟨⟨⟨rfl, rfl, rfl⟩, rfl, rfl, rfl⟩, rfl, rfl, inputPath_of_stream hinput rfl, ?_⟩
    simp only [Formatter.left, withSource, withStream, hinput, hengine, Option.map_some, hrest]
  · intro input' hinput'
    obtain rfl := Option.some.inj hinput'
    exact hquiet

theorem hasNext_delimited {found : Option Nat} {cs behind : List Char}
    (hready : f.checkReady = .ok ()) (hinput : f.input = some input)
    (hengine : f.engine = .delimited d) (hs : input.stream.Holds cs)
    (hto : TextStream.Takes (Delimited.toRecord f.settings.ignoreBlankLines d.record.toList) cs
      (.ok found) behind) :
    ∃ f', f.hasNext = (.ok found.isSome, f') ∧ SameData f f' ∧ f'.Quiet := by
  have hmark := hs.mark
  obtain ⟨s₁, h₁, -⟩ := hto.run hmark.toHolds
  obtain ⟨_, hback⟩ :=
    Delimited.toRecord_rewinds hmark f.settings.ignoreBlankLines d.record.toList
  rw [h₁] at hback
  have hreset := hback.reset
  refine ⟨f.withStream input s₁.reset, ?_, ?_, ?_⟩
  · simp only [hasNext, withInput, hready, hinput, hengine, h₁]
  · refine ⟨⟨⟨rfl, rfl, rfl⟩, rfl, rfl, rfl⟩, rfl, rfl, inputPath_of_stream hinput rfl, ?_⟩
    simp only [Formatter.left, withStream, hinput, hengine, Option.map_some, hreset.remaining,
      hs.remaining]
  · intro input' hinput'
    obtain rfl := Option.some.inj hinput'
    exact hreset.quiet

theorem readFixed_none (hpos : 0 < length) (hsource : input.stream.source.Quiet) :
    (f.readFixed input length separator).1 = .ok none ↔ input.stream.source.rest = [] := by
  obtain ⟨source, hraw, -⟩ := Fixed.readRaw_eq hpos separator hsource.fault
  rw [← Fixed.frame_take_eq_none hpos]
  simp only [readFixed, hraw]
  cases Fixed.frame length separator
      (input.stream.source.rest.take (length + separator.length)) with
  | none => exact iff_of_true rfl rfl
  | some raw => exact iff_of_false (finish_ne_none _ _) (Option.some_ne_none raw)

theorem readDelimited_none {found : Option Nat} {cs behind : List Char}
    (hs : input.stream.Holds cs)
    (hto : TextStream.Takes (Delimited.toRecord f.settings.ignoreBlankLines d.record.toList) cs
      (.ok found) behind) :
    (f.readDelimited input d).1 = .ok none ↔ found = none := by
  obtain ⟨s₁, h₁, -⟩ := hto.run hs
  simp only [readDelimited, h₁]
  cases found with
  | none => exact iff_of_true rfl rfl
  | some blanks => exact iff_of_false (finish_ne_none _ _) (Option.some_ne_none blanks)

/-- The answer tells whether there is a record to be read. It is the same wherever the same data is
left, and leaves that data. -/
theorem hasNext_tells (hf : f.Quiet) (hframed : f.Framed) (hnext : f.hasNext = (.ok b, f')) :
    (f.read.1 = .ok none ↔ b = false) ∧
      ∀ g, SameData f g → g.Quiet →
        ∃ g', g.hasNext = (.ok b, g') ∧ SameData g g' ∧ g'.Quiet := by
  have hcall := hnext
  simp only [hasNext, withInput] at hcall
  split at hcall
  · simp at hcall
  rename_i hready
  split at hcall
  · simp at hcall
  rename_i input hinput
  cases hengine : f.engine with
  | fixed length separator =>
    obtain ⟨f₁, hlook, -⟩ := hasNext_fixed hready hinput hengine hf
    obtain rfl := Except.ok.inj (Prod.mk.inj (hnext.symm.trans hlook)).1
    constructor
    · have hread : f.read = f.readFixed input length separator := by
        simp only [Formatter.read, withInput, hready, hinput, hengine]
      rw [hread, readFixed_none (hframed _ _ hengine) (hf input hinput)]
      simp
    · intro g h hg
      obtain ⟨input', hinput', -, hrest⟩ := h.fixed hg hinput hengine
      rw [← hrest]
      exact hasNext_fixed (h.checkReady.trans hready) hinput' (h.engine.trans hengine) hg
  | delimited d =>
    have hs : input.stream.Holds input.stream.remaining := ⟨hf input hinput, rfl⟩
    obtain ⟨found, behind, hto, -⟩ := Delimited.takes_toRecord f.settings.ignoreBlankLines
      d.record.toList input.stream.remaining
    obtain ⟨f₁, hlook, -⟩ := hasNext_delimited hready hinput hengine hs hto
    obtain rfl := Except.ok.inj (Prod.mk.inj (hnext.symm.trans hlook)).1
    constructor
    · have hread : f.read = f.readDelimited input d := by
        simp only [Formatter.read, withInput, hready, hinput, hengine]
      rw [hread, readDelimited_none hs hto]
      simp
    · intro g h hg
      obtain ⟨input', hinput', hs'⟩ := h.delimited hg hinput hengine
      rw [← h.settings] at hto
      exact hasNext_delimited (h.checkReady.trans hready) hinput' (h.engine.trans hengine) hs' hto

def looked (f : Formatter) (n : Nat) : Formatter :=
  (·.hasNext.2)^[n] f

theorem looked_succ (f : Formatter) (n : Nat) : f.looked (n + 1) = (f.looked n).hasNext.2 :=
  Function.iterate_succ_apply' ..

theorem looked_sameData (hf : f.Quiet) (hframed : f.Framed) (hnext : f.hasNext = (.ok b, f'))
    (n : Nat) : SameData f (f.looked n) ∧ (f.looked n).Quiet := by
  induction n with
  | zero => exact ⟨.refl f, hf⟩
  | succ n ih =>
    obtain ⟨hsame, hquiet⟩ := ih
    obtain ⟨g, hlook, hsame', hquiet'⟩ := (hasNext_tells hf hframed hnext).2 _ hsame hquiet
    rw [looked_succ, hlook]
    exact ⟨hsame.trans hsame', hquiet'⟩

-- ------------------------------------------------------------------
-- Formatters that were opened
-- ------------------------------------------------------------------

theorem ofSchema_framed {schema : Schema} {defaults : Defaults}
    (hopen : ofSchema schema defaults = .ok f) : f.Framed := by
  intro length separator hengine
  cases hfile : schema.fileType with
  | fixed =>
    obtain ⟨settings, length', -, -, hpos, rfl⟩ := ofSchema_fixed hfile hopen
    obtain ⟨rfl, -⟩ := Engine.fixed.inj hengine
    exact hpos
  | delimited =>
    obtain ⟨settings, field, record, -, -, -, rfl⟩ := ofSchema_delimited hfile hopen
    exact Engine.noConfusion hengine
  | json | xml =>
    obtain ⟨settings, -, h⟩ := bind_eq_ok.1 hopen
    simp [hfile] at h

theorem OpenedAs.framed (h : OpenedAs f f') (hf : f.Framed) : f'.Framed :=
  fun length separator hengine => hf length separator (h.engine ▸ hengine)

end Formatter

namespace Session

open Formatter (OpenedAs SameData)

theorem performAll_openedAs (s : Session) (requests : List Request) :
    OpenedAs s.formatter (requests.foldl perform s).formatter := by
  induction requests generalizing s with
  | nil => exact .refl _
  | cons request requests ih => exact (s.perform_openedAs request).trans (ih _)

/-- Whatever was requested of a formatter that was opened, if it answers whether a record lies
ahead, it gives this answer however often it is asked. Each time the same data is left and nothing
else has changed. A call for a record is answered with the end of the data exactly if there was said
to be no record, with the same answer as if nobody had asked, and with the same data left. -/
theorem hasNext_looksAhead {schema : Schema} {defaults : Defaults} {opened f f' : Formatter}
    {b : Bool} (hopen : Formatter.ofSchema schema defaults = .ok opened) (store : Store)
    (requests : List Request)
    (hf : (requests.foldl perform { formatter := opened, store }).formatter = f) (hquiet : f.Quiet)
    (hnext : f.hasNext = (.ok b, f')) :
    (f.read.1 = .ok none ↔ b = false) ∧
      ∀ n, let g := f.looked n
        SameData f g ∧ g.left = f.left ∧ g.hasNext.1 = .ok b ∧ g.read.1 = f.read.1 ∧
          SameData f.read.2 g.read.2 := by
  have hopened := performAll_openedAs { formatter := opened, store } requests
  rw [hf] at hopened
  have hframed := hopened.framed (Formatter.ofSchema_framed hopen)
  obtain ⟨hread, hlook⟩ := Formatter.hasNext_tells hquiet hframed hnext
  refine ⟨hread, fun n => ?_⟩
  obtain ⟨hsame, hquiet'⟩ := Formatter.looked_sameData hquiet hframed hnext n
  obtain ⟨g', hagain, -⟩ := hlook _ hsame hquiet'
  obtain ⟨hanswer, hafter⟩ := hsame.read hquiet hquiet' hframed
  exact ⟨hsame, hsame.left, congrArg (·.1) hagain, hanswer, hafter⟩

def breaksLayout : String :=
  "file-type: Variable\ntext-encoding: \"US-ASCII\"\nfield-separator: \",\"\n" ++
  "record-separator: \"\\r\\n\"\nignore-blank-lines: true\n[R]\n1 a X\n"

def breaksRequests : List Request :=
  [.start, .setInput (.ofBytes [0x0D, 0x0A, 0x0D])]

/-- The half of a separator is a record, and stays one however often it is looked for. -/
theorem hasNext_looksAhead_breaks :
    ∃ schema opened, Schema.compile {} breaksLayout none = .ok schema ∧
      Formatter.ofSchema schema {} = .ok opened ∧
      let f := (breaksRequests.foldl perform { formatter := opened }).formatter
      f.Quiet ∧ f.hasNext.1 = .ok true ∧ f.left = some (.inr ['\r', '\n', '\r']) ∧
        f.read.1 ≠ .ok none ∧ ∀ n, (f.looked n).left = some (.inr ['\r', '\n', '\r']) ∧
          (f.looked n).hasNext.1 = .ok true ∧ (f.looked n).read.1 = f.read.1 := by
  have h : ((Schema.compile {} breaksLayout none).toOption.bind fun schema =>
      (Formatter.ofSchema schema {}).toOption.map fun opened =>
        let f := (breaksRequests.foldl perform { formatter := opened }).formatter
        (f.hasNext.1.toOption, f.left)) = some (some true, some (.inr ['\r', '\n', '\r'])) := by
    decide +kernel
  obtain ⟨schema, hschema, h⟩ := Option.bind_eq_some_iff.1 h
  obtain ⟨opened, hopen, h⟩ := Option.map_eq_some_iff.1 h
  obtain ⟨hnext, hleft⟩ := Prod.mk.inj h
  rw [toOption_eq_some] at hschema hopen hnext
  have hquiet : (breaksRequests.foldl perform { formatter := opened }).formatter.Quiet := by
    intro input hinput
    obtain rfl := Option.some.inj hinput
    exact (TextStream.holds_ofBytes _ _).quiet
  obtain ⟨hread, hlook⟩ :=
    hasNext_looksAhead hopen {} breaksRequests rfl hquiet (Prod.ext hnext rfl)
  refine ⟨schema, opened, hschema, hopen, hquiet, hnext, hleft, ?_, fun n => ?_⟩
  · exact fun hnone => absurd (hread.1 hnone) (by decide)
  · obtain ⟨-, hleft', hagain, hsame, -⟩ := hlook n
    exact ⟨hleft'.trans hleft, hagain, hsame⟩

end Session
end Flatfile
