import Flatfile.Proofs.Formatter.Calls
import Flatfile.Proofs.Stream.Remaining
import Flatfile.Proofs.Word

/-!
# Record after record

Scanning gives the records of a delimited file one after the other, and in between blank lines are
passed over. A formatter that has read nothing yet answers its calls with these records in turn, and
after the last one with none (`run_yields`).
-/

namespace Flatfile

namespace Delimited

variable {d : Delimiters} {s : TextStream} {separator text : List Char} {count : Nat}
  {items : List (Except RawError (List String) × Nat)}

theorem skipBlanks_eq (hne : separator ≠ []) (s : TextStream) (count : Nat) :
    skipBlanks separator s count =
      match s.tryMatch separator with
      | (.ok true, s) => skipBlanks separator s (count + 1)
      | (.ok false, s) => (.ok count, s)
      | (.error fault, s) => (.error fault, s) := by
  rw [skipBlanks, dif_neg hne]
  rcases s.tryMatch separator with ⟨_ | _ | _, s'⟩ <;> rfl

theorem skipBlanks_end (hne : separator ≠ []) {s' : TextStream}
    (h : s.tryMatch separator = (.ok false, s')) :
    skipBlanks separator s count = (.ok count, s') := by
  rw [skipBlanks_eq hne, h]

theorem skipBlanks_blank (hne : separator ≠ []) {s' : TextStream}
    (h : s.tryMatch separator = (.ok true, s')) :
    skipBlanks separator s count = skipBlanks separator s' (count + 1) := by
  rw [skipBlanks_eq hne, h]

theorem skipBlanks_add (hne : separator ≠ []) (s : TextStream) (count k : Nat) :
    skipBlanks separator s (count + k) =
      ((skipBlanks separator s count).1.map (· + k), (skipBlanks separator s count).2) := by
  -- Each blank line takes something from the stream.
  induction hsize : s.size using Nat.strongRecOn generalizing s count with
  | ind n ih =>
  cases hmatch : s.tryMatch separator with
  | mk found s₁ =>
    cases found with
    | error fault =>
      rw [skipBlanks_eq hne, skipBlanks_eq hne s count, hmatch]
      rfl
    | ok found =>
      cases found with
      | false =>
        rw [skipBlanks_end hne hmatch, skipBlanks_end hne hmatch]
        rfl
      | true =>
        rw [skipBlanks_blank hne hmatch, skipBlanks_blank hne hmatch, Nat.add_right_comm]
        exact ih _ (hsize ▸ TextStream.tryMatch_size_lt hne hmatch) s₁ (count + 1) rfl

theorem toRecord_blank (hne : separator ≠ []) {s₁ : TextStream}
    (h : s.tryMatch separator = (.ok true, s₁)) :
    toRecord true separator s =
      ((toRecord true separator s₁).1.map (Option.map (· + 1)), (toRecord true separator s₁).2) := by
  have hskip := skipBlanks_add hne s₁ 0 1
  simp only [toRecord, if_true, skipBlanks_blank hne h, hskip]
  cases hblanks : skipBlanks separator s₁ 0 with
  | mk blanks s₂ =>
    cases blanks with
    | error fault => rfl
    | ok blanks =>
      simp only [Except.map]
      cases hend : s₂.atEnd with
      | mk found s₃ =>
        cases found with
        | error fault => rfl
        | ok found => cases found <;> rfl

theorem toRecord_here (ignoreBlanks : Bool) (hne : separator ≠ [])
    (hblank : ignoreBlanks = true → ¬ separator <+: text) (htext : text ≠ []) (hs : s.Holds text) :
    ∃ s', toRecord ignoreBlanks separator s = (.ok (some 0), s') ∧ s'.Holds text := by
  obtain ⟨s₁, hskip, hs₁⟩ : ∃ s₁, (if ignoreBlanks then skipBlanks separator s 0 else (.ok 0, s)) =
      (.ok 0, s₁) ∧ s₁.Holds text := by
    cases ignoreBlanks with
    | false => exact ⟨s, rfl, hs⟩
    | true =>
      obtain ⟨s₁, hmatch, hs₁⟩ := hs.tryMatch_of_absent (hblank rfl)
      exact ⟨s₁, skipBlanks_end hne hmatch, hs₁⟩
  obtain ⟨s', hend, hs'⟩ := hs₁.atEnd
  rw [List.isEmpty_eq_false_iff.2 htext] at hend
  exact ⟨s', by simp only [toRecord, hskip, hend], hs'⟩

theorem toRecord_nil (ignoreBlanks : Bool) (separator : List Char) (hs : s.Holds []) :
    ∃ s', toRecord ignoreBlanks separator s = (.ok none, s') ∧ s'.Holds [] := by
  obtain ⟨s₁, hskip, hs₁⟩ : ∃ s₁, (if ignoreBlanks then skipBlanks separator s 0 else (.ok 0, s)) =
      (.ok 0, s₁) ∧ s₁.Holds [] := by
    by_cases hskips : ignoreBlanks = true ∧ separator ≠ []
    · obtain ⟨s₁, hmatch, hs₁⟩ := hs.tryMatch_of_absent (mt List.prefix_nil.1 hskips.2)
      exact ⟨s₁, by rw [if_pos hskips.1, skipBlanks_end hskips.2 hmatch], hs₁⟩
    · refine ⟨s, ?_, hs⟩
      cases hignore : ignoreBlanks with
      | false => rfl
      | true =>
        have hnil : separator = [] := by_contra fun hne => hskips ⟨hignore, hne⟩
        rw [if_pos rfl, skipBlanks, dif_pos hnil]
  obtain ⟨s', hend, hs'⟩ := hs₁.atEnd
  exact ⟨s', by simp only [toRecord, hskip, hend, List.isEmpty_nil], hs'⟩

/-- What scanning a stream gives in turn, and then the end of the data. The next record has the
number given first; with each outcome stands its number, in which blank lines that were passed over
count. -/
def Yields (d : Delimiters) (ignoreBlanks : Bool) :
    Nat → List (Except RawError (List String) × Nat) → TextStream → Prop
  | _, [], s => ∃ s', toRecord ignoreBlanks d.record.toList s = (.ok none, s') ∧ s'.Holds []
  | next, (raw, number) :: items, s => ∃ blanks s₁ s',
    toRecord ignoreBlanks d.record.toList s = (.ok (some blanks), s₁) ∧ next + blanks = number ∧
      scanRecord d s₁ = (raw, s') ∧ Yields d ignoreBlanks (number + 1) items s'

theorem yields_nil (ignoreBlanks : Bool) (next : Nat) (hs : s.Holds []) :
    Yields d ignoreBlanks next [] s :=
  toRecord_nil ignoreBlanks d.record.toList hs

theorem yields_blank (hne : d.record.toList ≠ []) {s₁ : TextStream} {next : Nat}
    (hmatch : s.tryMatch d.record.toList = (.ok true, s₁)) (h : Yields d true (next + 1) items s₁) :
    Yields d true next items s := by
  cases items with
  | nil =>
    obtain ⟨s', hto, hs'⟩ := h
    exact ⟨s', by rw [toRecord_blank hne hmatch, hto]; rfl, hs'⟩
  | cons item items =>
    obtain ⟨blanks, s₂, s', hto, hnumber, hscan, hmore⟩ := h
    refine ⟨blanks + 1, s₂, s', by rw [toRecord_blank hne hmatch, hto]; rfl, ?_, hscan, hmore⟩
    rw [← hnumber, Nat.add_assoc, Nat.add_comm 1]

theorem yields_here {ignoreBlanks : Bool} {next : Nat} {raw : Except RawError (List String)}
    {s₁ s' : TextStream}
    (hto : toRecord ignoreBlanks d.record.toList s = (.ok (some 0), s₁))
    (hscan : scanRecord d s₁ = (raw, s')) (h : Yields d ignoreBlanks (next + 1) items s') :
    Yields d ignoreBlanks next ((raw, next) :: items) s :=
  ⟨0, s₁, s', hto, rfl, hscan, h⟩

end Delimited

namespace Formatter

open Delimited (Delimiters Yields)

variable {f f' g : Formatter} {d : Delimiters} {i : Nat}
  {items : List (Except RawError (List String) × Nat)}

theorem finish_congr (hschema : f.schema = g.schema) (hsettings : f.settings = g.settings)
    (hpath : f.inputPath = g.inputPath) (hrecords : f.records = g.records) (first : Bool)
    (raw : Except RawError (List String)) :
    f.finish (f.selectColumns first) raw = g.finish (g.selectColumns first) raw := by
  have hread : f.readError = g.readError := by
    funext e
    simp only [readError, hpath, hrecords]
  cases raw with
  | error e => simp only [finish, rawError, hpath, hrecords]
  | ok columns =>
    simp only [finish, selectColumns, titleOfColumns, hread, hschema, hsettings, hrecords]

/-- What a formatter answers for an outcome that it takes for the record with this number, as far as
its counter goes. -/
def answerScanned (f : Formatter) (first : Bool) (raw : Except RawError (List String))
    (number : Nat) : Except FormatError (Option Record) :=
  let counted := { f with records := Word32.wrap number }
  counted.finish (counted.selectColumns first) raw

def answerNth (f : Formatter) (items : List (Except RawError (List String) × Nat)) (i : Nat) :
    Except FormatError (Option Record) :=
  match items[i]? with
  | none => .ok none
  | some (raw, number) => f.answerScanned (i = 0) raw number

def lastCounted (items : List (Except RawError (List String) × Nat)) : Nat :=
  (items.getLast?.map (·.2)).getD 0

/-- After `i` calls for a record on a formatter whose input gives these outcomes. -/
structure AtRecord (f : Formatter) (d : Delimiters)
    (items : List (Except RawError (List String) × Nat)) (i : Nat) (f' : Formatter) : Prop where
  schema : f'.schema = f.schema
  settings : f'.settings = f.settings
  engine : f'.engine = .delimited d
  phase : f'.phase = .ready
  path : f'.inputPath = f.inputPath
  records : f'.records = Word32.wrap (lastCounted (items.take i))
  titleRead : i < items.length → f'.titleRead = decide (i ≠ 0)
  input : ∃ input, f'.input = some input ∧
    Yields d f.settings.ignoreBlankLines (lastCounted (items.take i) + 1) (items.drop i) input.stream

theorem AtRecord.read (h : AtRecord f d items i f') :
    ∃ f'', f'.read = (f.answerNth items i, f'') ∧ AtRecord f d items (i + 1) f'' := by
  obtain ⟨hschema, hsettings, hengine, hphase, hpath, hrecords, htitle, input, hinput, hyields⟩ := h
  have hcall : f'.read = f'.readDelimited input d := by
    simp [Formatter.read, withInput, checkReady, hphase, hinput, hengine]
  rw [hcall, readDelimited, hsettings]
  cases hnext : items.drop i with
  | nil =>
    rw [hnext] at hyields
    obtain ⟨stream, hto, hstream⟩ := hyields
    have hend : items.length ≤ i := List.drop_eq_nil_iff.1 hnext
    refine ⟨f'.withStream input stream, ?_, hschema, hsettings, hengine, hphase,
      (inputPath_of_stream hinput rfl).trans hpath, ?_, ?_, _, rfl, ?_⟩
    · rw [hto, answerNth, List.getElem?_eq_none hend]
    · rw [List.take_of_length_le (Nat.le_succ_of_le hend)]
      rwa [List.take_of_length_le hend] at hrecords
    · intro hmore
      omega
    · rw [List.drop_eq_nil_of_le (Nat.le_succ_of_le hend)]
      exact Delimited.yields_nil _ _ hstream
  | cons item more =>
    obtain ⟨raw, number⟩ := item
    rw [hnext] at hyields
    obtain ⟨blanks, s₁, s', hto, hnumber, hscan, hmore⟩ := hyields
    have hitem : items[i]? = some (raw, number) := by
      rw [← List.head?_drop, hnext]
      rfl
    have hi : i < items.length := (List.getElem?_eq_some_iff.1 hitem).1
    have hcounted : Word32.wrap (f'.records + (blanks + 1)) = Word32.wrap number := by
      rw [hrecords, Word32.wrap_wrap_add, ← hnumber, Nat.add_assoc, Nat.add_comm 1]
    have hlast : lastCounted (items.take (i + 1)) = number := by
      rw [List.take_add_one, hitem]
      simp [lastCounted]
    refine ⟨{ f'.withStream input s' with records := Word32.wrap number, titleRead := true }, ?_,
      hschema, hsettings, hengine, hphase, (inputPath_of_stream hinput rfl).trans hpath,
      congrArg Word32.wrap hlast.symm, fun _ => by simp, _, rfl, ?_⟩
    · have hfirst : (!f'.titleRead) = decide (i = 0) := by simp [htitle hi]
      simp only [hto, hscan, hfirst, hcounted, answerNth, hitem, answerScanned]
      refine congrArg (·, _) ?_
      apply finish_congr
      · exact hschema
      · exact hsettings
      · exact (inputPath_of_stream hinput rfl).trans hpath
      · rfl
    · rw [← List.tail_drop, hnext, hlast]
      exact hmore

theorem run_yields {input : Input} (hengine : f.engine = .delimited d) (hphase : f.phase = .ready)
    (hrecords : f.records = 0) (htitle : f.titleRead = false) (hinput : f.input = some input)
    (hyields : Yields d f.settings.ignoreBlankLines 1 items input.stream) (n : Nat) :
    (run (List.replicate n .read) f).1 = (List.range n).map (f.answerNth items) ∧
      (run (List.replicate n .read) f).2.records = Word32.wrap (lastCounted (items.take n)) := by
  have hstart : AtRecord f d items 0 f :=
    ⟨rfl, rfl, hengine, hphase, rfl, hrecords, fun _ => htitle, input, hinput, hyields⟩
  have hreads : reads (List.replicate n .read) = n := by simp [reads]
  obtain ⟨hanswers, hafter⟩ := run_induct AtRecord.read (List.replicate n .read)
    (fun hmem => by simp at hmem) hstart
  rw [hreads] at hanswers hafter
  rw [Nat.zero_add] at hafter
  rw [List.range_eq_range']
  exact ⟨hanswers, hafter.records⟩

end Formatter
end Flatfile
