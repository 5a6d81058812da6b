import Flatfile.Formatter.Session
import Flatfile.Proofs.Formatter.Calls
import Flatfile.Proofs.Outcome
import Flatfile.Proofs.Word
import Flatfile.Schema.Link

/-!
# The number of a record

A formatter has one counter of 32 bits, which goes on with every record that is taken from an input
and with every record that is written. A record that is read gets the counter for its number. So
the number is the place of the record in its input as long as it has room for the place and what was
taken from earlier inputs and written comes to none, or to a multiple of 2^32
(`sequence_of_answered`).
-/

namespace Flatfile

-- ------------------------------------------------------------------
-- One call
-- ------------------------------------------------------------------

namespace Formatter

variable {f f' : Formatter} {r : Record}

/-- How many records a call for a record takes from the input. A record that is refused is taken,
and so are the blank lines before it. -/
def taken (f : Formatter) : Nat :=
  match f.checkReady, f.input with
  | .ok (), some input =>
    match f.engine with
    | .fixed length separator =>
      match (Fixed.readRaw length separator input.stream.source).1 with
      | .ok (some _) => 1
      | _ => 0
    | .delimited d =>
      match (Delimited.toRecord f.settings.ignoreBlankLines d.record.toList input.stream).1 with
      | .ok (some blanks) => blanks + 1
      | _ => 0
  | _, _ => 0

theorem read_records (h : f.records < 2 ^ 32) :
    f.read.2.records = Word32.wrap (f.records + f.taken) := by
  have hnone : f.records = Word32.wrap (f.records + 0) := (Word32.wrap_of_lt h).symm
  simp only [read, withInput, taken]
  cases f.checkReady with
  | error e => exact hnone
  | ok =>
    cases f.input with
    | none => exact hnone
    | some input =>
      cases f.engine with
      | fixed length separator =>
        simp only [readFixed]
        cases Fixed.readRaw length separator input.stream.source with
        | mk found source => rcases found with _ | _ | _ <;> first | rfl | exact hnone
      | delimited d =>
        simp only [readDelimited]
        cases Delimited.toRecord f.settings.ignoreBlankLines d.record.toList input.stream with
        | mk found stream => rcases found with _ | _ | _ <;> first | rfl | exact hnone

theorem sequence_of_read (h : f.read = (.ok (some r), f')) :
    r.sequence = f'.records ∧ 0 < f.taken := by
  cases read_answersWith h with
  | fixed hready hinput hengine hraw hafter hr =>
    obtain ⟨_, _, _, -, -, rfl⟩ := finish_ok hr
    exact ⟨rfl, by simp [taken, hready, hinput, hengine, hraw]⟩
  | delimited hready hinput hengine hto hafter hr =>
    obtain ⟨_, _, _, -, -, rfl⟩ := finish_ok hr
    exact ⟨rfl, by simp [taken, hready, hinput, hengine, hto]⟩

theorem hasNext_records (f : Formatter) : f.hasNext.2.records = f.records := by
  simp only [hasNext, withInput]
  cases f.checkReady with
  | error e => rfl
  | ok =>
    cases f.input with
    | none => rfl
    | some input =>
      cases f.engine with
      | fixed length separator => rfl
      | delimited d =>
        simp only
        split <;> rfl

theorem write_records (h : f.records < 2 ^ 32) (store : Store) (explicit : Option String)
    (r : Record) :
    (f.write store explicit r).2.1.records =
      Word32.wrap (f.records + (f.write store explicit r).1.isOk.toNat) := by
  have hnone : f.records = Word32.wrap (f.records + 0) := (Word32.wrap_of_lt h).symm
  simp only [write]
  cases f.checkReady >>= fun () => f.encode explicit r with
  | error e => exact hnone
  | ok bytes =>
    simp only [emit]
    cases f.output with
    | none => exact hnone
    | some output =>
      simp only
      cases (f.deliver output.writer store bytes).1 with
      | error fault => exact hnone
      | ok => rfl

end Formatter

-- ------------------------------------------------------------------
-- All calls of a session
-- ------------------------------------------------------------------

inductive Request where
  | start
  | close
  | read
  | hasNext
  | write (explicit : Option String) (r : Record)
  | setInput (source : Source)
  | setInputPath (path : String)
  | setOutput (sink : Sink)
  | setOutputPath (path : String)

/-- How many records have been taken from the present input, taken from the inputs before it, and
written. -/
structure Tally where
  place : Nat := 0
  earlier : Nat := 0
  written : Nat := 0
  deriving DecidableEq, Repr

namespace Tally

def total (t : Tally) : Nat :=
  t.place + (t.earlier + t.written)

def take (t : Tally) (n : Nat) : Tally :=
  { t with place := t.place + n }

def write (t : Tally) (n : Nat) : Tally :=
  { t with written := t.written + n }

def turn (t : Tally) : Tally :=
  { t with place := 0, earlier := t.earlier + t.place }

theorem total_take (t : Tally) (n : Nat) : (t.take n).total = t.total + n := by
  simp only [total, take]
  omega

theorem total_write (t : Tally) (n : Nat) : (t.write n).total = t.total + n := by
  simp only [total, write]
  omega

theorem total_turn (t : Tally) : t.turn.total = t.total := by
  simp only [total, turn]
  omega

end Tally

namespace Session

variable {s : Session} {t : Tally} {r : Record}

def perform (s : Session) : Request → Session
  | .start => s.start.2
  | .close => s.close
  | .read => s.read.2
  | .hasNext => s.hasNext.2
  | .write explicit r => (s.write explicit r).2
  | .setInput source => s.setInput source
  | .setInputPath path => (s.setInputPath path).2
  | .setOutput sink => s.setOutput sink
  | .setOutputPath path => (s.setOutputPath path).2

def tally (s : Session) (t : Tally) : Request → Tally
  | .read => t.take s.formatter.taken
  | .write explicit r => t.write (s.write explicit r).1.isOk.toNat
  | .setInput _ => t.turn
  | .setInputPath path => bif (s.setInputPath path).1.isOk then t.turn else t
  | _ => t

/-- The record that a request is answered with. -/
def answer? (s : Session) : Request → Option Record
  | .read => s.read.1.toOption.join
  | _ => none

def answered : List Request → Session → Tally → List (Record × Tally)
  | [], _, _ => []
  | request :: requests, s, t =>
    let t' := s.tally t request
    ((s.answer? request).map (·, t')).toList ++ answered requests (s.perform request) t'

/-- The counter keeps the total of the tally, whatever is requested. -/
theorem perform_records (request : Request) (h : s.formatter.records = Word32.wrap t.total) :
    (s.perform request).formatter.records = Word32.wrap (s.tally t request).total := by
  have hword : s.formatter.records < 2 ^ 32 := h ▸ Word32.wrap_lt t.total
  cases request with
  | start =>
    simp only [perform, tally, start, Formatter.start]
    split
    · rename_i heq
      split at heq
      · simp at heq
      · exact Except.ok.inj heq ▸ h
    · exact h
  | close => exact h
  | read =>
    rw [tally, Tally.total_take, ← Word32.wrap_wrap_add, ← h]
    exact Formatter.read_records hword
  | hasNext => exact s.formatter.hasNext_records.trans h
  | write explicit r =>
    rw [tally, Tally.total_write, ← Word32.wrap_wrap_add, ← h]
    exact Formatter.write_records hword s.store explicit r
  | setInput source => exact h.trans (congrArg Word32.wrap t.total_turn.symm)
  | setInputPath path =>
    simp only [perform, tally, setInputPath]
    rcases s.store.files.find path with fault | place | place | place
    · exact h
    · exact h.trans (congrArg Word32.wrap t.total_turn.symm)
    · exact h.trans (congrArg Word32.wrap t.total_turn.symm)
    · exact h
  | setOutput sink => exact h
  | setOutputPath path =>
    simp only [perform, tally, setOutputPath]
    split <;> exact h

theorem sequence_of_answer? {request : Request} (h : s.formatter.records = Word32.wrap t.total)
    (hanswer : s.answer? request = some r) :
    r.sequence = Word32.wrap (s.tally t request).total ∧ 0 < (s.tally t request).place := by
  cases request with
  | read =>
    simp only [answer?, read, Option.join_eq_some_iff, toOption_eq_some] at hanswer
    obtain ⟨hsequence, htaken⟩ := Formatter.sequence_of_read (Prod.ext hanswer rfl)
    have hrecords := perform_records .read h
    exact ⟨hsequence.trans hrecords, Nat.add_pos_right _ htaken⟩
  | _ => simp [answer?] at hanswer

theorem sequence_of_mem_answered {requests : List Request}
    (h : s.formatter.records = Word32.wrap t.total) {t' : Tally}
    (hmem : (r, t') ∈ answered requests s t) :
    r.sequence = Word32.wrap t'.total ∧ 0 < t'.place := by
  induction requests generalizing s t with
  | nil => simp [answered] at hmem
  | cons request requests ih =>
    rcases List.mem_append.1 hmem with hmem | hmem
    · obtain ⟨r', hanswer, heq⟩ := Option.map_eq_some_iff.1 (Option.mem_toList.1 hmem)
      obtain ⟨rfl, rfl⟩ := Prod.mk.inj heq
      exact sequence_of_answer? h hanswer
    · exact ih (perform_records request h) hmem

/-- Whatever is requested of a formatter that was just opened, each record that it answers with has
for its number the place in the present input, the records taken from earlier inputs and those
written, all together, as far as 32 bits go. That is its place in the input exactly if the number
has room for the place, and what was taken from earlier inputs and written makes no difference to
it. -/
theorem sequence_of_answered {schema : Schema} {defaults : Defaults} {opened : Formatter}
    (hopen : Formatter.ofSchema schema defaults = .ok opened) (store : Store)
    (requests : List Request) (r : Record) (t : Tally)
    (hmem : (r, t) ∈ answered requests { formatter := opened, store } {}) :
    r.sequence = Word32.wrap (t.place + (t.earlier + t.written)) ∧ 0 < t.place ∧
      (r.sequence = t.place ↔ t.place < 2 ^ 32 ∧ 2 ^ 32 ∣ t.earlier + t.written) := by
  have hstart : ({ formatter := opened, store } : Session).formatter.records =
      Word32.wrap ({} : Tally).total :=
    (Formatter.ofSchema_opened hopen).2
  obtain ⟨hsequence, hplace⟩ := sequence_of_mem_answered hstart hmem
  rw [Tally.total] at hsequence
  exact ⟨hsequence, hplace, hsequence ▸ Word32.wrap_add_eq_left⟩

def characterLayout : String :=
  "file-type: Fixed\ntext-encoding: \"US-ASCII\"\nrecord-length: 1\n[R]\n1 a X(1)\n"

def character (c : String) : Record :=
  { Record.ofList [("a", .text c)] with typeName := some "R" }

def characterRequests : List Request :=
  [.start, .setOutput {}, .setInput (.ofBytes [0x78, 0x79]), .read, .write none (character "z"),
    .read, .setInput (.ofBytes [0x77]), .read]

def characterAnswers : List (Record × Tally) :=
  [({ character "x" with sequence := 1 }, { place := 1 }),
    ({ character "y" with sequence := 3 }, { place := 2, written := 1 }),
    ({ character "w" with sequence := 4 }, { place := 1, earlier := 2, written := 1 })]

theorem sequence_of_answered_afterWriting :
    ∃ schema opened, Schema.compile {} characterLayout none = .ok schema ∧
      Formatter.ofSchema schema {} = .ok opened ∧
      answered characterRequests { formatter := opened } {} = characterAnswers ∧
      ∀ r t, (r, t) ∈ characterAnswers →
        r.sequence = Word32.wrap (t.place + (t.earlier + t.written)) ∧ 0 < t.place ∧
          (r.sequence = t.place ↔ t.place < 2 ^ 32 ∧ 2 ^ 32 ∣ t.earlier + t.written) := by
  have hanswers : ((Schema.compile {} characterLayout none).toOption.bind fun schema =>
      (Formatter.ofSchema schema {}).toOption.map fun opened =>
        answered characterRequests { formatter := opened } {}) = some characterAnswers := by
    decide +kernel
  obtain ⟨schema, hschema, hanswers⟩ := Option.bind_eq_some_iff.1 hanswers
  obtain ⟨opened, hopen, hanswers⟩ := Option.map_eq_some_iff.1 hanswers
  rw [toOption_eq_some] at hschema hopen
  refine ⟨schema, opened, hschema, hopen, hanswers, fun r t hmem => ?_⟩
  rw [← hanswers] at hmem
  exact sequence_of_answered hopen {} characterRequests r t hmem

end Session
end Flatfile
