import Flatfile.Proofs.Layout.Partition

/-!
# Where the errors of a layout are

Every error of the reader of layouts names a place, and the place is one of the text. Each error is
made at a token of a line, at the end of a line, or at the beginning of a line, so the places of
tokens decide (`ofSource_places`). `Points` carries a set of places through the reader, with one
lemma a function: what is read has its places in the set, and so has the error otherwise
(`Parser.ofLines_points`).
-/

namespace Flatfile

/-- A place of a text, counted from one: a character of a line, or the end of the line. A text
without lines has one place. -/
def InText (lines : List (List Char)) (line column : Nat) : Prop :=
  (1 ≤ line ∧ line ≤ max 1 lines.length) ∧
    1 ≤ column ∧ column ≤ (lines[line - 1]?.getD []).length + 1

/-- The error names a place, of which `P` holds, and leaves the name of the text open. -/
def SyntaxError.PointsTo (P : Nat → Nat → Prop) (e : SyntaxError) : Prop :=
  e.source = none ∧ ∃ line column, e.line = some line ∧ e.column = some column ∧ P line column

def Points (P : Nat → Nat → Prop) (post : α → Prop) : Except SyntaxError α → Prop
  | .ok a => post a
  | .error e => e.PointsTo P

section Points

variable {P : Nat → Nat → Prop} {post : α → Prop} {post' : β → Prop} {x : Except SyntaxError α}
  {line column : Nat}

theorem Points.fail {e : SyntaxError} (h : e.PointsTo P) :
    Points P post (.error e : Except SyntaxError α) :=
  h

theorem Points.ok {a : α} (hx : Points P post x) (h : x = .ok a) : post a := by
  subst h
  exact hx

theorem Points.error {e : SyntaxError} (hx : Points P post x) (h : x = .error e) :
    e.PointsTo P := by
  subst h
  exact hx

theorem Points.bind {f : α → Except SyntaxError β} (hx : Points P post x)
    (hf : ∀ a, post a → Points P post' (f a)) : Points P post' (x >>= f) := by
  cases x with
  | ok a => exact hf a hx
  | error e => exact hx

theorem Points.map {f : α → β} (hx : Points P post x) (hf : ∀ a, post a → post' (f a)) :
    Points P post' (x.map f) := by
  cases x with
  | ok a => exact hf a hx
  | error e => exact hx

theorem pointsTo_located (h : P line column) (cause : SyntaxCause) :
    (SyntaxError.located line column cause).PointsTo P :=
  ⟨rfl, line, column, rfl, rfl, h⟩

theorem pointsTo_atToken (h : P line column) (token : String) (cause : SyntaxCause) :
    (SyntaxError.atToken line column token cause).PointsTo P :=
  ⟨rfl, line, column, rfl, rfl, h⟩

end Points

namespace Layout

abbrev Token.At (P : Nat → Nat → Prop) (t : Token) : Prop :=
  P t.line t.column

structure Line.At (P : Nat → Nat → Prop) (line : Line) : Prop where
  tokens : ∀ t ∈ line.tokens, t.At P
  stop : Points P (Token.At P) line.stop

-- ------------------------------------------------------------------
-- Tokens
-- ------------------------------------------------------------------

theorem Words.places {n column stop : Nat} {cs behind : List Char} {words : List Token}
    (h : Words n column cs words stop behind) :
    (∀ t ∈ words, t.line = n ∧ column ≤ t.column ∧ t.column ≤ column + cs.length) ∧
      column ≤ stop ∧ stop + behind.length = column + cs.length := by
  induction h with
  | nil => exact ⟨List.forall_mem_nil _, Nat.le_refl _, rfl⟩
  | @cons column gap t rest words stop behind _ _ _ hline hcolumn _ ih =>
    obtain ⟨hwords, hle, hstop⟩ := ih
    have hraw : t.raw.toList.length = t.raw.length := String.length_toList
    simp only [List.length_append, hraw]
    refine ⟨List.forall_mem_cons.2 ⟨⟨hline, by omega, by omega⟩, fun u hu => ?_⟩, by omega, by omega⟩
    obtain ⟨huline, hge, hle⟩ := hwords u hu
    exact ⟨huline, by omega, by omega⟩

theorem LineEnd.places {n stop : Nat} {behind : List Char} {closed : Except SyntaxError Token}
    (h : LineEnd n stop behind closed) :
    Points (fun line column => line = n ∧ stop ≤ column ∧ column ≤ stop + behind.length)
      (Token.At fun line column => line = n ∧ stop ≤ column ∧ column ≤ stop + behind.length)
      closed := by
  cases h with
  | closed _ _ => exact ⟨rfl, Nat.le_add_right _ _, by simp [closing]⟩
  | refused _ _ _ _ _ => exact pointsTo_atToken ⟨rfl, Nat.le_add_right _ _, by simp⟩ _ _

/-- All places of a line are between its first column and the one behind its last character. -/
theorem tokensFrom_places {P : Nat → Nat → Prop} {n : Nat} {cs : List Char}
    (hP : ∀ column, 1 ≤ column → column ≤ cs.length + 1 → P n column) :
    (tokensFrom n 1 cs).At P := by
  obtain ⟨stop, behind, hwords, hend⟩ := tokensFrom_words n 1 cs
  obtain ⟨htokens, hle, hstop⟩ := hwords.places
  refine ⟨fun t ht => ?_, ?_⟩
  · obtain ⟨hline, hge, hle⟩ := htokens t ht
    rw [Token.At, hline]
    exact hP t.column hge (by omega)
  · -- The end of a line is a token or an error, and either has one of the places behind the words.
    have hplaces := hend.places
    generalize (tokensFrom n 1 cs).stop = closed at hplaces ⊢
    cases closed with
    | ok t =>
      obtain ⟨hline, hge, hle⟩ := hplaces
      simp only [Points, Token.At, hline]
      exact hP t.column (by omega) (by omega)
    | error e =>
      obtain ⟨hsource, line, column, hline, hcolumn, rfl, hge, hle⟩ := hplaces
      exact ⟨hsource, _, column, hline, hcolumn, hP column (by omega) (by omega)⟩

theorem ofSource_places (source : String) :
    ∀ line ∈ (Lines.ofSource source).lines, line.At (InText (textLines source.toList)) := by
  intro line hline
  simp only [Lines.ofSource, List.mem_filterMap] at hline
  obtain ⟨⟨cs, n⟩, hn, hline⟩ := hline
  split at hline
  · simp at hline
  · obtain rfl := Option.some.inj hline
    obtain ⟨hge, hcs⟩ := List.mk_mem_zipIdx_iff_le_and_getElem?_sub.1 hn
    refine tokensFrom_places fun column hfirst hlast => ⟨⟨hge, ?_⟩, hfirst, ?_⟩
    · have := (List.getElem?_eq_some_iff.1 hcs).1
      omega
    · rwa [hcs, Option.getD_some]

theorem endOfInput_place (source : String) :
    (Lines.ofSource source).endOfInput.At (InText (textLines source.toList)) := by
  refine ⟨⟨?_, ?_⟩, Nat.le_refl 1, ?_⟩
  · exact Nat.le_max_right _ _
  · simp [Lines.ofSource, closing, Nat.max_comm]
  · simp [Lines.ofSource, closing]

-- ------------------------------------------------------------------
-- What is read
-- ------------------------------------------------------------------

structure FieldAt (P : Nat → Nat → Prop) (d : FieldDecl) : Prop where
  place : P d.line d.column
  calls : ∀ call ∈ d.dataType.toList ++ d.converters, P call.line call.column

structure RecordAt (P : Nat → Nat → Prop) (r : RecordDecl) : Prop where
  line : P r.line 1
  conditions : ∀ c ∈ r.conditions, P c.line 1
  fields : ∀ d ∈ r.fields, FieldAt P d

structure At (P : Nat → Nat → Prop) (layout : Layout) : Prop where
  directives : ∀ d ∈ layout.directives, P d.line d.column
  recordTypes : ∀ r ∈ layout.recordTypes, RecordAt P r
  classifier : ∀ r ∈ layout.classifier, RecordAt P r

namespace Parser

variable {P : Nat → Nat → Prop} {stop : Stop} {t : Token} {ts : List Token}

-- ------------------------------------------------------------------
-- Tokens
-- ------------------------------------------------------------------

theorem unexpected_points (ht : t.At P) (wanted : List TokenKind) :
    (unexpected t wanted).PointsTo P :=
  ⟨rfl, t.line, t.column, rfl, rfl, ht⟩

theorem refuseEnd_points {post : α → Prop} (hs : Points P (Token.At P) stop)
    (wanted : List TokenKind) : Points P post (refuseEnd stop wanted) := by
  cases stop with
  | ok t => exact .fail (unexpected_points hs wanted)
  | error e => exact hs

theorem expect_points (hs : Points P (Token.At P) stop) (wanted : List TokenKind)
    (hts : ∀ t ∈ ts, t.At P) :
    Points P (fun p => p.1.At P ∧ ∀ t ∈ p.2, t.At P) (expect stop wanted ts) := by
  cases ts with
  | nil => exact refuseEnd_points hs wanted
  | cons t rest =>
    obtain ⟨ht, hrest⟩ := List.forall_mem_cons.1 hts
    simp only [expect]
    split
    · exact ⟨ht, hrest⟩
    · exact .fail (unexpected_points ht wanted)

theorem takeIf_points (hs : Points P (Token.At P) stop) (kind : TokenKind)
    (hts : ∀ t ∈ ts, t.At P) :
    Points P (fun p => (∀ t ∈ p.1, t.At P) ∧ ∀ t ∈ p.2, t.At P) (takeIf stop kind ts) := by
  cases ts with
  | nil => exact hs.map fun _ _ => ⟨by simp, List.forall_mem_nil _⟩
  | cons t rest =>
    obtain ⟨ht, hrest⟩ := List.forall_mem_cons.1 hts
    simp only [takeIf, Points]
    split
    · exact ⟨by simpa using ht, hrest⟩
    · exact ⟨by simp, hts⟩

theorem expectEnd_points (hs : Points P (Token.At P) stop) (hts : ∀ t ∈ ts, t.At P) :
    Points P (fun _ => True) (expectEnd stop ts) := by
  cases ts with
  | nil => exact hs.map fun _ _ => trivial
  | cons t rest => exact .fail (unexpected_points (hts t List.mem_cons_self) _)

theorem literalOf_points (ht : t.At P) : Points P (fun _ => True) (literalOf t) := by
  simp only [literalOf]
  split
  · trivial
  · exact .fail (unexpected_points ht _)

theorem expectLiteral_points (hs : Points P (Token.At P) stop) (hts : ∀ t ∈ ts, t.At P) :
    Points P (fun p => ∀ t ∈ p.2, t.At P) (expectLiteral stop ts) := by
  refine (expect_points hs _ hts).bind ?_
  rintro ⟨t, rest⟩ ⟨ht, hrest⟩
  exact (literalOf_points ht).bind fun _ _ => hrest

-- ------------------------------------------------------------------
-- Directives and conditions
-- ------------------------------------------------------------------

theorem directive_points {line : Line} (hl : line.At P) :
    Points P (fun d => P d.line d.column) (directive line) := by
  refine (expect_points hl.stop _ hl.tokens).bind ?_
  rintro ⟨header, rest⟩ ⟨hheader, hrest⟩
  refine (expect_points hl.stop _ hrest).bind ?_
  rintro ⟨t, rest⟩ ⟨ht, hrest⟩
  dsimp only
  split
  · exact (expectEnd_points hl.stop hrest).bind fun _ _ => hheader
  · refine (literalOf_points ht).bind fun _ _ => ?_
    exact (expectEnd_points hl.stop hrest).bind fun _ _ => hheader

theorem moreValues_points (hs : Points P (Token.At P) stop) (hts : ∀ t ∈ ts, t.At P) :
    Points P (fun _ => True) (moreValues stop ts) := by
  fun_induction moreValues stop ts with
  | case1 => exact hs.map fun _ _ => trivial
  | case2 => exact refuseEnd_points hs _
  | case3 t _ v rest ih =>
    obtain ⟨-, hv, hrest⟩ : t.At P ∧ v.At P ∧ ∀ t ∈ rest, t.At P := by simpa using hts
    refine (expectLiteral_points hs (by simpa using hv)).bind fun _ _ => ?_
    exact (ih hrest).bind fun _ _ => trivial
  | case4 t rest => exact .fail (unexpected_points (hts t List.mem_cons_self) _)

theorem condition_points {line : Line} (hfirst : ∀ line column, P line column → P line 1)
    (hl : line.At P) : Points P (fun c => P c.line 1) (condition line) := by
  refine (expect_points hl.stop _ hl.tokens).bind ?_
  rintro ⟨field, rest⟩ ⟨hfield, hrest⟩
  refine (expect_points hl.stop _ hrest).bind ?_
  rintro ⟨_, rest⟩ ⟨-, hrest⟩
  refine (expectLiteral_points hl.stop hrest).bind ?_
  rintro ⟨_, rest⟩ hrest
  exact (moreValues_points hl.stop hrest).bind fun _ _ => hfirst _ _ hfield

-- ------------------------------------------------------------------
-- Convertors
-- ------------------------------------------------------------------

theorem argumentList_points (hs : Points P (Token.At P) stop) (hts : ∀ t ∈ ts, t.At P) :
    Points P (fun p => ∀ t ∈ p.2, t.At P) (argumentList stop ts) := by
  fun_induction argumentList stop ts with
  | case1 => exact refuseEnd_points hs _
  | case2 t => exact (expectLiteral_points hs hts).bind fun _ _ => refuseEnd_points hs _
  | case3 t separator rest ih =>
    obtain ⟨ht, hseparator, hrest⟩ : t.At P ∧ separator.At P ∧ ∀ t ∈ rest, t.At P := by
      simpa using hts
    refine (expectLiteral_points hs (by simpa using ht)).bind fun _ _ => ?_
    refine (expect_points hs _ (by simpa using hseparator)).bind fun _ _ => ?_
    split
    · exact hrest
    · exact (ih hrest).bind fun _ hrest => hrest

theorem arguments_points (hs : Points P (Token.At P) stop) (hts : ∀ t ∈ ts, t.At P) :
    Points P (fun p => ∀ t ∈ p.2, t.At P) (arguments stop ts) := by
  refine (takeIf_points hs _ hts).bind ?_
  rintro ⟨paren, rest⟩ ⟨-, hrest⟩
  dsimp only
  split
  · exact hts
  · refine (takeIf_points hs _ hrest).bind ?_
    rintro ⟨close, after⟩ ⟨-, hafter⟩
    dsimp only
    split
    · exact hafter
    · exact argumentList_points hs hrest

def Convertors.At (P : Nat → Nat → Prop) (acc : Convertors) : Prop :=
  ∀ call ∈ acc.dataType.toList ++ acc.converters, P call.line call.column

theorem addCall_points {acc : Convertors} {call : CodecCall} (hacc : acc.At P)
    (hcall : P call.line call.column) : Points P (Convertors.At P) (acc.addCall call) := by
  simp only [Convertors.At] at hacc
  simp only [Convertors.addCall]
  split
  · rename_i hnone
    simpa [Points, Convertors.At, hnone, hcall] using hacc
  · rename_i dataType hsome
    split
    · split
      · exact hacc
      · exact .fail (pointsTo_located hcall _)
    · simp only [Points, Convertors.At, ← List.append_assoc]
      exact List.forall_mem_append.2 ⟨hacc, by simpa using hcall⟩

theorem addLiteral_points {acc : Convertors} (hacc : acc.At P) (field : String) (ht : t.At P) :
    Points P (Convertors.At P) (acc.addLiteral field t) := by
  simp only [Convertors.addLiteral]
  split
  · exact .fail (pointsTo_atToken ht _ _)
  · refine (literalOf_points ht).bind fun _ _ => ?_
    simp only [Points, Convertors.At, ← List.append_assoc]
    exact List.forall_mem_append.2 ⟨hacc, by simpa using ht⟩

theorem convertors_points {acc : Convertors} (field : String) (hs : Points P (Token.At P) stop)
    (hacc : acc.At P) (hts : ∀ t ∈ ts, t.At P) :
    Points P (Convertors.At P) (convertors stop field acc ts) := by
  fun_induction convertors stop field acc ts with
  | case1 acc => exact hs.map fun _ _ => hacc
  | case2 acc t rest _ e harguments =>
    exact .fail ((arguments_points hs (List.forall_mem_cons.1 hts).2).error harguments)
  | case3 acc t rest _ args after harguments e hadd =>
    exact .fail ((addCall_points hacc (List.forall_mem_cons.1 hts).1).error hadd)
  | case4 acc t rest _ args after harguments acc' hadd ih =>
    obtain ⟨ht, hrest⟩ := List.forall_mem_cons.1 hts
    have hafter := (arguments_points hs hrest).ok harguments
    exact ih ((addCall_points hacc ht).ok hadd) hafter
  | case5 acc t rest _ _ e hadd =>
    exact .fail ((addLiteral_points hacc field (List.forall_mem_cons.1 hts).1).error hadd)
  | case6 acc t rest _ _ acc' hadd ih =>
    obtain ⟨ht, hrest⟩ := List.forall_mem_cons.1 hts
    exact ih ((addLiteral_points hacc field ht).ok hadd) hrest
  | case7 acc t rest => exact .fail (unexpected_points (hts t List.mem_cons_self) _)

-- ------------------------------------------------------------------
-- Fields
-- ------------------------------------------------------------------

theorem positionOf_points (ht : t.At P) : Points P (fun _ => True) (positionOf t) := by
  simp only [positionOf]
  split
  · split
    · split
      · trivial
      · exact .fail (pointsTo_atToken ht _ _)
    · exact .fail (pointsTo_atToken ht _ _)
  · exact .fail (pointsTo_atToken ht _ _)

theorem occursOf_points (field : String) (isAttribute : Bool) (ht : t.At P) :
    Points P (fun _ => True) (occursOf field isAttribute t) := by
  simp only [occursOf]
  split
  · split
    · exact .fail (pointsTo_atToken ht _ _)
    · trivial
  · split
    · exact .fail (pointsTo_atToken ht _ _)
    split
    · exact .fail (pointsTo_atToken ht _ _)
    split
    · exact .fail (pointsTo_atToken ht _ _)
    · trivial
  · exact .fail (unexpected_points ht _)

theorem field_points {line : Line} (hl : line.At P) : Points P (FieldAt P) (field line) := by
  refine (expect_points hl.stop _ hl.tokens).bind ?_
  rintro ⟨first, rest⟩ ⟨hfirst, hrest⟩
  refine (positionOf_points hfirst).bind fun position _ => ?_
  refine (takeIf_points hl.stop _ hrest).bind ?_
  rintro ⟨filler, rest⟩ ⟨-, hrest⟩
  refine (takeIf_points hl.stop _ hrest).bind ?_
  rintro ⟨mark, rest⟩ ⟨-, hrest⟩
  refine (takeIf_points hl.stop _ hrest).bind ?_
  rintro ⟨space, rest⟩ ⟨-, hrest⟩
  refine (expect_points hl.stop _ hrest).bind ?_
  rintro ⟨t, rest⟩ ⟨-, hrest⟩
  refine (takeIf_points hl.stop _ hrest).bind ?_
  rintro ⟨size, rest⟩ ⟨hsize, hrest⟩
  have hfound : ∀ name, Points P (Convertors.At P) (convertors line.stop name {} rest) :=
    fun name => convertors_points name hl.stop (by simp [Convertors.At]) hrest
  -- The calls come after the array size, whose own check may fail.
  cases size with
  | none =>
    refine Points.bind (show Points P (fun _ => True) _ from trivial) fun _ _ => ?_
    exact (hfound _).bind fun found hcalls => ⟨hfirst, hcalls⟩
  | some s =>
    refine (occursOf_points _ _ (hsize s rfl)).bind fun _ _ => ?_
    exact (hfound _).bind fun found hcalls => ⟨hfirst, hcalls⟩

-- ------------------------------------------------------------------
-- Records
-- ------------------------------------------------------------------

variable {lines : List Line} {declared : List RecordDecl} {classifier : Option RecordDecl}

theorem first_points {line : Line} (hl : line.At P) : Points P (Token.At P) line.first := by
  simp only [Line.first]
  split
  · rename_i t _ htokens
    exact hl.tokens t (htokens ▸ List.mem_cons_self)
  · exact hl.stop

theorem linesOf_points {post : α → Prop} {kind : TokenKind} {parse : Line → Except SyntaxError α}
    (hparse : ∀ line, line.At P → Points P post (parse line)) (hls : ∀ l ∈ lines, l.At P) :
    Points P (fun p => (∀ a ∈ p.1, post a) ∧ ∀ l ∈ p.2, l.At P) (linesOf kind parse lines) := by
  fun_induction linesOf kind parse lines with
  | case1 => exact ⟨List.forall_mem_nil _, List.forall_mem_nil _⟩
  | case2 line rest ih =>
    obtain ⟨hl, hrest⟩ := List.forall_mem_cons.1 hls
    refine (first_points hl).bind fun first _ => ?_
    split
    · refine (hparse line hl).bind fun a ha => ?_
      refine (ih hrest).bind ?_
      rintro ⟨more, rest⟩ ⟨hmore, hrest⟩
      exact ⟨List.forall_mem_cons.2 ⟨ha, hmore⟩, hrest⟩
    · exact ⟨List.forall_mem_nil _, hls⟩

theorem recordHead_points {line : Line} (hl : line.At P) :
    Points P (fun p => p.1.At P) (recordHead declared line) := by
  refine (expect_points hl.stop _ hl.tokens).bind ?_
  rintro ⟨header, rest⟩ ⟨hheader, hrest⟩
  refine (takeIf_points hl.stop _ hrest).bind ?_
  rintro ⟨less, rest⟩ ⟨hless, hrest⟩
  cases less with
  | none => exact (expectEnd_points hl.stop hrest).bind fun _ _ => hheader
  | some less =>
    refine (expect_points hl.stop _ hrest).bind ?_
    rintro ⟨base, rest⟩ ⟨hbase, hrest⟩
    dsimp only
    split
    · exact .fail (pointsTo_located (hless less rfl) _)
    split
    · exact .fail (pointsTo_atToken hbase _ _)
    · exact (expectEnd_points hl.stop hrest).bind fun _ _ => hheader

theorem record_points {line : Line} (hfirst : ∀ line column, P line column → P line 1)
    (hl : line.At P) (hls : ∀ l ∈ lines, l.At P) :
    Points P (fun p => RecordAt P p.1 ∧ ∀ l ∈ p.2, l.At P) (record declared line lines) := by
  refine (recordHead_points hl).bind ?_
  rintro ⟨header, base⟩ hheader
  refine (linesOf_points (fun _ => condition_points hfirst) hls).bind ?_
  rintro ⟨conditions, rest⟩ ⟨hconditions, hrest⟩
  refine (linesOf_points (fun _ => field_points) hrest).bind ?_
  rintro ⟨fields, rest⟩ ⟨hfields, hrest⟩
  exact ⟨⟨hfirst _ _ hheader, hconditions, hfields⟩, hrest⟩

theorem records_points {endOfInput : Token} (hfirst : ∀ line column, P line column → P line 1)
    (hdeclared : ∀ r ∈ declared, RecordAt P r) (hclassifier : ∀ r ∈ classifier, RecordAt P r)
    (hls : ∀ l ∈ lines, l.At P) :
    Points P (fun p => (∀ r ∈ p.1, RecordAt P r) ∧ ∀ r ∈ p.2, RecordAt P r)
      (records endOfInput declared classifier lines) := by
  fun_induction records endOfInput declared classifier lines with
  | case1 => exact ⟨hdeclared, hclassifier⟩
  | case2 declared classifier line rest e he =>
    exact .fail ((first_points (List.forall_mem_cons.1 hls).1).error he)
  | case3 declared classifier line rest first _ _ e he =>
    obtain ⟨hl, hrest⟩ := List.forall_mem_cons.1 hls
    exact .fail ((record_points hfirst hl hrest).error he)
  | case4 declared classifier line rest first _ _ r after hrecord =>
    obtain ⟨hl, hrest⟩ := List.forall_mem_cons.1 hls
    have hr := (record_points hfirst hl hrest).ok hrecord
    exact .fail (pointsTo_located hr.1.line _)
  | case5 declared classifier line rest first _ _ r after hrecord _ _ ih =>
    obtain ⟨hl, hrest⟩ := List.forall_mem_cons.1 hls
    have hr := (record_points hfirst hl hrest).ok hrecord
    exact ih hdeclared (by simpa using hr.1) hr.2
  | case6 declared classifier line rest first _ _ r after hrecord _ _ ih =>
    obtain ⟨hl, hrest⟩ := List.forall_mem_cons.1 hls
    have hr := (record_points hfirst hl hrest).ok hrecord
    refine ih (List.forall_mem_append.2 ⟨hdeclared, ?_⟩) hclassifier hr.2
    simpa using hr.1
  | case7 declared classifier line rest first hf =>
    exact .fail (unexpected_points ((first_points (List.forall_mem_cons.1 hls).1).ok hf) _)

-- ------------------------------------------------------------------
-- Layouts
-- ------------------------------------------------------------------

theorem directives_points {seen : List Directive} (hseen : ∀ d ∈ seen, P d.line d.column)
    (hls : ∀ l ∈ lines, l.At P) :
    Points P (fun p => (∀ d ∈ p.1, P d.line d.column) ∧ ∀ l ∈ p.2, l.At P)
      (directives seen lines) := by
  fun_induction directives seen lines with
  | case1 => exact ⟨hseen, List.forall_mem_nil _⟩
  | case2 seen line rest ih =>
    obtain ⟨hl, hrest⟩ := List.forall_mem_cons.1 hls
    refine (first_points hl).bind fun first _ => ?_
    split
    · refine (directive_points hl).bind fun d hd => ?_
      split
      · exact .fail (pointsTo_located hd _)
      · refine ih d (List.forall_mem_append.2 ⟨hseen, ?_⟩) hrest
        simpa using hd
    · exact ⟨hseen, hls⟩

theorem expectRecords_points {endOfInput : Token} (heof : endOfInput.At P)
    (hls : ∀ l ∈ lines, l.At P) : Points P (fun _ => True) (expectRecords endOfInput lines) := by
  cases lines with
  | nil => exact ⟨rfl, _, _, rfl, rfl, heof⟩
  | cons line rest =>
    refine (first_points (List.forall_mem_cons.1 hls).1).bind fun first hfirst => ?_
    split
    · trivial
    · exact .fail (unexpected_points hfirst _)

theorem ofLines_points (source : Option String) {input : Lines}
    (hfirst : ∀ line column, P line column → P line 1) (hls : ∀ l ∈ input.lines, l.At P)
    (heof : input.endOfInput.At P) :
    Points P (fun layout => layout.At P ∧ layout.source = source) (ofLines source input) := by
  refine (directives_points (List.forall_mem_nil _) hls).bind ?_
  rintro ⟨directives, rest⟩ ⟨hdirectives, hrest⟩
  refine (expectRecords_points heof hrest).bind fun _ _ => ?_
  refine (records_points hfirst (List.forall_mem_nil _) (by simp) hrest).bind ?_
  rintro ⟨recordTypes, classifier⟩ ⟨hrecords, hclassifier⟩
  exact ⟨⟨hdirectives, hrecords, hclassifier⟩, rfl⟩

end Parser
end Layout
end Flatfile
