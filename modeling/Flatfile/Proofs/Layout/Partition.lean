import Flatfile.Proofs.Layout.Reading
import Mathlib.Algebra.Ring.Nat
import Mathlib.Data.List.TakeWhile

/-!
# The tokens of a text

The tokens of a layout divide its text among themselves (`tokenize_partitions`): on each line the
words follow one another in their columns, white space stands between them, and white space and a
comment are all that is behind the last one. This holds up to the first bad word, and the error says
where that one is. No word is empty, so that there are no more tokens than characters, but for the
one that ends each line and the one that ends the text.
-/

namespace Flatfile.Layout

-- ------------------------------------------------------------------
-- Lines
-- ------------------------------------------------------------------

/-- The lines of a text. A line feed ends a line, or a carriage return with a line feed; the last
line may go without. -/
inductive SourceLines : List Char → List (List Char) → Prop
  | nil : SourceLines [] []
  | last {text} (hne : text ≠ []) (hline : '\n' ∉ text) : SourceLines text [text]
  | lineFeed {text rest lines} (hline : '\n' ∉ text) (hreturn : text.getLast? ≠ some '\r')
      (hrest : SourceLines rest lines) : SourceLines (text ++ '\n' :: rest) (text :: lines)
  | returnLineFeed {text rest lines} (hline : '\n' ∉ text) (hrest : SourceLines rest lines) :
      SourceLines (text ++ '\r' :: '\n' :: rest) (text :: lines)

theorem textLines_sourceLines (cs : List Char) : SourceLines cs (textLines cs) := by
  fun_induction textLines cs with
  | case1 => exact .nil
  | case2 cs hnone hne =>
    refine .last hne fun hmem => ?_
    simpa using List.dropWhile_eq_nil_iff.1 hnone '\n' hmem
  | case3 cs c rest hrest ih =>
    obtain rfl : c = '\n' := by
      have hc := List.head?_dropWhile_not (· != '\n') cs
      rw [hrest] at hc
      simpa using hc
    have hsplit := List.takeWhile_append_dropWhile (p := (· != '\n')) (l := cs)
    rw [hrest] at hsplit
    have hline : '\n' ∉ cs.takeWhile (· != '\n') := fun hmem => by
      simpa using List.all_eq_true.1 List.all_takeWhile _ hmem
    generalize cs.takeWhile (· != '\n') = line at hsplit hline ⊢
    rw [← hsplit, withoutReturn]
    split
    next hreturn =>
      obtain ⟨text, rfl⟩ := List.getLast?_eq_some_iff.1 hreturn
      rw [List.dropLast_concat, List.append_assoc]
      exact .returnLineFeed (fun hmem => hline (List.mem_append_left _ hmem)) ih
    next hreturn => exact .lineFeed hline hreturn ih

theorem SourceLines.length_le {cs : List Char} {lines : List (List Char)}
    (h : SourceLines cs lines) : (lines.map List.length).sum ≤ cs.length := by
  induction h with
  | nil => exact Nat.le_refl 0
  | last => simp
  | lineFeed _ _ _ ih | returnLineFeed _ _ ih =>
    simp only [List.map_cons, List.sum_cons, List.length_append, List.length_cons]
    omega

-- ------------------------------------------------------------------
-- Words
-- ------------------------------------------------------------------

/-- The words of line `n` from a column on: white space and the text of a word in turn, up to column
`stop`, where `behind` is left. -/
inductive Words (n : Nat) : Nat → List Char → List Token → Nat → List Char → Prop
  | nil {column rest} : Words n column rest [] column rest
  | cons {column gap t rest words stop behind} (hgap : ∀ c ∈ gap, Text.isBlank c)
      (hword : t.IsWord) (hraw : t.raw ≠ "") (hline : t.line = n)
      (hcolumn : t.column = column + gap.length)
      (hmore : Words n (t.column + t.raw.length) rest words stop behind) :
      Words n column (gap ++ (t.raw.toList ++ rest)) (t :: words) stop behind

/-- What is left of line `n` behind its words, from column `stop` on, and what that comes to. -/
inductive LineEnd (n stop : Nat) : List Char → Except SyntaxError Token → Prop
  | closed {gap comment} (hgap : ∀ c ∈ gap, Text.isBlank c)
      (hcomment : ∀ c ∈ comment.head?, c = '#') :
      LineEnd n stop (gap ++ comment) (.ok (closing .endOfLine n (stop + gap.length)))
  | refused {gap c rest raw cause} (hgap : ∀ c ∈ gap, Text.isBlank c)
      (hblank : Text.isBlank c = false) (hcomment : c ≠ '#') (hraw : raw ≠ "")
      (hword : raw.toList <+: c :: rest) :
      LineEnd n stop (gap ++ c :: rest) (.error (.atToken n (stop + gap.length) raw cause))

section Words

variable {n column stop : Nat} {cs rest behind : List Char} {words : List Token}

theorem Words.length_le (h : Words n column cs words stop behind) :
    words.length + behind.length ≤ cs.length := by
  induction h with
  | nil => simp
  | @cons column gap t rest words stop behind _ _ hraw _ _ _ ih =>
    have hpos : 0 < t.raw.toList.length :=
      List.length_pos_iff.2 fun h => hraw (String.toList_eq_nil_iff.1 h)
    simp only [List.length_cons, List.length_append]
    omega

theorem blanks_split (h : cs.dropWhile Text.isBlank = rest) :
    ∃ gap, cs = gap ++ rest ∧ (∀ c ∈ gap, Text.isBlank c) ∧ cs.length - rest.length = gap.length ∧
      ∀ c ∈ rest.head?, Text.isBlank c = false := by
  have hsplit := List.takeWhile_append_dropWhile (p := Text.isBlank) (l := cs)
  rw [h] at hsplit
  refine ⟨cs.takeWhile Text.isBlank, hsplit.symm, fun c hc => ?_, ?_, fun c hc => ?_⟩
  · exact List.all_eq_true.1 List.all_takeWhile c hc
  · rw [← congrArg List.length hsplit, List.length_append, Nat.add_sub_cancel]
  · have hnot := List.head?_dropWhile_not Text.isBlank cs
    rw [h, Option.mem_def.1 hc] at hnot
    simpa using hnot

theorem Follows.before_append (h : Follows cs rest) :
    cs = before cs rest ++ rest ∧ (before cs rest).length = cs.length - rest.length ∧
      String.ofList (before cs rest) ≠ "" := by
  obtain ⟨⟨taken, rfl⟩, hlt⟩ := h
  have hbefore : before (taken ++ rest) rest = taken := by
    rw [before, List.length_append, Nat.add_sub_cancel, List.take_left]
  rw [hbefore]
  refine ⟨rfl, by rw [List.length_append, Nat.add_sub_cancel], fun hnil => ?_⟩
  rw [String.ofList_eq_empty_iff] at hnil
  rw [hnil, List.nil_append] at hlt
  exact Nat.lt_irrefl _ hlt

theorem exists_start (hne : ¬ (rest = [] ∨ rest.head? = some '#'))
    (hhead : ∀ c ∈ rest.head?, Text.isBlank c = false) :
    ∃ c tail, rest = c :: tail ∧ Text.isBlank c = false ∧ c ≠ '#' := by
  cases rest with
  | nil => simp at hne
  | cons c tail => exact ⟨c, tail, rfl, hhead c rfl, by simpa using hne⟩

theorem snippet_prefix {c : Char} (rest : List Char) (h : Text.isBlank c = false) :
    snippet (c :: rest) ≠ "" ∧ (snippet (c :: rest)).toList <+: c :: rest := by
  rw [snippet, String.toList_ofList]
  refine ⟨fun hnil => ?_, List.takeWhile_prefix _⟩
  rw [String.ofList_eq_empty_iff, List.takeWhile_cons_of_pos (by simp [h])] at hnil
  exact List.cons_ne_nil _ _ hnil

theorem tokensFrom_words (n column : Nat) (cs : List Char) :
    ∃ stop behind, Words n column cs (tokensFrom n column cs).tokens stop behind ∧
      LineEnd n stop behind (tokensFrom n column cs).stop := by
  fun_induction tokensFrom n column cs with
  | case1 column cs rest column' hend =>
    obtain ⟨gap, hcs, hgap, hlength, -⟩ := blanks_split (rfl : _ = rest)
    have hcolumn : column' = column + gap.length := congrArg (column + ·) hlength
    refine ⟨column, cs, .nil, ?_⟩
    rw [hcs, hcolumn]
    refine .closed hgap fun c hc => ?_
    rcases hend with hnil | hhash
    · exact absurd (hc.symm.trans (congrArg List.head? hnil)) (Option.some_ne_none c)
    · exact Option.some.inj (hc.symm.trans hhash)
  | case2 column cs rest column' hne hnone text =>
    obtain ⟨gap, hcs, hgap, hlength, hhead⟩ := blanks_split (rfl : _ = rest)
    have hcolumn : column' = column + gap.length := congrArg (column + ·) hlength
    obtain ⟨c, tail, hrest, hblank, hcomment⟩ := exists_start hne hhead
    obtain ⟨hraw, hprefix⟩ := snippet_prefix tail hblank
    rw [← hrest] at hraw hprefix
    refine ⟨column, cs, .nil, ?_⟩
    rw [hcs, hcolumn, hrest]
    exact .refused hgap hblank hcomment hraw (hrest ▸ hprefix)
  | case3 column cs rest column' hne found after hword raw cause hcause =>
    obtain ⟨gap, hcs, hgap, hlength, hhead⟩ := blanks_split (rfl : _ = rest)
    have hcolumn : column' = column + gap.length := congrArg (column + ·) hlength
    obtain ⟨c, tail, hrest, hblank, hcomment⟩ := exists_start hne hhead
    obtain ⟨hsplit, -, hraw⟩ := (word_follows hword).before_append
    have hprefix : raw.toList <+: c :: tail :=
      ⟨after, by rw [String.toList_ofList, ← hsplit, hrest]⟩
    refine ⟨column, cs, .nil, ?_⟩
    rw [hcs, hcolumn, hrest]
    exact .refused hgap hblank hcomment hraw hprefix
  | case4 column cs rest column' hne found after hword raw value hvalue more ih =>
    obtain ⟨gap, hcs, hgap, hlength, -⟩ := blanks_split (rfl : _ = rest)
    have hcolumn : column' = column + gap.length := congrArg (column + ·) hlength
    obtain ⟨hsplit, hbefore, hraw⟩ := (word_follows hword).before_append
    obtain ⟨stop, behind, hmore, hend⟩ := ih
    let t : Token := ⟨found.kind, raw, value, n, column'⟩
    have ht : t.IsWord := ((word_scanned hword).carries hvalue).isWord
    have htext : raw.toList = before rest after := String.toList_ofList
    have hstep : column' + (rest.length - after.length) = column' + raw.length := by
      rw [← hbefore, ← htext, String.length_toList]
    have hfrom : Words n (column' + raw.length) after more.tokens stop behind := by
      rw [← hstep]
      exact hmore
    refine ⟨stop, behind, ?_, hend⟩
    rw [hcs, hsplit, ← htext]
    exact Words.cons (t := t) hgap ht hraw rfl hcolumn hfrom

end Words

-- ------------------------------------------------------------------
-- Texts
-- ------------------------------------------------------------------

/-- The tokens that lines produce, the first of them being line `n`, up to the end of the last line
or to the first bad word. -/
inductive Produces : Nat → List (List Char) → List Token → Except SyntaxError Unit → Prop
  | finished {n} : Produces n [] [] (.ok ())
  | blank {n text lines stop behind t made outcome} (hwords : Words n 1 text [] stop behind)
      (hend : LineEnd n stop behind (.ok t)) (hmore : Produces (n + 1) lines made outcome) :
      Produces n (text :: lines) made outcome
  | line {n text lines words stop behind t made outcome} (hne : words ≠ [])
      (hwords : Words n 1 text words stop behind) (hend : LineEnd n stop behind (.ok t))
      (hmore : Produces (n + 1) lines made outcome) :
      Produces n (text :: lines) (words ++ t :: made) outcome
  /-- A bad word ends it all; the words before it have been produced. -/
  | stopped {n text lines words stop behind e} (hwords : Words n 1 text words stop behind)
      (hend : LineEnd n stop behind (.error e)) : Produces n (text :: lines) words (.error e)

/-- There are no more words than characters, and no more other tokens than lines. -/
theorem Produces.length_le {n : Nat} {lines : List (List Char)} {made : List Token}
    {outcome : Except SyntaxError Unit} (h : Produces n lines made outcome) :
    made.length ≤ (lines.map List.length).sum + lines.length := by
  induction h with
  | finished => exact Nat.le_refl 0
  | blank _ _ _ ih =>
    simp only [List.map_cons, List.sum_cons, List.length_cons]
    omega
  | line _ hwords _ _ ih =>
    have := hwords.length_le
    simp only [List.map_cons, List.sum_cons, List.length_cons, List.length_append]
    omega
  | stopped hwords _ =>
    have := hwords.length_le
    simp only [List.map_cons, List.sum_cons, List.length_cons]
    omega

def linesFrom (n : Nat) (texts : List (List Char)) : List Line :=
  (texts.zipIdx n).filterMap fun (cs, n) =>
    let line := tokensFrom n 1 cs
    if line.isBlank then none else some line

theorem linesFrom_cons (n : Nat) (text : List Char) (texts : List (List Char)) :
    linesFrom n (text :: texts) =
      if (tokensFrom n 1 text).isBlank then linesFrom (n + 1) texts
      else tokensFrom n 1 text :: linesFrom (n + 1) texts := by
  simp only [linesFrom, List.zipIdx_cons, List.filterMap_cons]
  split <;> split <;> simp_all

theorem mapM_all_cons (words : List Token) (t : Token) (lines : List Line) :
    ((⟨words, .ok t⟩ :: lines : List Line).mapM Line.all).map List.flatten =
      ((lines.mapM Line.all).map List.flatten).map (words ++ t :: ·) := by
  rw [List.mapM_cons]
  cases lines.mapM Line.all with
  | error e => rfl
  | ok tss =>
    refine congrArg Except.ok ?_
    rw [List.flatten_cons, List.append_assoc, List.singleton_append]

theorem linesFrom_produces (n : Nat) (texts : List (List Char)) :
    ∃ made outcome, Produces n texts made outcome ∧
      ((linesFrom n texts).mapM Line.all).map List.flatten = outcome.map fun _ => made := by
  induction texts generalizing n with
  | nil => exact ⟨[], .ok (), .finished, rfl⟩
  | cons text texts ih =>
    obtain ⟨stop, behind, hwords, hend⟩ := tokensFrom_words n 1 text
    obtain ⟨made, outcome, hmore, heq⟩ := ih (n + 1)
    rw [linesFrom_cons]
    generalize tokensFrom n 1 text = line at hwords hend ⊢
    obtain ⟨words, lineStop⟩ := line
    cases lineStop with
    | error e =>
      refine ⟨words, .error e, .stopped hwords hend, ?_⟩
      have hblank : Line.isBlank ⟨words, .error e⟩ = false := Bool.and_false _
      rw [if_neg (Bool.eq_false_iff.1 hblank), List.mapM_cons]
      rfl
    | ok t =>
      cases words with
      | nil => exact ⟨made, outcome, .blank hwords hend hmore, heq⟩
      | cons w words =>
        refine ⟨_, outcome, .line (List.cons_ne_nil w words) hwords hend hmore, ?_⟩
        have hblank : Line.isBlank ⟨w :: words, .ok t⟩ = false := rfl
        rw [if_neg (Bool.eq_false_iff.1 hblank), mapM_all_cons, heq]
        cases outcome <;> simp [Except.map]

/-- The tokens of a source divide its lines among themselves up to the first bad word, if there is
one; otherwise the token that ends the text comes behind them. In either case there are no more of
them than characters and lines, and one. -/
theorem tokenize_partitions (source : String) :
    ∃ lines made outcome, SourceLines source.toList lines ∧ Produces 1 lines made outcome ∧
      tokenize source =
        outcome.map (fun _ => made ++ [closing .endOfInput (max lines.length 1) 1]) ∧
      made.length + 1 ≤ source.length + lines.length + 1 := by
  have hlines := textLines_sourceLines source.toList
  obtain ⟨made, outcome, hmade, heq⟩ := linesFrom_produces 1 (textLines source.toList)
  refine ⟨_, made, outcome, hlines, hmade, ?_, ?_⟩
  · have htokens : tokenize source =
        (((linesFrom 1 (textLines source.toList)).mapM Line.all).map List.flatten).map
          (· ++ [closing .endOfInput (max (textLines source.toList).length 1) 1]) := by
      show (linesFrom 1 (textLines source.toList)).mapM Line.all >>= _ = _
      cases (linesFrom 1 (textLines source.toList)).mapM Line.all <;> rfl
    rw [htokens, heq]
    cases outcome <;> rfl
  · have := hmade.length_le
    have := hlines.length_le
    rw [String.length_toList] at this
    omega

end Flatfile.Layout
