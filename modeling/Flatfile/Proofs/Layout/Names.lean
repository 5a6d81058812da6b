import Flatfile.Layout.Parser
import Flatfile.Proofs.Layout.Words
import Flatfile.Proofs.Outcome
import Flatfile.Proofs.Text.Ascii

/-!
# Names in layouts

The words of a layout that are names are ASCII, so that the names of fields are, in every layout
that is read from a text (`parse_hasAsciiNames`). Texts in quotes may hold other characters, but
they name no field. The names of record types are told apart without regard to case
(`parse_namesApart`).
-/

namespace Flatfile.Layout

-- ------------------------------------------------------------------
-- Words
-- ------------------------------------------------------------------

theorem isAlpha_lt {c : Char} (h : c.isAlpha = true) : c.toNat < 0x80 := by
  rcases Bool.or_eq_true_iff.1 h with h | h
  · have hz : c.toNat ≤ 'Z'.toNat := (of_decide_eq_true h).2
    exact Nat.lt_of_le_of_lt hz (by decide)
  · have hz : c.toNat ≤ 'z'.toNat := of_decide_eq_true (Bool.and_eq_true_iff.1 h).2
    exact Nat.lt_of_le_of_lt hz (by decide)

theorem isDigit_lt {c : Char} (h : c.isDigit = true) : c.toNat < 0x80 :=
  Nat.lt_of_le_of_lt (Char.isDigit_iff_toNat.1 h).2 (by decide)

theorem startsName_lt {c : Char} (h : startsName c = true) : c.toNat < 0x80 := by
  simp only [startsName, Bool.or_eq_true, beq_iff_eq] at h
  rcases h with h | rfl
  · exact isAlpha_lt h
  · decide

theorem continuesName_lt {c : Char} (h : continuesName c = true) : c.toNat < 0x80 := by
  simp only [continuesName, Char.isAlphanum, Bool.or_eq_true, beq_iff_eq] at h
  rcases h with (((h | h) | rfl) | rfl) | rfl
  · exact isAlpha_lt h
  · exact isDigit_lt h
  all_goals decide

theorem name_ascii {cs n rest : List Char} (h : name cs = some (n, rest)) :
    Text.IsAscii (String.ofList n) := by
  cases cs with
  | nil => simp [name] at h
  | cons c cs =>
    simp only [name] at h
    split at h
    · rename_i hc
      simp only [Option.some.injEq, Prod.mk.injEq] at h
      intro d hd
      rw [String.toList_ofList, ← h.1] at hd
      rcases List.mem_cons.1 hd with rfl | hd
      · exact startsName_lt hc
      · exact continuesName_lt (List.all_eq_true.1 List.all_takeWhile d hd)
    · simp at h

def Word.Named (w : Word) : Prop :=
  w.kind ∈ TokenKind.names → ∃ n, w.value = .ok (.name n) ∧ Text.IsAscii n

theorem Word.Scanned.named {found : Word} (h : found.Scanned) : found.Named := by
  intro hk
  cases h with
  | name _ hn => exact ⟨_, rfl, name_ascii hn⟩
  | mark hm => exact absurd hk (mark?_carries hm).1
  | arraySize | hex | number | boolean | string => simp [TokenKind.names] at hk

-- ------------------------------------------------------------------
-- Tokens
-- ------------------------------------------------------------------

def Token.Named (t : Token) : Prop :=
  t.kind ∈ TokenKind.names → Text.IsAscii t.nameOrRaw

def Line.Named (line : Line) : Prop :=
  ∀ t ∈ line.tokens, t.Named

theorem tokensFrom_named (line column : Nat) (cs : List Char) :
    (tokensFrom line column cs).Named := by
  fun_induction tokensFrom line column cs with
  | case1 | case2 | case3 => simp [Line.Named]
  | case4 column cs rest column' hne found after hword raw value hvalue more ih =>
    intro t ht
    rcases List.mem_cons.1 ht with rfl | ht
    · intro hk
      obtain ⟨n, hn, hascii⟩ := (word_scanned hword).named hk
      obtain rfl : value = .name n := Except.ok.inj (hvalue.symm.trans hn)
      exact hascii
    · exact ih t ht

theorem ofSource_named (source : String) :
    ∀ line ∈ (Lines.ofSource source).lines, line.Named :=
  ofSource_all (fun n cs => tokensFrom_named n 1 cs) source

-- ------------------------------------------------------------------
-- Fields
-- ------------------------------------------------------------------

namespace Parser

variable {stop : Stop} {kind : TokenKind} {wanted : List TokenKind} {t : Token}
  {ts rest : List Token}

theorem expect_ok (h : expect stop wanted ts = .ok (t, rest)) :
    t.kind ∈ wanted ∧ ts = t :: rest := by
  cases ts with
  | nil => exact absurd h refuseEnd_ne_ok
  | cons a ts =>
    simp only [expect] at h
    split at h
    · rename_i hk
      obtain ⟨rfl, rfl⟩ := Prod.mk.inj (Except.ok.inj h)
      exact ⟨hk, rfl⟩
    · simp at h

theorem takeIf_ok {found : Option Token} (h : takeIf stop kind ts = .ok (found, rest)) :
    (∃ t, found = some t ∧ t.kind = kind ∧ ts = t :: rest) ∨ (found = none ∧ rest = ts) := by
  cases ts with
  | nil =>
    obtain ⟨_, -, he⟩ := map_eq_ok.1 h
    obtain ⟨rfl, rfl⟩ := Prod.mk.inj he
    exact .inr ⟨rfl, rfl⟩
  | cons a ts =>
    have he := Except.ok.inj h
    split at he
    · rename_i hk
      obtain ⟨rfl, rfl⟩ := Prod.mk.inj he
      exact .inl ⟨a, rfl, hk, rfl⟩
    · obtain ⟨rfl, rfl⟩ := Prod.mk.inj he
      exact .inr ⟨rfl, rfl⟩

theorem takeIf_subset {found : Option Token} (h : takeIf stop kind ts = .ok (found, rest)) :
    rest ⊆ ts := by
  rcases takeIf_ok h with ⟨t, -, -, rfl⟩ | ⟨-, rfl⟩
  · exact List.subset_cons_self t rest
  · exact List.Subset.refl _

theorem field_name {line : Line} {d : FieldDecl} (hline : line.Named) (h : field line = .ok d) :
    Text.IsAscii d.name := by
  obtain ⟨⟨first, rest₁⟩, h₁, h⟩ := bind_eq_ok.1 h
  obtain ⟨position, -, h⟩ := bind_eq_ok.1 h
  obtain ⟨⟨filler, rest₂⟩, h₂, h⟩ := bind_eq_ok.1 h
  obtain ⟨⟨mark, rest₃⟩, h₃, h⟩ := bind_eq_ok.1 h
  obtain ⟨⟨space, rest₄⟩, h₄, h⟩ := bind_eq_ok.1 h
  obtain ⟨⟨t, rest₅⟩, h₅, h⟩ := bind_eq_ok.1 h
  obtain ⟨⟨size, rest₆⟩, -, h⟩ := bind_eq_ok.1 h
  have hname : d.name = space.elim t.nameOrRaw (·.nameOrRaw ++ ":" ++ t.nameOrRaw) := by
    cases size
    all_goals
      obtain ⟨occurs, -, h⟩ := bind_eq_ok.1 h
      obtain ⟨found, -, h⟩ := bind_eq_ok.1 h
      cases space <;> exact congrArg FieldDecl.name (Except.ok.inj h).symm
  rw [hname]
  obtain ⟨-, hfirst⟩ := expect_ok h₁
  obtain ⟨hkind, hword⟩ := expect_ok h₅
  have hsub : rest₃ ⊆ line.tokens := by
    rw [hfirst]
    exact List.Subset.trans (List.Subset.trans (takeIf_subset h₃) (takeIf_subset h₂))
      (List.subset_cons_self _ _)
  have hmem : t ∈ rest₄ := hword ▸ List.mem_cons_self
  have ht : Text.IsAscii t.nameOrRaw := by
    refine hline t (hsub (takeIf_subset h₄ hmem)) ?_
    rw [List.mem_singleton.1 hkind]
    decide
  rcases takeIf_ok h₄ with ⟨s, rfl, hs, hspace⟩ | ⟨rfl, -⟩
  · have hsmem : s ∈ rest₃ := hspace ▸ List.mem_cons_self
    have hsascii : Text.IsAscii s.nameOrRaw := hline s (hsub hsmem) (by rw [hs]; decide)
    exact (hsascii.append (by decide)).append ht
  · exact ht

-- ------------------------------------------------------------------
-- Layouts
-- ------------------------------------------------------------------

theorem linesOf_ok {parse : Line → Except SyntaxError α} {lines rest : List Line} {as : List α}
    (h : linesOf kind parse lines = .ok (as, rest)) :
    ∃ used, lines = used ++ rest ∧ List.Forall₂ (fun line a => parse line = .ok a) used as := by
  fun_induction linesOf kind parse lines generalizing as rest with
  | case1 =>
    obtain ⟨rfl, rfl⟩ := Prod.mk.inj (Except.ok.inj h)
    exact ⟨[], rfl, .nil⟩
  | case2 line lines ih =>
    obtain ⟨_, _, h⟩ := bind_eq_ok.1 h
    split at h
    · obtain ⟨a, ha, h⟩ := bind_eq_ok.1 h
      obtain ⟨⟨more, last⟩, hmore, h⟩ := bind_eq_ok.1 h
      obtain ⟨rfl, rfl⟩ := Prod.mk.inj (Except.ok.inj h)
      obtain ⟨used, rfl, hused⟩ := ih hmore
      exact ⟨line :: used, rfl, .cons ha hused⟩
    · obtain ⟨rfl, rfl⟩ := Prod.mk.inj (Except.ok.inj h)
      exact ⟨[], rfl, .nil⟩

theorem record_ok {declared : List RecordDecl} {line : Line} {lines rest : List Line}
    {r : RecordDecl} (h : record declared line lines = .ok (r, rest)) :
    rest <:+ lines ∧ ∀ d ∈ r.fields, ∃ l ∈ lines, field l = .ok d := by
  obtain ⟨_, -, h⟩ := bind_eq_ok.1 h
  obtain ⟨⟨conditions, middle⟩, hc, h⟩ := bind_eq_ok.1 h
  obtain ⟨⟨fields, last⟩, hf, h⟩ := bind_eq_ok.1 h
  obtain ⟨rfl, rfl⟩ := Prod.mk.inj (Except.ok.inj h)
  obtain ⟨used₁, rfl, -⟩ := linesOf_ok hc
  obtain ⟨used₂, rfl, hused⟩ := linesOf_ok hf
  refine ⟨?_, ?_⟩
  · exact (List.suffix_append used₂ _).trans (List.suffix_append used₁ _)
  · intro d hd
    obtain ⟨l, hl, hld⟩ := exists_mem_left_of_forall₂ hused hd
    exact ⟨l, List.mem_append_right _ (List.mem_append_left _ hl), hld⟩

theorem directives_suffix {seen found : List Directive} {lines rest : List Line}
    (h : directives seen lines = .ok (found, rest)) : rest <:+ lines := by
  fun_induction directives seen lines generalizing found rest with
  | case1 =>
    obtain ⟨-, rfl⟩ := Prod.mk.inj (Except.ok.inj h)
    exact List.suffix_refl _
  | case2 seen line lines ih =>
    obtain ⟨_, _, h⟩ := bind_eq_ok.1 h
    split at h
    · obtain ⟨d, hd, h⟩ := bind_eq_ok.1 h
      split at h
      · simp at h
      · exact (ih d h).trans (List.suffix_cons line lines)
    · obtain ⟨-, rfl⟩ := Prod.mk.inj (Except.ok.inj h)
      exact List.suffix_refl _

/-- What holds of every record type that lines give holds of all those of a layout. -/
theorem records_induct {P : RecordDecl → Prop} {endOfInput : Token}
    {declared found : List RecordDecl} {classifier classifier' : Option RecordDecl}
    {lines : List Line}
    (hstep : ∀ declared line rest r after, rest <:+ lines →
      record declared line rest = .ok (r, after) → P r)
    (hdeclared : ∀ r ∈ declared, P r) (hclassifier : ∀ r ∈ classifier, P r)
    (h : records endOfInput declared classifier lines = .ok (found, classifier')) :
    (∀ r ∈ found, P r) ∧ ∀ r ∈ classifier', P r := by
  fun_induction records endOfInput declared classifier lines with
  | case1 declared classifier =>
    obtain ⟨rfl, rfl⟩ := Prod.mk.inj (Except.ok.inj h)
    exact ⟨hdeclared, hclassifier⟩
  | case2 | case3 | case4 | case7 => simp at h
  | case5 declared classifier line rest first hfirst hkind r after hrecord hnew hr ih =>
    have hafter : after <:+ line :: rest := (record_ok hrecord).1.trans (List.suffix_cons _ _)
    refine ih (fun _ _ _ _ _ htail => hstep _ _ _ _ _ (htail.trans hafter)) hdeclared ?_ h
    simpa using hstep _ _ _ _ _ (List.suffix_cons line rest) hrecord
  | case6 declared classifier line rest first hfirst hkind r after hrecord hnew hr ih =>
    have hafter : after <:+ line :: rest := (record_ok hrecord).1.trans (List.suffix_cons _ _)
    refine ih (fun _ _ _ _ _ htail => hstep _ _ _ _ _ (htail.trans hafter)) ?_ hclassifier h
    intro r' hr'
    rcases List.mem_append.1 hr' with hr' | hr'
    · exact hdeclared r' hr'
    · rw [List.mem_singleton.1 hr']
      exact hstep _ _ _ _ _ (List.suffix_cons line rest) hrecord

theorem records_namesApart {endOfInput : Token} {declared found : List RecordDecl}
    {classifier classifier' : Option RecordDecl} {lines : List Line}
    (hdeclared : declared.Pairwise fun a b => Text.sameName a.name b.name = false)
    (h : records endOfInput declared classifier lines = .ok (found, classifier')) :
    found.Pairwise fun a b => Text.sameName a.name b.name = false := by
  fun_induction records endOfInput declared classifier lines with
  | case1 declared classifier =>
    obtain ⟨rfl, -⟩ := Prod.mk.inj (Except.ok.inj h)
    exact hdeclared
  | case2 | case3 | case4 | case7 => simp at h
  | case5 declared classifier line rest first hfirst hkind r after hrecord hnew hr ih =>
    exact ih hdeclared h
  | case6 declared classifier line rest first hfirst hkind r after hrecord hnew hr ih =>
    refine ih (List.pairwise_append.2 ⟨hdeclared, List.pairwise_singleton _ _, ?_⟩) h
    intro d hd r' hr'
    rw [List.mem_singleton.1 hr']
    simp only [List.any_eq_true, not_exists, not_and, Bool.not_eq_true] at hnew
    exact hnew d (List.mem_append_left _ hd)

end Parser

theorem parse_namesApart {text : String} {source : Option String} {layout : Layout}
    (h : parse text source = .ok layout) :
    layout.recordTypes.Pairwise fun a b => Text.sameName a.name b.name = false := by
  obtain ⟨⟨directives, rest⟩, -, h⟩ := bind_eq_ok.1 (mapError_eq_ok.1 h)
  obtain ⟨_, -, h⟩ := bind_eq_ok.1 h
  obtain ⟨⟨recordTypes, classifier⟩, hr, h⟩ := bind_eq_ok.1 h
  obtain rfl := Except.ok.inj h
  exact Parser.records_namesApart .nil hr

theorem parse_fields {P : FieldDecl → Prop} {text : String} {source : Option String}
    {layout : Layout}
    (hstep : ∀ line ∈ (Lines.ofSource text).lines, ∀ d, Parser.field line = .ok d → P d)
    (h : parse text source = .ok layout) :
    ∀ r ∈ layout.recordTypes ++ layout.classifier.toList, ∀ d ∈ r.fields, P d := by
  obtain ⟨⟨directives, rest⟩, hd, h⟩ := bind_eq_ok.1 (mapError_eq_ok.1 h)
  obtain ⟨_, -, h⟩ := bind_eq_ok.1 h
  obtain ⟨⟨recordTypes, classifier⟩, hr, h⟩ := bind_eq_ok.1 h
  obtain rfl := Except.ok.inj h
  have hlines : ∀ line ∈ rest, line ∈ (Lines.ofSource text).lines := fun line hline =>
    (Parser.directives_suffix hd).mem hline
  have hfields := Parser.records_induct (P := fun r => ∀ d ∈ r.fields, P d) ?_
    (by simp) (by simp) hr
  · intro r hmem
    rcases List.mem_append.1 hmem with hmem | hmem
    · exact hfields.1 r hmem
    · exact hfields.2 r (by simpa using hmem)
  · intro declared line tail r after htail hrecord d hd
    obtain ⟨l, hl, hfield⟩ := (Parser.record_ok hrecord).2 d hd
    exact hstep l (hlines l (htail.mem hl)) d hfield

def HasAsciiNames (layout : Layout) : Prop :=
  ∀ r ∈ layout.recordTypes ++ layout.classifier.toList, ∀ d ∈ r.fields, Text.IsAscii d.name

theorem parse_hasAsciiNames {text : String} {source : Option String} {layout : Layout}
    (h : parse text source = .ok layout) : layout.HasAsciiNames :=
  parse_fields (fun line hline _ => Parser.field_name (ofSource_named text line hline)) h

end Flatfile.Layout
