import Flatfile.Proofs.Layout.Derivation
import Flatfile.Proofs.Outcome

/-!
# Layouts and their derivations

A text is read as a layout exactly if its tokens have a valid derivation, and the layout is the one
that the derivation spells (`parse_iff`). The lines of the text are those of the derivation, since
nothing but the end of a line ends one, and the kind of its first token tells what a line is.
-/

namespace Flatfile.Layout

-- ------------------------------------------------------------------
-- Lines
-- ------------------------------------------------------------------

def Token.IsWord (t : Token) : Prop :=
  t.kind ≠ .endOfLine ∧ t.kind ≠ .endOfInput

structure Line.Closed (line : Line) : Prop where
  words : ∀ t ∈ line.tokens, t.IsWord
  stop : ∃ t, line.stop = .ok t ∧ t.kind = .endOfLine

def Line.closedTokens (line : Line) : List Token :=
  line.tokens ++ line.stop.toOption.toList

theorem Line.all_eq_ok {line : Line} {ts : List Token} :
    line.all = .ok ts ↔ (∃ t, line.stop = .ok t) ∧ line.closedTokens = ts := by
  obtain ⟨tokens, stop⟩ := line
  cases stop with
  | error e => simp [Line.all, Except.map]
  | ok t => simp [Line.all, Except.map, Line.closedTokens, Except.toOption]

theorem TokenKind.Carries.isWord {t : Token} (h : t.kind.Carries t.value) : t.IsWord := by
  refine ⟨fun hk => ?_, fun hk => ?_⟩
  all_goals
    rw [hk] at h
    exact h

theorem Line.Regular.closed {line : Line} {t : Token} (h : line.Regular) (ht : line.stop = .ok t) :
    line.Closed :=
  ⟨fun w hw => (h.carries w hw).isWord, t, ht, h.stop t ht⟩

/-- Of two lists of tokens the ends of the first lines stand at the same place. -/
theorem first_line_unique {words words' rest rest' : List Token} {t t' : Token}
    (hwords : ∀ w ∈ words, w.IsWord) (hwords' : ∀ w ∈ words', w.IsWord)
    (ht : t.kind = .endOfLine) (ht' : t'.kind = .endOfLine)
    (h : words ++ t :: rest = words' ++ t' :: rest') :
    words = words' ∧ t = t' ∧ rest = rest' := by
  induction words generalizing words' with
  | nil =>
    cases words' with
    | nil => exact ⟨rfl, List.cons.inj h⟩
    | cons w words' =>
      obtain ⟨rfl, -⟩ := List.cons.inj h
      exact absurd ht (hwords' t List.mem_cons_self).1
  | cons w words ih =>
    cases words' with
    | nil =>
      obtain ⟨rfl, -⟩ := List.cons.inj h
      exact absurd ht' (hwords w List.mem_cons_self).1
    | cons w' words' =>
      obtain ⟨rfl, hmore⟩ := List.cons.inj h
      obtain ⟨rfl, htail⟩ := ih (fun v hv => hwords v (List.mem_cons_of_mem _ hv))
        (fun v hv => hwords' v (List.mem_cons_of_mem _ hv)) hmore
      exact ⟨rfl, htail⟩

theorem Line.Closed.ne_endOfInput {line : Line} {e : Token} {rest rest' : List Token}
    (hl : line.Closed) (he : e.kind = .endOfInput) :
    e :: rest ≠ line.closedTokens ++ rest' := by
  obtain ⟨words, stop⟩ := line
  obtain ⟨hwords, t, rfl, ht⟩ := hl
  intro h
  cases words with
  | nil =>
    obtain ⟨rfl, -⟩ := List.cons.inj h
    exact absurd (he.symm.trans ht) (by decide)
  | cons w words =>
    obtain ⟨rfl, -⟩ := List.cons.inj h
    exact (hwords e List.mem_cons_self).2 he

/-- The tokens tell the lines apart. -/
theorem closedTokens_unique {lines lines' : List Line} {e e' : Token}
    (hlines : ∀ l ∈ lines, l.Closed) (hlines' : ∀ l ∈ lines', l.Closed)
    (he : e.kind = .endOfInput) (he' : e'.kind = .endOfInput)
    (h : lines.flatMap Line.closedTokens ++ [e] = lines'.flatMap Line.closedTokens ++ [e']) :
    lines = lines' ∧ e = e' := by
  induction lines generalizing lines' with
  | nil =>
    cases lines' with
    | nil => exact ⟨rfl, (List.cons.inj h).1⟩
    | cons l' lines' =>
      rw [List.flatMap_cons, List.append_assoc] at h
      exact absurd h ((hlines' l' List.mem_cons_self).ne_endOfInput he)
  | cons l lines ih =>
    obtain ⟨hl, hmore⟩ := List.forall_mem_cons.1 hlines
    rw [List.flatMap_cons, List.append_assoc] at h
    cases lines' with
    | nil => exact absurd h.symm (hl.ne_endOfInput he')
    | cons l' lines' =>
      obtain ⟨hl', hmore'⟩ := List.forall_mem_cons.1 hlines'
      rw [List.flatMap_cons, List.append_assoc] at h
      obtain ⟨words, _⟩ := l
      obtain ⟨words', _⟩ := l'
      obtain ⟨hwords, t, rfl, ht⟩ := hl
      obtain ⟨hwords', t', rfl, ht'⟩ := hl'
      simp only [Line.closedTokens, Except.toOption, Option.toList_some, List.append_assoc,
        List.cons_append, List.nil_append] at h
      obtain ⟨rfl, rfl, htail⟩ := first_line_unique hwords hwords' ht ht' h
      obtain ⟨rfl, rfl⟩ := ih hmore hmore' htail
      exact ⟨rfl, rfl⟩

theorem tokenize_eq_ok {source : String} {ts : List Token} :
    tokenize source = .ok ts ↔
      (∀ l ∈ (Lines.ofSource source).lines, ∃ t, l.stop = .ok t) ∧
        (Lines.ofSource source).lines.flatMap Line.closedTokens ++
          [(Lines.ofSource source).endOfInput] = ts := by
  have hall : ∀ {lines : List Line} {tss : List (List Token)}, lines.mapM Line.all = .ok tss ↔
      (∀ l ∈ lines, ∃ t, l.stop = .ok t) ∧ lines.map Line.closedTokens = tss := by
    intro lines tss
    simp only [mapM_eq_ok, Line.all_eq_ok, List.forall₂_and_left, ← List.forall₂_map_left_iff,
      List.forall₂_eq_eq_eq]
  rw [tokenize]
  simp only [bind_eq_ok, hall, Except.ok.injEq]
  constructor
  · rintro ⟨_, ⟨hstop, rfl⟩, hts⟩
    exact ⟨hstop, hts⟩
  · rintro ⟨hstop, hts⟩
    exact ⟨_, ⟨hstop, rfl⟩, hts⟩

-- ------------------------------------------------------------------
-- The lines of a tree
-- ------------------------------------------------------------------

theorem Leaf.isWord {kinds : List TokenKind} (t : Leaf kinds) (h : .endOfLine ∉ kinds)
    (h' : .endOfInput ∉ kinds) : t.val.IsWord :=
  ⟨fun hk => h (hk ▸ t.property), fun hk => h' (hk ▸ t.property)⟩

theorem Leaf.optional_isWord {kinds : List TokenKind} (t : Option (Leaf kinds))
    (h : .endOfLine ∉ kinds) (h' : .endOfInput ∉ kinds) : ∀ w ∈ Leaf.optional t, w.IsWord := by
  cases t with
  | none => exact List.forall_mem_nil _
  | some t => exact List.forall_mem_singleton.2 (t.isWord h h')

theorem LiteralsTree.tokens_isWord (n : LiteralsTree) : ∀ w ∈ n.tokens, w.IsWord := by
  refine List.forall_mem_cons.2 ⟨n.first.isWord (by decide) (by decide), ?_⟩
  intro w hw
  obtain ⟨⟨comma, value⟩, -, hw⟩ := List.mem_flatMap.1 hw
  refine List.forall_mem_cons.2 ⟨comma.isWord (by decide) (by decide), ?_⟩ w hw
  exact List.forall_mem_singleton.2 (value.isWord (by decide) (by decide))

theorem ConvertorTree.tokens_isWord (n : ConvertorTree) : ∀ w ∈ n.tokens, w.IsWord := by
  cases n with
  | literal value => exact List.forall_mem_singleton.2 (value.isWord (by decide) (by decide))
  | call name args =>
    refine List.forall_mem_cons.2 ⟨name.isWord (by decide) (by decide), ?_⟩
    cases args with
    | none => exact List.forall_mem_nil _
    | some args =>
      refine List.forall_mem_append.2 ⟨?_, ?_⟩
      · refine List.forall_mem_cons.2 ⟨args.left.isWord (by decide) (by decide), ?_⟩
        cases args.values with
        | none => exact List.forall_mem_nil _
        | some values => exact values.tokens_isWord
      · exact List.forall_mem_singleton.2 (args.right.isWord (by decide) (by decide))

theorem closed_of_words {words : List Token} (eol : Leaf [.endOfLine])
    (h : ∀ w ∈ words, w.IsWord) : Line.Closed ⟨words, .ok eol.val⟩ :=
  ⟨h, eol.val, rfl, List.mem_singleton.1 eol.property⟩

theorem DirectiveTree.line_closed (n : DirectiveTree) : n.line.Closed := by
  refine closed_of_words n.eol ?_
  refine List.forall_mem_cons.2 ⟨n.header.isWord (by decide) (by decide), ?_⟩
  exact List.forall_mem_singleton.2 (n.value.isWord (by decide) (by decide))

theorem ConditionTree.line_closed (n : ConditionTree) : n.line.Closed := by
  refine closed_of_words n.eol (List.forall_mem_cons.2 ⟨n.field.isWord (by decide) (by decide), ?_⟩)
  exact List.forall_mem_cons.2 ⟨n.equals.isWord (by decide) (by decide), n.values.tokens_isWord⟩

theorem FieldTree.line_closed (n : FieldTree) : n.line.Closed := by
  refine closed_of_words n.eol ?_
  simp only [List.forall_mem_cons, List.forall_mem_append]
  refine ⟨n.position.isWord (by decide) (by decide), ?_, ?_, ?_,
    n.name.isWord (by decide) (by decide), ?_, ?_⟩
  · exact Leaf.optional_isWord n.filler (by decide) (by decide)
  · exact Leaf.optional_isWord n.mark (by decide) (by decide)
  · exact Leaf.optional_isWord n.space (by decide) (by decide)
  · exact Leaf.optional_isWord n.size (by decide) (by decide)
  · intro w hw
    obtain ⟨c, -, hw⟩ := List.mem_flatMap.1 hw
    exact c.tokens_isWord w hw

namespace RecordTree

def lines (n : RecordTree) : List Line :=
  n.head :: (n.conditions.map (·.line) ++ n.fields.map (·.line))

theorem head_closed (n : RecordTree) : n.head.Closed := by
  refine closed_of_words n.eol ?_
  refine List.forall_mem_cons.2 ⟨n.header.isWord (by decide) (by decide), ?_⟩
  cases n.base with
  | none => exact List.forall_mem_nil _
  | some base =>
    refine List.forall_mem_cons.2 ⟨base.1.isWord (by decide) (by decide), ?_⟩
    exact List.forall_mem_singleton.2 (base.2.isWord (by decide) (by decide))

theorem lines_closed (n : RecordTree) : ∀ l ∈ n.lines, l.Closed := by
  refine List.forall_mem_cons.2 ⟨n.head_closed, List.forall_mem_append.2 ⟨?_, ?_⟩⟩
  · exact List.forall_mem_map.2 fun c _ => c.line_closed
  · exact List.forall_mem_map.2 fun f _ => f.line_closed

theorem lines_tokens (n : RecordTree) : n.lines.flatMap Line.closedTokens = n.tokens := by
  rw [lines, List.flatMap_cons, List.flatMap_append, List.flatMap_map, List.flatMap_map, tokens,
    List.append_cons]
  rfl

end RecordTree

namespace LayoutTree

def lines (n : LayoutTree) : List Line :=
  n.directives.map (·.line) ++ (n.first :: n.more).flatMap (·.lines)

theorem lines_closed (n : LayoutTree) : ∀ l ∈ n.lines, l.Closed := by
  refine List.forall_mem_append.2 ⟨List.forall_mem_map.2 fun d _ => d.line_closed, ?_⟩
  intro l hl
  obtain ⟨r, -, hl⟩ := List.mem_flatMap.1 hl
  exact r.lines_closed l hl

theorem lines_tokens (n : LayoutTree) :
    n.lines.flatMap Line.closedTokens ++ [n.eof.val] = n.tokens := by
  rw [lines, List.flatMap_append, List.flatMap_map, List.flatMap_assoc]
  simp only [RecordTree.lines_tokens]
  rfl

end LayoutTree

-- ------------------------------------------------------------------
-- Lines of one kind
-- ------------------------------------------------------------------

/-- These trees derive the lines that begin with a token of this kind, and `parse` reads such a line
as what its tree spells. -/
structure Derives {Tree α : Type} (kind : TokenKind) (parse : Line → Except SyntaxError α)
    (line : Tree → Line) (spell : Tree → α) (Valid : Tree → Prop) : Prop where
  first : ∀ n, ∃ t ts, (line n).tokens = t :: ts ∧ t.kind = kind
  derived : ∀ {l a}, l.Regular → parse l = .ok a → ∃ n, line n = l ∧ Valid n ∧ spell n = a
  tree : ∀ n, (line n).Regular → Valid n → parse (line n) = .ok (spell n)

theorem condition_derives : Derives .identifier Parser.condition ConditionTree.line
    ConditionTree.spell fun _ => True where
  first n := ⟨_, _, rfl, List.mem_singleton.1 n.field.property⟩
  derived hl h := by
    obtain ⟨n, hn, hspell⟩ := Parser.condition_derived hl h
    exact ⟨n, hn, trivial, hspell⟩
  tree n hl _ := Parser.condition_tree n hl

theorem field_derives :
    Derives .number Parser.field FieldTree.line FieldTree.spell FieldTree.Valid where
  first n := ⟨_, _, rfl, List.mem_singleton.1 n.position.property⟩
  derived := Parser.field_derived
  tree := Parser.field_tree

namespace Parser

variable {kind : TokenKind} {lines rest : List Line}

def NotAtLine (kind : TokenKind) (lines : List Line) : Prop :=
  ∀ l ∈ lines.head?, ∃ t, l.first = .ok t ∧ t.kind ≠ kind

theorem linesOf_derived {Tree α : Type} {parse : Line → Except SyntaxError α} {line : Tree → Line}
    {spell : Tree → α} {Valid : Tree → Prop} {as : List α}
    (hd : Derives kind parse line spell Valid)
    (hl : ∀ l ∈ lines, l.Regular) (h : linesOf kind parse lines = .ok (as, rest)) :
    ∃ ns : List Tree, ns.map line ++ rest = lines ∧ (∀ n ∈ ns, Valid n) ∧ ns.map spell = as := by
  obtain ⟨used, rfl, hused⟩ := linesOf_ok h
  have hl' := (List.forall_mem_append.1 hl).1
  clear h hl
  induction hused with
  | nil => exact ⟨[], rfl, List.forall_mem_nil _, rfl⟩
  | cons hparse hused ih =>
    obtain ⟨hfirst, hmore⟩ := List.forall_mem_cons.1 hl'
    obtain ⟨n, rfl, hn, rfl⟩ := hd.derived hfirst hparse
    obtain ⟨ns, hlines, hns, rfl⟩ := ih hmore
    refine ⟨n :: ns, ?_, List.forall_mem_cons.2 ⟨hn, hns⟩, rfl⟩
    rw [List.map_cons, List.cons_append, hlines]
    rfl

theorem linesOf_trees {Tree α : Type} {parse : Line → Except SyntaxError α} {line : Tree → Line}
    {spell : Tree → α} {Valid : Tree → Prop} (hd : Derives kind parse line spell Valid)
    {ns : List Tree} (hl : ∀ n ∈ ns, (line n).Regular) (hv : ∀ n ∈ ns, Valid n)
    (hrest : NotAtLine kind rest) :
    linesOf kind parse (ns.map line ++ rest) = .ok (ns.map spell, rest) := by
  induction ns with
  | nil =>
    cases rest with
    | nil => rfl
    | cons l rest =>
      obtain ⟨t, ht, hk⟩ := hrest l rfl
      refine bind_eq_ok.2 ⟨t, ht, ?_⟩
      rw [if_neg hk]
      rfl
  | cons n ns ih =>
    obtain ⟨hn, hns⟩ := List.forall_mem_cons.1 hl
    obtain ⟨hvn, hvns⟩ := List.forall_mem_cons.1 hv
    obtain ⟨t, ts, htokens, hk⟩ := hd.first n
    have hfirst : (line n).first = .ok t := by rw [Line.first, htokens]
    refine bind_eq_ok.2 ⟨t, hfirst, ?_⟩
    rw [if_pos hk]
    exact bind_eq_ok.2 ⟨_, hd.tree n hn hvn, bind_eq_ok.2 ⟨_, ih hns hvns, rfl⟩⟩

theorem notAtLine_of_first {kind' : TokenKind} {l : Line} {t : Token} {ts : List Token}
    (ht : l.tokens = t :: ts) (hk : t.kind = kind') (hne : kind' ≠ kind) (rest : List Line) :
    NotAtLine kind (l :: rest) := by
  rintro _ ⟨⟩
  exact ⟨t, by rw [Line.first, ht], hk ▸ hne⟩

-- ------------------------------------------------------------------
-- Directives
-- ------------------------------------------------------------------

variable {seen found : List Directive}

theorem directives_derived (hl : ∀ l ∈ lines, l.Regular)
    (h : directives seen lines = .ok (found, rest)) :
    ∃ ns : List DirectiveTree, ns.map (·.line) ++ rest = lines ∧
      seen ++ ns.map (·.spell) = found ∧
      (ns.Pairwise fun a b => ¬ Text.sameName a.spell.name b.spell.name) ∧
      ∀ s ∈ seen, ∀ n ∈ ns, ¬ Text.sameName s.name n.spell.name := by
  fun_induction directives seen lines generalizing found rest with
  | case1 seen =>
    obtain ⟨rfl, rfl⟩ := Prod.mk.inj (Except.ok.inj h)
    exact ⟨[], rfl, by simp, .nil, by simp⟩
  | case2 seen line lines ih =>
    obtain ⟨first, -, h⟩ := bind_eq_ok.1 h
    obtain ⟨hline, hlines⟩ := List.forall_mem_cons.1 hl
    split at h
    · obtain ⟨d, hd, h⟩ := bind_eq_ok.1 h
      split at h
      · simp at h
      · rename_i hnew
        obtain ⟨n, rfl, rfl⟩ := directive_derived hline hd
        obtain ⟨ns, rfl, rfl, hpairwise, hseen⟩ := ih _ hlines h
        obtain ⟨hseen, hn⟩ := List.forall_mem_append.1 hseen
        have hapart := List.pairwise_cons.2 ⟨hn _ List.mem_cons_self, hpairwise⟩
        refine ⟨n :: ns, rfl, by simp, hapart, ?_⟩
        intro s hs
        refine List.forall_mem_cons.2 ⟨?_, hseen s hs⟩
        simpa using fun hsame => hnew (List.any_eq_true.2 ⟨s, hs, hsame⟩)
    · obtain ⟨rfl, rfl⟩ := Prod.mk.inj (Except.ok.inj h)
      exact ⟨[], rfl, by simp, .nil, by simp⟩

theorem directives_trees (ns : List DirectiveTree) (hl : ∀ n ∈ ns, n.line.Regular)
    (hpairwise : ns.Pairwise fun a b => ¬ Text.sameName a.spell.name b.spell.name)
    (hseen : ∀ s ∈ seen, ∀ n ∈ ns, ¬ Text.sameName s.name n.spell.name)
    (hrest : NotAtLine .header rest) :
    directives seen (ns.map (·.line) ++ rest) = .ok (seen ++ ns.map (·.spell), rest) := by
  induction ns generalizing seen with
  | nil =>
    cases rest with
    | nil => simp [directives]
    | cons l rest =>
      obtain ⟨t, ht, hk⟩ := hrest l rfl
      refine bind_eq_ok.2 ⟨t, ht, ?_⟩
      rw [if_neg hk]
      simp
  | cons n ns ih =>
    obtain ⟨hn, hns⟩ := List.forall_mem_cons.1 hl
    obtain ⟨hfirst, hpairwise⟩ := List.pairwise_cons.1 hpairwise
    refine bind_eq_ok.2 ⟨n.header.val, rfl, ?_⟩
    rw [if_pos (List.mem_singleton.1 n.header.property)]
    refine bind_eq_ok.2 ⟨_, directive_tree n hn, ?_⟩
    have hnew : (seen.any fun s => Text.sameName s.name n.spell.name) = false := by
      simpa using fun s hs => hseen s hs n List.mem_cons_self
    rw [hnew, if_neg (by decide)]
    have hseen' : ∀ s ∈ seen ++ [n.spell], ∀ m ∈ ns, ¬ Text.sameName s.name m.spell.name := by
      refine List.forall_mem_append.2
        ⟨fun s hs m hm => hseen s hs m (List.mem_cons_of_mem _ hm), ?_⟩
      exact List.forall_mem_singleton.2 hfirst
    have hmore := ih hns hpairwise hseen'
    rw [List.append_assoc] at hmore
    exact hmore

-- ------------------------------------------------------------------
-- Records
-- ------------------------------------------------------------------

def declaredIn (earlier : List RecordDecl) : List RecordDecl :=
  earlier.filter (!·.isClassifier)

def classifierIn (earlier : List RecordDecl) : Option RecordDecl :=
  earlier.find? (·.isClassifier)

variable {earlier : List RecordDecl} {line : Line} {r : RecordDecl}

theorem find?_declaredIn (earlier : List RecordDecl) (name : String) :
    ((declaredIn earlier).find? fun r => Text.sameName r.name name) =
      RecordTree.named? earlier name := by
  simp [declaredIn, RecordTree.named?, List.find?_filter]

theorem recordHead_derived {header : Token} {base : Option String} (hl : line.Regular)
    (h : recordHead (declaredIn earlier) line = .ok (header, base)) :
    ∃ (name : Leaf [.recordHeader]) (extended : Option (Leaf [.less] × Leaf [.recordHeader]))
      (eol : Leaf [.endOfLine]), name.val = header ∧
      (RecordTree.mk name extended eol [] []).head = line ∧
      (∀ p ∈ extended, ¬ Text.sameName name.val.nameOrRaw "classifier" ∧
        ∃ r ∈ earlier, ¬ r.isClassifier ∧ Text.sameName r.name p.2.val.nameOrRaw) ∧
      base = extended.bind fun p => (RecordTree.named? earlier p.2.val.nameOrRaw).map (·.name) := by
  obtain ⟨ts, stop⟩ := line
  obtain ⟨⟨name, rest₁⟩, h₁, h⟩ := bind_eq_ok.1 h
  obtain ⟨⟨less, rest₂⟩, h₂, h⟩ := bind_eq_ok.1 h
  obtain ⟨name, rfl, rfl⟩ := expect_derived h₁
  obtain ⟨less, rfl, rfl⟩ := takeIf_derived h₂
  cases less with
  | none =>
    obtain ⟨_, hend, h⟩ := bind_eq_ok.1 h
    obtain ⟨rfl, rfl⟩ := Prod.mk.inj (Except.ok.inj h)
    obtain ⟨rfl, e, rfl⟩ := expectEnd_ok hend
    obtain ⟨eol, rfl⟩ := regular_eol hl rfl
    exact ⟨name, none, eol, rfl, rfl, by simp, rfl⟩
  | some less =>
    obtain ⟨⟨extended, rest₃⟩, h₃, h⟩ := bind_eq_ok.1 h
    dsimp only at h
    split at h
    · simp at h
    · rename_i hclassifier
      split at h
      · simp at h
      · rename_i found hfound
        obtain ⟨_, hend, h⟩ := bind_eq_ok.1 h
        obtain ⟨rfl, rfl⟩ := Prod.mk.inj (Except.ok.inj h)
        obtain ⟨extended, rfl, rfl⟩ := expect_derived h₃
        obtain ⟨rfl, e, rfl⟩ := expectEnd_ok hend
        obtain ⟨eol, rfl⟩ := regular_eol hl rfl
        have hnamed := (find?_declaredIn earlier extended.val.nameOrRaw).symm.trans hfound
        refine ⟨name, some (less, extended), eol, rfl, rfl, ?_, by simp [hnamed]⟩
        rintro _ ⟨⟩
        have hmem := List.mem_filter.1 (List.mem_of_find?_eq_some hfound)
        have hsame := List.find?_some hfound
        exact ⟨hclassifier, found, hmem.1, by simpa using hmem.2, hsame⟩

theorem recordHead_tree (n : RecordTree) (hv : n.Valid earlier) :
    recordHead (declaredIn earlier) n.head = .ok (n.header.val, (n.spell earlier).base) := by
  obtain ⟨name, extended, eol, conditions, fields⟩ := n
  refine bind_eq_ok.2 ⟨_, expect_leaf _ name _, ?_⟩
  cases extended with
  | none => exact bind_eq_ok.2 ⟨_, takeIf_leaf none fun _ => by simp [NotAt], rfl⟩
  | some p =>
    obtain ⟨less, base⟩ := p
    obtain ⟨hclassifier, r, hr, hplain, hsame⟩ := hv.base _ rfl
    have hclassifier : ¬ Text.sameName name.val.nameOrRaw classifierName := hclassifier
    have hmem : r ∈ declaredIn earlier := List.mem_filter.2 ⟨hr, by simpa using hplain⟩
    have hexists : ((declaredIn earlier).find? fun r =>
        Text.sameName r.name base.val.nameOrRaw).isSome := by
      rw [List.find?_isSome]
      exact ⟨r, hmem, hsame⟩
    obtain ⟨found, hfound⟩ := Option.isSome_iff_exists.1 hexists
    have hnamed := (find?_declaredIn earlier base.val.nameOrRaw).symm.trans hfound
    refine bind_eq_ok.2 ⟨_, takeIf_some less _, ?_⟩
    refine bind_eq_ok.2 ⟨_, expect_leaf _ base _, ?_⟩
    dsimp only
    rw [if_neg hclassifier]
    simp only [hfound]
    refine bind_eq_ok.2 ⟨(), rfl, ?_⟩
    simp [RecordTree.spell, hnamed]

theorem record_derived (hl : ∀ l ∈ line :: lines, l.Regular)
    (h : record (declaredIn earlier) line lines = .ok (r, rest))
    (hnew : ∀ e ∈ earlier, ¬ Text.sameName e.name r.name) :
    ∃ n : RecordTree, n.lines ++ rest = line :: lines ∧ n.Valid earlier ∧ n.spell earlier = r := by
  obtain ⟨hline, hlines⟩ := List.forall_mem_cons.1 hl
  obtain ⟨⟨header, base⟩, hhead, h⟩ := bind_eq_ok.1 h
  obtain ⟨⟨conditions, middle⟩, hc, h⟩ := bind_eq_ok.1 h
  obtain ⟨⟨fields, last⟩, hf, h⟩ := bind_eq_ok.1 h
  obtain ⟨rfl, rfl⟩ := Prod.mk.inj (Except.ok.inj h)
  obtain ⟨name, extended, eol, rfl, rfl, hbase, rfl⟩ := recordHead_derived hline hhead
  obtain ⟨cs, rfl, -, rfl⟩ := linesOf_derived condition_derives hlines hc
  obtain ⟨fs, rfl, hfs, rfl⟩ := linesOf_derived field_derives (List.forall_mem_append.1 hlines).2 hf
  refine ⟨⟨name, extended, eol, cs, fs⟩, ?_, ⟨hnew, hbase, hfs⟩, rfl⟩
  rw [RecordTree.lines, List.cons_append, List.append_assoc]
  rfl

theorem record_tree (n : RecordTree) (hl : ∀ l ∈ n.lines, l.Regular) (hv : n.Valid earlier)
    (hc : NotAtLine .identifier rest) (hf : NotAtLine .number rest) :
    record (declaredIn earlier) n.head
        (n.conditions.map (·.line) ++ (n.fields.map (·.line) ++ rest)) =
      .ok (n.spell earlier, rest) := by
  obtain ⟨-, hlines⟩ := List.forall_mem_cons.1 hl
  obtain ⟨hconditions, hfields⟩ := List.forall_mem_append.1 hlines
  rw [List.forall_mem_map] at hconditions hfields
  refine bind_eq_ok.2 ⟨_, recordHead_tree n hv, ?_⟩
  refine bind_eq_ok.2 ⟨_, linesOf_trees condition_derives hconditions (fun _ _ => trivial) ?_, ?_⟩
  · cases n.fields with
    | nil => exact hc
    | cons f fs =>
      obtain ⟨t, ts, ht, hk⟩ := field_derives.first f
      exact notAtLine_of_first ht hk (by decide) _
  · exact bind_eq_ok.2 ⟨_, linesOf_trees field_derives hfields hv.fields hf, rfl⟩

theorem sameName_of_classifiers {a b : RecordDecl} (ha : a.isClassifier) (hb : b.isClassifier) :
    Text.sameName a.name b.name :=
  Text.sameName_iff.2 ((Text.sameName_iff.1 ha).trans (Text.sameName_iff.1 hb).symm)

/-- A name is compared with those of the other record types and that of the classifier, which is
with all of them. -/
theorem new_iff {name : String} :
    ((declaredIn earlier ++ (classifierIn earlier).toList).any fun d =>
        Text.sameName d.name name) = false ↔
      ∀ e ∈ earlier, ¬ Text.sameName e.name name := by
  rw [List.any_eq_false]
  constructor
  · intro h e he hsame
    cases hclassifier : e.isClassifier with
    | false =>
      have hmem : e ∈ declaredIn earlier := List.mem_filter.2 ⟨he, by simp [hclassifier]⟩
      exact h e (List.mem_append_left _ hmem) hsame
    | true =>
      obtain ⟨c, hc⟩ := Option.isSome_iff_exists.1
        ((List.find?_isSome (p := fun r => RecordDecl.isClassifier r)).2 ⟨e, he, hclassifier⟩)
      have hce := sameName_of_classifiers (List.find?_some hc) hclassifier
      refine h c (List.mem_append_right _ (by simp [classifierIn, hc])) ?_
      exact Text.sameName_iff.2 ((Text.sameName_iff.1 hce).trans (Text.sameName_iff.1 hsame))
  · intro h d hd
    rcases List.mem_append.1 hd with hd | hd
    · exact h d (List.mem_filter.1 hd).1
    · exact h d (List.mem_of_find?_eq_some (Option.mem_toList.1 hd))

theorem classifier_added (hr : r.isClassifier)
    (hnew : ∀ e ∈ earlier, ¬ Text.sameName e.name r.name) :
    declaredIn (earlier ++ [r]) = declaredIn earlier ∧ classifierIn (earlier ++ [r]) = some r := by
  have hnone : earlier.find? (·.isClassifier) = none := List.find?_eq_none.2 fun e he hc =>
    hnew e he (sameName_of_classifiers hc hr)
  exact ⟨by simp [declaredIn, hr], by simp [classifierIn, hnone, hr]⟩

theorem declared_added (hr : ¬ r.isClassifier) :
    declaredIn (earlier ++ [r]) = declaredIn earlier ++ [r] ∧
      classifierIn (earlier ++ [r]) = classifierIn earlier := by
  exact ⟨by simp [declaredIn, hr], by simp [classifierIn, List.find?_append, hr]⟩

variable {declared all : List RecordDecl} {classifier classifier' : Option RecordDecl} {eof : Token}

/-- Behind `earlier` the lines derive record types, and with them there are these and this
classifier. -/
def RecordsDerived (earlier : List RecordDecl) (lines : List Line) (all : List RecordDecl)
    (classifier : Option RecordDecl) : Prop :=
  ∃ ns : List RecordTree, ns.flatMap (·.lines) = lines ∧ RecordTree.AllValid earlier ns ∧
    declaredIn (earlier ++ RecordTree.spellAll earlier ns) = all ∧
    classifierIn (earlier ++ RecordTree.spellAll earlier ns) = classifier

theorem RecordsDerived.cons {n : RecordTree} (hv : n.Valid earlier)
    (h : RecordsDerived (earlier ++ [n.spell earlier]) rest all classifier) :
    RecordsDerived earlier (n.lines ++ rest) all classifier := by
  obtain ⟨ns, rfl, hns, hall, hclassifier⟩ := h
  refine ⟨n :: ns, rfl, ⟨hv, hns⟩, ?_, ?_⟩
  · rw [RecordTree.spellAll, List.append_cons]
    exact hall
  · rw [RecordTree.spellAll, List.append_cons]
    exact hclassifier

theorem records_derived (hl : ∀ l ∈ lines, l.Regular) (hd : declaredIn earlier = declared)
    (hc : classifierIn earlier = classifier)
    (h : records eof declared classifier lines = .ok (all, classifier')) :
    RecordsDerived earlier lines all classifier' := by
  fun_induction records eof declared classifier lines generalizing earlier with
  | case1 declared classifier =>
    obtain ⟨rfl, rfl⟩ := Prod.mk.inj (Except.ok.inj h)
    exact ⟨[], rfl, trivial, by simp [RecordTree.spellAll, hd], by simp [RecordTree.spellAll, hc]⟩
  | case2 | case3 | case4 | case7 => simp at h
  | case5 declared classifier line rest first hfirst hkind r after hrecord hclash hr ih =>
    subst hd hc
    have hnew := new_iff.1 (Bool.eq_false_iff.2 hclash)
    obtain ⟨n, hlines, hv, rfl⟩ := record_derived hl hrecord hnew
    rw [← hlines] at hl ⊢
    obtain ⟨hsame, hadded⟩ := classifier_added hr hnew
    exact .cons hv (ih (List.forall_mem_append.1 hl).2 hsame hadded h)
  | case6 declared classifier line rest first hfirst hkind r after hrecord hclash hr ih =>
    subst hd hc
    have hnew := new_iff.1 (Bool.eq_false_iff.2 hclash)
    obtain ⟨n, hlines, hv, rfl⟩ := record_derived hl hrecord hnew
    rw [← hlines] at hl ⊢
    obtain ⟨hadded, hsame⟩ := declared_added hr
    exact .cons hv (ih (List.forall_mem_append.1 hl).2 hadded hsame h)

theorem notAtLine_records (ns : List RecordTree) (hk : kind ≠ .recordHeader) :
    NotAtLine kind (ns.flatMap (·.lines)) := by
  cases ns with
  | nil => simp [NotAtLine]
  | cons n ns => exact notAtLine_of_first rfl (List.mem_singleton.1 n.header.property) hk.symm _

theorem records_cons {t : Token} (hfirst : line.first = .ok t) (hk : t.kind = .recordHeader)
    (hrecord : record declared line lines = .ok (r, rest))
    (hnew : ((declared ++ classifier.toList).any fun d => Text.sameName d.name r.name) = false) :
    records eof declared classifier (line :: lines) =
      if r.isClassifier then records eof declared (some r) rest
      else records eof (declared ++ [r]) classifier rest := by
  rw [records, hfirst]
  simp only [hk, if_true]
  split
  · simp_all
  · rename_i found after hfound
    obtain ⟨rfl, rfl⟩ := Prod.mk.inj (Except.ok.inj (hfound.symm.trans hrecord))
    rw [hnew, if_neg (by decide)]

theorem records_trees (ns : List RecordTree) (hl : ∀ l ∈ ns.flatMap (·.lines), l.Regular)
    (hv : RecordTree.AllValid earlier ns) :
    records eof (declaredIn earlier) (classifierIn earlier) (ns.flatMap (·.lines)) =
      .ok (declaredIn (earlier ++ RecordTree.spellAll earlier ns),
        classifierIn (earlier ++ RecordTree.spellAll earlier ns)) := by
  induction ns generalizing earlier with
  | nil =>
    rw [List.flatMap_nil, records]
    simp [RecordTree.spellAll]
  | cons n ns ih =>
    obtain ⟨hn, hns⟩ := hv
    rw [List.flatMap_cons] at hl
    obtain ⟨hnl, hnsl⟩ := List.forall_mem_append.1 hl
    have hrecord := record_tree n hnl hn (notAtLine_records ns (by decide))
      (notAtLine_records ns (by decide))
    have hfirst : n.head.first = .ok n.header.val := rfl
    have hk : n.header.val.kind = .recordHeader := List.mem_singleton.1 n.header.property
    have hmore := ih hnsl hns
    rw [RecordTree.spellAll, List.append_cons, ← hmore, List.flatMap_cons, RecordTree.lines,
      List.cons_append, List.append_assoc, records_cons hfirst hk hrecord (new_iff.2 hn.name)]
    split
    · rename_i hr
      obtain ⟨hsame, hadded⟩ := classifier_added hr hn.name
      rw [hsame, hadded]
    · rename_i hr
      obtain ⟨hadded, hsame⟩ := declared_added hr
      rw [hadded, hsame]

-- ------------------------------------------------------------------
-- Layouts
-- ------------------------------------------------------------------

theorem ofLines_derived {source : Option String} {input : Lines} {layout : Layout}
    (hl : ∀ l ∈ input.lines, l.Regular) (heof : input.endOfInput.kind = .endOfInput)
    (h : ofLines source input = .ok layout) :
    ∃ n : LayoutTree, n.lines = input.lines ∧ n.eof.val = input.endOfInput ∧ n.Valid ∧
      n.spell source = layout := by
  obtain ⟨⟨found, rest⟩, hd, h⟩ := bind_eq_ok.1 h
  obtain ⟨_, hexpect, h⟩ := bind_eq_ok.1 h
  obtain ⟨⟨types, classifier⟩, hr, h⟩ := bind_eq_ok.1 h
  obtain rfl := Except.ok.inj h
  obtain ⟨ds, hlines, rfl, hpairwise, -⟩ := directives_derived hl hd
  rw [← hlines] at hl ⊢
  have hrecords : RecordsDerived [] rest types classifier :=
    records_derived (List.forall_mem_append.1 hl).2 rfl rfl hr
  obtain ⟨ns, rfl, hns, rfl, rfl⟩ := hrecords
  cases ns with
  | nil => simp [expectRecords] at hexpect
  | cons n ns =>
    have hvalid : LayoutTree.Valid ⟨ds, n, ns, ⟨_, List.mem_singleton.2 heof⟩⟩ := ⟨hpairwise, hns⟩
    exact ⟨⟨ds, n, ns, ⟨_, List.mem_singleton.2 heof⟩⟩, rfl, rfl, hvalid, rfl⟩

theorem ofLines_tree (source : Option String) (n : LayoutTree) (hl : ∀ l ∈ n.lines, l.Regular)
    (hv : n.Valid) : ofLines source ⟨n.lines, n.eof.val⟩ = .ok (n.spell source) := by
  obtain ⟨hdirectives, hrecords⟩ := List.forall_mem_append.1 hl
  rw [List.forall_mem_map] at hdirectives
  have hrest : NotAtLine .header ((n.first :: n.more).flatMap (·.lines)) :=
    notAtLine_records (n.first :: n.more) (by decide)
  have hread := directives_trees n.directives hdirectives hv.directives (List.forall_mem_nil _) hrest
  refine bind_eq_ok.2 ⟨_, hread, ?_⟩
  refine bind_eq_ok.2 ⟨(), ?_, ?_⟩
  · refine bind_eq_ok.2 ⟨n.first.header.val, rfl, ?_⟩
    rw [if_pos (List.mem_singleton.1 n.first.header.property)]
  · exact bind_eq_ok.2 ⟨_, records_trees (n.first :: n.more) hrecords hv.records, rfl⟩

end Parser

/-- A text is read as a layout exactly if it is made of tokens that have a valid derivation, and the
layout is the one that the derivation spells. -/
theorem parse_iff {text : String} {source : Option String} {layout : Layout} :
    parse text source = .ok layout ↔
      ∃ (tokens : List Token) (n : LayoutTree), tokenize text = .ok tokens ∧ n.tokens = tokens ∧
        n.Valid ∧ n.spell source = layout := by
  have hregular := ofSource_regular text
  rw [parse, mapError_eq_ok]
  constructor
  · intro h
    obtain ⟨n, hlines, heof, hv, hspell⟩ := Parser.ofLines_derived hregular rfl h
    refine ⟨n.tokens, n, tokenize_eq_ok.2 ⟨?_, ?_⟩, rfl, hv, hspell⟩
    · intro l hl
      obtain ⟨t, ht, -⟩ := (n.lines_closed l (hlines ▸ hl)).stop
      exact ⟨t, ht⟩
    · rw [← hlines, ← heof, n.lines_tokens]
  · rintro ⟨_, n, htokenize, rfl, hv, rfl⟩
    obtain ⟨hstops, htokens⟩ := tokenize_eq_ok.1 htokenize
    have hclosed : ∀ l ∈ (Lines.ofSource text).lines, l.Closed := fun l hl =>
      (hstops l hl).elim fun t ht => (hregular l hl).closed ht
    obtain ⟨hlines, heof⟩ := closedTokens_unique n.lines_closed hclosed
      (List.mem_singleton.1 n.eof.property) rfl (n.lines_tokens.trans htokens.symm)
    have hread := Parser.ofLines_tree source n (hlines ▸ hregular) hv
    rw [hlines, heof] at hread
    exact hread

end Flatfile.Layout
