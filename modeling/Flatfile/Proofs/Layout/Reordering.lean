import Flatfile.Proofs.Layout.Partition
import Flatfile.Proofs.Layout.Renumbering
import Flatfile.Proofs.Lookup
import Mathlib.Data.List.Perm.Basic

/-!
# Lines in another order

Directives may stand in any order among themselves, and so may the fields of a record type that is
not the classifier. The lines of a text change places (`Reordered`), and what is read from them is
the same but for its order and the numbers of lines (`Alike`, `parse_reordered`). The derivation of
the one text gives that of the other: its trees are moved along with their lines.
-/

namespace Flatfile.Layout

-- ------------------------------------------------------------------
-- Texts
-- ------------------------------------------------------------------

def Line.Begins (kind : TokenKind) (line : Line) : Prop :=
  ∃ t, line.first = .ok t ∧ t.kind = kind

instance (kind : TokenKind) (line : Line) : Decidable (line.Begins kind) :=
  inferInstanceAs (Decidable (∃ _, _))

def lineOf (text : List Char) : Line :=
  tokensFrom 1 1 text

/-- The lines of one kind in another order, and all others in their places. -/
structure Rearranged (kind : TokenKind) (texts texts' : List (List Char)) : Prop where
  perm : texts.Perm texts'
  stays : List.Forall₂ (fun text text' => text = text' ∨
    (lineOf text).Begins kind ∧ (lineOf text').Begins kind) texts texts'

def Line.IsPlainHead (line : Line) : Prop :=
  ∃ t, line.first = .ok t ∧ t.kind = .recordHeader ∧ ¬ Text.sameName t.nameOrRaw classifierName

instance (line : Line) : Decidable line.IsPlainHead :=
  inferInstanceAs (Decidable (∃ _, _))

/-- Texts that differ in the order of their directives, or in the order of the fields of a record
type, where the lines of `own` are those behind its head. -/
inductive Reordered : List (List Char) → List (List Char) → Prop
  | directives {texts texts'} (h : Rearranged .header texts texts') : Reordered texts texts'
  | fields {before head own own' after} (hhead : (lineOf head).IsPlainHead)
      (hown : ∀ text ∈ own, ¬ (lineOf text).Begins .recordHeader)
      (h : Rearranged .number own own') :
      Reordered (before ++ head :: (own ++ after)) (before ++ head :: (own' ++ after))

theorem Rearranged.symm {kind : TokenKind} {texts texts' : List (List Char)}
    (h : Rearranged kind texts texts') : Rearranged kind texts' texts where
  perm := h.perm.symm
  stays := h.stays.flip.imp fun _ _ hline => hline.imp Eq.symm And.symm

theorem Reordered.symm {texts texts' : List (List Char)} (h : Reordered texts texts') :
    Reordered texts' texts := by
  cases h with
  | directives h => exact .directives h.symm
  | fields hhead hown h =>
    exact .fields hhead (fun text htext => hown text (h.perm.mem_iff.2 htext)) h.symm

-- ------------------------------------------------------------------
-- What is declared
-- ------------------------------------------------------------------

/-- Record types with the same fields in another order, on other lines. That of a classifier has no
other order. -/
structure RecordAlike (r r' : RecordDecl) : Prop where
  name : r.name = r'.name
  base : r.base = r'.base
  conditions : r.conditions = r'.conditions
  fields : (r.fields.map FieldDecl.unplaced).Perm (r'.fields.map FieldDecl.unplaced)
  classifier : r.isClassifier → r = r'

structure Alike (layout layout' : Layout) : Prop where
  source : layout.source = layout'.source
  directives :
    (layout.directives.map Directive.unplaced).Perm (layout'.directives.map Directive.unplaced)
  recordTypes : List.Forall₂ RecordAlike layout.recordTypes layout'.recordTypes
  classifier : layout.classifier = layout'.classifier

theorem RecordAlike.isClassifier {r r' : RecordDecl} (h : RecordAlike r r') :
    r.isClassifier = r'.isClassifier := by
  rw [RecordDecl.isClassifier, h.name]
  rfl

-- ------------------------------------------------------------------
-- Lines that are moved
-- ------------------------------------------------------------------

section Lines

variable {kind : TokenKind} {n : Nat} {text : List Char} {texts texts' : List (List Char)}
  {line : Line} {lines lines' stay stay' mid : List Line}

structure Moved (kind : TokenKind) (lines lines' : List Line) : Prop where
  perm : (lines.map (Line.onLine 0)).Perm (lines'.map (Line.onLine 0))
  stays : List.Forall₂ (fun l l' => l = l' ∨ l.Begins kind ∧ l'.Begins kind) lines lines'

theorem lineOf_onLine (n : Nat) (text : List Char) :
    (lineOf text).onLine n = tokensFrom n 1 text :=
  tokensFrom_onLine 1 n 1 text

theorem Line.first_onLine {t : Token} (h : line.first = .ok t) (n : Nat) :
    (line.onLine n).first = .ok (t.onLine n) := by
  obtain ⟨tokens, stop⟩ := line
  cases tokens with
  | cons u tokens =>
    obtain rfl := Except.ok.inj h
    rfl
  | nil =>
    obtain rfl : stop = .ok t := h
    rfl

theorem Line.Begins.onLine (h : line.Begins kind) (n : Nat) : (line.onLine n).Begins kind := by
  obtain ⟨t, ht, hk⟩ := h
  exact ⟨t.onLine n, Line.first_onLine ht n, hk⟩

theorem Line.IsPlainHead.onLine (h : line.IsPlainHead) (n : Nat) : (line.onLine n).IsPlainHead := by
  obtain ⟨t, ht, hplain⟩ := h
  exact ⟨t.onLine n, Line.first_onLine ht n, hplain⟩

theorem begins_tokensFrom :
    (tokensFrom n 1 text).Begins kind ↔ (lineOf text).Begins kind := by
  constructor
  · intro h
    rw [lineOf, ← tokensFrom_onLine n 1]
    exact h.onLine 1
  · intro h
    exact lineOf_onLine n text ▸ h.onLine n

theorem Line.Begins.isBlank (hl : line.Regular) (h : line.Begins kind) (hk : kind ≠ .endOfLine) :
    line.isBlank = false := by
  obtain ⟨t, ht, rfl⟩ := h
  obtain ⟨tokens, stop⟩ := line
  cases tokens with
  | cons u tokens => rfl
  | nil => exact absurd (hl.stop t ht) hk

theorem linesFrom_append (n : Nat) (texts texts' : List (List Char)) :
    linesFrom n (texts ++ texts') = linesFrom n texts ++ linesFrom (n + texts.length) texts' := by
  simp only [linesFrom, List.zipIdx_append, List.filterMap_append]

theorem linesFrom_cons_of_begins (h : (lineOf text).Begins kind) (hk : kind ≠ .endOfLine) :
    linesFrom n (text :: texts) = tokensFrom n 1 text :: linesFrom (n + 1) texts := by
  have hblank := (begins_tokensFrom.2 h).isBlank (tokensFrom_regular n 1 text) hk
  rw [linesFrom_cons, hblank, if_neg Bool.false_ne_true]

theorem linesFrom_unnumbered (n : Nat) (texts : List (List Char)) :
    (linesFrom n texts).map (Line.onLine 0) = texts.filterMap fun text =>
      if (lineOf text).isBlank then none else some ((lineOf text).onLine 0) := by
  induction texts generalizing n with
  | nil => rfl
  | cons text texts ih =>
    have hline : (tokensFrom n 1 text).onLine 0 = (lineOf text).onLine 0 := by
      rw [lineOf_onLine, tokensFrom_onLine]
    have hblank : (tokensFrom n 1 text).isBlank = (lineOf text).isBlank := by
      rw [← Line.onLine_isBlank 0, hline, Line.onLine_isBlank]
    rw [linesFrom_cons, List.filterMap_cons, hblank]
    split
    · exact ih (n + 1)
    · rw [List.map_cons, hline, ih (n + 1)]

theorem exists_of_mem_linesFrom (h : line ∈ linesFrom n texts) :
    ∃ text ∈ texts, ∃ k, line = tokensFrom k 1 text := by
  simp only [linesFrom, List.mem_filterMap] at h
  obtain ⟨⟨text, k⟩, hk, h⟩ := h
  split at h
  · cases h
  · exact ⟨text, List.fst_mem_of_mem_zipIdx hk, k, (Option.some.inj h).symm⟩

theorem linesFrom_onLine (n : Nat) (texts : List (List Char)) :
    ∀ l ∈ linesFrom n texts, ∃ k, l.onLine k = l := by
  intro l hl
  obtain ⟨text, -, k, rfl⟩ := exists_of_mem_linesFrom hl
  exact ⟨k, tokensFrom_onLine k k 1 text⟩

theorem Rearranged.moved (h : Rearranged kind texts texts') (hk : kind ≠ .endOfLine) (n : Nat) :
    Moved kind (linesFrom n texts) (linesFrom n texts') := by
  refine ⟨?_, ?_⟩
  · rw [linesFrom_unnumbered, linesFrom_unnumbered]
    exact h.perm.filterMap _
  · have hstays := h.stays
    clear h
    induction hstays generalizing n with
    | nil => exact .nil
    | @cons text text' texts texts' hfirst _ ih =>
      rcases hfirst with rfl | ⟨hb, hb'⟩
      · rw [linesFrom_cons, linesFrom_cons]
        split
        · exact ih (n + 1)
        · exact .cons (.inl rfl) (ih (n + 1))
      · rw [linesFrom_cons_of_begins hb hk, linesFrom_cons_of_begins hb' hk]
        exact .cons (.inr ⟨begins_tokensFrom.2 hb, begins_tokensFrom.2 hb'⟩)
          (ih (n + 1))

theorem Moved.append_right (h : Moved kind lines lines') (rest : List Line) :
    Moved kind (lines ++ rest) (lines' ++ rest) where
  perm := by
    rw [List.map_append, List.map_append]
    exact h.perm.append_right _
  stays := List.rel_append h.stays (List.forall₂_same.2 fun _ _ => .inl rfl)

/-- Lines of other kinds stay where they are. -/
theorem stays_of_not_begins (h : List.Forall₂ (fun l l' => l = l' ∨ l.Begins kind ∧ l'.Begins kind)
    stay stay') (hstay : ∀ l ∈ stay, ¬ l.Begins kind) : stay = stay' := by
  induction h with
  | nil => rfl
  | cons hl _ ih =>
    obtain ⟨hnot, hmore⟩ := List.forall_mem_cons.1 hstay
    rcases hl with rfl | ⟨hb, -⟩
    · rw [ih hmore]
    · exact absurd hb hnot

theorem Moved.split (h : Moved kind (stay ++ (mid ++ stay')) lines')
    (hstay : ∀ l ∈ stay, ¬ l.Begins kind) (hstay' : ∀ l ∈ stay', ¬ l.Begins kind) :
    ∃ mid', lines' = stay ++ (mid' ++ stay') ∧
      (mid.map (Line.onLine 0)).Perm (mid'.map (Line.onLine 0)) := by
  obtain ⟨front, rest, rfl, hfront, hrest⟩ := forall₂_append_left h.stays
  obtain ⟨mid', back, rfl, -, hback⟩ := forall₂_append_left hrest
  obtain rfl := stays_of_not_begins hfront hstay
  obtain rfl := stays_of_not_begins hback hstay'
  have hperm := h.perm
  simp only [List.map_append, List.perm_append_left_iff, List.perm_append_right_iff] at hperm
  exact ⟨mid', rfl, hperm⟩

end Lines

-- ------------------------------------------------------------------
-- Trees that are moved with their lines
-- ------------------------------------------------------------------

section Trees

variable {Tree : Type} {line : Tree → Line} {onLine : Nat → Tree → Tree} {ns : List Tree}
  {lines lines' : List Line} {kind : TokenKind}

def MovedTrees (onLine : Nat → Tree → Tree) (ns ns' : List Tree) : Prop :=
  ∃ ms, ms.Perm ns ∧ List.Forall₂ (fun m' m => ∃ k, m' = onLine k m) ns' ms

theorem movedTrees_of_perm (honLine : ∀ k n, line (onLine k n) = (line n).onLine k)
    (hlines' : ∀ l ∈ lines', ∃ k, l.onLine k = l)
    (h : ((ns.map line).map (Line.onLine 0)).Perm (lines'.map (Line.onLine 0))) :
    ∃ ns', ns'.map line = lines' ∧ MovedTrees onLine ns ns' := by
  have hsame : List.Forall₂ (fun l n => l = (line n).onLine 0)
      ((ns.map line).map (Line.onLine 0)) ns := by
    rw [List.map_map, List.forall₂_map_left_iff, List.forall₂_same]
    exact fun _ _ => rfl
  obtain ⟨ms, hms, hperm⟩ := List.perm_comp_forall₂ h.symm hsame
  rw [List.forall₂_map_left_iff] at hms
  clear h hsame
  suffices hmoved : ∃ ns', ns'.map line = lines' ∧
      List.Forall₂ (fun m' m => ∃ k, m' = onLine k m) ns' ms by
    obtain ⟨ns', hns', hmoved⟩ := hmoved
    exact ⟨ns', hns', ms, hperm, hmoved⟩
  clear hperm
  induction hms with
  | nil => exact ⟨[], rfl, .nil⟩
  | @cons l m lines ms hlm _ ih =>
    obtain ⟨⟨k, hk⟩, hmore⟩ := List.forall_mem_cons.1 hlines'
    obtain ⟨ns', rfl, hns'⟩ := ih hmore
    refine ⟨onLine k m :: ns', ?_, .cons ⟨k, rfl⟩ hns'⟩
    rw [List.map_cons, honLine, ← Line.onLine_onLine 0, ← hlm, Line.onLine_onLine, hk]

/-- What the trees are but for their lines, in another order. -/
theorem MovedTrees.perm {β : Type} {f : Tree → β} (hf : ∀ k n, f (onLine k n) = f n)
    {ns' : List Tree} (h : MovedTrees onLine ns ns') : (ns.map f).Perm (ns'.map f) := by
  obtain ⟨ms, hperm, hms⟩ := h
  refine (hperm.map f).symm.trans (.of_eq ?_)
  clear hperm
  induction hms with
  | nil => rfl
  | cons hm _ ih =>
    obtain ⟨k, rfl⟩ := hm
    rw [List.map_cons, List.map_cons, hf, ih]

theorem MovedTrees.forall_mem {P : Tree → Prop} (hP : ∀ k {n}, P n → P (onLine k n))
    {ns' : List Tree} (h : MovedTrees onLine ns ns') (hns : ∀ n ∈ ns, P n) : ∀ n ∈ ns', P n := by
  obtain ⟨ms, hperm, hms⟩ := h
  intro n hn
  obtain ⟨m, hm, k, rfl⟩ := exists_mem_left_of_forall₂ hms.flip hn
  exact hP k (hns m (hperm.mem_iff.1 hm))

end Trees

-- ------------------------------------------------------------------
-- Records
-- ------------------------------------------------------------------

theorem begins_of_tokens {l : Line} {t : Token} {ts : List Token} {kind kind' : TokenKind}
    (ht : l.tokens = t :: ts) (hk : t.kind = kind) : l.Begins kind' ↔ kind = kind' := by
  subst hk
  have hfirst : l.first = .ok t := by rw [Line.first, ht]
  constructor
  · rintro ⟨u, hu, rfl⟩
    rw [Except.ok.inj (hfirst.symm.trans hu)]
  · exact fun h => ⟨t, hfirst, h⟩

theorem DirectiveTree.begins_iff {n : DirectiveTree} {kind : TokenKind} :
    n.line.Begins kind ↔ .header = kind :=
  begins_of_tokens rfl (List.mem_singleton.1 n.header.property)

theorem ConditionTree.begins_iff {n : ConditionTree} {kind : TokenKind} :
    n.line.Begins kind ↔ .identifier = kind :=
  begins_of_tokens rfl (List.mem_singleton.1 n.field.property)

theorem FieldTree.begins_iff {n : FieldTree} {kind : TokenKind} :
    n.line.Begins kind ↔ .number = kind :=
  begins_of_tokens rfl (List.mem_singleton.1 n.position.property)

namespace RecordTree

theorem begins_iff {n : RecordTree} {kind : TokenKind} :
    n.head.Begins kind ↔ .recordHeader = kind :=
  begins_of_tokens rfl (List.mem_singleton.1 n.header.property)

def body (n : RecordTree) : List Line :=
  n.conditions.map (·.line) ++ n.fields.map (·.line)

theorem lines_eq (n : RecordTree) : n.lines = n.head :: n.body := rfl

theorem body_begins {n : RecordTree} {l : Line} (hl : l ∈ n.body) {kind : TokenKind}
    (h : l.Begins kind) : kind = .identifier ∨ kind = .number := by
  rcases List.mem_append.1 hl with hl | hl
  · obtain ⟨c, -, rfl⟩ := List.mem_map.1 hl
    exact .inl (ConditionTree.begins_iff.1 h).symm
  · obtain ⟨f, -, rfl⟩ := List.mem_map.1 hl
    exact .inr (FieldTree.begins_iff.1 h).symm

theorem not_begins_header {ns : List RecordTree} :
    ∀ l ∈ ns.flatMap (·.lines), ¬ l.Begins .header := by
  intro l hl h
  obtain ⟨n, -, hl⟩ := List.mem_flatMap.1 hl
  rcases List.mem_cons.1 hl with rfl | hl
  · exact absurd (begins_iff.1 h) (by decide)
  · exact absurd (body_begins hl h) (by decide)

theorem exists_of_head {ns : List RecordTree} {front before after : List Line} {head : Line}
    (hfront : ∀ l ∈ front, ¬ l.Begins .recordHeader) (hhead : head.Begins .recordHeader)
    (h : front ++ ns.flatMap (·.lines) = before ++ head :: after) :
    ∃ earlier n later, ns = earlier ++ n :: later ∧ n.head = head ∧
      before = front ++ earlier.flatMap (·.lines) ∧
      after = n.body ++ later.flatMap (·.lines) := by
  induction ns generalizing front before with
  | nil =>
    rw [List.flatMap_nil, List.append_nil] at h
    exact absurd hhead (hfront head (h ▸ by simp))
  | cons n ns ih =>
    rw [List.flatMap_cons, lines_eq, List.cons_append] at h
    -- The head is behind `front`, and is that of `n` or comes after the lines of `n`.
    rcases List.append_eq_append_iff.1 h with ⟨between, rfl, hrest⟩ | ⟨rest, rfl, hrest⟩
    · cases between with
      | nil =>
        obtain ⟨rfl, rfl⟩ := List.cons.inj hrest
        exact ⟨[], n, ns, rfl, rfl, by simp, rfl⟩
      | cons l between =>
        obtain ⟨rfl, htail⟩ := List.cons.inj (hrest.trans (List.cons_append ..))
        have hbody : ∀ l ∈ n.body, ¬ l.Begins .recordHeader := fun l hl hb =>
          absurd (body_begins hl hb) (by decide)
        obtain ⟨earlier, m, later, rfl, hm, rfl, rfl⟩ := ih hbody htail
        exact ⟨n :: earlier, m, later, rfl, hm, by simp [lines_eq], rfl⟩
    · cases rest with
      | nil =>
        obtain ⟨rfl, rfl⟩ := List.cons.inj hrest
        exact ⟨[], n, ns, rfl, rfl, by simp, rfl⟩
      | cons l rest =>
        obtain ⟨rfl, -⟩ := List.cons.inj hrest
        exact absurd hhead (hfront head (by simp))

theorem body_of_own {n : RecordTree} {later : List RecordTree} {own after : List Line}
    (hown : ∀ l ∈ own, ¬ l.Begins .recordHeader)
    (h : own ++ after = n.body ++ later.flatMap (·.lines)) :
    ∃ rest, n.body = own ++ rest ∧ after = rest ++ later.flatMap (·.lines) := by
  rcases List.append_eq_append_iff.1 h with ⟨rest, hbody, hafter⟩ | ⟨rest, rfl, hlater⟩
  · exact ⟨rest, hbody, hafter⟩
  · -- Beyond the body, the next line is the head of a later record.
    cases rest with
    | nil => exact ⟨[], by simp, hlater.symm⟩
    | cons l rest =>
      cases later with
      | nil => simp at hlater
      | cons m later =>
        obtain ⟨rfl, -⟩ := List.cons.inj hlater
        exact absurd (begins_iff.2 rfl) (hown m.head (by simp))

-- ------------------------------------------------------------------
-- Records with their fields in another order
-- ------------------------------------------------------------------

structure Alike (n n' : RecordTree) : Prop where
  header : n.header = n'.header
  base : n.base = n'.base
  conditions : n.conditions = n'.conditions
  fields : (n.fields.map (·.spell.unplaced)).Perm (n'.fields.map (·.spell.unplaced))
  valid : (∀ f ∈ n.fields, f.Valid) → ∀ f ∈ n'.fields, f.Valid
  classifier : Text.sameName n.name classifierName → n = n'

theorem Alike.refl (n : RecordTree) : Alike n n :=
  ⟨rfl, rfl, rfl, .refl _, id, fun _ => rfl⟩

variable {earlier earlier' : List RecordDecl} {n n' : RecordTree} {ns ns' : List RecordTree}

theorem Alike.name (h : Alike n n') : n.name = n'.name := by
  rw [RecordTree.name, h.header]
  rfl

theorem forall_mem_of_names {P : String → Prop}
    (hnames : earlier.map (·.name) = earlier'.map (·.name)) (h : ∀ r ∈ earlier, P r.name) :
    ∀ r ∈ earlier', P r.name := by
  have hall : ∀ name ∈ earlier.map (·.name), P name := List.forall_mem_map.2 h
  rw [hnames] at hall
  exact List.forall_mem_map.1 hall

theorem named?_name (earlier : List RecordDecl) (name : String) :
    (named? earlier name).map (·.name) =
      (earlier.map (·.name)).find? fun other =>
        !Text.sameName other classifierName && Text.sameName other name := by
  rw [List.find?_map]
  rfl

theorem Alike.spell (h : Alike n n') (hnames : earlier.map (·.name) = earlier'.map (·.name)) :
    RecordAlike (n.spell earlier) (n'.spell earlier') where
  name := h.name
  base := by simp only [RecordTree.spell, h.base, named?_name, hnames]
  conditions := by simp only [RecordTree.spell, h.conditions]
  fields := by
    simp only [RecordTree.spell, List.map_map]
    exact h.fields
  classifier hclassifier := by
    obtain rfl := h.classifier hclassifier
    simp only [RecordTree.spell, named?_name, hnames]

theorem Alike.valid_of (h : Alike n n') (hnames : earlier.map (·.name) = earlier'.map (·.name))
    (hv : n.Valid earlier) : n'.Valid earlier' where
  name := h.name ▸ forall_mem_of_names (P := fun name => ¬ Text.sameName name n.name) hnames hv.name
  base p hp := by
    obtain ⟨hplain, r, hr, hbase⟩ := hv.base p (h.base ▸ hp)
    refine ⟨h.name ▸ hplain, ?_⟩
    -- If none of the records before `n'` were the base, then none before `n` would be.
    by_contra hnone
    refine forall_mem_of_names (P := fun name => ¬ (¬ Text.sameName name classifierName ∧
      Text.sameName name p.2.val.nameOrRaw)) hnames.symm (fun r hr hbase => ?_) r hr hbase
    exact hnone ⟨r, hr, hbase⟩
  fields := h.valid hv.fields

theorem Alike.all (h : List.Forall₂ Alike ns ns')
    (hnames : earlier.map (·.name) = earlier'.map (·.name)) (hv : AllValid earlier ns) :
    AllValid earlier' ns' ∧
      List.Forall₂ RecordAlike (spellAll earlier ns) (spellAll earlier' ns') := by
  induction h generalizing earlier earlier' with
  | nil => exact ⟨trivial, .nil⟩
  | @cons n n' ns ns' hn _ ih =>
    obtain ⟨hvalid, hmore⟩ := hv
    have hspell := hn.spell hnames
    have hnames' : (earlier ++ [n.spell earlier]).map (·.name) =
        (earlier' ++ [n'.spell earlier']).map (·.name) := by
      simp only [List.map_append, hnames, List.map_cons, List.map_nil, hspell.name]
    obtain ⟨hvalid', hmore'⟩ := ih hnames' hmore
    exact ⟨⟨hn.valid_of hnames hvalid, hvalid'⟩, .cons hspell hmore'⟩

theorem exists_alike {lines' : List Line} (h : Moved .number n.body lines')
    (hlines' : ∀ l ∈ lines', ∃ k, l.onLine k = l) (hplain : ¬ Text.sameName n.name classifierName) :
    ∃ n', n'.head = n.head ∧ n'.body = lines' ∧ Alike n n' := by
  have hconditions : ∀ l ∈ n.conditions.map (·.line), ¬ l.Begins .number :=
    List.forall_mem_map.2 fun c _ hb => absurd (ConditionTree.begins_iff.1 hb) (by decide)
  have hmoved : Moved .number (n.conditions.map (·.line) ++ (n.fields.map (·.line) ++ [])) lines' :=
    (List.append_nil (n.fields.map (·.line))).symm ▸ h
  obtain ⟨mid, rfl, hperm⟩ := hmoved.split hconditions (List.forall_mem_nil _)
  rw [List.append_nil] at hlines' ⊢
  obtain ⟨fields, rfl, hfields⟩ := movedTrees_of_perm FieldTree.onLine_line
    (List.forall_mem_append.1 hlines').2 hperm
  refine ⟨{ n with fields }, rfl, rfl, rfl, rfl, rfl, ?_, ?_, fun hc => absurd hc hplain⟩
  · exact hfields.perm fun k f => f.spell_unplaced k
  · exact hfields.forall_mem fun k _ hf => FieldTree.onLine_valid hf

end RecordTree

-- ------------------------------------------------------------------
-- Layouts
-- ------------------------------------------------------------------

theorem find?_isClassifier {rs rs' : List RecordDecl} (h : List.Forall₂ RecordAlike rs rs') :
    rs.find? (·.isClassifier) = rs'.find? (·.isClassifier) := by
  induction h with
  | nil => rfl
  | @cons r r' _ _ hr _ ih =>
    rw [List.find?_cons, List.find?_cons, ← hr.isClassifier, ih]
    cases hc : r.isClassifier with
    | false => rfl
    | true => rw [hr.classifier hc]

namespace LayoutTree

variable {n : LayoutTree} {lines' : List Line} {source : Option String}

theorem exists_alike {ds : List DirectiveTree} {rs : List RecordTree} (hv : n.Valid)
    (hds : (n.directives.map (·.spell.unplaced)).Perm (ds.map (·.spell.unplaced)))
    (hrs : List.Forall₂ RecordTree.Alike (n.first :: n.more) rs) :
    ∃ n' : LayoutTree, n'.lines = ds.map (·.line) ++ rs.flatMap (·.lines) ∧ n'.eof = n.eof ∧
      n'.Valid ∧ (n.spell source).Alike (n'.spell source) := by
  obtain ⟨first, more, hfirst, hmore, rfl⟩ := List.forall₂_cons_left_iff.1 hrs
  have hnames : ([] : List RecordDecl).map (·.name) = ([] : List RecordDecl).map (·.name) := rfl
  obtain ⟨hrecords, hspell⟩ := RecordTree.Alike.all hrs hnames hv.records
  have hapart : NamesApart Directive.name (n.directives.map (·.spell.unplaced)) :=
    List.pairwise_map.2 hv.directives
  refine ⟨⟨ds, first, more, n.eof⟩, rfl, rfl, ⟨?_, hrecords⟩, rfl, ?_, ?_, ?_⟩
  · exact List.pairwise_map.1 (hapart.perm hds)
  · simp only [LayoutTree.spell, List.map_map]
    exact hds
  · simp only [LayoutTree.spell, LayoutTree.recordTypes]
    exact List.rel_filter (fun _ _ h => by simp [h.isClassifier]) hspell
  · simp only [LayoutTree.spell, LayoutTree.recordTypes]
    exact find?_isClassifier hspell

theorem exists_of_directives (hv : n.Valid) (h : Moved .header n.lines lines')
    (hlines' : ∀ l ∈ lines', ∃ k, l.onLine k = l) :
    ∃ n' : LayoutTree, n'.lines = lines' ∧ n'.eof = n.eof ∧ n'.Valid ∧
      (n.spell source).Alike (n'.spell source) := by
  have hmoved : Moved .header ([] ++ n.lines) lines' := h
  obtain ⟨mid, hmid, hperm⟩ := hmoved.split (List.forall_mem_nil _) RecordTree.not_begins_header
  rw [List.nil_append] at hmid
  subst hmid
  obtain ⟨ds, rfl, hds⟩ := movedTrees_of_perm DirectiveTree.onLine_line
    (List.forall_mem_append.1 hlines').1 hperm
  exact exists_alike hv (hds.perm fun k d => d.spell_unplaced k)
    (List.forall₂_same.2 fun r _ => .refl r)

theorem exists_of_fields {before own own' after : List Line} {head : Line} (hv : n.Valid)
    (hlines : n.lines = before ++ head :: (own ++ after)) (hhead : head.IsPlainHead)
    (hown : ∀ l ∈ own, ¬ l.Begins .recordHeader) (h : Moved .number own own')
    (hlines' : ∀ l ∈ before ++ head :: (own' ++ after), ∃ k, l.onLine k = l) :
    ∃ n' : LayoutTree, n'.lines = before ++ head :: (own' ++ after) ∧ n'.eof = n.eof ∧ n'.Valid ∧
      (n.spell source).Alike (n'.spell source) := by
  obtain ⟨t, ht, hk, hplain⟩ := hhead
  have hdirectives : ∀ l ∈ n.directives.map (·.line), ¬ l.Begins .recordHeader :=
    List.forall_mem_map.2 fun d _ hb => absurd (DirectiveTree.begins_iff.1 hb) (by decide)
  obtain ⟨earlier, r, later, hrs, rfl, rfl, hafter⟩ :=
    RecordTree.exists_of_head hdirectives ⟨t, ht, hk⟩ hlines
  obtain ⟨rest, hbody, rfl⟩ := RecordTree.body_of_own hown hafter
  have hname : ¬ Text.sameName r.name classifierName := by
    obtain rfl : r.header.val = t := Except.ok.inj ht
    exact hplain
  have hmoved : Moved .number r.body (own' ++ rest) := hbody ▸ h.append_right rest
  have hnumbered : ∀ l ∈ own' ++ rest, ∃ k, l.onLine k = l := by
    rw [← List.append_assoc] at hlines'
    have hbehind := (List.forall_mem_cons.1 (List.forall_mem_append.1 hlines').2).2
    exact (List.forall_mem_append.1 hbehind).1
  obtain ⟨r', hhead', hbody', halike⟩ := RecordTree.exists_alike hmoved hnumbered hname
  have hrs' : List.Forall₂ RecordTree.Alike (n.first :: n.more) (earlier ++ r' :: later) := by
    rw [hrs]
    exact List.rel_append (List.forall₂_same.2 fun r _ => .refl r)
      (.cons halike (List.forall₂_same.2 fun r _ => .refl r))
  obtain ⟨n', hn', heof, hv', hspell⟩ := exists_alike hv (.refl _) hrs'
  refine ⟨n', ?_, heof, hv', hspell⟩
  rw [hn']
  simp [RecordTree.lines_eq, hhead', hbody']

end LayoutTree

theorem Reordered.length_eq {texts texts' : List (List Char)} (h : Reordered texts texts') :
    texts.length = texts'.length := by
  cases h with
  | directives h => exact h.perm.length_eq
  | fields _ _ h => simp [h.perm.length_eq]

theorem Reordered.exists_tree {texts texts' : List (List Char)} (h : Reordered texts texts')
    {n : LayoutTree} (hv : n.Valid) (hlines : n.lines = linesFrom 1 texts) (source : Option String) :
    ∃ n' : LayoutTree, n'.lines = linesFrom 1 texts' ∧ n'.eof = n.eof ∧ n'.Valid ∧
      (n.spell source).Alike (n'.spell source) := by
  have hnumbered := linesFrom_onLine 1 texts'
  cases h with
  | directives h => exact n.exists_of_directives hv (hlines ▸ h.moved (by decide) 1) hnumbered
  | @fields before head own own' after hhead hown h =>
    have hbegins : (lineOf head).Begins .recordHeader := hhead.imp fun t ht => ⟨ht.1, ht.2.1⟩
    have hlength : own.length = own'.length := h.perm.length_eq
    rw [linesFrom_append, linesFrom_cons_of_begins hbegins (by decide), linesFrom_append] at hlines
    rw [linesFrom_append, linesFrom_cons_of_begins hbegins (by decide), linesFrom_append,
      ← hlength] at hnumbered ⊢
    refine n.exists_of_fields hv hlines ?_ (fun l hl hb => ?_) (h.moved (by decide) _) hnumbered
    · exact lineOf_onLine _ head ▸ hhead.onLine _
    · obtain ⟨text, htext, k, rfl⟩ := exists_of_mem_linesFrom hl
      exact hown text htext (begins_tokensFrom.1 hb)

theorem parse_directivesApart {text : String} {source : Option String} {layout : Layout}
    (h : parse text source = .ok layout) : NamesApart Directive.name layout.directives := by
  obtain ⟨n, -, -, hv, rfl⟩ :=
    Parser.ofLines_derived (ofSource_regular text) rfl (mapError_eq_ok.1 h)
  exact List.pairwise_map.2 hv.directives

/-- Lines in another order give the same layout, but for the order and the lines of what it
declares. -/
theorem parse_reordered {text text' : String} {source : Option String} {layout : Layout}
    (h : Reordered (textLines text.toList) (textLines text'.toList))
    (hparse : parse text source = .ok layout) :
    ∃ layout', parse text' source = .ok layout' ∧ layout.Alike layout' := by
  obtain ⟨n, hlines, heof, hv, rfl⟩ :=
    Parser.ofLines_derived (ofSource_regular text) rfl (mapError_eq_ok.1 hparse)
  obtain ⟨n', hlines', heof', hv', halike⟩ := h.exists_tree hv hlines source
  have hregular : ∀ l ∈ n'.lines, l.Regular := by
    rw [hlines']
    exact ofSource_regular text'
  have hend : n'.eof.val = (Lines.ofSource text').endOfInput := by
    rw [heof', heof, Lines.ofSource, Lines.ofSource, h.length_eq]
  have hread := Parser.ofLines_tree source n' hregular hv'
  rw [hlines', hend] at hread
  exact ⟨n'.spell source, mapError_eq_ok.2 hread, halike⟩

end Flatfile.Layout
