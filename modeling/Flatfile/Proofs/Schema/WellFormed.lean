import Flatfile.Proofs.Layout.Reading
import Flatfile.Proofs.Lookup
import Flatfile.Proofs.Schema.Faults
import Flatfile.Proofs.Schema.Fields

/-!
# Layouts that are read are well formed

The reader of layouts looks each name up among those before it, and checks each field on its line.
`Layout.WellFormed` says what all of these checks amount to for the layout as a whole: names stand
apart, a base is declared before the record types that extend it, and the bounds of fields are in
order. The linker relies on this. It looks bases up once more, by name among the record types that
it has linked, and cannot fail to find one (`parse_wellFormed`).
-/

namespace Flatfile

namespace Layout

-- ------------------------------------------------------------------
-- Well-formed layouts
-- ------------------------------------------------------------------

def Line.AsksForItem (line : Line) : Prop :=
  ∃ t ∈ line.tokens, t.kind = .arraySize ∧ ∃ min max, t.value = .bounds min max ∧ 1 ≤ min

/-- The field is one that a line declares, in order by itself. -/
structure FieldWellFormed (lines : List Line) (d : FieldDecl) : Prop where
  position : 1 ≤ d.position
  ordered : d.occurs.Ordered
  single : d.isAttribute = true → d.occurs.isArray = false
  required : ∃ line ∈ lines, Parser.field line = .ok d ∧
    (d.isRequired = true ↔ line.AsksForItem)

def Extends (layout : Layout) (a b : RecordDecl) : Prop :=
  a ∈ layout.recordTypes ∧ b ∈ layout.recordTypes ∧
    ∃ name, a.base = some name ∧ Text.sameName b.name name

structure WellFormed (lines : List Line) (layout : Layout) : Prop where
  directives : NamesApart Directive.name layout.directives
  recordTypes : NamesApart RecordDecl.name layout.recordTypes
  plain : ∀ r ∈ layout.recordTypes, ¬ r.isClassifier
  classifier : ∀ r ∈ layout.classifier, r.isClassifier ∧ r.base = none
  base : ∀ {earlier r later}, layout.recordTypes = earlier ++ r :: later →
    ∀ name ∈ r.base, ∃ b ∈ earlier, b.name = name
  acyclic : ∀ r, ¬ Relation.TransGen layout.Extends r r
  fields : ∀ r ∈ layout.recordTypes ++ layout.classifier.toList, ∀ d ∈ r.fields,
    FieldWellFormed lines d

-- ------------------------------------------------------------------
-- Fields
-- ------------------------------------------------------------------

theorem Leaf.kind_ne {kind other : TokenKind} (t : Leaf [kind]) (h : kind ≠ other) :
    t.val.kind ≠ other := by
  rw [List.mem_singleton.1 t.property]
  exact h

theorem Leaf.literal_kind_ne (t : Leaf TokenKind.literals) : t.val.kind ≠ .arraySize := fun hk =>
  absurd t.property (hk ▸ by decide)

theorem kind_of_literals {n : LiteralsTree} {t : Token} (ht : t ∈ n.tokens) :
    t.kind ≠ .arraySize := by
  rcases List.mem_cons.1 ht with rfl | ht
  · exact n.first.literal_kind_ne
  · obtain ⟨⟨comma, value⟩, -, ht⟩ := List.mem_flatMap.1 ht
    rcases List.mem_pair.1 ht with rfl | rfl
    · exact comma.kind_ne (by decide)
    · exact value.literal_kind_ne

theorem kind_of_args {n : ArgsTree} {t : Token} (ht : t ∈ n.tokens) : t.kind ≠ .arraySize := by
  rcases List.mem_append.1 ht with ht | ht
  · rcases List.mem_cons.1 ht with rfl | ht
    · exact n.left.kind_ne (by decide)
    · cases hvalues : n.values with
      | none => simp [hvalues] at ht
      | some values =>
        rw [hvalues] at ht
        exact kind_of_literals ht
  · rw [List.mem_singleton.1 ht]
    exact n.right.kind_ne (by decide)

theorem kind_of_convertor {n : ConvertorTree} {t : Token} (ht : t ∈ n.tokens) :
    t.kind ≠ .arraySize := by
  cases n with
  | call name args =>
    rcases List.mem_cons.1 ht with rfl | ht
    · exact name.kind_ne (by decide)
    · cases args with
      | none => simp at ht
      | some args => exact kind_of_args ht
  | literal value =>
    rw [List.mem_singleton.1 ht]
    exact value.literal_kind_ne

theorem kind_of_optional {kind : TokenKind} {leaf : Option (Leaf [kind])} {t : Token}
    (ht : t ∈ Leaf.optional leaf) : t.kind = kind := by
  cases leaf with
  | none => simp [Leaf.optional] at ht
  | some leaf =>
    rw [show t = leaf.val by simpa [Leaf.optional] using ht]
    exact List.mem_singleton.1 leaf.property

theorem FieldTree.size_of_mem {n : FieldTree} {t : Token} (ht : t ∈ n.line.tokens)
    (hk : t.kind = .arraySize) : t ∈ Leaf.optional n.size := by
  simp only [FieldTree.line, List.mem_cons, List.mem_append] at ht
  rcases ht with rfl | ht | ht | ht | rfl | ht | ht
  · exact absurd hk (n.position.kind_ne (by decide))
  · cases hk.symm.trans (kind_of_optional ht)
  · cases hk.symm.trans (kind_of_optional ht)
  · cases hk.symm.trans (kind_of_optional ht)
  · exact absurd hk (n.name.kind_ne (by decide))
  · exact ht
  · obtain ⟨c, -, ht⟩ := List.mem_flatMap.1 ht
    exact absurd hk (kind_of_convertor ht)

theorem FieldTree.required_iff {n : FieldTree} (hl : n.line.Regular) :
    n.spell.isRequired = true ↔ n.line.AsksForItem := by
  constructor
  · intro hrequired
    obtain ⟨hsize, hmin⟩ : n.size.isSome = true ∧ 1 ≤ n.occurs.min := by
      simpa [FieldTree.spell] using hrequired
    obtain ⟨size, hsize⟩ := Option.isSome_iff_exists.1 hsize
    have hmem : size.val ∈ n.line.tokens := by simp [FieldTree.line, hsize, Leaf.optional]
    have hk : size.val.kind = .arraySize := List.mem_singleton.1 size.property
    obtain ⟨min, max, hvalue, -⟩ := (hl.carries _ hmem).bounds hk
    refine ⟨size.val, hmem, hk, min, max, hvalue, ?_⟩
    simpa [FieldTree.occurs, hsize, Token.bounds, hvalue] using hmin
  · rintro ⟨t, ht, hk, min, max, hvalue, hmin⟩
    have hsize := FieldTree.size_of_mem ht hk
    cases h : n.size with
    | none => simp [h, Leaf.optional] at hsize
    | some size =>
      obtain rfl : t = size.val := by simpa [h, Leaf.optional] using hsize
      simpa [FieldTree.spell, FieldTree.occurs, h, Token.bounds, hvalue] using hmin

theorem fieldWellFormed {lines : List Line} {line : Line} {d : FieldDecl} (hline : line ∈ lines)
    (hl : line.Regular) (h : Parser.field line = .ok d) : FieldWellFormed lines d := by
  obtain ⟨n, rfl, hvalid, rfl⟩ := Parser.field_derived hl h
  refine ⟨hvalid.position.1.1, hvalid.bounds, fun hmark => ?_, n.line, hline, h, ?_⟩
  · exact Bool.eq_false_iff.2 (hvalid.single hmark)
  · exact FieldTree.required_iff hl

-- ------------------------------------------------------------------
-- Record types
-- ------------------------------------------------------------------

/-- A record type with a base is not the classifier, and neither is its base, which was spelled
before it. -/
theorem RecordTree.spellAll_base {earlier before after : List RecordDecl} {r : RecordDecl}
    {name : String} {ns : List RecordTree} (hv : AllValid earlier ns)
    (hsplit : spellAll earlier ns = before ++ r :: after) (hbase : r.base = some name) :
    ¬ r.isClassifier ∧ ∃ b ∈ earlier ++ before, ¬ b.isClassifier ∧ b.name = name := by
  induction ns generalizing earlier before with
  | nil => simp [spellAll] at hsplit
  | cons n ns ih =>
    obtain ⟨hn, hns⟩ := hv
    rw [spellAll] at hsplit
    cases before with
    | nil =>
      obtain ⟨rfl, -⟩ := List.cons.inj hsplit
      obtain ⟨p, hp, hname⟩ := Option.bind_eq_some_iff.1 hbase
      obtain ⟨b, hfind, rfl⟩ := Option.map_eq_some_iff.1 hname
      have hb := List.find?_some hfind
      simp only [Bool.and_eq_true, Bool.not_eq_true'] at hb
      refine ⟨(hn.base p hp).1, b, ?_, by simp [hb.1], rfl⟩
      exact List.mem_append_left _ (List.mem_of_find?_eq_some hfind)
    | cons first before =>
      obtain ⟨rfl, hmore⟩ := List.cons.inj (hsplit.trans (List.cons_append ..))
      obtain ⟨hr, b, hb, hplain⟩ := ih hns hmore
      exact ⟨hr, b, by simpa using hb, hplain⟩

/-- Whatever extends another record type is declared after it, so that there is no way back. -/
theorem acyclic_of_base {layout : Layout}
    (hapart : NamesApart RecordDecl.name layout.recordTypes)
    (hbase : ∀ {earlier r later}, layout.recordTypes = earlier ++ r :: later →
      ∀ name ∈ r.base, ∃ b ∈ earlier, b.name = name) (r : RecordDecl) :
    ¬ Relation.TransGen layout.Extends r r := by
  have hstep : ∀ {a b}, layout.Extends a b →
      layout.recordTypes.idxOf b < layout.recordTypes.idxOf a := by
    rintro a b ⟨ha, hb, name, hname, hsame⟩
    obtain ⟨earlier, later, hsplit, hnew⟩ := List.eq_append_cons_of_mem ha
    obtain ⟨c, hc, rfl⟩ := hbase hsplit name hname
    have hmem : c ∈ layout.recordTypes := hsplit ▸ List.mem_append_left _ hc
    obtain rfl := hapart.eq_of_sameName hb hmem hsame
    rw [hsplit, List.idxOf_append_of_mem hc, List.idxOf_append_of_notMem hnew,
      List.idxOf_cons_self, Nat.add_zero]
    exact List.idxOf_lt_length_of_mem hc
  have hpath : ∀ {a b}, Relation.TransGen layout.Extends a b →
      layout.recordTypes.idxOf b < layout.recordTypes.idxOf a := by
    intro a b h
    induction h with
    | single h => exact hstep h
    | tail _ h ih => exact Nat.lt_trans (hstep h) ih
  exact fun h => Nat.lt_irrefl _ (hpath h)

theorem LayoutTree.base_earlier {n : LayoutTree} (hv : n.Valid) {source : Option String}
    {earlier later : List RecordDecl} {r : RecordDecl} {name : String}
    (hsplit : (n.spell source).recordTypes = earlier ++ r :: later) (hbase : r.base = some name) :
    ∃ b ∈ earlier, b.name = name := by
  obtain ⟨before, rest, hall, rfl, hrest⟩ := List.filter_eq_append_iff.1 hsplit
  obtain ⟨skipped, after, rfl, hskipped, -, -⟩ := List.filter_eq_cons_iff.1 hrest
  rw [← List.append_assoc] at hall
  obtain ⟨-, b, hb, hplain, rfl⟩ := RecordTree.spellAll_base hv.records hall hbase
  rw [List.nil_append] at hb
  rcases List.mem_append.1 hb with hb | hb
  · exact ⟨b, List.mem_filter.2 ⟨hb, by simpa using hplain⟩, rfl⟩
  · exact absurd (hskipped b hb) (by simpa using hplain)

theorem LayoutTree.classifier_base {n : LayoutTree} (hv : n.Valid) {source : Option String}
    {r : RecordDecl} (hr : r ∈ (n.spell source).classifier) :
    r.isClassifier ∧ r.base = none := by
  have hclassifier := List.find?_some hr
  obtain ⟨before, after, hall⟩ := List.append_of_mem (List.mem_of_find?_eq_some hr)
  refine ⟨hclassifier, Option.eq_none_iff_forall_ne_some.2 fun name hbase => ?_⟩
  exact (RecordTree.spellAll_base hv.records hall hbase).1 hclassifier

theorem LayoutTree.wellFormed {lines : List Line} {n : LayoutTree} {source : Option String}
    (hv : n.Valid) (hapart : NamesApart RecordDecl.name (n.spell source).recordTypes)
    (hfields : ∀ r ∈ (n.spell source).recordTypes ++ (n.spell source).classifier.toList,
      ∀ d ∈ r.fields, FieldWellFormed lines d) :
    (n.spell source).WellFormed lines where
  directives := List.pairwise_map.2 hv.directives
  recordTypes := hapart
  plain r hr := by simpa using (List.mem_filter.1 hr).2
  classifier r hr := n.classifier_base hv hr
  base hsplit _ hbase := n.base_earlier hv hsplit hbase
  acyclic := acyclic_of_base hapart fun hsplit _ hbase => n.base_earlier hv hsplit hbase
  fields := hfields

-- ------------------------------------------------------------------
-- Linking
-- ------------------------------------------------------------------

theorem cause_ne_of_directives {directives : List Directive} {e : SyntaxError} {name : String}
    (h : Link.DirectivesRefused directives e) : e.cause ≠ .unknownBase name := by
  cases h with
  | value h =>
    cases h
    nofun
  | _ => nofun

theorem cause_ne_of_field {record : String} {d : FieldDecl} {e : SyntaxError} {name : String}
    (h : Link.FieldRefused record d e) : e.cause ≠ .unknownBase name := by
  cases h <;> nofun

/-- A base is unknown only where it is looked up, and then to all that are linked. -/
theorem cause_ne_of_type {linked : List RecordType} {r : RecordDecl} {e : SyntaxError}
    {name : String} (h : Link.TypeRefused linked r e)
    (hbase : ∀ name ∈ r.base, ∃ t ∈ linked, t.name = name) : e.cause ≠ .unknownBase name := by
  cases h with
  | field _ h => exact cause_ne_of_field h
  | base hname hmissing =>
    obtain ⟨t, ht, rfl⟩ := hbase _ hname
    exact absurd (hmissing t ht) (by simp [Text.sameName_refl])
  | _ => nofun

theorem WellFormed.cause_ne {lines : List Line} {layout : Layout} (hw : layout.WellFormed lines)
    {e : SyntaxError} (h : Link.LayoutRefused layout e) (name : String) :
    e.cause ≠ .unknownBase name := by
  cases h with
  | directives h => exact cause_ne_of_directives h
  | classifier _ _ h => exact cause_ne_of_field h
  | @recordType _ _ _ _ before r after linked _ hrecords hlinked h =>
    refine cause_ne_of_type h fun base hbase => ?_
    obtain ⟨b, hb, rfl⟩ := hw.base hrecords base hbase
    have hnames : b.name ∈ linked.map (·.name) := by
      rw [Link.recordTypes_names hlinked]
      exact List.mem_map_of_mem hb
    obtain ⟨t, ht, hname⟩ := List.mem_map.1 hnames
    exact ⟨t, ht, hname⟩

/-- A layout that is read from a text is well formed. So all record types that are extended are
linked by the time that they are looked up, and no base is unknown to the linker. -/
theorem parse_wellFormed {text : String} {source : Option String} {layout : Layout}
    (h : parse text source = .ok layout) :
    layout.WellFormed (Lines.ofSource text).lines ∧
      ∀ ctx e, layout.link ctx = .error e → ∀ name, e.cause ≠ .unknownBase name := by
  have hapart : NamesApart RecordDecl.name layout.recordTypes :=
    (parse_namesApart h).imp fun hab => by simp [hab]
  have hfields := parse_fields (P := FieldWellFormed (Lines.ofSource text).lines)
    (fun line hline d hd => fieldWellFormed hline (ofSource_regular text line hline) hd) h
  obtain ⟨n, -, -, hv, rfl⟩ :=
    Parser.ofLines_derived (ofSource_regular text) rfl (mapError_eq_ok.1 h)
  have hw := n.wellFormed hv hapart hfields
  refine ⟨hw, fun ctx e he name => ?_⟩
  obtain ⟨fault, hfault, rfl⟩ := Link.link_error he
  exact hw.cause_ne hfault name

def gappedLayout : String :=
  "file-type: Fixed\ntext-encoding: \"US-ASCII\"\nrecord-length: 4\n" ++
  "[Classifier]\n1 kind X(1)\n[A]\n1 kind X(1)\n2 a[1..2] X(1)\n4 @ id X(1)\n" ++
  "[B] < [a]\nkind = \"B\"\n3 b X(1)\n"

theorem parse_wellFormed_gapped :
    ∃ layout e, parse gappedLayout none = .ok layout ∧
      layout.recordTypes.map (·.base) = [none, some "A"] ∧ layout.link {} = .error e ∧
      layout.WellFormed (Lines.ofSource gappedLayout).lines ∧
      ∀ name, e.cause ≠ .unknownBase name := by
  have hshape : (parse gappedLayout none).toOption.any fun layout =>
      layout.recordTypes.map (·.base) = [none, some "A"] ∧
        (layout.link {}).toOption.isNone := by decide +kernel
  obtain ⟨layout, hparse, hshape⟩ := (Option.any_eq_true _ _).1 hshape
  obtain ⟨hbase, hfails⟩ := of_decide_eq_true hshape
  rw [toOption_eq_some] at hparse
  obtain ⟨hw, hcause⟩ := parse_wellFormed hparse
  cases hlink : layout.link {} with
  | ok schema => simp [hlink, Except.toOption] at hfails
  | error e => exact ⟨layout, e, hparse, hbase, hlink, hw, hcause {} e hlink⟩

end Layout
end Flatfile
