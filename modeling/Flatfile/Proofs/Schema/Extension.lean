import Flatfile.Proofs.Schema.Tiling

/-!
# Record types that extend another one

A record type that extends another one takes over the fields of its base that none of its own
overlaps. If the two together would do as the fields of a record type they are linked as such, but
for one thing: the linker leaves out a field of the base also when it shares its name with an own
one. Of two such fields one is a filler, since no name may stand twice otherwise, and a filler may
be called anything. So the extension is linked exactly if no such pair is in it
(`recordType_extension_iff`).
-/

namespace Flatfile

-- ------------------------------------------------------------------
-- Contiguous fields
-- ------------------------------------------------------------------

namespace Field

def ContiguousFrom (start : Nat) : List Field → Prop
  | [] => True
  | f :: rest => f.position = start ∧ ContiguousFrom (start + f.size) rest

instance decidableContiguousFrom (start : Nat) :
    (fields : List Field) → Decidable (ContiguousFrom start fields)
  | [] => inferInstanceAs (Decidable True)
  | f :: rest =>
    have := decidableContiguousFrom (start + f.size) rest
    inferInstanceAs (Decidable (_ ∧ _))

instance (fields : List Field) : Decidable (NamesApart fields) :=
  inferInstanceAs (Decidable (List.Pairwise _ _))

end Field

namespace Link

variable {fixed : Bool} {record : String} {expected : Nat} {names : List String}
  {f o b : Field} {own base fields : List Field}

theorem checkFrom_of_contiguous {start : Nat} (hcontiguous : Field.ContiguousFrom start fields)
    (hword : ∀ f ∈ fields, f.position < 2 ^ 64) (hclosed : ∀ f ∈ fields, f.occurs.max ≠ none)
    (hapart : Field.NamesApart fields)
    (hnew : ∀ f ∈ fields, f.isFiller = false → ∀ n ∈ names, Text.sameName n f.name = false) :
    checkFrom fixed record (Word64.wrap start) names fields =
      .ok (Word64.wrap (start + (fields.map Field.size).sum)) := by
  induction fields generalizing start names with
  | nil => rfl
  | cons f rest ih =>
    obtain ⟨rfl, hcontiguous⟩ := hcontiguous
    rw [List.forall_mem_cons] at hword hclosed hnew
    obtain ⟨hf, hword⟩ := hword
    obtain ⟨hmax, hclosed⟩ := hclosed
    obtain ⟨hfnew, hnew⟩ := hnew
    rw [List.map_cons, List.sum_cons, ← Nat.add_assoc]
    simp only [checkFrom, hmax, false_and, if_false, Word64.wrap_of_lt hf, ne_eq,
      not_true_eq_false]
    cases hfill : f.isFiller with
    | true =>
      rw [if_pos rfl]
      exact ih hcontiguous hword hclosed (by simpa [Field.NamesApart, hfill] using hapart) hnew
    | false =>
      simp only [Field.NamesApart, hfill, List.filter_cons, Bool.not_false, if_true,
        List.pairwise_cons] at hapart
      have hseen : (names.any fun n => Text.sameName n f.name) = false := by
        simpa using hfnew hfill
      rw [if_neg Bool.false_ne_true, hseen, if_neg Bool.false_ne_true]
      refine ih hcontiguous hword hclosed hapart.2 fun g hg hgfill n hn => ?_
      rcases List.mem_append.1 hn with hn | hn
      · exact hnew g hg hgfill n hn
      · rw [List.mem_singleton.1 hn]
        exact hapart.1 g (List.mem_filter.2 ⟨hg, by simp [hgfill]⟩)

-- ------------------------------------------------------------------
-- Extensions
-- ------------------------------------------------------------------

def uncovered (own base : List Field) : List Field :=
  base.filter fun b => !own.any (overlaps · b)

def extension (own base : List Field) : List Field :=
  sortFields (own ++ uncovered own base)

theorem extension_perm (own base : List Field) :
    (extension own base).Perm (own ++ uncovered own base) :=
  sortFields_perm _

/-- The linker takes over those of the uncovered fields that have a name of their own. -/
theorem mergeBase_eq (hown : InOrder own) (hbase : InOrder base) :
    mergeBase own base =
      sortFields (own ++ (uncovered own base).filter fun b =>
        !own.any fun o => Text.sameName o.name b.name) := by
  have hkept : (base.filter fun b => !covers own b) =
      (uncovered own base).filter fun b => !own.any fun o => Text.sameName o.name b.name := by
    rw [uncovered, List.filter_filter]
    refine List.filter_congr fun b _ => ?_
    rw [covers, Bool.eq_iff_iff]
    simp only [Bool.not_eq_true', List.any_eq_false, Bool.or_eq_true, not_or, Bool.and_eq_true]
    exact ⟨fun h => ⟨fun o ho => (h o ho).2, fun o ho => (h o ho).1⟩,
      fun ⟨hname, hplace⟩ o ho => ⟨hplace o ho, hname o ho⟩⟩
  rw [mergeBase, mergeFields_eq_sortFields hown (hbase.filter _), hkept]

-- ------------------------------------------------------------------
-- Linking
-- ------------------------------------------------------------------

section Types

variable {fileType : FileType} {registry : Registry} {settings : Settings}
  {classifier : Option RecordType} {linked : List RecordType} {r : RecordDecl}
  {base : RecordType} {name : String}

/-- The fields would do as those of the record type. Where they begin is a word, and so is the
length of the records. -/
structure Suits (fileType : FileType) (settings : Settings) (r : RecordDecl)
    (fields : List Field) : Prop where
  inWords : ∀ f ∈ fields, f.position < 2 ^ 64
  contiguous : Field.ContiguousFrom 1 fields
  lengthInWord : settings.recordLength.getD 0 < 2 ^ 64
  length : fileType = .fixed → (fields.map Field.size).sum = settings.recordLength.getD 0
  closed : ∀ f ∈ fields, f.occurs.max ≠ none
  names : Field.NamesApart fields
  conditions : ∀ c ∈ r.conditions, ∃ f ∈ fields, Text.sameName f.name c.field

theorem recordType_of_suits {merged : List Field}
    (hown : Link.fields registry settings.charset r = .ok own)
    (hmerged : mergedFields linked r own = .ok merged) (hsuits : Suits fileType settings r merged) :
    ∃ t, recordType fileType registry settings classifier linked r = .ok t ∧ t.fields = merged := by
  let sum := (merged.map Field.size).sum
  let length := Word64.sub (Word64.wrap (1 + sum)) 1
  have hwalk : checkFrom (fileType = .fixed) r.name 1 [] merged = .ok (Word64.wrap (1 + sum)) :=
    checkFrom_of_contiguous hsuits.contiguous hsuits.inWords hsuits.closed hsuits.names (by simp)
  have hlayout : checkLayout (fileType = .fixed) r.name merged = .ok length := by
    rw [checkLayout, hwalk]
    rfl
  have hlength : ¬ (fileType = .fixed ∧ length ≠ settings.recordLength.getD 0) := by
    rintro ⟨hfixed, hwrong⟩
    have hsum : sum = settings.recordLength.getD 0 := hsuits.length hfixed
    have hword := hsuits.lengthInWord
    refine hwrong ?_
    simp only [length, Word64.sub, Word64.wrap]
    omega
  obtain ⟨predicates, hpredicates⟩ : ∃ predicates,
      r.conditions.mapM (predicate r.name merged classifier) = .ok predicates := by
    refine ⟨r.conditions.map fun c => { field := c.field, values := c.values.map Literal.toText },
      mapM_eq_ok.2 ?_⟩
    rw [List.forall₂_map_right_iff, List.forall₂_same]
    intro c hc
    have hfound : (merged.any fun f => Text.sameName f.name c.field) = true :=
      List.any_eq_true.2 (hsuits.conditions c hc)
    rw [predicate, hfound, Bool.true_or, if_pos rfl]
  let t : RecordType :=
    { name := r.name, base := r.base, predicates, fields := merged, length }
  refine ⟨t, bind_eq_ok.2 ⟨own, hown, bind_eq_ok.2 ⟨merged, hmerged, bind_eq_ok.2
    ⟨length, hlayout, ?_⟩⟩⟩, rfl⟩
  rw [if_neg hlength]
  exact bind_eq_ok.2 ⟨predicates, hpredicates, rfl⟩

/-- Fields of which one is the record type's own and one taken over have no name in common unless
one of them is a filler. -/
theorem sameName_of_namesApart {own taken : List Field}
    (h : Field.NamesApart (extension own taken)) (ho : o ∈ own) (hb : b ∈ uncovered own taken)
    (hof : o.isFiller = false) (hbf : b.isFiller = false) :
    Text.sameName o.name b.name = false := by
  have hperm := (extension_perm own taken).filter (!·.isFiller)
  have hapart := (hperm.pairwise_iff fun {a b} hab => by rwa [Text.sameName_comm]).1 h
  rw [List.filter_append, List.pairwise_append] at hapart
  exact hapart.2.2 o (List.mem_filter.2 ⟨ho, by simp [hof]⟩) b
    (List.mem_filter.2 ⟨hb, by simp [hbf]⟩)

/-- A record type whose own fields, with those of the base that they leave uncovered, would do as
its fields is linked with all of them exactly if no own field goes by the name of one that is taken
over where one of the two is a filler. -/
theorem recordType_extension_iff (hbase : r.base = some name)
    (hfound : linked.find? (fun t => Text.sameName t.name name) = some base) (htiled : base.Tiled)
    (hown : Link.fields registry settings.charset r = .ok own)
    (hsuits : Suits fileType settings r (extension own base.fields)) :
    (∃ t, recordType fileType registry settings classifier linked r = .ok t ∧
        t.fields = extension own base.fields) ↔
      ∀ o ∈ own, ∀ b ∈ uncovered own base.fields, o.isFiller ∨ b.isFiller →
        Text.sameName o.name b.name = false := by
  obtain ⟨declared, -, rfl⟩ := fields_ok hown
  have hmerged : mergedFields linked r (sortFields declared) =
      .ok (mergeBase (sortFields declared) base.fields) := by
    simp only [mergedFields, hbase, hfound]
  have hmerge := mergeBase_eq (sortFields_inOrder declared) htiled.inOrder
  constructor
  · rintro ⟨t, ht, hfields⟩ o ho b hb -
    obtain ⟨own', hown', hmerged'⟩ := (recordType_ok ht).fields
    obtain rfl := Except.ok.inj (hown.symm.trans hown')
    have heq := Except.ok.inj (hmerged.symm.trans hmerged')
    rw [hfields, hmerge] at heq
    have hlength := congrArg List.length heq
    rw [(sortFields_perm _).length_eq, (extension_perm _ _).length_eq, List.length_append,
      List.length_append, Nat.add_left_cancel_iff, List.length_filter_eq_length_iff] at hlength
    have hkept := hlength b hb
    rw [Bool.not_eq_true', List.any_eq_false] at hkept
    exact Bool.eq_false_iff.2 (hkept o ho)
  · intro hnames
    refine recordType_of_suits hown (hmerged.trans (congrArg Except.ok ?_)) hsuits
    rw [hmerge, List.filter_eq_self.2 fun b hb => ?_]
    · rfl
    · rw [Bool.not_eq_true', List.any_eq_false]
      intro o ho
      rw [Bool.not_eq_true]
      by_cases hfill : o.isFiller ∨ b.isFiller
      · exact hnames o ho b hb hfill
      · rw [not_or, Bool.not_eq_true, Bool.not_eq_true] at hfill
        exact sameName_of_namesApart hsuits.names ho hb hfill.1 hfill.2

end Types

/-- The second record type leaves the filler in the middle of the first one uncovered, and has a
filler of that name at another place. -/
def paddedLayout : String :=
  "file-type: Fixed\ntext-encoding: \"US-ASCII\"\nrecord-length: 6\n" ++
  "[A]\n1 a X(2)\n3 ? pad X(2)\n5 b X(2)\n[B] < [A]\n1 ? pad X(2)\n"

theorem recordType_extension_iff_padded :
    ∃ layout a r settings base own, Layout.parse paddedLayout none = .ok layout ∧
      layout.recordTypes = [a, r] ∧
      Settings.resolve .fixed layout.directives {} = .ok settings ∧
      recordType .fixed .fixed settings none [] a = .ok base ∧
      Link.fields .fixed settings.charset r = .ok own ∧
      Suits .fixed settings r (extension own base.fields) ∧
      ((extension own base.fields).map fun f => (f.name, f.position)) =
        [("pad", 1), ("pad", 3), ("b", 5)] ∧
      ¬ ∃ t, recordType .fixed .fixed settings none [base] r = .ok t ∧
        t.fields = extension own base.fields := by
  have hshape : (Layout.parse paddedLayout none).toOption.any fun layout =>
      (layout.recordTypes[0]?).any fun a => (layout.recordTypes[1]?).any fun r =>
      (Settings.resolve .fixed layout.directives {}).toOption.any fun settings =>
      (recordType .fixed .fixed settings none [] a).toOption.any fun base =>
      (Link.fields .fixed settings.charset r).toOption.any fun own =>
        layout.recordTypes.length = 2 ∧ r.base = some "A" ∧ Text.sameName base.name "A" = true ∧
        (∀ f ∈ base.fields, f.position = f.offset + 1) ∧ Field.total base.fields < 2 ^ 64 ∧
        (∀ f ∈ extension own base.fields, f.position < 2 ^ 64) ∧
        Field.ContiguousFrom 1 (extension own base.fields) ∧
        settings.recordLength.getD 0 < 2 ^ 64 ∧
        ((extension own base.fields).map Field.size).sum = settings.recordLength.getD 0 ∧
        (∀ f ∈ extension own base.fields, f.occurs.max ≠ none) ∧
        Field.NamesApart (extension own base.fields) ∧ r.conditions = [] ∧
        ((extension own base.fields).map fun f => (f.name, f.position)) =
          [("pad", 1), ("pad", 3), ("b", 5)] ∧
        ∃ o ∈ own, ∃ b ∈ uncovered own base.fields,
          b.isFiller = true ∧ Text.sameName o.name b.name = true := by decide +kernel
  obtain ⟨layout, hparse, hshape⟩ := (Option.any_eq_true _ _).1 hshape
  obtain ⟨a, ha, hshape⟩ := (Option.any_eq_true _ _).1 hshape
  obtain ⟨r, hr, hshape⟩ := (Option.any_eq_true _ _).1 hshape
  obtain ⟨settings, hsettings, hshape⟩ := (Option.any_eq_true _ _).1 hshape
  obtain ⟨base, hbase, hshape⟩ := (Option.any_eq_true _ _).1 hshape
  obtain ⟨own, hown, hshape⟩ := (Option.any_eq_true _ _).1 hshape
  obtain ⟨hlength, hname, hsame, hoffset, hfits, hwords, hcontiguous, hword, htotal, hclosed,
    hapart, hconditions, hfields, o, ho, b, hb, hfill, hclash⟩ := of_decide_eq_true hshape
  rw [toOption_eq_some] at hparse hsettings hbase hown
  have htypes : layout.recordTypes = [a, r] := by
    obtain ⟨a', r', htwo⟩ := List.length_eq_two.1 hlength
    rw [htwo] at ha hr ⊢
    rw [Option.some.inj ha, Option.some.inj hr]
  have hsuits : Suits .fixed settings r (extension own base.fields) :=
    ⟨hwords, hcontiguous, hword, fun _ => htotal, hclosed, hapart, by simp [hconditions]⟩
  have hfound : [base].find? (fun t => Text.sameName t.name "A") = some base := by simp [hsame]
  have htiled := (((recordType_ok hbase).walked (by simp)).tiled_iff hoffset).2 hfits
  refine ⟨layout, a, r, settings, base, own, hparse, htypes, hsettings, hbase, hown, hsuits,
    hfields, fun hlinked => ?_⟩
  have hfree := (recordType_extension_iff hname hfound htiled hown hsuits).1 hlinked o ho b hb
    (.inr hfill)
  rw [hclash] at hfree
  cases hfree

end Link
end Flatfile
