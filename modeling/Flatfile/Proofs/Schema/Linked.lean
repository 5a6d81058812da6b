import Flatfile.Schema.Link
import Flatfile.Proofs.Outcome

/-!
# What linking has done

A layout that links has passed every check of the linker. The lemmas here read the success of each
step as what it has established: of a field, of a record type after those before it, of the record
types as a whole, and of the layout. `recordTypes_induct` carries a property from the record types
that are linked already to the next one; `field_of_recordTypes` traces each field of a schema, those
taken over from a base included, back to the line that declares it.
-/

namespace Flatfile.Link

-- ------------------------------------------------------------------
-- Fields
-- ------------------------------------------------------------------

/-- The field `f` is what linking makes of the declaration `d` in a record type. -/
structure FieldLinked (registry : Registry) (charset : Charset) (record : String) (d : FieldDecl)
    (f : Field) : Prop where
  name : f.name = d.name
  position : f.position = d.position
  offset : f.offset = f.position - 1
  occurs : f.occurs = d.occurs
  isRequired : f.isRequired = d.isRequired
  isAttribute : f.isAttribute = d.isAttribute
  isFiller : f.isFiller = d.isFiller
  line : f.line = d.line
  charset : charsetOf record d charset = .ok f.charset
  codec : ∃ call declared, d.dataType = some call ∧
    dataTypeOf registry record d call f.charset = .ok f.dataType ∧
    d.converters.mapM (converterOf registry record d) = .ok declared ∧
    withSubstitution registry record d call.name declared = .ok f.converters

theorem field_ok {registry : Registry} {charset : Charset} {record : String} {d : FieldDecl}
    {f : Field} (h : field registry charset record d = .ok f) :
    FieldLinked registry charset record d f := by
  simp only [field] at h
  obtain ⟨charset', hc, h⟩ := bind_eq_ok.1 h
  split at h
  · simp at h
  · rename_i call hd
    obtain ⟨dataType, ht, h⟩ := bind_eq_ok.1 h
    obtain ⟨declared, hv, h⟩ := bind_eq_ok.1 h
    obtain ⟨converters, hs, h⟩ := bind_eq_ok.1 h
    simp only [Except.ok.injEq] at h
    subst h
    exact ⟨rfl, rfl, rfl, rfl, rfl, rfl, rfl, rfl, hc, call, declared, hd, ht, hv, hs⟩

theorem insertField_perm (f : Field) (fs : List Field) : (insertField f fs).Perm (f :: fs) := by
  induction fs with
  | nil => exact .refl _
  | cons g rest ih =>
    simp only [insertField]
    split
    · exact (ih.cons g).trans (.swap f g rest)
    · exact .refl _

theorem sortFields_perm (fs : List Field) : (sortFields fs).Perm fs := by
  suffices h : ∀ sorted : List Field,
      (fs.foldl (fun sorted f => insertField f sorted) sorted).Perm (sorted ++ fs) by
    simpa [sortFields] using h []
  induction fs with
  | nil => simp
  | cons f fs ih =>
    intro sorted
    rw [List.foldl_cons]
    refine (ih _).trans (((insertField_perm f sorted).append_right fs).trans ?_)
    exact List.perm_middle.symm

theorem fields_ok {registry : Registry} {charset : Charset} {r : RecordDecl} {fs : List Field}
    (h : fields registry charset r = .ok fs) :
    ∃ linked, List.Forall₂ (fun d f => field registry charset r.name d = .ok f) r.fields linked ∧
      fs = sortFields linked := by
  obtain ⟨linked, hl, h⟩ := bind_eq_ok.1 h
  simp only [Except.ok.injEq] at h
  exact ⟨linked, mapM_eq_ok.1 hl, h.symm⟩

theorem mergeFields_perm (own base : List Field) : (mergeFields own base).Perm (own ++ base) := by
  induction own generalizing base with
  | nil => exact .refl _
  | cons o own ih =>
    simp only [mergeFields]
    refine List.perm_middle.trans (.cons o ?_)
    refine ((ih _).append_left _).trans ?_
    rw [← List.append_assoc]
    refine (List.perm_append_comm.append_right _).trans ?_
    rw [List.append_assoc, List.takeWhile_append_dropWhile]
    exact .refl _

theorem mem_of_mem_mergeBase {f : Field} {own base : List Field} (h : f ∈ mergeBase own base) :
    f ∈ own ∨ f ∈ base := by
  rcases List.mem_append.1 ((mergeFields_perm _ _).mem_iff.1 h) with h | h
  · exact .inl h
  · exact .inr (List.mem_of_mem_filter h)

-- ------------------------------------------------------------------
-- Record types
-- ------------------------------------------------------------------

section Types

variable {fileType : FileType} {registry : Registry} {settings : Settings}
  {classifier : Option RecordType} {linked : List RecordType} {records : List RecordDecl}
  {r : RecordDecl} {t : RecordType}

/-- The record type `t` is what linking makes of the declaration `r` after the types `linked`. -/
structure TypeLinked (fileType : FileType) (registry : Registry) (settings : Settings)
    (classifier : Option RecordType) (linked : List RecordType) (r : RecordDecl)
    (t : RecordType) : Prop where
  name : t.name = r.name
  base : t.base = r.base
  fields : ∃ own, Link.fields registry settings.charset r = .ok own ∧
    mergedFields linked r own = .ok t.fields
  layout : checkLayout (fileType = .fixed) r.name t.fields = .ok t.length
  length : fileType = .fixed → t.length = settings.recordLength.getD 0
  predicates : r.conditions.mapM (predicate r.name t.fields classifier) = .ok t.predicates

theorem recordType_ok (h : recordType fileType registry settings classifier linked r = .ok t) :
    TypeLinked fileType registry settings classifier linked r t := by
  obtain ⟨own, ho, h⟩ := bind_eq_ok.1 h
  obtain ⟨fields, hm, h⟩ := bind_eq_ok.1 h
  obtain ⟨length, hl, h⟩ := bind_eq_ok.1 h
  split at h
  · simp at h
  · rename_i hlen
    obtain ⟨predicates, hp, h⟩ := bind_eq_ok.1 h
    simp only [Except.ok.injEq] at h
    subst h
    exact ⟨rfl, rfl, ⟨own, ho, hm⟩, hl, fun hf => by simpa [hf] using hlen, hp⟩

theorem mem_of_mergedFields {own merged : List Field}
    (h : mergedFields linked r own = .ok merged) {f : Field} (hf : f ∈ merged) :
    f ∈ own ∨ ∃ b ∈ linked, f ∈ b.fields := by
  simp only [mergedFields] at h
  split at h
  · simp only [Except.ok.injEq] at h
    exact .inl (h ▸ hf)
  · split at h
    · rename_i base hfind
      simp only [Except.ok.injEq] at h
      rcases mem_of_mem_mergeBase (h ▸ hf) with hf | hf
      · exact .inl hf
      · exact .inr ⟨base, List.mem_of_find?_eq_some hfind, hf⟩
    · simp at h

/-- What holds of a record type whenever it holds of those before it holds of all of them. -/
theorem recordTypes_induct {P : RecordType → Prop} {ts : List RecordType}
    (hstep : ∀ r ∈ records, ∀ {linked t}, (∀ l ∈ linked, P l) →
      TypeLinked fileType registry settings classifier linked r t → P t)
    (h : recordTypes fileType registry settings classifier records = .ok ts) :
    ∀ t ∈ ts, P t := by
  refine foldlM_induct (P := fun ts => ∀ t ∈ ts, P t) ?_ (by simp) h
  intro r hr linked linked' hP hl
  obtain ⟨t, ht, hl⟩ := bind_eq_ok.1 hl
  simp only [Except.ok.injEq] at hl
  subst hl
  intro t' ht'
  rcases List.mem_append.1 ht' with ht' | ht'
  · exact hP t' ht'
  · rw [List.mem_singleton.1 ht']
    exact hstep r hr hP (recordType_ok ht)

theorem recordTypes_names {ts : List RecordType}
    (h : recordTypes fileType registry settings classifier records = .ok ts) :
    ts.map (·.name) = records.map (·.name) := by
  suffices hfold : ∀ linked ts, records.foldlM (fun linked r => do
      let t ← recordType fileType registry settings classifier linked r
      .ok (linked ++ [t])) linked = Except.ok ts →
      ts.map (·.name) = linked.map (·.name) ++ records.map (·.name) from hfold [] ts h
  clear h
  intro linked ts h
  induction records generalizing linked with
  | nil =>
    obtain rfl := Except.ok.inj h
    simp
  | cons r records ih =>
    rw [List.foldlM_cons] at h
    obtain ⟨linked', hstep, h⟩ := bind_eq_ok.1 h
    obtain ⟨t, ht, hstep⟩ := bind_eq_ok.1 hstep
    obtain rfl := Except.ok.inj hstep
    rw [ih _ h]
    simp [(recordType_ok ht).name]

/-- Every field of a linked record type was declared on a line of some record type. -/
theorem field_of_recordTypes {ts : List RecordType}
    (h : recordTypes fileType registry settings classifier records = .ok ts) :
    ∀ t ∈ ts, ∀ f ∈ t.fields,
      ∃ r ∈ records, ∃ d ∈ r.fields, FieldLinked registry settings.charset r.name d f := by
  refine recordTypes_induct ?_ h
  intro r hr linked t hP ht f hf
  obtain ⟨own, ho, hm⟩ := ht.fields
  rcases mem_of_mergedFields hm hf with hf | ⟨b, hb, hf⟩
  · obtain ⟨made, hd, rfl⟩ := fields_ok ho
    obtain ⟨d, hd, hdf⟩ := exists_mem_left_of_forall₂ hd ((sortFields_perm made).mem_iff.1 hf)
    exact ⟨r, hr, d, hd, field_ok hdf⟩
  · exact hP b hb f hf

end Types

-- ------------------------------------------------------------------
-- Settings
-- ------------------------------------------------------------------

section Settings

variable {fileType : FileType} {directives : List Directive} {defaults : Defaults}
  {settings : Settings}

theorem resolve_recordLength (h : Settings.resolve fileType directives defaults = .ok settings) :
    Settings.positive? directives Directive.recordLength = .ok settings.recordLength := by
  simp only [Settings.resolve] at h
  obtain ⟨charset, -, h⟩ := bind_eq_ok.1 h
  obtain ⟨recordSeparator, -, h⟩ := bind_eq_ok.1 h
  obtain ⟨fieldSeparator, -, h⟩ := bind_eq_ok.1 h
  obtain ⟨quote, -, h⟩ := bind_eq_ok.1 h
  obtain ⟨numeric, -, h⟩ := bind_eq_ok.1 h
  obtain ⟨recordLength, hr, h⟩ := bind_eq_ok.1 h
  obtain ⟨maxRecordLength, -, h⟩ := bind_eq_ok.1 h
  simp only [Except.ok.injEq] at h
  rw [← h]
  exact hr

theorem exists_of_positive? {name : String} {n? : Option Nat}
    (h : Settings.positive? directives name = .ok n?)
    (hd : (Settings.find? directives name).isSome) : ∃ n, n? = some n ∧ 0 < n := by
  obtain ⟨d, hd⟩ := Option.isSome_iff_exists.1 hd
  simp only [Settings.positive?, hd, Settings.fail] at h
  split at h
  · split at h
    · rename_i n _ hn
      simp only [Except.ok.injEq] at h
      exact ⟨n, h.symm, hn⟩
    · simp at h
  · simp at h

end Settings

-- ------------------------------------------------------------------
-- Layouts
-- ------------------------------------------------------------------

/-- The schema is what linking makes of the layout. -/
structure LayoutLinked (ctx : LinkContext) (layout : Layout) (schema : Schema) : Prop where
  source : schema.source = layout.source
  directives : schema.directives = layout.directives
  fileType : fileTypeOf layout = .ok schema.fileType
  valid : layout.directives.forM schema.fileType.validate = .ok ()
  mandatory : checkMandatory layout schema.fileType = .ok ()
  settings : Settings.resolve schema.fileType layout.directives ctx.defaults = .ok schema.settings
  title : checkTitle layout schema.settings = .ok ()
  classifier : layout.classifier.mapM
    (classifierType (ctx.registry (Family.ofFileType schema.fileType)) schema.settings) =
      .ok schema.classifier
  recordTypes : Link.recordTypes schema.fileType (ctx.registry (Family.ofFileType schema.fileType))
    schema.settings schema.classifier layout.recordTypes = .ok schema.recordTypes

theorem layout_ok {ctx : LinkContext} {layout : Layout} {schema : Schema}
    (h : layout.link ctx = .ok schema) : LayoutLinked ctx layout schema := by
  obtain h := mapError_eq_ok.1 h
  simp only [Link.layout] at h
  obtain ⟨fileType, hf, h⟩ := bind_eq_ok.1 h
  obtain ⟨_, hv, h⟩ := bind_eq_ok.1 h
  obtain ⟨_, hm, h⟩ := bind_eq_ok.1 h
  obtain ⟨settings, hs, h⟩ := bind_eq_ok.1 h
  obtain ⟨_, ht, h⟩ := bind_eq_ok.1 h
  obtain ⟨classifier, hc, h⟩ := bind_eq_ok.1 h
  obtain ⟨recordTypes, hr, h⟩ := bind_eq_ok.1 h
  simp only [Except.ok.injEq] at h
  subst h
  exact ⟨rfl, rfl, hf, hv, hm, hs, ht, hc, hr⟩

theorem LayoutLinked.exists_classifier {ctx : LinkContext} {layout : Layout} {schema : Schema}
    {t : RecordType} (h : LayoutLinked ctx layout schema) (ht : schema.classifier = some t) :
    ∃ r, layout.classifier = some r ∧
      classifierType (ctx.registry (Family.ofFileType schema.fileType)) schema.settings r =
        .ok t := by
  have hclassifier := h.classifier
  rw [ht] at hclassifier
  cases hdeclared : layout.classifier with
  | none =>
    rw [hdeclared] at hclassifier
    cases hclassifier
  | some r =>
    rw [hdeclared] at hclassifier
    obtain ⟨t', ht', htt'⟩ := map_eq_ok.1 hclassifier
    obtain rfl := Option.some.inj htt'
    exact ⟨r, rfl, ht'⟩

theorem checkMandatory_ok {layout : Layout} {t : FileType} (h : checkMandatory layout t = .ok ()) :
    ∀ name ∈ t.mandatory, (layout.directive? name).isSome := by
  simp only [checkMandatory] at h
  split at h
  · simp at h
  · rename_i hfind
    intro name hname
    simpa [Option.ne_none_iff_isSome] using List.find?_eq_none.1 hfind name hname

theorem LayoutLinked.recordLength_pos {ctx : LinkContext} {layout : Layout} {schema : Schema}
    (h : LayoutLinked ctx layout schema) (hf : schema.fileType = .fixed) :
    ∃ n, schema.settings.recordLength = some n ∧ 0 < n := by
  have hd := checkMandatory_ok h.mandatory Directive.recordLength (by simp [hf, FileType.mandatory])
  exact exists_of_positive? (resolve_recordLength h.settings) hd

theorem compile_ok {ctx : LinkContext} {text : String} {source : Option String} {schema : Schema}
    (h : Schema.compile ctx text source = .ok schema) :
    ∃ layout, Layout.parse text source = .ok layout ∧ LayoutLinked ctx layout schema := by
  obtain ⟨layout, hp, hl⟩ := bind_eq_ok.1 h
  exact ⟨layout, hp, layout_ok hl⟩

end Flatfile.Link
