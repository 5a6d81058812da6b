import Flatfile.Proofs.Schema.Linked
import Mathlib.Data.List.Induction

/-!
# Why layouts do not link

The errors of the linker, read as what is wrong and where: with the directives, with a field, or
with a record type after those before it. Each lemma takes the failure of one step as the fault that
it reports; `link_error` is the whole list. Nothing else goes wrong, so that an error that is not on
the list is never reported.
-/

namespace Flatfile

-- ------------------------------------------------------------------
-- Directives
-- ------------------------------------------------------------------

namespace Settings

variable {fileType : FileType} {directives : List Directive} {defaults : Defaults}
  {name : String} {e : SyntaxError}

inductive Refused (directives : List Directive) : SyntaxError → Prop
  | mk {d} (hd : d ∈ directives) (fault : DirectiveFault) :
      Refused directives (.located d.line d.column (.inDirective d.name fault))

theorem refused_of_fail {d : Directive} {fault : DirectiveFault}
    (hd : find? directives name = some d) (h : (fail d fault : Except SyntaxError α) = .error e) :
    Refused directives e :=
  Except.error.inj h ▸ .mk (List.mem_of_find?_eq_some hd) fault

theorem charsetOf_error (h : charsetOf directives = .error e) : Refused directives e := by
  simp only [charsetOf] at h
  split at h
  · cases h
  · rename_i d hd
    split at h
    · cases h
    · exact refused_of_fail hd h

theorem recordSeparatorOf_error (h : recordSeparatorOf directives defaults = .error e) :
    Refused directives e := by
  simp only [recordSeparatorOf] at h
  split at h
  · cases h
  · rename_i d hd
    split at h
    · cases h
    · exact refused_of_fail hd h

theorem fieldSeparatorOf_error (h : fieldSeparatorOf directives = .error e) :
    Refused directives e := by
  simp only [fieldSeparatorOf] at h
  split at h
  · cases h
  · rename_i d hd
    split at h
    · exact refused_of_fail hd h
    · cases h

theorem quoteOf_error (h : quoteOf directives = .error e) : Refused directives e := by
  simp only [quoteOf] at h
  split at h
  · cases h
  · rename_i d hd
    split at h
    · cases h
    · cases h
    · exact refused_of_fail hd h

theorem positive?_error (h : positive? directives name = .error e) : Refused directives e := by
  simp only [positive?] at h
  split at h
  · cases h
  · rename_i d hd
    split at h
    · split at h
      · cases h
      · exact refused_of_fail hd h
    · exact refused_of_fail hd h

theorem nibble?_error (h : nibble? directives name = .error e) : Refused directives e := by
  simp only [nibble?] at h
  split at h
  · cases h
  · rename_i d hd
    split at h
    · split at h
      · cases h
      · exact refused_of_fail hd h
    · exact refused_of_fail hd h

theorem numericOf_error (h : numericOf directives defaults = .error e) :
    Refused directives e := by
  rcases bind_eq_error.1 h with h | ⟨_, -, h⟩
  · exact nibble?_error h
  rcases bind_eq_error.1 h with h | ⟨_, -, h⟩
  · exact nibble?_error h
  rcases bind_eq_error.1 h with h | ⟨_, -, h⟩
  · exact nibble?_error h
  rcases bind_eq_error.1 h with h | ⟨_, -, h⟩
  · exact nibble?_error h
  · cases h

theorem resolve_error (h : resolve fileType directives defaults = .error e) :
    Refused directives e := by
  rcases bind_eq_error.1 h with h | ⟨_, -, h⟩
  · exact charsetOf_error h
  rcases bind_eq_error.1 h with h | ⟨_, -, h⟩
  · exact recordSeparatorOf_error h
  rcases bind_eq_error.1 h with h | ⟨_, -, h⟩
  · exact fieldSeparatorOf_error h
  rcases bind_eq_error.1 h with h | ⟨_, -, h⟩
  · exact quoteOf_error h
  rcases bind_eq_error.1 h with h | ⟨_, -, h⟩
  · exact numericOf_error h
  rcases bind_eq_error.1 h with h | ⟨_, -, h⟩
  · exact positive?_error h
  rcases bind_eq_error.1 h with h | ⟨_, -, h⟩
  · exact positive?_error h
  · cases h

theorem resolve_requiresTitle {settings : Settings}
    (h : resolve fileType directives defaults = .ok settings) :
    settings.requiresTitle = (bool? directives Directive.requiresTitle).getD false := by
  simp only [resolve] at h
  obtain ⟨_, -, h⟩ := bind_eq_ok.1 h
  obtain ⟨_, -, h⟩ := bind_eq_ok.1 h
  obtain ⟨_, -, h⟩ := bind_eq_ok.1 h
  obtain ⟨_, -, h⟩ := bind_eq_ok.1 h
  obtain ⟨_, -, h⟩ := bind_eq_ok.1 h
  obtain ⟨_, -, h⟩ := bind_eq_ok.1 h
  obtain ⟨_, -, h⟩ := bind_eq_ok.1 h
  obtain rfl := Except.ok.inj h
  rfl

end Settings

namespace Link

/-- The directives of a layout are at fault. A directive that is missing is reported at the
beginning of the text. -/
inductive DirectivesRefused (directives : List Directive) : SyntaxError → Prop
  | missingFileType : DirectivesRefused directives (.located 1 1 .missingFileType)
  | missing (name : String) (t : FileType) :
      DirectivesRefused directives (.located 1 1 (.missingDirective name t))
  | fileType {d} (hd : d ∈ directives) :
      DirectivesRefused directives (.located d.line d.column (.unknownFileType d.value))
  | unknown {d} (hd : d ∈ directives) (t : FileType) :
      DirectivesRefused directives (.located d.line d.column (.unknownDirective d.name t))
  | kind {d} (hd : d ∈ directives) (rule : DirectiveRule) :
      DirectivesRefused directives
        (.located d.line d.column (.directiveKind rule.name rule.kinds d.value))
  | value {e} (h : Settings.Refused directives e) : DirectivesRefused directives e
  | title {d} (hd : d ∈ directives) (name : String) :
      DirectivesRefused directives (.located d.line d.column (.missingTitleType name))

section Directives

variable {layout : Layout} {t : FileType} {settings : Settings} {d : Directive} {e : SyntaxError}

theorem fileTypeOf_error (h : fileTypeOf layout = .error e) :
    DirectivesRefused layout.directives e := by
  simp only [fileTypeOf] at h
  split at h
  · exact Except.error.inj h ▸ .missingFileType
  · rename_i d hd
    split at h
    · cases h
    · exact Except.error.inj h ▸ .fileType (List.mem_of_find?_eq_some hd)

theorem validate_error (hd : d ∈ layout.directives) (h : t.validate d = .error e) :
    DirectivesRefused layout.directives e := by
  simp only [FileType.validate] at h
  split at h
  · exact Except.error.inj h ▸ .unknown hd t
  · rename_i rule _
    split at h
    · cases h
    · exact Except.error.inj h ▸ .kind hd rule

theorem checkMandatory_error (h : checkMandatory layout t = .error e) :
    DirectivesRefused layout.directives e := by
  simp only [checkMandatory] at h
  split at h
  · rename_i name _
    exact Except.error.inj h ▸ .missing name t
  · cases h

theorem checkTitle_error {defaults : Defaults}
    (hsettings : Settings.resolve t layout.directives defaults = .ok settings)
    (h : checkTitle layout settings = .error e) : DirectivesRefused layout.directives e := by
  simp only [checkTitle] at h
  split at h
  · rename_i hrequired
    have hbool := hrequired.1
    rw [Settings.resolve_requiresTitle hsettings] at hbool
    obtain ⟨d, hd⟩ : ∃ d, layout.directive? Directive.requiresTitle = some d := by
      rw [← Option.isSome_iff_exists, Option.isSome_iff_ne_none]
      intro hnone
      rw [Settings.bool?, show Settings.find? _ _ = none from hnone] at hbool
      cases hbool
    rw [hd] at h
    exact Except.error.inj h ▸ .title (List.mem_of_find?_eq_some hd) settings.titleType
  · cases h

end Directives

-- ------------------------------------------------------------------
-- Fields
-- ------------------------------------------------------------------

inductive FieldRefused (record : String) (d : FieldDecl) : SyntaxError → Prop
  | atField (fault : FieldFault) : FieldRefused record d (atField record d fault)
  | atCall {call} (hcall : call ∈ d.dataType.toList ++ d.converters) (fault : FieldFault) :
      FieldRefused record d (atCall record d call fault)

section Fields

variable {registry : Registry} {charset : Charset} {record : String} {d : FieldDecl}
  {call : CodecCall} {e : SyntaxError}

theorem charsetOf_error (h : charsetOf record d charset = .error e) : FieldRefused record d e := by
  simp only [charsetOf] at h
  split at h
  · cases h
  · split at h
    · cases h
    · exact Except.error.inj h ▸ .atField _

theorem dataTypeOf_error (hcall : d.dataType = some call)
    (h : dataTypeOf registry record d call charset = .error e) : FieldRefused record d e := by
  have hmem : call ∈ d.dataType.toList ++ d.converters := by simp [hcall]
  simp only [dataTypeOf] at h
  split at h
  · exact Except.error.inj h ▸ .atCall hmem _
  · obtain ⟨_, -, rfl⟩ := mapError_eq_error.1 h
    exact .atCall hmem _

theorem converterOf_error (hcall : call ∈ d.converters)
    (h : converterOf registry record d call = .error e) : FieldRefused record d e := by
  have hmem : call ∈ d.dataType.toList ++ d.converters := List.mem_append_right _ hcall
  simp only [converterOf] at h
  split at h
  · exact Except.error.inj h ▸ .atCall hmem _
  · obtain ⟨_, -, rfl⟩ := mapError_eq_error.1 h
    exact .atCall hmem _

theorem withSubstitution_error {dataType : String} {converters : List Converter}
    (h : withSubstitution registry record d dataType converters = .error e) :
    FieldRefused record d e := by
  simp only [withSubstitution] at h
  split at h
  · cases h
  · split at h
    · cases h
    · split at h
      · exact Except.error.inj h ▸ .atField _
      · exact Except.error.inj h ▸ .atField _
      · cases h

theorem field_error (h : field registry charset record d = .error e) : FieldRefused record d e := by
  simp only [field] at h
  rcases bind_eq_error.1 h with h | ⟨charset, -, h⟩
  · exact charsetOf_error h
  split at h
  · exact Except.error.inj h ▸ .atField _
  · rename_i call hcall
    rcases bind_eq_error.1 h with h | ⟨_, -, h⟩
    · exact dataTypeOf_error hcall h
    rcases bind_eq_error.1 h with h | ⟨_, -, h⟩
    · obtain ⟨c, hc, h⟩ := exists_mem_of_mapM_error h
      exact converterOf_error hc h
    rcases bind_eq_error.1 h with h | ⟨_, -, h⟩
    · exact withSubstitution_error h
    · cases h

theorem fields_error {r : RecordDecl} (h : fields registry charset r = .error e) :
    ∃ d ∈ r.fields, FieldRefused r.name d e := by
  rcases bind_eq_error.1 h with h | ⟨_, -, h⟩
  · obtain ⟨d, hd, h⟩ := exists_mem_of_mapM_error h
    exact ⟨d, hd, field_error h⟩
  · cases h

end Fields

-- ------------------------------------------------------------------
-- Record types
-- ------------------------------------------------------------------

/-- A record type that comes after the types `linked` is at fault. A field that is out of place may
be one that it takes over. -/
inductive TypeRefused (linked : List RecordType) (r : RecordDecl) : SyntaxError → Prop
  | field {d e} (hd : d ∈ r.fields) (h : FieldRefused r.name d e) : TypeRefused linked r e
  | base {name} (hbase : r.base = some name)
      (hmissing : ∀ t ∈ linked, Text.sameName t.name name = false) :
      TypeRefused linked r (.located r.line 1 (.unknownBase name))
  | place {f : Field} (hf : (∃ d ∈ r.fields, f.line = d.line) ∨ ∃ t ∈ linked, f ∈ t.fields)
      (fault : FieldFault) : TypeRefused linked r (.located f.line 1 (.inField r.name f.name fault))
  | length (covered declared : Nat) :
      TypeRefused linked r (.located r.line 1 (.wrongLength r.name covered declared))
  | condition {c} (hc : c ∈ r.conditions) :
      TypeRefused linked r (.located c.line 1 (.unknownConditionField r.name c.field))

section Types

variable {fileType : FileType} {registry : Registry} {settings : Settings}
  {classifier : Option RecordType} {linked : List RecordType} {records : List RecordDecl}
  {r : RecordDecl} {e : SyntaxError}

theorem checkFrom_error {fixed : Bool} {record : String} {expected : Nat} {names : List String}
    {fields : List Field} (h : checkFrom fixed record expected names fields = .error e) :
    ∃ f ∈ fields, ∃ fault, e = .located f.line 1 (.inField record f.name fault) := by
  induction fields generalizing expected names with
  | nil => cases h
  | cons f rest ih =>
    have hhere (fault : FieldFault)
        (h : (.error (.located f.line 1 (.inField record f.name fault)) :
          Except SyntaxError Nat) = .error e) :
        ∃ g ∈ f :: rest, ∃ fault, e = .located g.line 1 (.inField record g.name fault) :=
      ⟨f, List.mem_cons_self, fault, (Except.error.inj h).symm⟩
    have hlater {expected : Nat} {names : List String}
        (h : checkFrom fixed record expected names rest = .error e) :
        ∃ g ∈ f :: rest, ∃ fault, e = .located g.line 1 (.inField record g.name fault) := by
      obtain ⟨g, hg, hfault⟩ := ih h
      exact ⟨g, List.mem_cons_of_mem _ hg, hfault⟩
    simp only [checkFrom] at h
    split at h
    · exact hhere _ h
    split at h
    · exact hhere _ h
    split at h
    · exact hhere _ h
    split at h
    · exact hlater h
    split at h
    · exact hhere _ h
    · exact hlater h

theorem mergedFields_error {own : List Field} (h : mergedFields linked r own = .error e) :
    TypeRefused linked r e := by
  simp only [mergedFields] at h
  split at h
  · cases h
  · rename_i name hbase
    split at h
    · cases h
    · rename_i hfind
      refine Except.error.inj h ▸ .base hbase fun t ht => ?_
      simpa using List.find?_eq_none.1 hfind t ht

theorem predicate_error {record : String} {fields : List Field} {c : ConditionDecl}
    (h : predicate record fields classifier c = .error e) :
    e = .located c.line 1 (.unknownConditionField record c.field) := by
  simp only [predicate] at h
  split at h
  · cases h
  · exact (Except.error.inj h).symm

theorem recordType_error
    (h : recordType fileType registry settings classifier linked r = .error e) :
    TypeRefused linked r e := by
  simp only [recordType] at h
  rcases bind_eq_error.1 h with h | ⟨own, hown, h⟩
  · obtain ⟨d, hd, h⟩ := fields_error h
    exact .field hd h
  rcases bind_eq_error.1 h with h | ⟨merged, hmerged, h⟩
  · exact mergedFields_error h
  rcases bind_eq_error.1 h with h | ⟨length, -, h⟩
  · obtain ⟨f, hf, fault, rfl⟩ : ∃ f ∈ merged, ∃ fault,
        e = .located f.line 1 (.inField r.name f.name fault) := by
      rw [checkLayout] at h
      cases hwalk : checkFrom (decide (fileType = .fixed)) r.name 1 [] merged with
      | ok stop =>
        rw [hwalk] at h
        cases h
      | error e' =>
        rw [hwalk] at h
        obtain rfl := Except.error.inj h
        exact checkFrom_error hwalk
    refine .place ?_ fault
    rcases mem_of_mergedFields hmerged hf with hf | hf
    · obtain ⟨made, hmade, rfl⟩ := fields_ok hown
      obtain ⟨d, hd, hdf⟩ :=
        exists_mem_left_of_forall₂ hmade ((sortFields_perm made).mem_iff.1 hf)
      exact .inl ⟨d, hd, (field_ok hdf).line⟩
    · exact .inr hf
  split at h
  · exact Except.error.inj h ▸ .length length _
  rcases bind_eq_error.1 h with h | ⟨_, -, h⟩
  · obtain ⟨c, hc, h⟩ := exists_mem_of_mapM_error h
    exact predicate_error h ▸ .condition hc
  · cases h

/-- The first record type that is at fault comes after those that are linked. -/
theorem recordTypes_error
    (h : recordTypes fileType registry settings classifier records = .error e) :
    ∃ before r after linked, records = before ++ r :: after ∧
      recordTypes fileType registry settings classifier before = .ok linked ∧
      TypeRefused linked r e := by
  -- From the last record type on: either those before it fail already, or they link and it fails.
  induction records using List.reverseRecOn with
  | nil => cases h
  | append_singleton records r ih =>
    simp only [recordTypes, List.foldlM_append] at h
    rcases bind_eq_error.1 h with h | ⟨linked, hlinked, h⟩
    · obtain ⟨before, s, after, linked, rfl, hlinked, hrefused⟩ := ih h
      exact ⟨before, s, after ++ [r], linked, by simp, hlinked, hrefused⟩
    · refine ⟨records, r, [], linked, rfl, hlinked, ?_⟩
      simp only [List.foldlM_cons, List.foldlM_nil] at h
      rcases bind_eq_error.1 h with h | ⟨_, -, h⟩
      · rcases bind_eq_error.1 h with h | ⟨_, -, h⟩
        · exact recordType_error h
        · cases h
      · cases h

end Types

-- ------------------------------------------------------------------
-- Layouts
-- ------------------------------------------------------------------

inductive LayoutRefused (layout : Layout) : SyntaxError → Prop
  | directives {e} (h : DirectivesRefused layout.directives e) : LayoutRefused layout e
  | classifier {r d e} (hr : layout.classifier = some r) (hd : d ∈ r.fields)
      (h : FieldRefused r.name d e) : LayoutRefused layout e
  | recordType {fileType registry settings classifier before r after linked e}
      (hrecords : layout.recordTypes = before ++ r :: after)
      (hlinked : Link.recordTypes fileType registry settings classifier before = .ok linked)
      (h : TypeRefused linked r e) : LayoutRefused layout e

theorem layout_error {ctx : LinkContext} {layout : Layout} {e : SyntaxError}
    (h : Link.layout ctx layout = .error e) : LayoutRefused layout e := by
  simp only [Link.layout] at h
  rcases bind_eq_error.1 h with h | ⟨fileType, -, h⟩
  · exact .directives (fileTypeOf_error h)
  rcases bind_eq_error.1 h with h | ⟨_, -, h⟩
  · obtain ⟨d, hd, h⟩ := exists_mem_of_forM_error h
    exact .directives (validate_error hd h)
  rcases bind_eq_error.1 h with h | ⟨_, -, h⟩
  · exact .directives (checkMandatory_error h)
  rcases bind_eq_error.1 h with h | ⟨settings, hsettings, h⟩
  · exact .directives (.value (Settings.resolve_error h))
  rcases bind_eq_error.1 h with h | ⟨_, -, h⟩
  · exact .directives (checkTitle_error hsettings h)
  rcases bind_eq_error.1 h with h | ⟨classifier, -, h⟩
  · cases hr : layout.classifier with
    | none =>
      rw [hr] at h
      cases h
    | some r =>
      rw [hr] at h
      rcases bind_eq_error.1 h with h | ⟨_, -, h⟩
      · rcases bind_eq_error.1 h with h | ⟨_, -, h⟩
        · obtain ⟨d, hd, h⟩ := fields_error h
          exact .classifier hr hd h
        · cases h
      · cases h
  rcases bind_eq_error.1 h with h | ⟨_, -, h⟩
  · obtain ⟨before, r, after, linked, hrecords, hlinked, hrefused⟩ := recordTypes_error h
    exact .recordType hrecords hlinked hrefused
  · cases h

/-- An error of the linker is that of a fault of the layout, with the name of the layout. -/
theorem link_error {ctx : LinkContext} {layout : Layout} {e : SyntaxError}
    (h : layout.link ctx = .error e) :
    ∃ fault, LayoutRefused layout fault ∧ e = fault.inSource layout.source := by
  obtain ⟨fault, hfault, rfl⟩ := mapError_eq_error.1 h
  exact ⟨fault, layout_error hfault, rfl⟩

end Link
end Flatfile
