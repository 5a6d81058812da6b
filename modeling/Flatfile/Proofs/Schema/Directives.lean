import Flatfile.Proofs.Layout.Renumbering
import Flatfile.Proofs.Lookup
import Flatfile.Proofs.Schema.Relink

/-!
# Directives in another order

Directives are looked up by name, and no two have one name, so their order is of no account
(`sameDirectives_of_perm`). Whatever the linker takes from directives it takes by name: the file
type, the settings, and whether a directive is there. That a file type knows all directives does not
depend on their order either.
-/

namespace Flatfile

variable {ds ds' : List Directive} {name : String}

/-- Under every name both have the same directive, but for its line. -/
def SameDirectives (ds ds' : List Directive) : Prop :=
  ∀ name, (Settings.find? ds name).map Directive.unplaced =
    (Settings.find? ds' name).map Directive.unplaced

theorem sameDirectives_of_perm (hapart : NamesApart Directive.name ds)
    (h : (ds.map Directive.unplaced).Perm (ds'.map Directive.unplaced)) : SameDirectives ds ds' := by
  intro name
  have hfind : ∀ ds : List Directive, (Settings.find? ds name).map Directive.unplaced =
      (ds.map Directive.unplaced).find? fun d => Text.sameName d.name name := by
    intro ds
    rw [List.find?_map]
    rfl
  have hapart' : NamesApart Directive.name (ds.map Directive.unplaced) := List.pairwise_map.2 hapart
  rw [hfind, hfind, hapart'.find?_perm h]

namespace SameDirectives

theorem cases (h : SameDirectives ds ds') (name : String) :
    (Settings.find? ds name = none ∧ Settings.find? ds' name = none) ∨
      ∃ d d', Settings.find? ds name = some d ∧ Settings.find? ds' name = some d' ∧
        d.value = d'.value := by
  have hname := h name
  cases hd : Settings.find? ds name with
  | none =>
    cases hd' : Settings.find? ds' name with
    | none => exact .inl ⟨rfl, rfl⟩
    | some d' => simp [hd, hd'] at hname
  | some d =>
    cases hd' : Settings.find? ds' name with
    | none => simp [hd, hd'] at hname
    | some d' =>
      rw [hd, hd'] at hname
      have hvalue : d.unplaced.value = d'.unplaced.value :=
        congrArg Directive.value (Option.some.inj hname)
      exact .inr ⟨d, d', rfl, rfl, hvalue⟩

theorem isSome_eq (h : SameDirectives ds ds') (name : String) :
    (Settings.find? ds name).isSome = (Settings.find? ds' name).isSome := by
  simpa using congrArg Option.isSome (h name)

-- ------------------------------------------------------------------
-- Settings
-- ------------------------------------------------------------------

theorem bool?_eq (h : SameDirectives ds ds') (name : String) :
    Settings.bool? ds name = Settings.bool? ds' name := by
  rcases h.cases name with ⟨hd, hd'⟩ | ⟨d, d', hd, hd', hvalue⟩
  · rw [Settings.bool?, Settings.bool?, hd, hd']
  · rw [Settings.bool?, Settings.bool?, hd, hd', Option.bind_some, Option.bind_some, hvalue]

theorem string?_eq (h : SameDirectives ds ds') (name : String) :
    Settings.string? ds name = Settings.string? ds' name := by
  rcases h.cases name with ⟨hd, hd'⟩ | ⟨d, d', hd, hd', hvalue⟩
  · rw [Settings.string?, Settings.string?, hd, hd']
  · rw [Settings.string?, Settings.string?, hd, hd', Option.bind_some, Option.bind_some, hvalue]

theorem positive?_eq_ok (h : SameDirectives ds ds') {n? : Option Nat} :
    Settings.positive? ds name = .ok n? ↔ Settings.positive? ds' name = .ok n? := by
  simp only [Settings.positive?]
  rcases h.cases name with ⟨hd, hd'⟩ | ⟨d, d', hd, hd', hvalue⟩
  · simp only [hd, hd']
  · simp only [hd, hd', hvalue, Settings.fail]
    split
    · split <;> simp
    · simp

theorem nibble?_eq_ok (h : SameDirectives ds ds') {n? : Option UInt8} :
    Settings.nibble? ds name = .ok n? ↔ Settings.nibble? ds' name = .ok n? := by
  simp only [Settings.nibble?]
  rcases h.cases name with ⟨hd, hd'⟩ | ⟨d, d', hd, hd', hvalue⟩
  · simp only [hd, hd']
  · simp only [hd, hd', hvalue, Settings.fail]
    split
    · split <;> simp
    · simp

theorem charsetOf_eq_ok (h : SameDirectives ds ds') {charset : Charset} :
    Settings.charsetOf ds = .ok charset ↔ Settings.charsetOf ds' = .ok charset := by
  simp only [Settings.charsetOf]
  rcases h.cases Directive.textEncoding with ⟨hd, hd'⟩ | ⟨d, d', hd, hd', hvalue⟩
  · simp only [hd, hd']
  · simp only [hd, hd', hvalue, Settings.fail]
    split <;> simp

theorem recordSeparatorOf_eq_ok (h : SameDirectives ds ds') {defaults : Defaults}
    {separator : Option String} :
    Settings.recordSeparatorOf ds defaults = .ok separator ↔
      Settings.recordSeparatorOf ds' defaults = .ok separator := by
  simp only [Settings.recordSeparatorOf]
  rcases h.cases Directive.recordSeparator with ⟨hd, hd'⟩ | ⟨d, d', hd, hd', hvalue⟩
  · simp only [hd, hd']
  · simp only [hd, hd', hvalue, Settings.fail]
    split <;> simp

theorem fieldSeparatorOf_eq_ok (h : SameDirectives ds ds') {separator : Option FieldSeparator} :
    Settings.fieldSeparatorOf ds = .ok separator ↔
      Settings.fieldSeparatorOf ds' = .ok separator := by
  simp only [Settings.fieldSeparatorOf]
  rcases h.cases Directive.fieldSeparator with ⟨hd, hd'⟩ | ⟨d, d', hd, hd', hvalue⟩
  · simp only [hd, hd']
  · simp only [hd, hd', hvalue, Settings.fail]
    split <;> simp

theorem quoteOf_eq_ok (h : SameDirectives ds ds') {quote : Option Char} :
    Settings.quoteOf ds = .ok quote ↔ Settings.quoteOf ds' = .ok quote := by
  simp only [Settings.quoteOf]
  rcases h.cases Directive.quotingDelimiter with ⟨hd, hd'⟩ | ⟨d, d', hd, hd', hvalue⟩
  · simp only [hd, hd']
  · simp only [hd, hd', hvalue, Settings.fail]
    split <;> simp

theorem numericOf_eq_ok (h : SameDirectives ds ds') {defaults : Defaults}
    {numeric : NumericFormat} :
    Settings.numericOf ds defaults = .ok numeric ↔
      Settings.numericOf ds' defaults = .ok numeric := by
  simp only [Settings.numericOf, bind_eq_ok, h.nibble?_eq_ok, h.bool?_eq]

theorem resolve_eq_ok (h : SameDirectives ds ds') {fileType : FileType} {defaults : Defaults}
    {settings : Settings} :
    Settings.resolve fileType ds defaults = .ok settings ↔
      Settings.resolve fileType ds' defaults = .ok settings := by
  simp only [Settings.resolve, bind_eq_ok, h.charsetOf_eq_ok, h.recordSeparatorOf_eq_ok,
    h.fieldSeparatorOf_eq_ok, h.quoteOf_eq_ok, h.numericOf_eq_ok, h.positive?_eq_ok, h.bool?_eq,
    h.string?_eq]

end SameDirectives

-- ------------------------------------------------------------------
-- Layouts
-- ------------------------------------------------------------------

namespace Link

variable {layout layout' : Layout} {t : FileType}

theorem fileTypeOf_eq_ok (h : SameDirectives layout.directives layout'.directives) :
    fileTypeOf layout = .ok t ↔ fileTypeOf layout' = .ok t := by
  have hfind (layout : Layout) :
      layout.directive? Directive.fileType = Settings.find? layout.directives Directive.fileType :=
    rfl
  simp only [fileTypeOf, hfind]
  rcases h.cases Directive.fileType with ⟨hd, hd'⟩ | ⟨d, d', hd, hd', hvalue⟩
  · simp [hd, hd']
  · simp only [hd, hd', hvalue]
    split <;> simp

theorem checkMandatory_eq_ok (h : SameDirectives layout.directives layout'.directives) :
    checkMandatory layout t = .ok () ↔ checkMandatory layout' t = .ok () := by
  have hmissing : (fun name => (layout.directive? name).isNone) =
      fun name => (layout'.directive? name).isNone := by
    funext name
    have hname : (layout.directive? name).isSome = (layout'.directive? name).isSome :=
      h.isSome_eq name
    rw [← Option.not_isSome, ← Option.not_isSome, hname]
  simp only [checkMandatory, hmissing]

theorem validate_unplaced {d : Directive} :
    t.validate d.unplaced = .ok () ↔ t.validate d = .ok () := by
  simp only [FileType.validate, Directive.unplaced]
  split
  · simp
  · rename_i rule _
    by_cases hk : d.value.kind ∈ rule.kinds <;> simp [hk]

theorem validate_eq_ok (h : (ds.map Directive.unplaced).Perm (ds'.map Directive.unplaced)) :
    ds.forM t.validate = .ok () ↔ ds'.forM t.validate = .ok () := by
  have hall (ds : List Directive) : ds.forM t.validate = .ok () ↔
      ∀ d ∈ ds.map Directive.unplaced, t.validate d = .ok () := by
    simp only [forM_eq_ok, List.forall_mem_map, validate_unplaced]
  rw [hall, hall]
  exact ⟨fun hds d hd => hds d (h.mem_iff.2 hd), fun hds d hd => hds d (h.mem_iff.1 hd)⟩

end Link
end Flatfile
