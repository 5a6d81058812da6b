import Flatfile.Proofs.Schema.Linked

/-!
# Linking under other defaults

Defaults reach a schema through its settings. Of the settings, linking looks at the charset, the
record length and the title: the first two come from the directives alone, and the title is only
looked for. So linking under other defaults comes to resolving the settings once more and looking
for the title; the fields stay as they are (`compile_underDefaults`).
-/

namespace Flatfile
namespace Link

-- ------------------------------------------------------------------
-- What linking takes from the settings
-- ------------------------------------------------------------------

/-- The settings agree on what fields and record types are linked with. -/
structure LinkAlike (settings settings' : Settings) : Prop where
  charset : settings.charset = settings'.charset
  recordLength : settings.recordLength = settings'.recordLength

section Settings

variable {fileType : FileType} {directives : List Directive} {defaults defaults' : Defaults}
  {settings settings' : Settings}

theorem resolve_charset (h : Settings.resolve fileType directives defaults = .ok settings) :
    Settings.charsetOf directives = .ok settings.charset := by
  simp only [Settings.resolve] at h
  obtain ⟨charset, hc, h⟩ := bind_eq_ok.1 h
  obtain ⟨recordSeparator, -, h⟩ := bind_eq_ok.1 h
  obtain ⟨fieldSeparator, -, h⟩ := bind_eq_ok.1 h
  obtain ⟨quote, -, h⟩ := bind_eq_ok.1 h
  obtain ⟨numeric, -, h⟩ := bind_eq_ok.1 h
  obtain ⟨recordLength, -, h⟩ := bind_eq_ok.1 h
  obtain ⟨maxRecordLength, -, h⟩ := bind_eq_ok.1 h
  obtain rfl := Except.ok.inj h
  exact hc

theorem linkAlike_of_resolve (h : Settings.resolve fileType directives defaults = .ok settings)
    (h' : Settings.resolve fileType directives defaults' = .ok settings') :
    LinkAlike settings settings' where
  charset := Except.ok.inj ((resolve_charset h).symm.trans (resolve_charset h'))
  recordLength := Except.ok.inj ((resolve_recordLength h).symm.trans (resolve_recordLength h'))

end Settings

section Congruence

variable {settings settings' : Settings}

theorem LinkAlike.classifierType (h : LinkAlike settings settings') (registry : Registry) :
    classifierType registry settings = Link.classifierType registry settings' := by
  funext r
  simp only [Link.classifierType, h.charset]

theorem LinkAlike.recordType (h : LinkAlike settings settings') (fileType : FileType)
    (registry : Registry) (classifier : Option RecordType) :
    recordType fileType registry settings classifier =
      Link.recordType fileType registry settings' classifier := by
  funext linked r
  simp only [Link.recordType, h.charset, h.recordLength]

theorem LinkAlike.recordTypes (h : LinkAlike settings settings') (fileType : FileType)
    (registry : Registry) (classifier : Option RecordType) (records : List RecordDecl) :
    recordTypes fileType registry settings classifier records =
      Link.recordTypes fileType registry settings' classifier records := by
  simp only [Link.recordTypes, h.recordType]

end Congruence

-- ------------------------------------------------------------------
-- Layouts that link
-- ------------------------------------------------------------------

variable {ctx : LinkContext} {layout : Layout} {schema : Schema} {settings : Settings}

theorem LayoutLinked.recordType?_isSome (h : LayoutLinked ctx layout schema) (name : String) :
    (schema.recordType? name).isSome = (layout.recordType? name).isSome := by
  have hnames := recordTypes_names h.recordTypes
  have hany : (schema.recordTypes.map (·.name)).any (Text.sameName · name) =
      (layout.recordTypes.map (·.name)).any (Text.sameName · name) := by rw [hnames]
  rw [List.any_map, List.any_map] at hany
  rw [Schema.recordType?, Layout.recordType?, List.isSome_find?, List.isSome_find?]
  exact hany

theorem checkTitle_ok_iff :
    checkTitle layout settings = .ok () ↔
      (settings.requiresTitle = true → (layout.recordType? settings.titleType).isSome) := by
  simp only [checkTitle]
  split
  · rename_i h
    simp [h.1, h.2]
  · rename_i h
    simpa [Option.isSome_iff_ne_none] using h

theorem LayoutLinked.under (h : LayoutLinked ctx layout schema) (defaults : Defaults) :
    Link.layout { ctx with defaults } layout =
      (Settings.resolve schema.fileType layout.directives defaults).bind fun settings =>
        (checkTitle layout settings).map fun () => { schema with settings } := by
  simp only [Link.layout, h.fileType, h.valid, h.mandatory, bind, Except.bind]
  cases hresolve : Settings.resolve schema.fileType layout.directives defaults with
  | error e => rfl
  | ok settings =>
    have halike := linkAlike_of_resolve hresolve h.settings
    have hregistry (family : Family) :
        ({ ctx with defaults } : LinkContext).registry family = ctx.registry family := by
      cases family <;> rfl
    simp only [hregistry, halike.classifierType, halike.recordTypes, h.classifier, h.recordTypes]
    cases checkTitle layout settings with
    | error e => rfl
    | ok => simp only [← h.source, ← h.directives, Except.map]

theorem LayoutLinked.under_ok_iff (h : LayoutLinked ctx layout schema) {defaults : Defaults}
    {relinked : Schema} :
    layout.link { ctx with defaults } = .ok relinked ↔
      ∃ settings, schema.settingsUnder defaults = .ok settings ∧
        (settings.requiresTitle = true → (schema.recordType? settings.titleType).isSome) ∧
        relinked = { schema with settings } := by
  simp only [Layout.link, mapError_eq_ok, h.under, Schema.settingsUnder, h.directives,
    h.recordType?_isSome, ← checkTitle_ok_iff]
  constructor
  · intro hlink
    obtain ⟨settings, hresolve, hlink⟩ := bind_eq_ok.1 hlink
    obtain ⟨_, htitle, rfl⟩ := map_eq_ok.1 hlink
    exact ⟨settings, hresolve, htitle, rfl⟩
  · rintro ⟨settings, hresolve, htitle, rfl⟩
    exact bind_eq_ok.2 ⟨settings, hresolve, map_eq_ok.2 ⟨(), htitle, rfl⟩⟩

end Link

/-- A layout that compiles under some defaults compiles under others, with the same registries,
exactly if the settings can be resolved under these and there is a record type for the title, if one
is required. The schema is then the same but for the settings, so that no field, record type or
classifier depends on the defaults. -/
theorem compile_underDefaults {ctx : LinkContext} {text : String} {source : Option String}
    {schema : Schema} (h : Schema.compile ctx text source = .ok schema) (defaults : Defaults) :
    ((∃ relinked, Schema.compile { ctx with defaults } text source = .ok relinked) ↔
      ∃ settings, schema.settingsUnder defaults = .ok settings ∧
        (settings.requiresTitle = true → ∃ t, schema.recordType? settings.titleType = some t)) ∧
    ∀ relinked, Schema.compile { ctx with defaults } text source = .ok relinked →
      schema.settingsUnder defaults = .ok relinked.settings ∧
        relinked = { schema with settings := relinked.settings } := by
  obtain ⟨layout, hparse, hlinked⟩ := Link.compile_ok h
  have hcompile (relinked : Schema) :
      Schema.compile { ctx with defaults } text source = .ok relinked ↔
        layout.link { ctx with defaults } = .ok relinked := by
    simp [Schema.compile, hparse, bind, Except.bind]
  simp only [hcompile, hlinked.under_ok_iff, ← Option.isSome_iff_exists]
  constructor
  · exact ⟨fun ⟨_, settings, hsettings, htitle, _⟩ => ⟨settings, hsettings, htitle⟩,
      fun ⟨settings, hsettings, htitle⟩ => ⟨_, settings, hsettings, htitle, rfl⟩⟩
  · rintro _ ⟨settings, hsettings, -, rfl⟩
    exact ⟨hsettings, rfl⟩

def titledLayout : String :=
  "file-type: Variable\ntext-encoding: \"UTF-8\"\nfield-separator: \",\"\n" ++
  "record-separator: \"\\n\"\nrequires-title: true\n[Title]\n1 a X\n[Head]\n1 b N(2)\n"

/-- Under other defaults the title is of the second type, or of a type that is not there. -/
theorem compile_underDefaults_titled :
    ∃ schema relinked, Schema.compile {} titledLayout none = .ok schema ∧
      Schema.compile { defaults := { titleTypeName := "HEAD" } } titledLayout none = .ok relinked ∧
      relinked = { schema with settings := { schema.settings with titleType := "HEAD" } } ∧
      ∀ other, Schema.compile { defaults := { titleTypeName := "Tail" } } titledLayout none ≠
        .ok other := by
  have h : (Schema.compile {} titledLayout none).toOption.any fun schema =>
      (schema.settingsUnder { titleTypeName := "HEAD" }).toOption =
          some { schema.settings with titleType := "HEAD" } ∧
        (schema.settingsUnder { titleTypeName := "Tail" }).toOption =
          some { schema.settings with titleType := "Tail" } ∧
        (schema.recordType? "HEAD").isSome ∧ schema.settings.requiresTitle ∧
        (schema.recordType? "Tail").isNone := by decide +kernel
  obtain ⟨schema, hschema, h⟩ := (Option.any_eq_true _ _).1 h
  obtain ⟨hhead, htail, hfound, hrequired, hmissing⟩ := of_decide_eq_true h
  rw [toOption_eq_some] at hschema hhead htail
  obtain ⟨hiff, hsame⟩ := compile_underDefaults hschema { titleTypeName := "HEAD" }
  obtain ⟨relinked, hrelinked⟩ :=
    hiff.2 ⟨_, hhead, fun _ => Option.isSome_iff_exists.1 hfound⟩
  obtain ⟨hsettings, heq⟩ := hsame relinked hrelinked
  obtain hsettings := Except.ok.inj (hsettings.symm.trans hhead)
  refine ⟨schema, relinked, hschema, hrelinked, hsettings ▸ heq, ?_⟩
  intro other hother
  obtain ⟨settings, hsettings, htitle⟩ :=
    (compile_underDefaults hschema { titleTypeName := "Tail" }).1.1 ⟨other, hother⟩
  obtain rfl := Except.ok.inj (htail.symm.trans hsettings)
  obtain ⟨t, ht⟩ := htitle hrequired
  simp [ht] at hmissing

end Flatfile
