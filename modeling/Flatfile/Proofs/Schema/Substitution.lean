import Flatfile.Proofs.Schema.Linked

/-!
# Converters that a registry adds

A registry may add a converter to every field of a data type whose converters lack one of its name.
Two names of a converter meet there: the one under which the layout asks for it and the one that it
goes by itself. It is the second one that linking compares, while the converter to add is looked up
by the first. So a field gets the converter exactly if it lacks one that was asked for by that name
as long as the converters of the registry go by the names under which it has them, and not otherwise
(`field_completed`).
-/

namespace Flatfile

namespace Registry

variable {registry : Registry} {family : Family} {name : String} {args : List Literal}
  {c : Converter}

def Makes (registry : Registry) (call : CodecCall) (c : Converter) : Prop :=
  registry.converter? call.name call.args = some (.ok c)

/-- Every converter goes by the name under which the registry has it. -/
def KeepsNames (registry : Registry) : Prop :=
  ∀ name args c, registry.converter? name args = some (.ok c) → Text.sameName c.name name

theorem keepsNames_of_entries
    (h : ∀ entry ∈ registry.converters, ∀ args c, entry.2 args = .ok c → c.name = entry.1) :
    registry.KeepsNames := by
  intro name args c hmade
  obtain ⟨factory, hfactory, hmade⟩ := Option.map_eq_some_iff.1 hmade
  obtain ⟨entry, hentry, rfl⟩ := Option.map_eq_some_iff.1 hfactory
  rw [h entry (List.mem_of_find?_eq_some hentry) _ _ hmade]
  exact List.find?_some (p := fun e : String × ConverterFactory => Text.sameName e.1 name) hentry

theorem plain_ok {converter : Converter} {args : Args} (h : plain converter args = .ok c) :
    c = converter := by
  obtain ⟨_, -, h⟩ := bind_eq_ok.1 h
  exact (Except.ok.inj h).symm

theorem keepsNames_builtin (family : Family) : (builtin family).KeepsNames := by
  apply keepsNames_of_entries
  have hentries : (builtin family).converters = builtinConverters := by cases family <;> rfl
  rw [hentries]
  simp only [builtinConverters, List.forall_mem_cons]
  refine ⟨?default, ?trim, ?upper, ?lower, ?replace, ?translate, ?lookup, nofun⟩
  case trim | upper | lower =>
    intro args c hmade
    rw [plain_ok hmade]
    rfl
  all_goals
    intro args c hmade
    obtain ⟨made, -, rfl⟩ := map_eq_ok.1 hmade
    rfl

theorem KeepsNames.addSubstitution (h : registry.KeepsNames) (dataType converter : String)
    (args : List Literal) : (registry.addSubstitution dataType converter args).KeepsNames :=
  h

end Registry

namespace Link

variable {registry : Registry} {charset : Charset} {record dataType : String} {d : FieldDecl}
  {f : Field} {call : CodecCall} {c : Converter} {s : Substitution} {names names' : List String}
  {declared chain : List Converter}

def HasName (names : List String) (s : Substitution) : Prop :=
  ∃ name ∈ names, Text.sameName name s.converter

/-- The converters of a field are those that are declared, and behind them the one that the registry
adds to its data type, if it adds one and none of these names is its name. -/
inductive Completed (registry : Registry) (dataType : String) (names : List String)
    (declared chain : List Converter) : Prop
  | complete (hhas : ∀ s, registry.substitution? dataType = some s → HasName names s)
      (hchain : chain = declared)
  | added {s : Substitution} {c : Converter} (hadds : registry.substitution? dataType = some s)
      (hlacks : ¬ HasName names s) (hmade : registry.converter? s.converter s.args = some (.ok c))
      (hchain : chain = declared ++ [c])

theorem converterOf_eq_ok :
    converterOf registry record d call = .ok c ↔ registry.Makes call c := by
  unfold converterOf Registry.Makes
  split
  next hnone => simp [hnone]
  next made hmade =>
    rw [hmade, mapError_eq_ok]
    simp

theorem withSubstitution_ok
    (h : withSubstitution registry record d dataType declared = .ok chain) :
    Completed registry dataType (declared.map (·.name)) declared chain := by
  unfold withSubstitution at h
  split at h
  next hnone =>
    cases h
    exact .complete (by simp [hnone]) rfl
  next s hadds =>
    have hany : (declared.any fun c => Text.sameName c.name s.converter) = true ↔
        HasName (declared.map (·.name)) s := by
      simp [HasName]
    split at h
    next hhas =>
      cases h
      refine .complete ?_ rfl
      intro s' hs'
      cases hadds.symm.trans hs'
      exact hany.1 hhas
    next hlacks =>
      split at h
      next => cases h
      next => cases h
      next c hmade =>
        cases h
        exact .added hadds (fun hhas => hlacks (hany.2 hhas)) hmade rfl

/-- By other names the converters are the same exactly if the name to add is among both or none. -/
theorem Completed.iff_of_names (h : Completed registry dataType names declared chain) :
    Completed registry dataType names' declared chain ↔
      ∀ s, registry.substitution? dataType = some s → (HasName names' s ↔ HasName names s) := by
  constructor
  · intro h' s hadds
    cases h with
    | complete hhas hchain =>
      cases h' with
      | complete hhas' => exact iff_of_true (hhas' s hadds) (hhas s hadds)
      | added _ _ _ hchain' => simp [hchain] at hchain'
    | added hadds₁ hlacks hmade hchain =>
      cases h' with
      | complete _ hchain' => simp [hchain'] at hchain
      | added hadds₂ hlacks' =>
        cases hadds.symm.trans hadds₁
        cases hadds.symm.trans hadds₂
        exact iff_of_false hlacks' hlacks
  · intro hnames
    cases h with
    | complete hhas hchain =>
      exact .complete (fun s hadds => (hnames s hadds).2 (hhas s hadds)) hchain
    | added hadds hlacks hmade hchain =>
      exact .added hadds (fun hhas => hlacks ((hnames _ hadds).1 hhas)) hmade hchain

theorem hasName_of_keepsNames (hkeeps : registry.KeepsNames) {calls : List CodecCall}
    (hmade : List.Forall₂ registry.Makes calls declared) (s : Substitution) :
    HasName (calls.map (·.name)) s ↔ HasName (declared.map (·.name)) s := by
  induction hmade with
  | nil => exact Iff.rfl
  | @cons call c calls declared hfirst _ ih =>
    have hsame := Text.sameName_iff.1 (hkeeps _ _ _ hfirst)
    simp only [HasName, List.map_cons, List.exists_mem_cons_iff, Text.sameName_iff] at ih ⊢
    rw [hsame, ih]

/-- A field that links has the converters that its line asks for, in that order, and behind them the
one that the registry adds to its data type exactly if none of them goes by that name. The names in
the layout say the same exactly if the name is among both or none, as it is if every converter of
the registry goes by the name under which the registry has it. -/
theorem field_completed (h : field registry charset record d = .ok f) :
    ∃ call declared, d.dataType = some call ∧
      List.Forall₂ registry.Makes d.converters declared ∧
      Completed registry call.name (declared.map (·.name)) declared f.converters ∧
      (Completed registry call.name (d.converters.map (·.name)) declared f.converters ↔
        ∀ s, registry.substitution? call.name = some s →
          (HasName (d.converters.map (·.name)) s ↔ HasName (declared.map (·.name)) s)) ∧
      (registry.KeepsNames →
        Completed registry call.name (d.converters.map (·.name)) declared f.converters) := by
  obtain ⟨call, declared, hcall, -, hconverters, hchain⟩ := (field_ok h).codec
  have hmade : List.Forall₂ registry.Makes d.converters declared := by
    have hsteps := mapM_eq_ok.1 hconverters
    simpa only [converterOf_eq_ok] using hsteps
  have hcompleted := withSubstitution_ok hchain
  refine ⟨call, declared, hcall, hmade, hcompleted, hcompleted.iff_of_names, fun hkeeps => ?_⟩
  apply hcompleted.iff_of_names.2
  intro s _
  exact hasName_of_keepsNames hkeeps hmade s

def columnDecl (converters : List String) : FieldDecl :=
  { position := 1, name := "a", encoding := none, isRequired := false, isAttribute := false
    isFiller := false, occurs := .once
    dataType := some { name := "X", args := [], synthetic := false, line := 1, column := 5 }
    converters := converters.map fun name =>
      { name, args := [], synthetic := false, line := 1, column := 7 }
    line := 1, column := 1 }

def uppercasing : Registry :=
  Registry.columns.addSubstitution "X" "Upper" []

def shouting : Registry :=
  (Registry.columns.addConverter "Shout" (plain upperConverter)).addSubstitution "X" "Shout" []

theorem exists_linked {registry : Registry} {d : FieldDecl} {names : List String}
    (h : (field registry .utf8 "R" d).toOption.map (fun f => f.converters.map (·.name)) =
      some names) :
    ∃ f, field registry .utf8 "R" d = .ok f ∧ f.converters.map (·.name) = names := by
  obtain ⟨f, hf, hnames⟩ := Option.map_eq_some_iff.1 h
  exact ⟨f, toOption_eq_some.1 hf, hnames⟩

/-- A field gets upper case behind its own converter. What goes by another name than the one it was
asked for is added although it is there. -/
theorem field_completed_twice :
    (∃ f declared, field uppercasing .utf8 "R" (columnDecl ["Lower"]) = .ok f ∧
      f.converters.map (·.name) = ["Lower", "Upper"] ∧
      Completed uppercasing "X" ["Lower"] declared f.converters) ∧
    ∃ f declared, field shouting .utf8 "R" (columnDecl ["Shout"]) = .ok f ∧
      List.Forall₂ shouting.Makes (columnDecl ["Shout"]).converters declared ∧
      f.converters.map (·.name) = ["Upper", "Upper"] ∧
      ¬ Completed shouting "X" ["Shout"] declared f.converters := by
  constructor
  · obtain ⟨f, hf, hnames⟩ : ∃ f, field uppercasing .utf8 "R" (columnDecl ["Lower"]) = .ok f ∧
        f.converters.map (·.name) = ["Lower", "Upper"] := exists_linked (by decide +kernel)
    obtain ⟨call, declared, hcall, -, -, -, hkept⟩ := field_completed hf
    cases hcall
    have hkeeps := (Registry.keepsNames_builtin .columns).addSubstitution "X" "Upper" []
    exact ⟨f, declared, hf, hnames, hkept hkeeps⟩
  · obtain ⟨f, hf, hnames⟩ : ∃ f, field shouting .utf8 "R" (columnDecl ["Shout"]) = .ok f ∧
        f.converters.map (·.name) = ["Upper", "Upper"] := exists_linked (by decide +kernel)
    obtain ⟨call, declared, hcall, hmade, hcompleted, hiff, -⟩ := field_completed hf
    cases hcall
    refine ⟨f, declared, hf, hmade, hnames, fun hlayout => ?_⟩
    have hadds : shouting.substitution? "X" = some { converter := "Shout", args := [] } := rfl
    have hhas : HasName ["Shout"] { converter := "Shout", args := [] } :=
      ⟨"Shout", List.mem_singleton_self _, by decide⟩
    have hsame := hiff.1 hlayout _ hadds
    -- The field has one converter more than its line asks for.
    have hlength := congrArg List.length hnames
    have hone := hmade.length_eq
    cases hcompleted with
    | complete _ hchain =>
      simp [hchain, ← hone, columnDecl] at hlength
    | added hadds' hlacks =>
      cases hadds.symm.trans hadds'
      exact hlacks (hsame.1 hhas)

end Link
end Flatfile
