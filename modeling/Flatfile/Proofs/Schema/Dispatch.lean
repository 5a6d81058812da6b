import Flatfile.Proofs.Schema.Select

/-!
# Records that are written without the name of a type

A record without the name of a type is written as the first type that would take it by name, if
there are several types. A single type is taken as it is, though by name it is refused if its
conditions fail. So this is the one way in which a record is written as a type whose conditions it
does not satisfy (`selectForWrite_dispatch`).
-/

namespace Flatfile

theorem RecordType.accepts_iff {t : RecordType} {r : Record} :
    t.accepts r = true ↔ ∀ p ∈ t.predicates, p.holds r = true :=
  List.all_eq_true

namespace Schema

variable {s : Schema} {explicit exclude : Option String} {r : Record} {t : RecordType}

theorem candidates_none (s : Schema) : s.candidates none = s.recordTypes :=
  List.filter_eq_self.2 fun _ _ => rfl

theorem selectForWrite_only (hname : r.typeName = none) (honly : s.candidates exclude = [t]) :
    s.selectForWrite none exclude r = .ok t := by
  simp [selectForWrite, hname, honly]

theorem selectForWrite_first (hname : r.typeName = none)
    (hmany : (s.candidates exclude).length ≠ 1) :
    s.selectForWrite none exclude r = .ok t ↔
      (s.candidates exclude).find? (·.accepts r) = some t := by
  cases htypes : s.candidates exclude with
  | nil => simp [selectForWrite, hname, htypes]
  | cons u types =>
    cases types with
    | nil => exact absurd (congrArg List.length htypes) hmany
    | cons w types =>
      simp only [selectForWrite, hname, htypes, Option.or_none]
      cases (u :: w :: types).find? (·.accepts r) <;> simp

theorem selectForWrite_accepts (h : s.selectForWrite explicit exclude r = .ok t) :
    t.accepts r ∨ explicit.or r.typeName = none ∧ s.candidates exclude = [t] := by
  rw [selectForWrite] at h
  split at h
  next name hname =>
    split at h
    next => cases h
    next found hfound =>
      split at h
      next haccepts => exact .inl (Except.ok.inj h ▸ haccepts)
      next => cases h
  next hnone =>
    split at h
    next only honly => exact .inr ⟨hnone, Except.ok.inj h ▸ honly⟩
    next =>
      split at h
      next found hfound =>
        have haccepts : found.accepts r :=
          List.find?_some (p := fun u : RecordType => u.accepts r) hfound
        exact .inl (Except.ok.inj h ▸ haccepts)
      next => cases h

theorem selectForWrite_refused_iff (hfound : s.recordType? t.name = some t) :
    s.selectForWrite (some t.name) exclude r = .error { cause := .conditionsFail t.describe } ↔
      (!t.accepts r) = true := by
  rw [selectForWrite_named hfound rfl]
  split <;> simp [*]

theorem selectForWrite_several (hfound : ∀ t ∈ s.recordTypes, s.recordType? t.name = some t)
    (hname : r.typeName = none) (hmany : s.recordTypes.length ≠ 1) :
    s.selectForWrite none none r = .ok t ↔
      (∀ p ∈ t.predicates, p.holds r) ∧ s.selectForWrite (some t.name) none r = .ok t ∧
        ∃ before after, s.recordTypes = before ++ t :: after ∧
          ∀ u ∈ before, s.selectForWrite (some u.name) none r =
            .error { cause := .conditionsFail u.describe } := by
  have hcandidates := s.candidates_none
  rw [selectForWrite_first hname (by rwa [hcandidates]), hcandidates,
    List.find?_eq_some_iff_append]
  constructor
  · rintro ⟨haccepts, before, after, htypes, hbefore⟩
    refine ⟨RecordType.accepts_iff.1 haccepts, ?_, before, after, htypes, fun u hu => ?_⟩
    · rw [selectForWrite_named (hfound t (by simp [htypes])) rfl, if_pos haccepts]
    · exact (selectForWrite_refused_iff (hfound u (by simp [htypes, hu]))).2 (hbefore u hu)
  · rintro ⟨hholds, -, before, after, htypes, hbefore⟩
    refine ⟨RecordType.accepts_iff.2 hholds, before, after, htypes, fun u hu => ?_⟩
    exact (selectForWrite_refused_iff (hfound u (by simp [htypes, hu]))).1 (hbefore u hu)

end Schema

/-- Writing with and without the name of a type. A single type takes every record that does not name
its type, but by name it takes only those that satisfy its conditions. Of several types the one that
is taken is the first that takes the record by name, so that its conditions hold. -/
theorem selectForWrite_dispatch {ctx : LinkContext} {text : String} {source : Option String}
    {schema : Schema} (h : Schema.compile ctx text source = .ok schema) {r : Record}
    (hname : r.typeName = none) :
    (∀ t, schema.recordTypes = [t] →
      schema.selectForWrite none none r = .ok t ∧
        schema.selectForWrite (some t.name) none r =
          if ∀ p ∈ t.predicates, p.holds r then .ok t
          else .error { cause := .conditionsFail t.describe }) ∧
    (schema.recordTypes.length ≠ 1 → ∀ t,
      schema.selectForWrite none none r = .ok t ↔
        (∀ p ∈ t.predicates, p.holds r) ∧ schema.selectForWrite (some t.name) none r = .ok t ∧
          ∃ before after, schema.recordTypes = before ++ t :: after ∧
            ∀ u ∈ before, schema.selectForWrite (some u.name) none r =
              .error { cause := .conditionsFail u.describe }) ∧
    ∀ explicit exclude t, schema.selectForWrite explicit exclude r = .ok t →
      (∀ p ∈ t.predicates, p.holds r) ∨ explicit = none ∧ schema.candidates exclude = [t] := by
  have hfound : ∀ t ∈ schema.recordTypes, schema.recordType? t.name = some t :=
    fun t ht => recordType?_of_mem h ht
  refine ⟨fun t honly => ⟨?_, ?_⟩, fun hmany t => Schema.selectForWrite_several hfound hname hmany,
    fun explicit exclude t ht => ?_⟩
  · exact Schema.selectForWrite_only hname (schema.candidates_none.trans honly)
  · rw [Schema.selectForWrite_named (hfound t (by simp [honly])) rfl]
    simp only [RecordType.accepts_iff]
  · rcases Schema.selectForWrite_accepts ht with haccepts | ⟨hnone, honly⟩
    · exact .inl (RecordType.accepts_iff.1 haccepts)
    · exact .inr ⟨(Option.or_eq_none_iff.1 hnone).1, honly⟩

def conditionsLayout : String :=
  Formatter.conditionLayout ++ "[S]\na = \"B\"\n1 a X(1)\n"

def untyped (text : String) : Record :=
  Record.empty.insert "a" (.text text)

/-- What satisfies the conditions of the second type is written as the first one if there is no
second one. By name the first type refuses it. -/
theorem selectForWrite_dispatch_kinds :
    (∃ schema t, Schema.compile {} Formatter.conditionLayout none = .ok schema ∧
      schema.selectForWrite none none (untyped "B") = .ok t ∧
      schema.selectForWrite (some t.name) none (untyped "B") =
        .error { cause := .conditionsFail t.describe }) ∧
    ∃ schema t, Schema.compile {} conditionsLayout none = .ok schema ∧ t.name = "S" ∧
      schema.selectForWrite none none (untyped "B") = .ok t ∧
      schema.selectForWrite (some t.name) none (untyped "B") = .ok t := by
  have hone : (Schema.compile {} Formatter.conditionLayout none).toOption.map (fun s =>
      s.recordTypes.map fun t => decide (∀ p ∈ t.predicates, p.holds (untyped "B"))) =
      some [false] := by
    decide +kernel
  have htwo : ((Schema.compile {} conditionsLayout none).toOption.bind fun s =>
      (s.selectForWrite none none (untyped "B")).toOption.map fun t =>
        (s.recordTypes.length, t.name)) = some (2, "S") := by
    decide +kernel
  constructor
  · obtain ⟨schema, hschema, htypes⟩ := Option.map_eq_some_iff.1 hone
    obtain ⟨t, honly, hfails⟩ := List.map_eq_singleton_iff.1 htypes
    replace hschema := toOption_eq_some.1 hschema
    obtain ⟨hsingle, -, -⟩ := selectForWrite_dispatch hschema (r := untyped "B") rfl
    obtain ⟨htaken, hnamed⟩ := hsingle t honly
    rw [if_neg (of_decide_eq_false hfails)] at hnamed
    exact ⟨schema, t, hschema, htaken, hnamed⟩
  · obtain ⟨schema, hschema, htaken⟩ := Option.bind_eq_some_iff.1 htwo
    obtain ⟨t, ht, hparts⟩ := Option.map_eq_some_iff.1 htaken
    obtain ⟨hlength, hname⟩ := Prod.mk.inj hparts
    replace hschema := toOption_eq_some.1 hschema
    replace ht := toOption_eq_some.1 ht
    obtain ⟨-, hseveral, -⟩ := selectForWrite_dispatch hschema (r := untyped "B") rfl
    obtain ⟨-, hnamed, -⟩ := (hseveral (by omega) t).1 ht
    exact ⟨schema, t, hschema, hname, ht, hnamed⟩

end Flatfile
