import Flatfile.Proofs.Layout.Renumbering
import Flatfile.Proofs.Schema.Linked
import Mathlib.Data.List.Perm.Basic

/-!
# Linking does not look at lines

The line of a declaration goes into errors, and into the field that is made of it. Nothing else
depends on it: each step of the linker does with declarations and fields without their lines what it
does with them, except that it leaves no lines.
-/

namespace Flatfile

def Field.unplaced (f : Field) : Field :=
  { f with line := 0 }

def RecordType.unplaced (t : RecordType) : RecordType :=
  { t with fields := t.fields.map Field.unplaced }

namespace Link

-- ------------------------------------------------------------------
-- Fields
-- ------------------------------------------------------------------

section Fields

variable {registry : Registry} {charset charset' : Charset} {record : String} {d : FieldDecl}
  {call : CodecCall}

theorem charsetOf_unplaced :
    charsetOf record d.unplaced charset = .ok charset' ↔ charsetOf record d charset = .ok charset' := by
  simp only [charsetOf, FieldDecl.unplaced]
  split
  · rfl
  · split <;> simp

theorem dataTypeOf_unplaced {t : DataType} :
    dataTypeOf registry record d.unplaced call.unplaced charset = .ok t ↔
      dataTypeOf registry record d call charset = .ok t := by
  simp only [dataTypeOf, FieldDecl.unplaced, CodecCall.unplaced]
  split
  · simp
  · rw [mapError_eq_ok, mapError_eq_ok]

theorem converterOf_unplaced {c : Converter} :
    converterOf registry record d.unplaced call.unplaced = .ok c ↔
      converterOf registry record d call = .ok c := by
  simp only [converterOf, FieldDecl.unplaced, CodecCall.unplaced]
  split
  · simp
  · rw [mapError_eq_ok, mapError_eq_ok]

theorem converters_unplaced {cs : List Converter} :
    d.unplaced.converters.mapM (converterOf registry record d.unplaced) = .ok cs ↔
      d.converters.mapM (converterOf registry record d) = .ok cs := by
  simp only [mapM_eq_ok, FieldDecl.unplaced, List.forall₂_map_left_iff]
  exact iff_of_eq (congrArg (List.Forall₂ · d.converters cs)
    (funext fun _ => funext fun _ => propext converterOf_unplaced))

theorem withSubstitution_unplaced {dataType : String} {cs cs' : List Converter} :
    withSubstitution registry record d.unplaced dataType cs = .ok cs' ↔
      withSubstitution registry record d dataType cs = .ok cs' := by
  simp only [withSubstitution]
  split
  · rfl
  · split
    · rfl
    · split <;> simp

theorem field_unplaced {g : Field} :
    field registry charset record d.unplaced = .ok g ↔
      ∃ f, field registry charset record d = .ok f ∧ f.unplaced = g := by
  simp only [field]
  cases hd : d.dataType with
  | none => simp [bind_eq_ok, FieldDecl.unplaced, hd]
  | some call =>
    have hd' : d.unplaced.dataType = some call.unplaced := by simp [FieldDecl.unplaced, hd]
    simp only [hd', bind_eq_ok, charsetOf_unplaced, dataTypeOf_unplaced, converters_unplaced,
      Except.ok.injEq]
    constructor
    · rintro ⟨charset, hcharset, dataType, hdataType, declared, hdeclared, cs, hcs, rfl⟩
      refine ⟨_, ⟨charset, hcharset, dataType, hdataType, declared, hdeclared, cs, ?_, rfl⟩, rfl⟩
      exact withSubstitution_unplaced.1 hcs
    · rintro ⟨_, ⟨charset, hcharset, dataType, hdataType, declared, hdeclared, cs, hcs, rfl⟩, rfl⟩
      refine ⟨charset, hcharset, dataType, hdataType, declared, hdeclared, cs, ?_, rfl⟩
      exact withSubstitution_unplaced.2 hcs

theorem exists_fields_of_perm {ds ds' : List FieldDecl} {made : List Field}
    (hds : (ds.map FieldDecl.unplaced).Perm (ds'.map FieldDecl.unplaced))
    (h : List.Forall₂ (fun d f => field registry charset record d = .ok f) ds made) :
    ∃ made', List.Forall₂ (fun d f => field registry charset record d = .ok f) ds' made' ∧
      (made.map Field.unplaced).Perm (made'.map Field.unplaced) := by
  have hunplaced : List.Forall₂ (fun d g => field registry charset record d = .ok g)
      (ds.map FieldDecl.unplaced) (made.map Field.unplaced) := by
    rw [List.forall₂_map_left_iff, List.forall₂_map_right_iff]
    exact h.imp fun d f hf => field_unplaced.2 ⟨f, hf, rfl⟩
  obtain ⟨gs, hgs, hperm⟩ := List.perm_comp_forall₂ hds.symm hunplaced
  rw [List.forall₂_map_left_iff] at hgs
  -- The fields `gs` are on no lines; those that are made of `ds'` are on the lines of `ds'`.
  suffices hmade : ∃ made', List.Forall₂ (fun d f => field registry charset record d = .ok f)
      ds' made' ∧ made'.map Field.unplaced = gs by
    obtain ⟨made', hmade', rfl⟩ := hmade
    exact ⟨made', hmade', hperm.symm⟩
  clear hperm hds
  induction hgs with
  | nil => exact ⟨[], .nil, rfl⟩
  | cons hg _ ih =>
    obtain ⟨f, hf, rfl⟩ := field_unplaced.1 hg
    obtain ⟨made', hmade', rfl⟩ := ih
    exact ⟨f :: made', .cons hf hmade', rfl⟩

end Fields

-- ------------------------------------------------------------------
-- Lists of fields
-- ------------------------------------------------------------------

section Lists

variable {own base fields : List Field}

theorem insertField_unplaced (f : Field) (fields : List Field) :
    insertField f.unplaced (fields.map Field.unplaced) =
      (insertField f fields).map Field.unplaced := by
  induction fields with
  | nil => rfl
  | cons g rest ih =>
    rw [List.map_cons, insertField, insertField, ih, apply_ite (List.map Field.unplaced)]
    rfl

theorem sortFields_unplaced (fields : List Field) :
    sortFields (fields.map Field.unplaced) = (sortFields fields).map Field.unplaced := by
  suffices hfold : ∀ sorted : List Field,
      (fields.map Field.unplaced).foldl (fun sorted f => insertField f sorted)
          (sorted.map Field.unplaced) =
        (fields.foldl (fun sorted f => insertField f sorted) sorted).map Field.unplaced from
    hfold []
  induction fields with
  | nil => exact fun _ => rfl
  | cons f fields ih =>
    intro sorted
    rw [List.map_cons, List.foldl_cons, List.foldl_cons, insertField_unplaced, ih]

theorem mergeFields_unplaced (own base : List Field) :
    mergeFields (own.map Field.unplaced) (base.map Field.unplaced) =
      (mergeFields own base).map Field.unplaced := by
  induction own generalizing base with
  | nil => rfl
  | cons o own ih =>
    simp only [List.map_cons, mergeFields, List.map_append, List.takeWhile_map,
      List.dropWhile_map, ← ih]
    rfl

theorem mergeBase_unplaced (own base : List Field) :
    mergeBase (own.map Field.unplaced) (base.map Field.unplaced) =
      (mergeBase own base).map Field.unplaced := by
  have hcovers : ∀ b : Field, covers (own.map Field.unplaced) b.unplaced = covers own b :=
    fun b => List.any_map
  rw [mergeBase, mergeBase, ← mergeFields_unplaced, List.filter_map]
  simp only [Function.comp_def, hcovers]

theorem checkFrom_unplaced {fixed : Bool} {record : String} {expected stop : Nat}
    {names : List String} :
    checkFrom fixed record expected names (fields.map Field.unplaced) = .ok stop ↔
      checkFrom fixed record expected names fields = .ok stop := by
  induction fields generalizing expected names with
  | nil => rfl
  | cons f rest ih =>
    have hrest : rest.map Field.unplaced ≠ [] ↔ rest ≠ [] := not_congr List.map_eq_nil_iff
    cases hfill : f.isFiller with
    | true =>
      have hfill' : f.unplaced.isFiller = true := hfill
      simp only [List.map_cons, checkFrom, hfill, hfill', if_true, ite_error_eq_ok, hrest]
      exact and_congr_right' (and_congr_right' (and_congr_right' ih))
    | false =>
      have hfill' : f.unplaced.isFiller = false := hfill
      simp only [List.map_cons, checkFrom, hfill, hfill', Bool.false_eq_true, if_false,
        ite_error_eq_ok, hrest]
      exact and_congr_right' (and_congr_right' (and_congr_right' (and_congr_right' ih)))

theorem predicate_unplaced (record : String) (fields : List Field)
    (classifier : Option RecordType) :
    predicate record (fields.map Field.unplaced) classifier =
      predicate record fields classifier := by
  funext c
  rw [predicate, predicate, List.any_map]
  rfl

end Lists

end Link
end Flatfile
