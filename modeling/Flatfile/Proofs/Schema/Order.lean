import Flatfile.Proofs.Schema.Linked

/-!
# Fields in order of position

The fields of every record type are in order of position: those it declares itself are sorted, and
merging keeps the order of both lists (`LayoutLinked.inOrder`). The order does not rest on the check
that the fields follow one another, which is made of the merged list.
-/

namespace Flatfile.Link

variable {own base fields : List Field} {f b : Field}

-- ------------------------------------------------------------------
-- Sorting
-- ------------------------------------------------------------------

def InOrder (fields : List Field) : Prop :=
  fields.Pairwise fun a b => a.position ≤ b.position

theorem insertField_inOrder (h : InOrder fields) (f : Field) : InOrder (insertField f fields) := by
  induction fields with
  | nil => exact List.pairwise_singleton _ _
  | cons g rest ih =>
    obtain ⟨hg, hrest⟩ := List.pairwise_cons.1 h
    simp only [insertField]
    split
    next hle =>
      refine List.pairwise_cons.2 ⟨fun k hk => ?_, ih hrest⟩
      rcases List.mem_cons.1 ((insertField_perm f rest).mem_iff.1 hk) with rfl | hk
      · exact hle
      · exact hg k hk
    next hlt =>
      refine List.pairwise_cons.2 ⟨fun k hk => ?_, h⟩
      rcases List.mem_cons.1 hk with rfl | hk
      · omega
      · have := hg k hk
        omega

theorem sortFields_inOrder (fields : List Field) : InOrder (sortFields fields) := by
  suffices h : ∀ sorted, InOrder sorted →
      InOrder (fields.foldl (fun sorted f => insertField f sorted) sorted) from h [] .nil
  induction fields with
  | nil => exact fun _ h => h
  | cons f fields ih => exact fun sorted h => ih _ (insertField_inOrder h f)

theorem insertField_last (h : ∀ g ∈ fields, g.position ≤ f.position) :
    insertField f fields = fields ++ [f] := by
  induction fields with
  | nil => rfl
  | cons g rest ih =>
    rw [List.forall_mem_cons] at h
    rw [insertField, if_pos h.1, ih h.2, List.cons_append]

theorem sortFields_of_inOrder (h : InOrder fields) : sortFields fields = fields := by
  suffices hfold : ∀ sorted, InOrder (sorted ++ fields) →
      fields.foldl (fun sorted f => insertField f sorted) sorted = sorted ++ fields from
    hfold [] h
  clear h
  induction fields with
  | nil => simp
  | cons f fields ih =>
    intro sorted h
    have hlast : ∀ g ∈ sorted, g.position ≤ f.position := fun g hg =>
      (List.pairwise_append.1 h).2.2 g hg f List.mem_cons_self
    rw [List.foldl_cons, insertField_last hlast, ih _ (by simpa using h), List.append_assoc,
      List.singleton_append]

-- ------------------------------------------------------------------
-- Merging
-- ------------------------------------------------------------------

theorem mergeFields_nil_right (own : List Field) : mergeFields own [] = own := by
  induction own with
  | nil => rfl
  | cons o own ih => simp [mergeFields, ih]

theorem mergeFields_insertField (own : List Field) (h : ∀ g ∈ base, b.position ≤ g.position) :
    mergeFields (insertField b own) base = mergeFields own (b :: base) := by
  have hbehind {p : Nat} (hp : p ≤ b.position) :
      base.takeWhile (·.position < p) = [] ∧ base.dropWhile (·.position < p) = base := by
    cases base with
    | nil => exact ⟨rfl, rfl⟩
    | cons g base =>
      have := h g List.mem_cons_self
      have hg : decide (g.position < p) = false := decide_eq_false (by omega)
      rw [List.takeWhile_cons, List.dropWhile_cons, hg]
      exact ⟨rfl, rfl⟩
  induction own with
  | nil =>
    obtain ⟨htake, hdrop⟩ := hbehind (Nat.le_refl _)
    simp [insertField, mergeFields, htake, hdrop]
  | cons o own ih =>
    simp only [insertField]
    split
    next hle =>
      obtain ⟨htake, hdrop⟩ := hbehind hle
      have hb : decide (b.position < o.position) = false := decide_eq_false (by omega)
      rw [mergeFields, mergeFields, htake, hdrop, List.takeWhile_cons, List.dropWhile_cons, hb, ih]
      rfl
    next hlt =>
      obtain ⟨htake, hdrop⟩ := hbehind (Nat.le_refl _)
      have hb : decide (b.position < o.position) = true := decide_eq_true (by omega)
      rw [mergeFields, htake, hdrop, List.nil_append, mergeFields, mergeFields,
        List.takeWhile_cons, List.dropWhile_cons, hb]
      rfl

/-- Lists in order are merged as their fields are sorted, the own ones first. -/
theorem mergeFields_eq_sortFields (hown : InOrder own) (hbase : InOrder base) :
    mergeFields own base = sortFields (own ++ base) := by
  suffices hfold : ∀ own : List Field,
      base.foldl (fun sorted f => insertField f sorted) own = mergeFields own base by
    rw [sortFields, List.foldl_append, ← sortFields, sortFields_of_inOrder hown, hfold]
  clear hown
  induction base with
  | nil => exact fun own => (mergeFields_nil_right own).symm
  | cons b base ih =>
    obtain ⟨hb, hbase⟩ := List.pairwise_cons.1 hbase
    intro own
    rw [List.foldl_cons, ih hbase, mergeFields_insertField own hb]

theorem mergeFields_sublist (own base : List Field) : own.Sublist (mergeFields own base) := by
  induction own generalizing base with
  | nil => exact List.nil_sublist _
  | cons o own ih => exact ((ih _).cons_cons o).trans (List.sublist_append_right _ _)

-- ------------------------------------------------------------------
-- Record types
-- ------------------------------------------------------------------

theorem mergedFields_inOrder {linked : List RecordType} {r : RecordDecl} {merged : List Field}
    (hlinked : ∀ t ∈ linked, InOrder t.fields) (hown : InOrder own)
    (h : mergedFields linked r own = .ok merged) : InOrder merged := by
  simp only [mergedFields] at h
  split at h
  next => exact Except.ok.inj h ▸ hown
  next =>
    split at h
    next base hfind =>
      have hbase := (hlinked base (List.mem_of_find?_eq_some hfind)).filter fun b => !covers own b
      rw [← Except.ok.inj h, mergeBase, mergeFields_eq_sortFields hown hbase]
      exact sortFields_inOrder _
    next => cases h

theorem TypeLinked.inOrder {fileType : FileType} {registry : Registry} {settings : Settings}
    {classifier : Option RecordType} {linked : List RecordType} {r : RecordDecl} {t : RecordType}
    (h : TypeLinked fileType registry settings classifier linked r t)
    (hlinked : ∀ t ∈ linked, InOrder t.fields) : InOrder t.fields := by
  obtain ⟨own, hown, hmerged⟩ := h.fields
  obtain ⟨made, -, rfl⟩ := fields_ok hown
  exact mergedFields_inOrder hlinked (sortFields_inOrder made) hmerged

theorem LayoutLinked.inOrder {ctx : LinkContext} {layout : Layout} {schema : Schema}
    (h : LayoutLinked ctx layout schema) : ∀ t ∈ schema.recordTypes, InOrder t.fields :=
  recordTypes_induct (fun _ _ _ _ hlinked ht => ht.inOrder hlinked) h.recordTypes

end Flatfile.Link
