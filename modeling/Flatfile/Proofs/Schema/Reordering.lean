import Flatfile.Proofs.Layout.Reordering
import Flatfile.Proofs.Schema.Directives
import Flatfile.Proofs.Schema.Extension
import Flatfile.Proofs.Schema.Fields
import Flatfile.Proofs.Schema.Unplaced

/-!
# Layouts with their lines in another order

Directives may be written in any order, and so may the fields of a record type: compiling comes to
the same schema, or fails, for both orders (`compile_reordered`). Fields are put in order of
position, and those of one position stay in the order of their lines. But a record type with two
fields of one position does not link, where every field takes room, so that the positions decide
(`sortFields_eq_of_perm`). A field whose extent is a multiple of `2 ^ 64` takes none, as words
count, and its order is of account then. A classifier may have such fields, too, and the order of
its lines is left alone.
-/

namespace Flatfile

def Registry.TakesRoom (registry : Registry) : Prop :=
  ∀ name args env t, registry.dataType? name args env = some (.ok t) → 0 < t.width

def LinkContext.TakesRoom (ctx : LinkContext) : Prop :=
  ∀ family, (ctx.registry family).TakesRoom

theorem takesRoom_builtin (defaults : Defaults) : ({ defaults } : LinkContext).TakesRoom := by
  intro family name args env t ht
  rw [Link.registry_builtin] at ht
  obtain ⟨b, hchecked, -, rfl⟩ := BuiltIn.exists_of_dataType? ht
  exact b.width_pos hchecked

/-- The same schema, but for the lines of its fields and directives and the order of the
directives. -/
structure Schema.SameButLines (s s' : Schema) : Prop where
  source : s.source = s'.source
  fileType : s.fileType = s'.fileType
  settings : s.settings = s'.settings
  directives : (s.directives.map Directive.unplaced).Perm (s'.directives.map Directive.unplaced)
  recordTypes : s.recordTypes.map RecordType.unplaced = s'.recordTypes.map RecordType.unplaced
  classifier : s.classifier.map RecordType.unplaced = s'.classifier.map RecordType.unplaced

/-- Both compile, to schemas that are the same but for lines, or neither does. -/
def SameOutcome : Except SyntaxError Schema → Except SyntaxError Schema → Prop
  | .ok s, .ok s' => s.SameButLines s'
  | .error _, .error _ => True
  | _, _ => False

theorem SameOutcome.exists_ok {x x' : Except SyntaxError Schema} {s : Schema}
    (h : SameOutcome x x') (hx : x = .ok s) : ∃ s', x' = .ok s' ∧ s.SameButLines s' := by
  subst hx
  cases x' with
  | ok s' => exact ⟨s', rfl, h⟩
  | error e => exact h.elim

namespace Link

-- ------------------------------------------------------------------
-- Fields in order of position
-- ------------------------------------------------------------------

section Order

variable {made made' own base fields : List Field}

/-- A field behind which no other one begins at the same position. -/
def RoomTaken (f : Field) : Prop :=
  f.occurs.max = none ∨ 0 < f.size

/-- Fields in order that follow one another begin farther and farther. -/
theorem checkFrom_increasing {fixed : Bool} {record : String} {expected stop : Nat}
    {names : List String} (h : checkFrom fixed record expected names fields = .ok stop)
    (hexpected : expected < 2 ^ 64) (hinOrder : InOrder fields)
    (hroom : ∀ f ∈ fields, RoomTaken f) : fields.Pairwise fun a b => a.position < b.position := by
  induction fields generalizing expected names with
  | nil => exact .nil
  | cons f rest ih =>
    obtain ⟨hf, hmore⟩ := List.forall_mem_cons.1 hroom
    obtain ⟨hopen, rfl, -, h⟩ := checkFrom_cons h
    obtain ⟨hle, hrest⟩ := List.pairwise_cons.1 hinOrder
    refine List.pairwise_cons.2 ⟨fun g hg => ?_, ih h (Word64.wrap_lt _) hrest hmore⟩
    cases rest with
    | nil => cases hg
    | cons next rest =>
      have hnext : next.position = Word64.wrap (f.position + f.size) := (checkFrom_cons h).2.1
      have hbehind : next.position ≤ g.position := by
        rcases List.mem_cons.1 hg with rfl | hg
        · exact Nat.le_refl _
        · exact (List.pairwise_cons.1 hrest).1 g hg
      -- Nothing follows an open array, so that `next` follows a field with room. It does not begin
      -- where that one does, as the room of a field never takes it once around.
      have hsize : 0 < f.size := hf.resolve_left fun hmax => by simp [(hopen hmax).2] at hg
      have hword : f.size < 2 ^ 64 := Word64.wrap_lt _
      have hfirst := hle next List.mem_cons_self
      rw [Word64.wrap] at hnext
      omega

theorem mergedFields_sublist {linked : List RecordType} {r : RecordDecl} {merged : List Field}
    (h : mergedFields linked r own = .ok merged) : own.Sublist merged := by
  simp only [mergedFields] at h
  split at h
  · exact Except.ok.inj h ▸ List.Sublist.refl _
  · split at h
    · exact Except.ok.inj h ▸ mergeFields_sublist _ _
    · cases h

/-- Where no two fields begin at one position, their order is that of their positions. -/
theorem sortFields_eq_of_perm (hperm : (made.map Field.unplaced).Perm (made'.map Field.unplaced))
    (hincreasing : (sortFields made).Pairwise fun a b => a.position < b.position) :
    (sortFields made).map Field.unplaced = (sortFields made').map Field.unplaced := by
  have hpositions : (((sortFields made).map Field.unplaced).map (·.position)).Nodup := by
    rw [List.map_map]
    exact List.pairwise_map.2 (hincreasing.imp Nat.ne_of_lt)
  rw [← sortFields_unplaced] at hpositions ⊢
  rw [← sortFields_unplaced]
  have hsame := (sortFields_perm _).trans (hperm.trans (sortFields_perm _).symm)
  refine hsame.eq_of_pairwise (fun a b ha hb hab hba => ?_) (sortFields_inOrder _)
    (sortFields_inOrder _)
  exact List.inj_on_of_nodup_map hpositions ha (hsame.mem_iff.2 hb) (Nat.le_antisymm hab hba)

end Order

-- ------------------------------------------------------------------
-- Record types
-- ------------------------------------------------------------------

section Types

variable {fileType : FileType} {registry : Registry} {settings : Settings}
  {classifier : Option RecordType} {linked linked' : List RecordType} {r r' : RecordDecl}
  {t : RecordType} {own own' merged : List Field}

theorem mergedFields_unplaced (hlinked : linked.map RecordType.unplaced =
      linked'.map RecordType.unplaced) (hbase : r.base = r'.base)
    (hown : own.map Field.unplaced = own'.map Field.unplaced)
    (h : mergedFields linked r own = .ok merged) :
    ∃ merged', mergedFields linked' r' own' = .ok merged' ∧
      merged.map Field.unplaced = merged'.map Field.unplaced := by
  simp only [mergedFields] at h ⊢
  rw [← hbase]
  split at h
  · obtain rfl := Except.ok.inj h
    exact ⟨own', rfl, hown⟩
  · rename_i name _
    split at h
    · rename_i base hfind
      obtain rfl := Except.ok.inj h
      have hfound : (linked'.find? fun t => Text.sameName t.name name).map RecordType.unplaced =
          some base.unplaced := by
        have hfind' (linked : List RecordType) :
            (linked.find? fun t => Text.sameName t.name name).map RecordType.unplaced =
              (linked.map RecordType.unplaced).find? fun t => Text.sameName t.name name := by
          rw [List.find?_map]
          rfl
        rw [hfind', ← hlinked, ← hfind', hfind, Option.map_some]
      obtain ⟨base', hbase', hfields⟩ := Option.map_eq_some_iff.1 hfound
      rw [hbase']
      refine ⟨_, rfl, ?_⟩
      rw [← mergeBase_unplaced, ← mergeBase_unplaced, hown]
      exact congrArg (mergeBase _) (congrArg RecordType.fields hfields).symm
    · cases h

structure LinkedAlike (linked linked' : List RecordType) : Prop where
  same : linked.map RecordType.unplaced = linked'.map RecordType.unplaced
  inOrder : ∀ t ∈ linked, InOrder t.fields

theorem LinkedAlike.concat {t' : RecordType} (h : LinkedAlike linked linked')
    (hsame : t.unplaced = t'.unplaced) (hinOrder : InOrder t.fields) :
    LinkedAlike (linked ++ [t]) (linked' ++ [t']) where
  same := by
    rw [List.map_append, List.map_append, h.same, List.map_singleton, List.map_singleton, hsame]
  inOrder := List.forall_mem_append.2 ⟨h.inOrder, List.forall_mem_singleton.2 hinOrder⟩

theorem recordType_reordered (hr : Layout.RecordAlike r r') (hlinked : LinkedAlike linked linked')
    (h : recordType fileType registry settings classifier linked r = .ok t)
    (hroom : ∀ f ∈ t.fields, RoomTaken f) :
    ∃ t', recordType fileType registry settings classifier linked' r' = .ok t' ∧
      t.unplaced = t'.unplaced ∧ InOrder t.fields := by
  have ht := recordType_ok h
  have hinOrder := ht.inOrder hlinked.inOrder
  obtain ⟨own, ho, hmerged⟩ := ht.fields
  obtain ⟨made, hmade, rfl⟩ := fields_ok ho
  obtain ⟨stop, hwalk, hstop⟩ := map_eq_ok.1 ht.layout
  -- The layout check is on the merged fields, and the own ones are among them in their order.
  have hincreasing := (checkFrom_increasing hwalk (by decide) hinOrder hroom).sublist
    (mergedFields_sublist hmerged)
  obtain ⟨made', hmade', hperm⟩ := exists_fields_of_perm hr.fields hmade
  obtain ⟨merged', hmerged', hsame⟩ := mergedFields_unplaced hlinked.same hr.base
    (sortFields_eq_of_perm hperm hincreasing) hmerged
  rw [hr.name] at hmade'
  have hfields' : fields registry settings.charset r' = .ok (sortFields made') :=
    bind_eq_ok.2 ⟨made', mapM_eq_ok.2 hmade', rfl⟩
  have hlayout' : checkLayout (fileType = .fixed) r'.name merged' = .ok t.length := by
    refine map_eq_ok.2 ⟨stop, ?_, hstop⟩
    rw [← hr.name]
    exact checkFrom_unplaced.1 (hsame ▸ checkFrom_unplaced.2 hwalk)
  have hpredicates' : r'.conditions.mapM (predicate r'.name merged' classifier) =
      .ok t.predicates := by
    rw [← hr.name, ← hr.conditions, ← predicate_unplaced, ← hsame, predicate_unplaced]
    exact ht.predicates
  refine ⟨{ name := r'.name, base := r'.base, predicates := t.predicates, fields := merged',
            length := t.length }, ?_, ?_, hinOrder⟩
  · refine bind_eq_ok.2 ⟨_, hfields', bind_eq_ok.2 ⟨_, hmerged', bind_eq_ok.2 ⟨_, hlayout', ?_⟩⟩⟩
    rw [if_neg fun hwrong => hwrong.2 (ht.length hwrong.1)]
    exact bind_eq_ok.2 ⟨_, hpredicates', rfl⟩
  · simp only [RecordType.unplaced, ht.name, ht.base, hr.name, hr.base, hsame]

theorem recordTypes_reordered {records records' : List RecordDecl} {ts : List RecordType}
    (hrecords : List.Forall₂ Layout.RecordAlike records records')
    (h : recordTypes fileType registry settings classifier records = .ok ts)
    (hroom : ∀ t ∈ ts, ∀ f ∈ t.fields, RoomTaken f) :
    ∃ ts', recordTypes fileType registry settings classifier records' = .ok ts' ∧
      ts.map RecordType.unplaced = ts'.map RecordType.unplaced := by
  -- Types that are linked stay linked, so that those on the way have the room of the last ones.
  have hend : ∃ ts', recordTypes fileType registry settings classifier records' = .ok ts' ∧
      LinkedAlike ts ts' := by
    refine foldlM_sim (P := fun ts => ∀ t ∈ ts, ∀ f ∈ t.fields, RoomTaken f) hrecords ?_ ?_
      ⟨rfl, List.forall_mem_nil _⟩ h hroom
    · intro r linked next hnext hroom
      obtain ⟨t, -, hnext⟩ := bind_eq_ok.1 hnext
      obtain rfl := Except.ok.inj hnext
      exact (List.forall_mem_append.1 hroom).1
    · intro r r' linked linked' next hrr' hlinked hnext hroom
      obtain ⟨t, ht, hnext⟩ := bind_eq_ok.1 hnext
      obtain rfl := Except.ok.inj hnext
      obtain ⟨t', ht', hsame, hinOrder⟩ := recordType_reordered hrr' hlinked ht
        (hroom t (List.mem_append_right _ (List.mem_singleton_self t)))
      exact ⟨linked' ++ [t'], bind_eq_ok.2 ⟨t', ht', rfl⟩, hlinked.concat hsame hinOrder⟩
  exact hend.imp fun _ hend => ⟨hend.1, hend.2.same⟩

end Types

-- ------------------------------------------------------------------
-- Layouts
-- ------------------------------------------------------------------

section Layouts

variable {ctx : LinkContext} {layout layout' : Layout} {s : Schema}

theorem find?_isSome_eq {rs rs' : List RecordDecl} (h : List.Forall₂ Layout.RecordAlike rs rs')
    (name : String) :
    (rs.find? fun r => Text.sameName r.name name).isSome =
      (rs'.find? fun r => Text.sameName r.name name).isSome := by
  induction h with
  | nil => rfl
  | cons hr _ ih =>
    rw [List.find?_cons, List.find?_cons, hr.name]
    split
    · rfl
    · exact ih

theorem layout_reordered (hlayout : layout.Alike layout')
    (hapart : NamesApart Directive.name layout.directives) (h : layout.link ctx = .ok s)
    (hroom : ∀ t ∈ s.recordTypes, ∀ f ∈ t.fields, RoomTaken f) :
    ∃ s', layout'.link ctx = .ok s' ∧ s.SameButLines s' := by
  have hl := layout_ok h
  have hdirectives := sameDirectives_of_perm hapart hlayout.directives
  have htitle : checkTitle layout' s.settings = .ok () :=
    checkTitle_ok_iff.2 fun hrequires =>
      find?_isSome_eq hlayout.recordTypes _ ▸ checkTitle_ok_iff.1 hl.title hrequires
  obtain ⟨recordTypes', htypes, hsame⟩ :=
    recordTypes_reordered hlayout.recordTypes hl.recordTypes hroom
  refine ⟨{ s with source := layout'.source, directives := layout'.directives,
                   recordTypes := recordTypes' }, mapError_eq_ok.2 ?_, ?_⟩
  · refine bind_eq_ok.2 ⟨_, (fileTypeOf_eq_ok hdirectives).1 hl.fileType, ?_⟩
    refine bind_eq_ok.2 ⟨(), (validate_eq_ok hlayout.directives).1 hl.valid, ?_⟩
    refine bind_eq_ok.2 ⟨(), (checkMandatory_eq_ok hdirectives).1 hl.mandatory, ?_⟩
    refine bind_eq_ok.2 ⟨_, hdirectives.resolve_eq_ok.1 hl.settings, ?_⟩
    refine bind_eq_ok.2 ⟨(), htitle, ?_⟩
    refine bind_eq_ok.2 ⟨_, hlayout.classifier ▸ hl.classifier, ?_⟩
    exact bind_eq_ok.2 ⟨_, htypes, rfl⟩
  · exact
      { source := hl.source.trans hlayout.source
        fileType := rfl
        settings := rfl
        directives := hl.directives ▸ hlayout.directives
        recordTypes := hsame
        classifier := rfl }

end Layouts

end Link

/-- Some field of a record type is larger than a word counts, and takes no room as it tells. -/
def Schema.WrapsRoom (s : Schema) : Prop :=
  ∃ t ∈ s.recordTypes, ∃ f ∈ t.fields, 2 ^ 64 ≤ f.extent ∧ f.size = 0

theorem Schema.roomTaken_of_not_wrapsRoom {ctx : LinkContext} (hctx : ctx.TakesRoom) {text : String}
    {source : Option String} {s : Schema} (hs : Schema.compile ctx text source = .ok s)
    (hwraps : ¬ s.WrapsRoom) : ∀ t ∈ s.recordTypes, ∀ f ∈ t.fields, Link.RoomTaken f := by
  intro t ht f hf
  obtain ⟨layout, hparse, hlinked⟩ := Link.compile_ok hs
  obtain ⟨r, hr, d, hd, hfield⟩ := Link.field_of_recordTypes hlinked.recordTypes t ht f hf
  obtain ⟨call, -, hfound⟩ := hfield.declared
  have hwidth : 0 < f.width := hctx _ _ _ _ _ hfound
  cases hmax : f.occurs.max with
  | none => exact .inl hmax
  | some max =>
    have hordered := Layout.parse_ordered hparse r (List.mem_append_left _ hr) d hd
    have hslots : 0 < f.slots := by
      rw [Field.slots_eq_max hmax]
      exact (hordered max (hfield.occurs ▸ hmax)).2
    have hextent : 0 < f.extent := Nat.mul_pos hwidth hslots
    refine .inr (Nat.pos_of_ne_zero fun hzero => hwraps ⟨t, ht, f, hf, ?_, hzero⟩)
    rw [Field.size, Word64.wrap] at hzero
    exact Nat.le_of_dvd hextent (Nat.dvd_of_mod_eq_zero hzero)

theorem exists_compile_reordered {ctx : LinkContext} (hctx : ctx.TakesRoom) {text text' : String}
    {source : Option String} {s : Schema}
    (h : Layout.Reordered (Layout.textLines text.toList) (Layout.textLines text'.toList))
    (hs : Schema.compile ctx text source = .ok s) (hwraps : ¬ s.WrapsRoom) :
    ∃ s', Schema.compile ctx text' source = .ok s' ∧ s.SameButLines s' := by
  have hroom := Schema.roomTaken_of_not_wrapsRoom hctx hs hwraps
  obtain ⟨layout, hparse, hlink⟩ := bind_eq_ok.1 hs
  obtain ⟨layout', hparse', halike⟩ := Layout.parse_reordered h hparse
  obtain ⟨s', hlink', hsame⟩ := Link.layout_reordered halike
    (Layout.parse_directivesApart hparse) hlink hroom
  exact ⟨s', bind_eq_ok.2 ⟨layout', hparse', hlink'⟩, hsame⟩

def sharedLines (own : List String) : List String :=
  ["file-type: Fixed", "text-encoding: \"US-ASCII\"", "record-length: 4", "[Classifier]",
    "1 kind X(1)"] ++ "[A]" :: (own ++ ["[B] < [A]", "kind = \"B\"", "2 c X(1)"])

def sharedLayout (own : List String) : String :=
  "\n".intercalate (sharedLines own)

def sharedFields : List String :=
  ["kind = \"A\"", "1 kind X(1)", "2 a X(1)", "3 b X(2)"]

def sharedFieldsMoved : List String :=
  ["kind = \"A\"", "3 b X(2)", "1 kind X(1)", "2 a X(1)"]

def wrappedLayoutMoved : String :=
  "file-type: Fixed\ntext-encoding: \"US-ASCII\"\nrecord-length: 1\n" ++
  "[R]\n1 b X(1)\n1 a[2147483648] X(8589934592)\n"

end Flatfile
