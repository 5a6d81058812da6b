import Flatfile.Delimited.Record
import Flatfile.Formatter.Read
import Flatfile.Proofs.Fixed.Reach
import Flatfile.Proofs.Fixed.Slices

/-!
# When reading panics

Before the reader takes the bytes of a field it looks at the end of the field, so that no data,
however short, leads it out of its ranges. What is left are two faults of the field itself: an end
that no word counts, which wraps around to a place before the field, and an array of slots without a
width, which nobody can go through (`selectBytes_overruns`). Columns are never out of range.
-/

namespace Flatfile

/-- No word counts how far the field reaches, or its slots have no width. -/
def Field.Overruns (f : Field) : Prop :=
  2 ^ 64 ≤ f.offset + f.extent ∨ f.isArray = true ∧ f.width = 0

instance (f : Field) : Decidable f.Overruns :=
  inferInstanceAs (Decidable (_ ∨ _))

def Schema.Overruns (s : Schema) : Prop :=
  ∃ t ∈ s.classifier.toList ++ s.recordTypes, ∃ f ∈ t.fields, f.Overruns

instance (s : Schema) : Decidable s.Overruns :=
  inferInstanceAs (Decidable (∃ t ∈ s.classifier.toList ++ s.recordTypes, ∃ f ∈ t.fields, _))

variable {settings : Settings} {f : Field} {t : RecordType} {e : InvalidData}

theorem RecordType.exists_of_read_error {read : Field → Bool → Except InvalidData Value}
    (h : t.read read = .error e) :
    ∃ f ∈ t.fields, ∃ last e', read f last = .error e' ∧ e.cause = e'.cause := by
  have hfields (fields : List Field) (r : Record) (h : readFields read fields r = .error e) :
      ∃ f ∈ fields, ∃ last e', read f last = .error e' ∧ e.cause = e'.cause := by
    induction fields generalizing r with
    | nil => cases h
    | cons f fields ih =>
      rcases bind_eq_error.1 h with hf | ⟨value, -, h⟩
      · obtain ⟨e', hread, rfl⟩ := mapError_eq_error.1 hf
        exact ⟨f, List.mem_cons_self, _, e', hread, rfl⟩
      · exact (ih _ h).imp fun g hg => hg.imp_left (List.mem_cons_of_mem f)
  exact hfields t.fields _ h

namespace Fixed

variable {bytes : List UInt8}

/-- The value of a field, if sizes and ends were numbers without bounds. -/
def exactField (settings : Settings) (bytes : List UInt8) (f : Field) :
    Except InvalidData Value :=
  if bytes.length < f.offset + f.extent then
    .error { cause := .fieldBeyondRecord (f.offset + f.extent) bytes.length }
  else if f.isArray then
    ((List.range f.slots).mapM fun k => decodeSlot settings f (f.slotAt bytes k)) >>=
      fun items => .ok (.array (dropUnused f.occurs.min (items.map Value.toText)))
  else decodeSlot settings f ((bytes.drop f.offset).take f.extent)

theorem decodeField_exact (hf : ¬ f.Overruns) :
    decodeField settings bytes f = exactField settings bytes f := by
  obtain ⟨hword, hwidth⟩ := not_or.1 hf
  replace hword := Nat.not_le.1 hword
  rw [exactField]
  split
  next hshort =>
    rw [← Field.stop_of_lt hword] at hshort ⊢
    exact decodeField_beyond hshort
  next hlong =>
    have hin : f.LiesIn bytes.length := ⟨Nat.not_lt.1 hlong, hword⟩
    split
    next harray =>
      exact decodeField_array hin harray (Nat.pos_of_ne_zero fun hzero => hwidth ⟨harray, hzero⟩)
    next hsingle =>
      rw [decodeField_single hin (Bool.eq_false_iff.2 hsingle), Field.slice, hin.size_eq]

theorem exactField_inRange (h : exactField settings bytes f = .error e) :
    e.cause ≠ .outOfRange := by
  rw [exactField] at h
  split at h
  · simp [← Except.error.inj h]
  obtain ⟨cause, hcause⟩ : ∃ cause, e.cause = .convert cause := by
    split at h
    · rcases bind_eq_error.1 h with hitems | ⟨_, -, h⟩
      · obtain ⟨k, -, hslot⟩ := exists_mem_of_mapM_error hitems
        exact decodeSlot_error hslot
      · cases h
    · exact decodeSlot_error h
  simp [hcause]

theorem decodeRecord_inRange (ht : ∀ f ∈ t.fields, ¬ f.Overruns)
    (h : decodeRecord settings t bytes = .error e) : e.cause ≠ .outOfRange := by
  obtain ⟨f, hmem, -, e', hf, hcause⟩ := RecordType.exists_of_read_error h
  rw [decodeField_exact (ht f hmem)] at hf
  exact hcause ▸ exactField_inRange hf

end Fixed

namespace Delimited

variable {columns : List String}

theorem decodeColumn_error {column : Option String}
    (h : decodeColumn settings f column = .error e) : ∃ cause, e.cause = .convert cause := by
  obtain ⟨cause, -, rfl⟩ := mapError_eq_error.1 h
  exact ⟨cause, rfl⟩

theorem decodeField_error {last : Bool} (h : decodeField settings columns f last = .error e) :
    ∃ cause, e.cause = .convert cause := by
  rw [decodeField] at h
  split at h
  · rcases bind_eq_error.1 h with hitems | ⟨_, -, h⟩
    · obtain ⟨column, -, hcolumn⟩ := exists_mem_of_mapM_error hitems
      exact decodeColumn_error hcolumn
    · cases h
  · exact decodeColumn_error h

theorem decodeLoosely_inRange (h : decodeLoosely settings t columns = .error e) :
    e.cause ≠ .outOfRange := by
  obtain ⟨f, -, last, e', hf, hcause⟩ := RecordType.exists_of_read_error h
  obtain ⟨error, herror⟩ := decodeField_error hf
  simp [hcause, herror]

theorem decodeRecord_inRange (h : decodeRecord settings t columns = .error e) :
    e.cause ≠ .outOfRange := by
  rcases bind_eq_error.1 h with hcount | ⟨-, -, h⟩
  · simp only [checkCount] at hcount
    split at hcount
    · cases hcount
    · simp [← Except.error.inj hcount]
  · exact decodeLoosely_inRange h

theorem checkNotTitle_inRange {title : RecordType} {r : Record}
    (h : checkNotTitle title t r = .error e) : e.cause ≠ .outOfRange := by
  rw [checkNotTitle] at h
  split at h
  · simp [← Except.error.inj h]
  · cases h

end Delimited

namespace Schema

variable {s : Schema} {exclude : Option String}
  {decodeKey decode : RecordType → Except InvalidData Record}

theorem firstAccepted_eq_error {types : List RecordType}
    (h : firstAccepted decode types = .error e) : ∃ t ∈ types, decode t = .error e := by
  induction types with
  | nil => cases h
  | cons t types ih =>
    simp only [firstAccepted] at h
    cases hdecode : decode t with
    | ok r =>
      simp only [hdecode] at h
      split at h
      · cases h
      · exact (ih h).imp fun u hu => hu.imp_left (List.mem_cons_of_mem t)
    | error e' =>
      simp only [hdecode] at h
      split at h
      · obtain rfl := Except.error.inj h
        exact ⟨t, List.mem_cons_self, hdecode⟩
      · exact (ih h).imp fun u hu => hu.imp_left (List.mem_cons_of_mem t)

theorem selectForRead_outOfRange (h : s.selectForRead exclude decodeKey decode = .error e)
    (he : e.cause = .outOfRange) :
    (∃ c ∈ s.classifier, decodeKey c = .error e) ∨ ∃ t ∈ s.recordTypes, decode t = .error e := by
  have hcandidates {t : RecordType} (ht : t ∈ s.candidates exclude) : t ∈ s.recordTypes :=
    List.mem_of_mem_filter ht
  simp only [selectForRead] at h
  split at h
  next classifier hclassifier =>
    rcases bind_eq_error.1 h with hkey | ⟨key, -, h⟩
    · exact .inl ⟨classifier, hclassifier, hkey⟩
    split at h
    · simp [← Except.error.inj h] at he
    next t hfound =>
      rcases bind_eq_error.1 h with hdecode | ⟨_, -, h⟩
      · exact .inr ⟨t, hcandidates (List.mem_of_find?_eq_some hfound), hdecode⟩
      · cases h
  next =>
    split at h
    next only honly =>
      rcases bind_eq_error.1 h with hdecode | ⟨_, -, h⟩
      · exact .inr ⟨only, hcandidates (honly ▸ List.mem_cons_self), hdecode⟩
      · cases h
    next =>
      rcases bind_eq_error.1 h with hfirst | ⟨found, -, h⟩
      · obtain ⟨t, ht, hdecode⟩ := firstAccepted_eq_error hfirst
        exact .inr ⟨t, hcandidates ht, hdecode⟩
      · cases found with
        | some found => cases h
        | none => simp [← Except.error.inj h] at he

theorem selectForRead_inRange (hkey : ∀ c ∈ s.classifier, ∀ e, decodeKey c = .error e →
      e.cause ≠ .outOfRange)
    (htypes : ∀ t ∈ s.recordTypes, ∀ e, decode t = .error e → e.cause ≠ .outOfRange)
    (h : s.selectForRead exclude decodeKey decode = .error e) : e.cause ≠ .outOfRange := by
  intro he
  rcases selectForRead_outOfRange h he with ⟨c, hc, hdecode⟩ | ⟨t, ht, hdecode⟩
  · exact hkey c hc e hdecode he
  · exact htypes t ht e hdecode he

end Schema

namespace Formatter

/-- If a record of fixed length makes the reader panic, so does a field of the schema by itself. -/
theorem selectBytes_overruns {s : Schema} {bytes : List UInt8}
    (h : s.selectForRead none (Fixed.decodeRecord settings · bytes)
      (Fixed.decodeRecord settings · bytes) = .error e)
    (he : e.cause = .outOfRange) : s.Overruns := by
  by_contra hs
  have hinRange {t : RecordType} (ht : t ∈ s.classifier.toList ++ s.recordTypes) (e : InvalidData)
      (hdecode : Fixed.decodeRecord settings t bytes = .error e) : e.cause ≠ .outOfRange :=
    Fixed.decodeRecord_inRange (fun f hf hoverruns => hs ⟨t, ht, f, hf, hoverruns⟩) hdecode
  refine Schema.selectForRead_inRange (fun c hc => ?_) (fun t ht => ?_) h he
  · exact hinRange (List.mem_append_left _ (Option.mem_toList.2 hc))
  · exact hinRange (List.mem_append_right _ ht)

end Formatter
end Flatfile
