import Flatfile.Fixed.Record
import Flatfile.Proofs.Schema.Tiling
import Flatfile.Proofs.Schema.Traverse
import Flatfile.Schema.Select

/-!
# Fields that end behind their record

The reader looks at the end of every field before it takes its bytes. For the fields of record types
it need not, as long as a word counts their bytes: linking has put them side by side and has
compared their length with that of the records. The fields of a classifier are linked without both.
If one of them reaches behind the records, no data can be read (`compile_readsWithin`).
-/

namespace Flatfile

-- ------------------------------------------------------------------
-- Reading
-- ------------------------------------------------------------------

/-- What is read ends in a complaint about a field that ends behind the record. -/
def BeyondRecord (read : Except InvalidData α) : Prop :=
  ∃ e last length, read = .error e ∧ e.cause = .fieldBeyondRecord last length

namespace Fixed

variable {settings : Settings} {f : Field} {t : RecordType} {bytes : List UInt8} {e : InvalidData}

theorem decodeSlot_error (h : decodeSlot settings f bytes = .error e) :
    ∃ cause, e.cause = .convert cause := by
  obtain ⟨cause, -, rfl⟩ := mapError_eq_error.1 h
  exact ⟨cause, rfl⟩

theorem slice_error {start stop : Nat} (h : slice bytes start stop = .error e) :
    e.cause = .outOfRange := by
  rw [slice] at h
  split at h
  · cases h
  · exact Except.error.inj h ▸ rfl

theorem starts_error {start stop width : Nat} (h : starts start stop width = .error e) :
    e.cause = .outOfRange := by
  rw [starts] at h
  split at h
  · exact Except.error.inj h ▸ rfl
  · cases h

theorem decodeField_beyond (h : bytes.length < f.stop) :
    decodeField settings bytes f = .error { cause := .fieldBeyondRecord f.stop bytes.length } := by
  rw [decodeField, if_pos h]

theorem decodeField_within (hwithin : f.stop ≤ bytes.length)
    (h : decodeField settings bytes f = .error e) :
    (∃ cause, e.cause = .convert cause) ∨ e.cause = .outOfRange := by
  rw [decodeField, if_neg (Nat.not_lt.2 hwithin)] at h
  split at h
  · rcases bind_eq_error.1 h with hstarts | ⟨starts, -, h⟩
    · exact .inr (starts_error hstarts)
    rcases bind_eq_error.1 h with hitems | ⟨items, -, h⟩
    · obtain ⟨start, -, hslot⟩ := exists_mem_of_mapM_error hitems
      rcases bind_eq_error.1 hslot with hslice | ⟨slot, -, hread⟩
      · exact .inr (slice_error hslice)
      · exact .inl (decodeSlot_error hread)
    · cases h
  · rcases bind_eq_error.1 h with hslice | ⟨slot, -, hread⟩
    · exact .inr (slice_error hslice)
    · exact .inl (decodeSlot_error hread)

/-- The field is the first one that has no value, and it ends behind the record. -/
structure StopsAt (settings : Settings) (t : RecordType) (bytes : List UInt8) (f : Field) :
    Prop where
  first : ∃ before after, t.fields = before ++ f :: after ∧
    ∀ g ∈ before, ∃ v, decodeField settings bytes g = .ok v
  beyond : bytes.length < f.stop

theorem StopsAt.decodeRecord (h : StopsAt settings t bytes f) :
    decodeRecord settings t bytes = .error
      { field := some f.name, cause := .fieldBeyondRecord f.stop bytes.length } := by
  obtain ⟨before, after, hfields, hbefore⟩ := h.first
  exact RecordType.readFields_eq_error.2
    ⟨before, f, after, _, hfields, hbefore, decodeField_beyond h.beyond, rfl⟩

theorem beyondRecord_iff :
    BeyondRecord (decodeRecord settings t bytes) ↔ ∃ f, StopsAt settings t bytes f := by
  constructor
  · rintro ⟨e, last, length, h, hcause⟩
    obtain ⟨before, f, after, cause, hfields, hbefore, hf, rfl⟩ :=
      RecordType.readFields_eq_error.1 h
    refine ⟨f, ⟨before, after, hfields, hbefore⟩, Nat.lt_of_not_le fun hwithin => ?_⟩
    rcases decodeField_within hwithin hf with ⟨other, hother⟩ | hother
    · cases hother.symm.trans hcause
    · cases hother.symm.trans hcause
  · rintro ⟨f, h⟩
    exact ⟨_, _, _, h.decodeRecord, rfl⟩

theorem not_beyondRecord (h : ∀ f ∈ t.fields, f.stop ≤ bytes.length) :
    ¬ BeyondRecord (decodeRecord settings t bytes) := by
  rw [beyondRecord_iff]
  rintro ⟨f, ⟨before, after, hfields, -⟩, hbeyond⟩
  have hf : f ∈ t.fields := hfields ▸ List.mem_append_right _ List.mem_cons_self
  exact Nat.not_lt.2 (h f hf) hbeyond

theorem exists_decodeRecord_error (settings : Settings) (hf : f ∈ t.fields)
    (hbeyond : bytes.length < f.stop) :
    ∃ e, decodeRecord settings t bytes = .error e := by
  rcases RecordType.exists_first_error (decodeField settings bytes) t.fields with
    hall | ⟨before, g, after, cause, hfields, hbefore, hg⟩
  · obtain ⟨v, hv⟩ := hall f hf
    cases (decodeField_beyond hbeyond).symm.trans hv
  · exact ⟨_, RecordType.readFields_eq_error.2 ⟨before, g, after, _, hfields, hbefore, hg, rfl⟩⟩

end Fixed

-- ------------------------------------------------------------------
-- Linking
-- ------------------------------------------------------------------

theorem foldl_max_le_iff {xs : List α} {f : α → Nat} {start n : Nat} :
    xs.foldl (fun n x => max n (f x)) start ≤ n ↔ start ≤ n ∧ ∀ x ∈ xs, f x ≤ n := by
  induction xs generalizing start with
  | nil => simp
  | cons x xs ih => rw [List.foldl_cons, ih, Nat.max_le, List.forall_mem_cons, and_assoc]

theorem Link.classifierType_length_le {registry : Registry} {settings : Settings} {r : RecordDecl}
    {c : RecordType} {n : Nat} (h : classifierType registry settings r = .ok c) :
    c.length ≤ n ↔ ∀ f ∈ c.fields, f.stop ≤ n := by
  obtain ⟨fields, -, h⟩ := bind_eq_ok.1 h
  obtain rfl := Except.ok.inj h
  exact foldl_max_le_iff.trans (and_iff_right (Nat.zero_le n))

theorem Link.exists_far_field {registry : Registry} {settings : Settings} {r : RecordDecl}
    {c : RecordType} {n : Nat} (h : classifierType registry settings r = .ok c)
    (hlong : n < c.length) : ∃ f ∈ c.fields, n < f.stop := by
  rw [← Nat.not_le, classifierType_length_le h] at hlong
  simpa using hlong

/-- In a schema for records of fixed length the reading of a record type or of the classifier ends
beyond the record exactly if a field of it does and those before it have values. In a record type
that happens only where a word is too small for its length. It happens in the classifier if it is
longer than the records: it is never read then, and so no record is either. -/
theorem compile_readsWithin {ctx : LinkContext} {text : String} {source : Option String}
    {schema : Schema} (h : Schema.compile ctx text source = .ok schema)
    (hfixed : schema.fileType = .fixed) :
    ∃ n, schema.settings.recordLength = some n ∧ ∀ bytes : List UInt8, bytes.length = n →
      (∀ t ∈ schema.recordTypes,
        (BeyondRecord (Fixed.decodeRecord schema.settings t bytes) ↔
          ∃ f, Fixed.StopsAt schema.settings t bytes f) ∧
        (t.Fits → ¬ BeyondRecord (Fixed.decodeRecord schema.settings t bytes))) ∧
      ∀ c, schema.classifier = some c →
        (BeyondRecord (Fixed.decodeRecord schema.settings c bytes) ↔
          ∃ f, Fixed.StopsAt schema.settings c bytes f) ∧
        (c.length ≤ n → ¬ BeyondRecord (Fixed.decodeRecord schema.settings c bytes)) ∧
        (n < c.length → ∀ exclude decode, ∃ e,
          Fixed.decodeRecord schema.settings c bytes = .error e ∧
          schema.selectForRead exclude (Fixed.decodeRecord schema.settings · bytes) decode =
            .error e) := by
  obtain ⟨layout, -, hlinked⟩ := Link.compile_ok h
  obtain ⟨n, hn, -⟩ := hlinked.recordLength_pos hfixed
  refine ⟨n, hn, fun bytes hbytes => ⟨fun t ht => ⟨Fixed.beyondRecord_iff, fun hfits => ?_⟩,
    fun c hc => ?_⟩⟩
  · obtain ⟨hlength, -⟩ := hlinked.fixedLength hfixed t ht
    obtain rfl : n = t.length := Option.some.inj (hn.symm.trans hlength)
    have htiled := compile_tiled_of_fits h ht hfits
    refine Fixed.not_beyondRecord fun f hf => ?_
    rw [hbytes, Field.stop_of_lt (htiled.end_lt hfits hf)]
    exact htiled.end_le hf
  · obtain ⟨r, -, hr⟩ := hlinked.exists_classifier hc
    refine ⟨Fixed.beyondRecord_iff, fun hle => ?_, fun hlong exclude decode => ?_⟩
    · rw [← hbytes] at hle
      exact Fixed.not_beyondRecord ((Link.classifierType_length_le hr).1 hle)
    · obtain ⟨f, hf, hbeyond⟩ := Link.exists_far_field hr hlong
      rw [← hbytes] at hbeyond
      obtain ⟨e, he⟩ := Fixed.exists_decodeRecord_error schema.settings hf hbeyond
      refine ⟨e, he, ?_⟩
      rw [Schema.selectForRead, hc]
      exact bind_eq_error.2 (.inl he)

def farLayout : String :=
  "file-type: Fixed\ntext-encoding: \"US-ASCII\"\nrecord-length: 6\n" ++
  "[Classifier]\n10 kind X(1)\n[A]\nkind = \"A\"\n1 a X(6)\n"

/-- The record type is as long as the records as far as a word counts: 6 bytes and `2 ^ 66`. -/
def overlongLayout : String :=
  "file-type: Fixed\ntext-encoding: \"US-ASCII\"\nrecord-length: 6\n" ++
  "[R]\n1 a X(10)\n11 b[4294967295] X(17179869188)\n"

theorem compile_readsWithin_far :
    (∃ schema c, Schema.compile {} farLayout none = .ok schema ∧ schema.classifier = some c ∧
      ∀ bytes : List UInt8, bytes.length = 6 →
        BeyondRecord (Fixed.decodeRecord schema.settings c bytes) ∧
        (∀ t ∈ schema.recordTypes,
          ¬ BeyondRecord (Fixed.decodeRecord schema.settings t bytes)) ∧
        ∀ exclude decode, ∃ e,
          schema.selectForRead exclude (Fixed.decodeRecord schema.settings · bytes) decode =
            .error e) ∧
    ∃ schema t, Schema.compile {} overlongLayout none = .ok schema ∧ t ∈ schema.recordTypes ∧
      ∀ bytes : List UInt8, bytes.length = 6 →
        BeyondRecord (Fixed.decodeRecord schema.settings t bytes) := by
  constructor
  · have hshape : (Schema.compile {} farLayout none).toOption.any fun s =>
        s.fileType = .fixed ∧ s.settings.recordLength = some 6 ∧
          (s.classifier.any fun c => c.length = 10 ∧ c.fields.map (·.stop) = [10]) ∧
          ∀ t ∈ s.recordTypes, Field.total t.fields = 6 := by decide +kernel
    obtain ⟨schema, hschema, hshape⟩ := (Option.any_eq_true _ _).1 hshape
    replace hschema := toOption_eq_some.1 hschema
    obtain ⟨hfixed, hlength, hclassifier, htotals⟩ := of_decide_eq_true hshape
    obtain ⟨c, hc, hshape⟩ := (Option.any_eq_true _ _).1 hclassifier
    obtain ⟨hreach, hends⟩ := of_decide_eq_true hshape
    obtain ⟨n, hn, hread⟩ := compile_readsWithin hschema hfixed
    obtain rfl : 6 = n := Option.some.inj (hlength.symm.trans hn)
    obtain ⟨f, hfields, hend⟩ := List.map_eq_singleton_iff.1 hends
    refine ⟨schema, c, hschema, hc, fun bytes hbytes => ?_⟩
    obtain ⟨htypes, hclassifier⟩ := hread bytes hbytes
    obtain ⟨hstops, -, hlong⟩ := hclassifier c hc
    refine ⟨hstops.2 ⟨f, ⟨[], [], hfields, nofun⟩, by omega⟩, fun t ht => ?_,
      fun exclude decode => ?_⟩
    · refine (htypes t ht).2 ?_
      rw [RecordType.Fits, htotals t ht]
      decide
    · obtain ⟨e, -, he⟩ := hlong (by omega) exclude decode
      exact ⟨e, he⟩
  · have hshape : (Schema.compile {} overlongLayout none).toOption.any fun s =>
        s.fileType = .fixed ∧ s.settings.recordLength = some 6 ∧ s.recordTypes.any fun t =>
          t.fields.map (·.stop) = [10, 6] := by decide +kernel
    obtain ⟨schema, hschema, hshape⟩ := (Option.any_eq_true _ _).1 hshape
    replace hschema := toOption_eq_some.1 hschema
    obtain ⟨hfixed, hlength, htypes⟩ := of_decide_eq_true hshape
    obtain ⟨t, ht, hends⟩ := List.any_eq_true.1 htypes
    obtain ⟨n, hn, hread⟩ := compile_readsWithin hschema hfixed
    obtain rfl : 6 = n := Option.some.inj (hlength.symm.trans hn)
    obtain ⟨f, rest, hfields, hend, -⟩ := List.map_eq_cons_iff.1 (of_decide_eq_true hends)
    refine ⟨schema, t, hschema, ht, fun bytes hbytes => ?_⟩
    exact ((hread bytes hbytes).1 t ht).1.2 ⟨f, ⟨[], rest, hfields, nofun⟩, by omega⟩

end Flatfile
