import Flatfile.Proofs.Schema.Tiling
import Flatfile.Proofs.Text.Ascii
import Flatfile.Schema.Traverse

/-!
# Records read and written field by field

A record that is read holds the values of the fields that are no fillers, in their order, as long
as no two of them go by one name; otherwise reading stops at the first field without a value, and
the error names it (`read_readsTo`). What is written is the parts of the fields, one after the
other.
-/

namespace Flatfile

-- ------------------------------------------------------------------
-- Records
-- ------------------------------------------------------------------

namespace Record

variable {r : Record} {name other : String} {value : Value}

def Placed (r : Record) : Prop :=
  ∀ name i, r.place? name = some i → i < r.entries.length

theorem ofType_placed (name : String) : (ofType name).Placed :=
  fun _ _ h => by simp [place?, ofType] at h

theorem insert_new (value : Value) (h : r.place? name = none) :
    r.insert name value =
      { r with
        entries := r.entries ++ [{ name := name, value := value }]
        index := (key name, r.entries.length) :: r.index } := by
  simp [insert, h]

theorem place?_insert_of_ne (h : key other ≠ key name) :
    (r.insert name value).place? other = r.place? other := by
  unfold insert
  split
  · rfl
  · have hkey : (key other == key name) = false := by simpa using h
    simp [place?, List.lookup_cons, hkey]

theorem place?_insert_new (value : Value) (h : r.place? name = none) :
    (r.insert name value).place? name = some r.entries.length := by
  simp [insert_new value h, place?]

theorem Placed.insert_new (hr : r.Placed) (value : Value) (h : r.place? name = none) :
    (r.insert name value).Placed := by
  intro other i hi
  rw [Record.insert_new value h, List.length_append]
  by_cases hkey : key other = key name
  · rw [place?, hkey, ← place?, place?_insert_new value h] at hi
    obtain rfl := Option.some.inj hi
    exact Nat.lt_succ_self _
  · rw [place?_insert_of_ne hkey] at hi
    exact Nat.lt_succ_of_lt (hr other i hi)

theorem Placed.insert (hr : r.Placed) (name : String) (value : Value) :
    (r.insert name value).Placed := by
  cases hplace : r.place? name with
  | none => exact hr.insert_new value hplace
  | some i =>
    intro other j hj
    rw [Record.insert, hplace] at hj ⊢
    rw [List.length_modify]
    exact hr other j hj

theorem get?_insert_new (value : Value) (h : r.place? name = none) :
    (r.insert name value).get? name = some value := by
  rw [get?, entry?, place?_insert_new value h]
  simp [insert_new value h]

theorem Placed.get?_insert_new (hr : r.Placed) (value : Value) (h : r.place? name = none)
    (hother : (r.place? other).isSome) : (r.insert name value).get? other = r.get? other := by
  have hkey : key other ≠ key name := by
    intro heq
    rw [place?, heq, ← place?, h] at hother
    exact absurd hother (by decide)
  obtain ⟨i, hi⟩ := Option.isSome_iff_exists.1 hother
  rw [get?, get?, entry?, entry?, place?_insert_of_ne hkey, hi]
  simp [Record.insert_new value h, List.getElem?_append_left (hr other i hi)]

end Record

-- ------------------------------------------------------------------
-- Reading
-- ------------------------------------------------------------------

namespace RecordType

variable {read : Field → Except InvalidData Value} {fields : List Field} {r : Record}

theorem exists_first_error (read : Field → Except InvalidData Value) (fields : List Field) :
    (∀ f ∈ fields, ∃ v, read f = .ok v) ∨
      ∃ before f after e, fields = before ++ f :: after ∧
        (∀ g ∈ before, ∃ v, read g = .ok v) ∧ read f = .error e := by
  induction fields with
  | nil => exact .inl (by simp)
  | cons f fields ih =>
    cases hf : read f with
    | error e => exact .inr ⟨[], f, fields, e, rfl, by simp, hf⟩
    | ok v =>
      rcases ih with hall | ⟨before, g, after, e, rfl, hbefore, he⟩
      · exact .inl (List.forall_mem_cons.2 ⟨⟨v, hf⟩, hall⟩)
      · exact .inr ⟨f :: before, g, after, e, rfl, List.forall_mem_cons.2 ⟨⟨v, hf⟩, hbefore⟩, he⟩

theorem readFields_placed {read : Field → Bool → Except InvalidData Value} {r' : Record}
    (hr : r.Placed) (h : readFields read fields r = .ok r') : r'.Placed := by
  induction fields generalizing r with
  | nil => exact Except.ok.inj h ▸ hr
  | cons f rest ih =>
    obtain ⟨value, -, h⟩ := bind_eq_ok.1 h
    refine ih ?_ h
    split
    next => exact hr
    next => exact hr.insert f.name value

/-- It can be told from each of the fields whether it is the last one. -/
def TellsLast (isLast : Field → Bool) (fields : List Field) : Prop :=
  ∀ n f, fields[n]? = some f → isLast f = decide (n + 1 = fields.length)

theorem TellsLast.cons {isLast : Field → Bool} {f : Field} (h : TellsLast isLast (f :: fields)) :
    fields.isEmpty = isLast f ∧ TellsLast isLast fields := by
  constructor
  · rw [h 0 f rfl]
    cases fields <;> simp
  · intro n g hg
    simpa using h (n + 1) g hg

theorem readFields_flagged {read : Field → Bool → Except InvalidData Value} {isLast : Field → Bool}
    (h : TellsLast isLast fields) :
    readFields read fields r = readFields (fun f _ => read f (isLast f)) fields r := by
  induction fields generalizing r with
  | nil => rfl
  | cons f rest ih =>
    obtain ⟨hf, hrest⟩ := h.cons
    simp only [readFields, hf, ih hrest]

theorem read_placed {t : RecordType} {read : Field → Bool → Except InvalidData Value}
    (h : t.read read = .ok r) : r.Placed :=
  readFields_placed (Record.ofType_placed t.name) h

def KeysApart (fields : List Field) : Prop :=
  (fields.filter (!·.isFiller)).Pairwise fun a b => Record.key a.name ≠ Record.key b.name

def entriesOf (value : Field → Value) (fields : List Field) : List Entry :=
  (fields.filter (!·.isFiller)).map fun f => { name := f.name, value := value f }

theorem readFields_ok {value : Field → Value} (hr : r.Placed)
    (hread : ∀ f ∈ fields, read f = .ok (value f)) (hapart : KeysApart fields)
    (hnew : ∀ f ∈ fields, f.isFiller = false → r.place? f.name = none) :
    ∃ r', readFields (fun f _ => read f) fields r = .ok r' ∧ r'.typeName = r.typeName ∧
      r'.entries = r.entries ++ entriesOf value fields ∧
      (∀ f ∈ fields, f.isFiller = false → r'.get? f.name = some (value f)) ∧
      ∀ name, (r.place? name).isSome → r'.get? name = r.get? name := by
  induction fields generalizing r with
  | nil => exact ⟨r, rfl, rfl, by simp [entriesOf], by simp, fun _ _ => rfl⟩
  | cons f fields ih =>
    rw [List.forall_mem_cons] at hread hnew
    obtain ⟨hf, hread⟩ := hread
    obtain ⟨hfnew, hnew⟩ := hnew
    cases hfill : f.isFiller with
    | true =>
      have hapart' : KeysApart fields := by simpa [KeysApart, hfill] using hapart
      obtain ⟨r', hr', htype, hentries, hget, hkept⟩ := ih hr hread hapart' hnew
      refine ⟨r', ?_, htype, ?_, List.forall_mem_cons.2 ⟨?_, hget⟩, hkept⟩
      · simp [readFields, hf, hfill, hr', Except.mapError, bind, Except.bind]
      · simp [hentries, entriesOf, hfill]
      · simp [hfill]
    | false =>
      simp only [KeysApart, hfill, List.filter_cons, Bool.not_false, if_true,
        List.pairwise_cons] at hapart
      obtain ⟨hkey, hapart'⟩ := hapart
      replace hfnew := hfnew hfill
      have hnew' : ∀ g ∈ fields, g.isFiller = false →
          (r.insert f.name (value f)).place? g.name = none := by
        intro g hg hgfill
        have hne : Record.key g.name ≠ Record.key f.name :=
          (hkey g (List.mem_filter.2 ⟨hg, by simp [hgfill]⟩)).symm
        rw [Record.place?_insert_of_ne hne]
        exact hnew g hg hgfill
      obtain ⟨r', hr', htype, hentries, hget, hkept⟩ :=
        ih (hr.insert_new (value f) hfnew) hread hapart' hnew'
      rw [Record.insert_new (value f) hfnew] at htype hentries
      refine ⟨r', ?_, htype, ?_, List.forall_mem_cons.2 ⟨fun _ => ?_, hget⟩, ?_⟩
      · simp [readFields, hf, hfill, hr', Except.mapError, bind, Except.bind]
      · simp [hentries, entriesOf, hfill]
      · rw [hkept f.name (by simp [Record.place?_insert_new (value f) hfnew])]
        exact Record.get?_insert_new (value f) hfnew
      · intro name hname
        rw [hkept name, hr.get?_insert_new (value f) hfnew hname]
        by_cases heq : Record.key name = Record.key f.name
        · rw [Record.place?, heq, ← Record.place?, Record.place?_insert_new (value f) hfnew]
          rfl
        · rw [Record.place?_insert_of_ne heq]
          exact hname

theorem readFields_error {before after : List Field} {f : Field} {e : InvalidData}
    (hbefore : ∀ g ∈ before, ∃ v, read g = .ok v) (hf : read f = .error e) :
    readFields (fun f _ => read f) (before ++ f :: after) r = .error (e.inField f.name) := by
  induction before generalizing r with
  | nil => simp [readFields, hf, Except.mapError, bind, Except.bind]
  | cons g before ih =>
    rw [List.forall_mem_cons] at hbefore
    obtain ⟨⟨v, hv⟩, hbefore⟩ := hbefore
    simp [readFields, hv, ih hbefore, Except.mapError, bind, Except.bind]

theorem exists_readFields_ok (h : ∀ f ∈ fields, ∃ v, read f = .ok v) (r : Record) :
    ∃ r', readFields (fun f _ => read f) fields r = .ok r' := by
  induction fields generalizing r with
  | nil => exact ⟨r, rfl⟩
  | cons f fields ih =>
    obtain ⟨⟨v, hv⟩, hrest⟩ := List.forall_mem_cons.1 h
    obtain ⟨r', hr'⟩ := ih hrest (if f.isFiller then r else r.insert f.name v)
    exact ⟨r', by simp [readFields, hv, hr', Except.mapError, bind, Except.bind]⟩

/-- Reading stops at the first field without a value, also where fields share a name. -/
theorem readFields_eq_error {e : InvalidData} :
    readFields (fun f _ => read f) fields r = .error e ↔
      ∃ before f after cause, fields = before ++ f :: after ∧
        (∀ g ∈ before, ∃ v, read g = .ok v) ∧ read f = .error cause ∧ e = cause.inField f.name := by
  constructor
  · intro h
    rcases exists_first_error read fields with hall | ⟨before, f, after, cause, rfl, hbefore, hf⟩
    · obtain ⟨r', hr'⟩ := exists_readFields_ok hall r
      cases hr'.symm.trans h
    · rw [readFields_error hbefore hf] at h
      exact ⟨before, f, after, cause, rfl, hbefore, hf, (Except.error.inj h).symm⟩
  · rintro ⟨before, f, after, cause, rfl, hbefore, hf, rfl⟩
    exact readFields_error hbefore hf

/-- What reading a record of type `t` comes to, where `read` gives the value of each field. -/
inductive ReadsTo (t : RecordType) (read : Field → Except InvalidData Value) :
    Except InvalidData Record → Prop
  | record {value : Field → Value} {r : Record} (hread : ∀ f ∈ t.fields, read f = .ok (value f))
      (htype : r.typeName = some t.name) (hentries : r.entries = entriesOf value t.fields)
      (hget : ∀ f ∈ t.fields, f.isFiller = false → r.get? f.name = some (value f)) :
      ReadsTo t read (.ok r)
  | error {before after : List Field} {f : Field} {e : InvalidData}
      (hfields : t.fields = before ++ f :: after) (hbefore : ∀ g ∈ before, ∃ v, read g = .ok v)
      (hf : read f = .error e) : ReadsTo t read (.error (e.inField f.name))

variable {t : RecordType}

theorem read_readsTo (h : KeysApart t.fields) (read : Field → Except InvalidData Value) :
    t.ReadsTo read (t.read fun f _ => read f) := by
  rcases exists_first_error read t.fields with hall | ⟨before, f, after, e, hfields, hbefore, hf⟩
  · have hread : ∀ f ∈ t.fields, read f = .ok ((read f).toOption.getD .null) := by
      intro f hf
      obtain ⟨v, hv⟩ := hall f hf
      rw [hv]
      rfl
    obtain ⟨r, hr, htype, hentries, hget, -⟩ :=
      readFields_ok (Record.ofType_placed t.name) hread h fun _ _ _ => rfl
    rw [RecordType.read, hr]
    exact .record hread htype hentries hget
  · rw [RecordType.read, hfields, readFields_error hbefore hf]
    exact .error hfields hbefore hf

theorem ReadsTo.congr {read' : Field → Except InvalidData Value}
    {result : Except InvalidData Record} (h : t.ReadsTo read result)
    (heq : ∀ f ∈ t.fields, read f = read' f) : t.ReadsTo read' result := by
  cases h with
  | record hread htype hentries hget =>
    exact .record (fun f hf => heq f hf ▸ hread f hf) htype hentries hget
  | @error before after f e hfields hbefore hf =>
    have hmem : ∀ g ∈ before ++ f :: after, read g = read' g := hfields ▸ heq
    refine .error hfields (fun g hg => ?_) ?_
    · rw [← hmem g (List.mem_append_left _ hg)]
      exact hbefore g hg
    · rw [← hmem f (List.mem_append_right _ List.mem_cons_self)]
      exact hf

-- ------------------------------------------------------------------
-- Writing
-- ------------------------------------------------------------------

theorem writeFields_flagged {write : Field → Bool → Value → Except InvalidData (List α)}
    {isLast : Field → Bool} (h : TellsLast isLast fields) :
    writeFields write r fields = writeFields (fun f _ => write f (isLast f)) r fields := by
  induction fields with
  | nil => rfl
  | cons f rest ih =>
    obtain ⟨hf, hrest⟩ := h.cons
    simp only [writeFields, hf, ih hrest]

theorem writeFields_flatMap {write : Field → Value → Except InvalidData (List α)}
    {part : Field → List α} (h : ∀ f ∈ fields, write f (r.valueFor f) = .ok (part f)) :
    writeFields (fun f _ => write f) r fields = .ok (fields.flatMap part) := by
  induction fields with
  | nil => rfl
  | cons f fields ih =>
    rw [List.forall_mem_cons] at h
    simp [writeFields, h.1, ih h.2, Except.mapError, bind, Except.bind]

theorem writeFields_ok {write : Field → Value → Except InvalidData (List α)} {out : List α}
    (h : writeFields (fun f _ => write f) r fields = .ok out) :
    ∃ parts, List.Forall₂ (fun f part => write f (r.valueFor f) = .ok part) fields parts ∧
      out = parts.flatten := by
  induction fields generalizing out with
  | nil =>
    obtain rfl := Except.ok.inj h
    exact ⟨[], .nil, rfl⟩
  | cons f fields ih =>
    obtain ⟨part, hpart, h⟩ := bind_eq_ok.1 h
    obtain ⟨more, hmore, h⟩ := bind_eq_ok.1 h
    obtain rfl := Except.ok.inj h
    obtain ⟨parts, hparts, rfl⟩ := ih hmore
    exact ⟨part :: parts, .cons (mapError_eq_ok.1 hpart) hparts, rfl⟩

theorem writeFields_error {write : Field → Bool → Value → Except InvalidData (List α)}
    {e : InvalidData} (h : writeFields write r fields = .error e) :
    ∃ before f after cause, fields = before ++ f :: after ∧
      write f after.isEmpty (r.valueFor f) = .error cause ∧ e = cause.inField f.name := by
  induction fields with
  | nil => cases h
  | cons f rest ih =>
    cases hpart : write f rest.isEmpty (r.valueFor f) with
    | error cause =>
      simp only [writeFields, hpart, Except.mapError, bind, Except.bind, Except.error.injEq] at h
      exact ⟨[], f, rest, cause, rfl, hpart, h.symm⟩
    | ok part =>
      cases hmore : writeFields write r rest with
      | ok more => simp [writeFields, hpart, hmore, Except.mapError, bind, Except.bind] at h
      | error e' =>
        simp only [writeFields, hpart, hmore, Except.mapError, bind, Except.bind,
          Except.error.injEq] at h
        obtain ⟨before, g, after, cause, rfl, hcause, he⟩ := ih (h ▸ hmore)
        exact ⟨f :: before, g, after, cause, rfl, hcause, he⟩

theorem exists_part_of_writeFields {write : Field → Bool → Value → Except InvalidData (List α)}
    {out : List α} (h : writeFields write r fields = .ok out) :
    ∀ f ∈ fields, ∃ last part, write f last (r.valueFor f) = .ok part := by
  induction fields generalizing out with
  | nil => simp
  | cons f rest ih =>
    obtain ⟨part, hpart, h⟩ := bind_eq_ok.1 h
    obtain ⟨more, hmore, -⟩ := bind_eq_ok.1 h
    exact List.forall_mem_cons.2 ⟨⟨_, part, mapError_eq_ok.1 hpart⟩, ih hmore⟩

end RecordType
end Flatfile
