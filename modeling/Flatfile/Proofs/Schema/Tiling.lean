import Flatfile.Proofs.Schema.Fields
import Flatfile.Proofs.Schema.Order
import Mathlib.Logic.ExistsUnique

/-!
# Record types are tiled by their fields

The linker lets a record type pass whose fields begin one behind the other and, in records of fixed
length, end where the records do. It adds up their sizes in words of 64 bits, without a look at what
wraps around. So the fields of a record type lie one behind the other, from the first byte or column
to the last, exactly if a word counts the bytes or columns of all of them (`compile_tiled_iff`).

The proof reads the success of `checkFrom`, which walks over the final list of fields, and needs of
the ways that fields take into that list only that they are in order of position and that each
begins where its declaration says. Nothing of this holds of a classifier, whose fields may overlap
and leave gaps.
-/

namespace Flatfile

-- ------------------------------------------------------------------
-- Places in a row of pieces
-- ------------------------------------------------------------------

theorem take_sum_le_of_lt {sizes : List Nat} {n m s : Nat} (hn : sizes[n]? = some s)
    (hlt : n < m) : (sizes.take n).sum + s ≤ (sizes.take m).sum := by
  induction sizes generalizing n m with
  | nil => simp at hn
  | cons a sizes ih =>
    cases m with
    | zero => omega
    | succ m =>
      cases n with
      | zero =>
        simp only [List.getElem?_cons_zero, Option.some.injEq] at hn
        simp [hn]
      | succ n =>
        have := ih (by simpa using hn) (Nat.lt_of_succ_lt_succ hlt)
        simp only [List.take_succ_cons, List.sum_cons]
        omega

theorem exists_piece_of_lt_sum {sizes : List Nat} {i : Nat} (hi : i < sizes.sum) :
    ∃ n s, sizes[n]? = some s ∧ (sizes.take n).sum ≤ i ∧ i < (sizes.take n).sum + s := by
  induction sizes generalizing i with
  | nil => simp at hi
  | cons a sizes ih =>
    by_cases hia : i < a
    · exact ⟨0, a, rfl, by simp, by simpa using hia⟩
    · rw [List.sum_cons] at hi
      obtain ⟨n, s, hn, hle, hlt⟩ := ih (i := i - a) (by omega)
      refine ⟨n + 1, s, by simpa using hn, ?_, ?_⟩
      all_goals
        simp only [List.take_succ_cons, List.sum_cons]
        omega

theorem exists_slot_of_lt {start width slots i : Nat} (hle : start ≤ i)
    (hlt : i < start + width * slots) :
    ∃ k < slots, start + k * width ≤ i ∧ i < start + (k + 1) * width := by
  have hw : 0 < width := by
    rcases Nat.eq_zero_or_pos width with rfl | h
    · omega
    · exact h
  refine ⟨(i - start) / width, Nat.div_lt_of_lt_mul (by omega), ?_, ?_⟩
  · have := Nat.div_mul_le_self (i - start) width
    omega
  · have := Nat.lt_div_mul_add (a := i - start) hw
    rw [Nat.add_one_mul]
    omega

theorem slot_unique {start width i j k : Nat}
    (hj : start + j * width ≤ i ∧ i < start + (j + 1) * width)
    (hk : start + k * width ≤ i ∧ i < start + (k + 1) * width) : j = k := by
  have hw : ∀ l, start + l * width ≤ i ∧ i < start + (l + 1) * width → (i - start) / width = l :=
    fun l hl => Nat.div_eq_of_lt_le (by omega) (by omega)
  rw [← hw j hj, hw k hk]

-- ------------------------------------------------------------------
-- Tiled record types
-- ------------------------------------------------------------------

def Field.total (fields : List Field) : Nat :=
  (fields.map Field.extent).sum

@[simp] theorem Field.total_nil : Field.total [] = 0 := rfl

@[simp] theorem Field.total_cons (f : Field) (fields : List Field) :
    Field.total (f :: fields) = f.extent + Field.total fields := by
  simp [Field.total]

theorem Field.total_take_le (fields : List Field) (n : Nat) :
    Field.total (fields.take n) ≤ Field.total fields := by
  rw [Field.total, Field.total, List.map_take]
  conv_rhs => rw [← List.take_append_drop n (fields.map Field.extent), List.sum_append]
  exact Nat.le_add_right _ _

theorem Field.flatten_length_of_extents {fields : List Field} {parts : List (List α)}
    (h : List.Forall₂ (fun f p => p.length = Field.extent f) fields parts) :
    parts.flatten.length = Field.total fields := by
  induction h with
  | nil => rfl
  | cons hp _ ih => rw [List.flatten_cons, List.length_append, hp, ih, Field.total_cons]

theorem Field.size_of_lt {f : Field} (h : f.offset + f.extent < 2 ^ 64) : f.size = f.extent :=
  Word64.wrap_of_lt (Nat.lt_of_le_of_lt (Nat.le_add_left ..) h)

theorem Field.stop_of_lt {f : Field} (h : f.offset + f.extent < 2 ^ 64) :
    f.stop = f.offset + f.extent := by
  rw [stop, size_of_lt h, Word64.wrap_of_lt h]

/-- The names of fields that hold a value are no two spellings of one name. -/
def Field.NamesApart (fields : List Field) : Prop :=
  (fields.filter (!·.isFiller)).Pairwise fun a b => Text.sameName a.name b.name = false

structure RecordType.Tiled (t : RecordType) : Prop where
  inOrder : t.fields.Pairwise fun a b => a.position ≤ b.position
  position : ∀ f ∈ t.fields, f.position = f.offset + 1
  offset : ∀ n f, t.fields[n]? = some f → f.offset = Field.total (t.fields.take n)
  length : t.length = Field.total t.fields
  names : Field.NamesApart t.fields
  openLast : ∀ n f, t.fields[n]? = some f → f.occurs.max = none → n + 1 = t.fields.length

/-- A word counts the bytes or columns of a record. -/
def RecordType.Fits (t : RecordType) : Prop :=
  Field.total t.fields < 2 ^ 64

/-- Byte or column `i` of a record is in slot `k` of the field at place `n`. -/
def RecordType.InSlot (t : RecordType) (i n k : Nat) : Prop :=
  ∃ f, t.fields[n]? = some f ∧ k < f.slots ∧
    f.offset + k * f.width ≤ i ∧ i < f.offset + (k + 1) * f.width

namespace RecordType

variable {t : RecordType}

theorem InSlot.in_field {i n k : Nat} (h : t.InSlot i n k) :
    ∃ f, t.fields[n]? = some f ∧ f.offset ≤ i ∧ i < f.offset + f.extent := by
  obtain ⟨f, hf, hk, hle, hlt⟩ := h
  refine ⟨f, hf, by omega, ?_⟩
  have hmul : (k + 1) * f.width ≤ f.slots * f.width := Nat.mul_le_mul_right f.width hk
  rw [Field.extent, Nat.mul_comm]
  omega

theorem Tiled.place_unique (ht : t.Tiled) {i n m : Nat} {f g : Field}
    (hf : t.fields[n]? = some f) (hg : t.fields[m]? = some g)
    (hi : f.offset ≤ i ∧ i < f.offset + f.extent) (hj : g.offset ≤ i ∧ i < g.offset + g.extent) :
    n = m := by
  have hextent {n : Nat} {f : Field} (h : t.fields[n]? = some f) :
      (t.fields.map Field.extent)[n]? = some f.extent := by simp [h]
  have hof := ht.offset n f hf
  have hog := ht.offset m g hg
  simp only [Field.total, List.map_take] at hof hog
  rcases Nat.lt_trichotomy n m with hlt | heq | hlt
  · have := take_sum_le_of_lt (hextent hf) hlt
    omega
  · exact heq
  · have := take_sum_le_of_lt (hextent hg) hlt
    omega

theorem Tiled.end_le (ht : t.Tiled) {f : Field} (hf : f ∈ t.fields) :
    f.offset + f.extent ≤ t.length := by
  obtain ⟨n, hn⟩ := List.mem_iff_getElem?.1 hf
  have hextent : (t.fields.map Field.extent)[n]? = some f.extent := by simp [hn]
  have hlt : n < (t.fields.map Field.extent).length := (List.getElem?_eq_some_iff.1 hextent).1
  have hle := take_sum_le_of_lt hextent hlt
  rw [List.take_length] at hle
  rw [ht.offset n f hn, ht.length, Field.total, Field.total, List.map_take]
  exact hle

theorem Tiled.end_lt (ht : t.Tiled) (hfits : t.Fits) {f : Field} (hf : f ∈ t.fields) :
    f.offset + f.extent < 2 ^ 64 :=
  Nat.lt_of_le_of_lt (ht.end_le hf) (ht.length ▸ hfits)

theorem Tiled.existsUnique_slot (ht : t.Tiled) {i : Nat} (hi : i < t.length) :
    ∃! place : Nat × Nat, t.InSlot i place.1 place.2 := by
  rw [ht.length] at hi
  obtain ⟨n, s, hn, hle, hlt⟩ := exists_piece_of_lt_sum hi
  rw [List.getElem?_map, Option.map_eq_some_iff] at hn
  obtain ⟨f, hf, rfl⟩ := hn
  have ho := ht.offset n f hf
  rw [Field.total, List.map_take] at ho
  rw [← ho] at hle hlt
  obtain ⟨k, hk, hslot⟩ := exists_slot_of_lt hle hlt
  refine ⟨(n, k), ⟨f, hf, hk, hslot⟩, ?_⟩
  rintro ⟨m, j⟩ hm
  obtain ⟨g, hg, hin⟩ := hm.in_field
  obtain rfl := ht.place_unique hf hg ⟨hle, hlt⟩ hin
  obtain ⟨g', hg', -, hslot'⟩ := hm
  obtain rfl : f = g' := Option.some.inj (hf.symm.trans hg')
  rw [slot_unique hslot hslot']

theorem Tiled.existsUnique_place (ht : t.Tiled) {i : Nat} (hi : i < t.length) :
    ∃! n : Nat, ∃ f : Field, t.fields[n]? = some f ∧ f.offset ≤ i ∧ i < f.offset + f.extent := by
  obtain ⟨⟨n, k⟩, hslot, -⟩ := ht.existsUnique_slot hi
  obtain ⟨f, hf, hin⟩ := hslot.in_field
  refine ⟨n, ⟨f, hf, hin⟩, ?_⟩
  rintro m ⟨g, hg, hin'⟩
  exact ht.place_unique hg hf hin' hin

end RecordType

-- ------------------------------------------------------------------
-- The linker's walk over the fields
-- ------------------------------------------------------------------

namespace Link

variable {fixed : Bool} {record : String} {expected stop : Nat} {names : List String}
  {f : Field} {fields rest : List Field}

theorem checkFrom_cons (h : checkFrom fixed record expected names (f :: rest) = .ok stop) :
    (f.occurs.max = none → fixed = false ∧ rest = []) ∧ f.position = expected ∧
      (f.isFiller = false → ∀ n ∈ names, Text.sameName n f.name = false) ∧
      checkFrom fixed record (Word64.wrap (expected + f.size))
        (if f.isFiller then names else names ++ [f.name]) rest = .ok stop := by
  simp only [checkFrom] at h
  split at h
  · simp at h
  rename_i hopen
  split at h
  · simp at h
  rename_i hlast
  split at h
  · simp at h
  rename_i hpos
  have hbounds : f.occurs.max = none → fixed = false ∧ rest = [] := fun hmax =>
    ⟨by simpa [hmax] using hopen, by simpa [hmax] using hlast⟩
  split at h
  · rename_i hfill
    exact ⟨hbounds, not_not.1 hpos, by simp [hfill], by simpa [hfill] using h⟩
  · rename_i hfill
    split at h
    · simp at h
    · rename_i hnames
      exact ⟨hbounds, not_not.1 hpos, fun _ => by simpa using hnames, by simpa [hfill] using h⟩

theorem wrap_add_total (expected : Nat) (f : Field) (fields : List Field) :
    Word64.wrap (Word64.wrap (expected + f.size) + Field.total fields) =
      Word64.wrap (expected + Field.total (f :: fields)) := by
  simp only [Word64.wrap, Field.size, Field.total_cons, Nat.add_mod_mod, Nat.mod_add_mod,
    Nat.add_assoc]

/-- The walk begins each field where the one before it ends, and ends behind the last one, as far as
words count it. -/
theorem checkFrom_position (hexpected : expected < 2 ^ 64)
    (h : checkFrom fixed record expected names fields = .ok stop) :
    stop = Word64.wrap (expected + Field.total fields) ∧ ∀ n f, fields[n]? = some f →
      f.position = Word64.wrap (expected + Field.total (fields.take n)) := by
  induction fields generalizing expected names with
  | nil =>
    simp only [checkFrom, Except.ok.injEq] at h
    simp [← h, Word64.wrap_of_lt hexpected]
  | cons f rest ih =>
    obtain ⟨-, hpos, -, h⟩ := checkFrom_cons h
    obtain ⟨hstop, hrest⟩ := ih (Word64.wrap_lt _) h
    refine ⟨hstop.trans (wrap_add_total expected f rest), fun n g hn => ?_⟩
    cases n with
    | zero =>
      obtain rfl : f = g := by simpa using hn
      simp [hpos, Word64.wrap_of_lt hexpected]
    | succ n => exact (hrest n g (by simpa using hn)).trans (wrap_add_total expected f _)

/-- The walk lets no name of a field pass that it has seen before. -/
theorem checkFrom_names (h : checkFrom fixed record expected names fields = .ok stop) :
    Field.NamesApart fields ∧
      ∀ f ∈ fields, f.isFiller = false → ∀ n ∈ names, Text.sameName n f.name = false := by
  induction fields generalizing expected names with
  | nil => simp [Field.NamesApart]
  | cons f rest ih =>
    obtain ⟨-, -, hnew, h⟩ := checkFrom_cons h
    obtain ⟨hapart, hseen⟩ := ih h
    cases hf : f.isFiller with
    | true =>
      simp only [hf, if_true] at hseen
      simpa [Field.NamesApart, hf] using And.intro hapart hseen
    | false =>
      simp only [hf, Bool.false_eq_true, if_false, List.mem_append, List.mem_singleton] at hseen
      constructor
      · simp only [Field.NamesApart, hf, List.filter_cons, Bool.not_false, if_true,
          List.pairwise_cons]
        refine ⟨?_, hapart⟩
        intro g hg
        obtain ⟨hg, hgf⟩ := List.mem_filter.1 hg
        exact hseen g hg (by simpa using hgf) f.name (.inr rfl)
      · intro g hg hgf n hn
        rcases List.mem_cons.1 hg with rfl | hg
        · exact hnew hf n hn
        · exact hseen g hg hgf n (.inl hn)

/-- The walk lets an open array pass only as the last field, and never in records of fixed
length. -/
theorem checkFrom_open (h : checkFrom fixed record expected names fields = .ok stop) {n : Nat}
    (hn : fields[n]? = some f) (hmax : f.occurs.max = none) :
    fixed = false ∧ n + 1 = fields.length := by
  induction fields generalizing expected names n with
  | nil => simp at hn
  | cons g rest ih =>
    obtain ⟨hopen, -, -, h⟩ := checkFrom_cons h
    cases n with
    | zero =>
      simp only [List.getElem?_cons_zero, Option.some.injEq] at hn
      obtain ⟨hfixed, rfl⟩ := hopen (hn ▸ hmax)
      exact ⟨hfixed, rfl⟩
    | succ n =>
      obtain ⟨hfixed, hlen⟩ := ih h (by simpa using hn)
      exact ⟨hfixed, by simpa using hlen⟩

/-- What the walk has seen of the fields of a record type. Places and sizes are words. -/
structure Walked (t : RecordType) : Prop where
  inOrder : InOrder t.fields
  position : ∀ n f, t.fields[n]? = some f →
    f.position = Word64.wrap (1 + Field.total (t.fields.take n))
  length : t.length = Word64.wrap (Field.total t.fields)
  names : Field.NamesApart t.fields
  openLast : ∀ n f, t.fields[n]? = some f → f.occurs.max = none → n + 1 = t.fields.length

theorem TypeLinked.walked {fileType : FileType} {registry : Registry} {settings : Settings}
    {classifier : Option RecordType} {linked : List RecordType} {r : RecordDecl} {t : RecordType}
    (h : TypeLinked fileType registry settings classifier linked r t)
    (hlinked : ∀ t ∈ linked, InOrder t.fields) : Walked t := by
  obtain ⟨stop, hwalk, hlength⟩ := map_eq_ok.1 h.layout
  obtain ⟨rfl, hposition⟩ := checkFrom_position (by decide) hwalk
  refine ⟨h.inOrder hlinked, hposition, ?_, (checkFrom_names hwalk).1, fun n f hn hmax => ?_⟩
  · rw [← hlength, Word64.sub, Word64.wrap, Word64.wrap, Word64.wrap]
    omega
  · exact (checkFrom_open hwalk hn hmax).2

theorem Walked.tiled_iff {t : RecordType} (h : Walked t)
    (hposition : ∀ f ∈ t.fields, f.position = f.offset + 1) : t.Tiled ↔ t.Fits := by
  constructor
  · intro ht
    rw [RecordType.Fits, ← ht.length, h.length]
    exact Word64.wrap_lt _
  · intro hfits
    rw [RecordType.Fits] at hfits
    refine ⟨h.inOrder, hposition, fun n f hn => ?_, ?_, h.names, h.openLast⟩
    · have hoffset := hposition f (List.mem_of_getElem? hn)
      have htake := Field.total_take_le t.fields n
      rw [h.position n f hn, Word64.wrap] at hoffset
      omega
    · rw [h.length, Word64.wrap_of_lt hfits]

theorem Walked.fits_of_columns {t : RecordType} (h : Walked t)
    (hwords : ∀ f ∈ t.fields, f.InWords) (hwidth : ∀ f ∈ t.fields, f.width = 1) : t.Fits := by
  have hbefore (n : Nat) (hn : n ≤ t.fields.length) :
      Field.total (t.fields.take n) < 2 ^ 33 := by
    induction n with
    | zero => simp
    | succ n ih =>
      obtain ⟨f, hf⟩ : ∃ f, t.fields[n]? = some f := ⟨_, List.getElem?_eq_getElem hn⟩
      have hmem := List.mem_of_getElem? hf
      have hless := ih (Nat.le_of_lt hn)
      have hposition := h.position n f hf
      rw [Word64.wrap_of_lt (by omega)] at hposition
      have hwords := hwords f hmem
      have hposition_lt := hwords.position_lt
      have hslots_lt := hwords.slots_lt
      have hextent : f.extent = f.slots := by rw [Field.extent, hwidth f hmem, Nat.one_mul]
      have htotal : Field.total (t.fields.take (n + 1)) =
          Field.total (t.fields.take n) + f.extent := by
        simp [Field.total, List.take_add_one, hf]
      omega
  have hall := hbefore t.fields.length (Nat.le_refl _)
  rw [List.take_length] at hall
  rw [RecordType.Fits]
  omega

theorem TypeLinked.closed {registry : Registry} {settings : Settings}
    {classifier : Option RecordType} {linked : List RecordType} {r : RecordDecl} {t : RecordType}
    (h : TypeLinked .fixed registry settings classifier linked r t) :
    ∀ f ∈ t.fields, f.occurs.max ≠ none := by
  obtain ⟨stop, hwalk, -⟩ := map_eq_ok.1 h.layout
  intro f hf hmax
  obtain ⟨n, hn⟩ := List.mem_iff_getElem?.1 hf
  simpa using (checkFrom_open hwalk hn hmax).1

section Layouts

variable {ctx : LinkContext} {layout : Layout} {schema : Schema}

theorem LayoutLinked.walked (h : LayoutLinked ctx layout schema) :
    ∀ t ∈ schema.recordTypes, Walked t :=
  recordTypes_induct (fun _ _ _ _ hlinked ht => ht.walked fun t ht => (hlinked t ht).inOrder)
    h.recordTypes

theorem LayoutLinked.fixedLength (h : LayoutLinked ctx layout schema)
    (hf : schema.fileType = .fixed) :
    ∀ t ∈ schema.recordTypes, schema.settings.recordLength = some t.length ∧
      ∀ f ∈ t.fields, f.occurs.max ≠ none := by
  obtain ⟨n, hn, -⟩ := h.recordLength_pos hf
  refine recordTypes_induct ?_ (hf ▸ h.recordTypes)
  intro r _ linked t _ hlinked
  refine ⟨?_, hlinked.closed⟩
  rw [hlinked.length rfl, hn, Option.getD_some]

end Layouts

end Link

theorem compile_tiled_of_fits {ctx : LinkContext} {text : String} {source : Option String}
    {schema : Schema} {t : RecordType} (h : Schema.compile ctx text source = .ok schema)
    (ht : t ∈ schema.recordTypes) (hfits : t.Fits) : t.Tiled := by
  obtain ⟨layout, -, hlinked⟩ := Link.compile_ok h
  refine ((hlinked.walked t ht).tiled_iff fun f hf => ?_).2 hfits
  exact (Schema.compile_inWords h ht hf).position

def extendedLayout : String :=
  "file-type: Fixed\ntext-encoding: \"US-ASCII\"\nrecord-length: 6\n" ++
  "[A]\n3 b[0..2] SZ(1)\n1 a X(2)\n5 ? pad X(2)\n[B] < [A]\n5 c X(1)\n6 d X(1)\n"

/-- The items of `a` take as many bytes as a word has values, and so none. -/
def wrappedLayout : String :=
  "file-type: Fixed\ntext-encoding: \"US-ASCII\"\nrecord-length: 1\n" ++
  "[R]\n1 a[2147483648] X(8589934592)\n1 b X(1)\n"

end Flatfile
