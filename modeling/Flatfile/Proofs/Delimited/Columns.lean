import Flatfile.Delimited.Record
import Flatfile.Proofs.Codec.Arguments
import Flatfile.Proofs.Fixed.Slices
import Flatfile.Proofs.Schema.Fields

/-!
# The columns of a record

In a delimited file the fields of a record type share out the columns of a record among themselves:
each has as many as it has slots, but an array at the end has those that are left. The writer, the
reader and the check of their number follow the same division (`compile_columnsAgree`), so that a
record that is written has columns enough, and texts that are read are written again in the columns
that they came from.
-/

namespace Flatfile

-- ------------------------------------------------------------------
-- Shares
-- ------------------------------------------------------------------

theorem Delimited.columnBounds_array {t : RecordType} {last : Field} (hlength : t.length < 2 ^ 64)
    (hlast : t.fields.getLast? = some last) (hordered : last.occurs.Ordered)
    (harray : last.isArray = true) (hroom : last.extent ≤ t.length) :
    columnBounds t = (t.length - last.extent + last.occurs.min * last.width,
      last.occurs.max.map fun max => t.length - last.extent + max * last.width) := by
  have hsize : last.size = last.extent := Word64.wrap_of_lt (Nat.lt_of_le_of_lt hroom hlength)
  have hhead : Word64.sub t.length last.size = t.length - last.extent := by
    rw [hsize, Word64.sub_of_le hroom hlength]
  have hitems {items : Nat} (hle : items ≤ last.slots) :
      Word64.wrap (t.length - last.extent + items * last.width) =
        t.length - last.extent + items * last.width := by
    have hmul := Nat.mul_le_mul_right last.width hle
    rw [Nat.mul_comm last.slots, ← Field.extent] at hmul
    exact Word64.wrap_of_lt (by omega)
  simp only [columnBounds, hlast, harray, if_true, hhead]
  cases hmax : last.occurs.max with
  | none =>
    have hslots : last.slots = last.occurs.min := by rw [Field.slots, Occurs.slots, hmax]; rfl
    rw [hitems (Nat.le_of_eq hslots.symm), Option.map_none, Option.map_none]
  | some max =>
    have hslots := Field.slots_eq_max hmax
    rw [hitems (hslots ▸ (hordered max hmax).1), Option.map_some, Option.map_some,
      hitems (Nat.le_of_eq hslots.symm)]

def Field.Takes (f : Field) (count : Nat) : Prop :=
  if f.isArray then f.checkCount count = .ok () else count = f.slots

namespace RecordType

/-- The fields follow one another, each slot of theirs in a column of its own. -/
structure InColumns (t : RecordType) : Prop where
  tiled : t.Tiled
  fits : t.Fits
  width : ∀ f ∈ t.fields, f.width = 1
  ordered : ∀ f ∈ t.fields, f.occurs.Ordered

/-- The field begins where the last one does. -/
def isLast (t : RecordType) (f : Field) : Bool :=
  t.fields.getLast?.any fun last => last.offset == f.offset

/-- How many of `count` columns are those of the field. -/
def share (t : RecordType) (count : Nat) (f : Field) : Nat :=
  if f.isArray && t.isLast f then count - f.offset else f.slots

def columnsOf (t : RecordType) (columns : List String) (f : Field) : List String :=
  (columns.drop f.offset).take (t.share columns.length f)

namespace InColumns

variable {t : RecordType} {f g last : Field} {n m : Nat}

theorem extent (h : t.InColumns) (hf : f ∈ t.fields) : f.extent = f.slots := by
  rw [Field.extent, h.width f hf, Nat.one_mul]

theorem size (h : t.InColumns) (hf : f ∈ t.fields) : f.size = f.slots := by
  rw [Field.size_of_lt (h.tiled.end_lt h.fits hf), h.extent hf]

theorem slots_pos (h : t.InColumns) (hf : f ∈ t.fields) (hmax : f.occurs.max ≠ none) :
    1 ≤ f.slots := by
  obtain ⟨max, hmax⟩ := Option.ne_none_iff_exists'.1 hmax
  rw [Field.slots_eq_max hmax]
  exact (h.ordered f hf max hmax).2

theorem slots_eq_one (h : t.InColumns) (hf : f ∈ t.fields) (hsingle : f.isArray = false) :
    f.slots = 1 := by
  refine Nat.le_antisymm (Fixed.slots_le_one hsingle) (h.slots_pos hf fun hmax => ?_)
  simp [Field.isArray, Occurs.isArray, hmax] at hsingle

theorem offset_lt (h : t.InColumns) (hf : t.fields[n]? = some f) (hg : t.fields[m]? = some g)
    (hlt : n < m) : f.offset < g.offset := by
  have hmem := List.mem_of_getElem? hf
  have hclosed : f.occurs.max ≠ none := fun hmax => by
    have := h.tiled.openLast n f hf hmax
    have := (List.getElem?_eq_some_iff.1 hg).1
    omega
  have hextent : (t.fields.map Field.extent)[n]? = some f.extent := by simp [hf]
  have hle := take_sum_le_of_lt hextent hlt
  have hpos := h.slots_pos hmem hclosed
  rw [h.extent hmem, ← List.map_take, ← List.map_take, ← Field.total, ← Field.total,
    ← h.tiled.offset n f hf, ← h.tiled.offset m g hg] at hle
  omega

theorem isLast_eq (h : t.InColumns) (hf : t.fields[n]? = some f) :
    t.isLast f = decide (n + 1 = t.fields.length) := by
  have hn := (List.getElem?_eq_some_iff.1 hf).1
  obtain ⟨last, hlast⟩ : ∃ last, t.fields[t.fields.length - 1]? = some last :=
    ⟨_, List.getElem?_eq_getElem (by omega)⟩
  rw [isLast, List.getLast?_eq_getElem?, hlast, Option.any_some]
  by_cases hend : n + 1 = t.fields.length
  · obtain rfl : n = t.fields.length - 1 := by omega
    obtain rfl := Option.some.inj (hf.symm.trans hlast)
    simp [hend]
  · have := h.offset_lt hf hlast (by omega)
    simp only [hend, decide_false, beq_eq_false_iff_ne]
    omega

theorem tellsLast (h : t.InColumns) : TellsLast t.isLast t.fields :=
  fun _ _ hf => h.isLast_eq hf

theorem isLast_last {init : List Field} (h : t.InColumns) (hinit : t.fields = init ++ [last]) :
    t.isLast last = true := by
  have hat : t.fields[init.length]? = some last := by simp [hinit]
  simp [h.isLast_eq hat, hinit]

theorem isLast_init {init : List Field} (h : t.InColumns) (hinit : t.fields = init ++ [last])
    (hf : f ∈ init) : t.isLast f = false := by
  obtain ⟨n, hn⟩ := List.mem_iff_getElem?.1 hf
  have hlt := (List.getElem?_eq_some_iff.1 hn).1
  have hat : t.fields[n]? = some f := by rw [hinit, List.getElem?_append_left hlt, hn]
  rw [h.isLast_eq hat, hinit, List.length_append, List.length_singleton, decide_eq_false_iff_not]
  omega

theorem share_last {init : List Field} (h : t.InColumns) (hinit : t.fields = init ++ [last])
    (count : Nat) :
    t.share count last = if last.isArray then count - last.offset else last.slots := by
  rw [share, h.isLast_last hinit, Bool.and_true]

theorem share_init {init : List Field} (h : t.InColumns) (hinit : t.fields = init ++ [last])
    (count : Nat) (hf : f ∈ init) : t.share count f = f.extent := by
  rw [share, h.isLast_init hinit hf, Bool.and_false,
    h.extent (hinit ▸ List.mem_append_left _ hf)]
  rfl

theorem offset_eq (h : t.InColumns) (count : Nat) (hf : t.fields[n]? = some f) :
    f.offset = ((t.fields.map (t.share count)).take n).sum := by
  have hn := (List.getElem?_eq_some_iff.1 hf).1
  obtain ⟨init, last, hinit⟩ : ∃ init last, t.fields = init ++ [last] :=
    ⟨_, _, (List.dropLast_concat_getLast (List.ne_nil_of_length_pos (by omega))).symm⟩
  rw [h.tiled.offset n f hf, Field.total, ← List.map_take]
  refine congrArg List.sum (List.map_congr_left fun g hg => ?_)
  refine (h.share_init hinit count ?_).symm
  rw [hinit, List.length_append, List.length_singleton] at hn
  rw [hinit, List.take_append_of_le_length (by omega)] at hg
  exact List.mem_of_mem_take hg

theorem exists_init (h : t.InColumns) (hlast : t.fields.getLast? = some last) :
    ∃ init, t.fields = init ++ [last] ∧ last.offset = Field.total init ∧
      t.length = last.offset + last.slots := by
  obtain ⟨init, hinit⟩ := List.getLast?_eq_some_iff.1 hlast
  have hat : t.fields[init.length]? = some last := by simp [hinit]
  have hoffset := h.tiled.offset _ _ hat
  rw [hinit, List.take_left] at hoffset
  refine ⟨init, hinit, hoffset, ?_⟩
  rw [h.tiled.length, ← h.extent (List.mem_of_getElem? hat), hoffset, hinit]
  simp [Field.total]

theorem checkCount_eq_ok (h : t.InColumns) (hlast : t.fields.getLast? = some last) {count : Nat} :
    Delimited.checkCount t count = .ok () ↔
      last.offset ≤ count ∧ last.Takes (count - last.offset) := by
  obtain ⟨init, hinit, -, hlength⟩ := h.exists_init hlast
  have hmem : last ∈ t.fields := hinit ▸ List.mem_append_right _ (List.mem_singleton_self last)
  cases harray : last.isArray with
  | false =>
    simp only [Delimited.checkCount, Delimited.columnBounds, hlast, Field.Takes, harray,
      Bool.false_eq_true, if_false, Option.all_some, decide_eq_true_eq]
    split <;> simp only [true_iff, reduceCtorEq, false_iff] <;> omega
  | true =>
    have hroom : last.extent ≤ t.length := by
      rw [hlength, h.extent hmem]
      exact Nat.le_add_left ..
    have hhead : t.length - last.extent = last.offset := by
      rw [hlength, h.extent hmem, Nat.add_sub_cancel]
    have hbounds := Delimited.columnBounds_array (h.tiled.length ▸ h.fits) hlast
      (h.ordered last hmem) harray hroom
    simp only [Delimited.checkCount, hbounds, Field.Takes, harray, if_true, hhead,
      h.width last hmem, Nat.mul_one, Field.checkCount_eq_ok]
    cases last.occurs.max with
    | none =>
      simp only [Option.map_none, Option.all_none, and_true, reduceCtorEq, false_imp_iff,
        implies_true]
      split <;> simp only [true_iff, reduceCtorEq, false_iff] <;> omega
    | some max =>
      simp only [Option.map_some, Option.all_some, decide_eq_true_eq, Option.some.injEq,
        forall_eq']
      split <;> simp only [true_iff, reduceCtorEq, false_iff] <;> omega

theorem sum_share (h : t.InColumns) {count : Nat} (hc : Delimited.checkCount t count = .ok ()) :
    (t.fields.map (t.share count)).sum = count := by
  cases hlast : t.fields.getLast? with
  | none =>
    rw [List.getLast?_eq_none_iff] at hlast
    have hlength := h.tiled.length
    simp only [Delimited.checkCount, Delimited.columnBounds, hlast, List.getLast?_nil,
      Option.all_some, decide_eq_true_eq] at hc
    rw [hlast] at hlength ⊢
    split at hc
    next hcount => simp at hlength ⊢; omega
    next => cases hc
  | some last =>
    obtain ⟨hle, htakes⟩ := (h.checkCount_eq_ok hlast).1 hc
    obtain ⟨init, hinit, -, -⟩ := h.exists_init hlast
    have hat : t.fields[init.length]? = some last := by simp [hinit]
    have hoffset : last.offset = (init.map (t.share count)).sum := by
      simpa [hinit] using h.offset_eq count hat
    have hshare : t.share count last = count - last.offset := by
      rw [h.share_last hinit]
      split
      next => rfl
      next hsingle =>
        rw [Field.Takes, if_neg hsingle] at htakes
        exact htakes.symm
    simp only [hinit, List.map_append, List.sum_append, ← hoffset, List.map_singleton,
      List.sum_singleton, hshare]
    omega

theorem end_le (h : t.InColumns) {count : Nat} (hc : Delimited.checkCount t count = .ok ())
    (hf : f ∈ t.fields) : f.offset + t.share count f ≤ count := by
  obtain ⟨n, hn⟩ := List.mem_iff_getElem?.1 hf
  have hshare : (t.fields.map (t.share count))[n]? = some (t.share count f) := by simp [hn]
  have hle := take_sum_le_of_lt hshare (List.getElem?_eq_some_iff.1 hshare).1
  rwa [List.take_length, ← h.offset_eq count hn, h.sum_share hc] at hle

theorem columnsOf_length (h : t.InColumns) {columns : List String}
    (hc : Delimited.checkCount t columns.length = .ok ()) (hf : f ∈ t.fields) :
    (t.columnsOf columns f).length = t.share columns.length f := by
  have := h.end_le hc hf
  rw [columnsOf, List.length_take, List.length_drop]
  omega

end InColumns

-- ------------------------------------------------------------------
-- Division
-- ------------------------------------------------------------------

section Division

variable {t : RecordType} {fields : List Field} {len : Field → Nat}

theorem flatMap_pieces (columns : List String) (start : Nat)
    (h : ∀ n f, fields[n]? = some f → f.offset = start + ((fields.map len).take n).sum) :
    (fields.flatMap fun f => (columns.drop f.offset).take (len f)) =
      (columns.drop start).take (fields.map len).sum := by
  induction fields generalizing start with
  | nil => simp
  | cons f fields ih =>
    have hf : f.offset = start := by simpa using h 0 f rfl
    have hrest : ∀ n g, fields[n]? = some g →
        g.offset = start + len f + ((fields.map len).take n).sum := fun n g hg => by
      simpa [Nat.add_assoc] using h (n + 1) g hg
    rw [List.flatMap_cons, ih _ hrest, hf, List.map_cons, List.sum_cons, List.take_add,
      List.drop_drop]

theorem parts_eq_pieces {parts : List (List String)} (before : List String)
    (hlen : List.Forall₂ (fun f p => p.length = len f) fields parts)
    (h : ∀ n f, fields[n]? = some f → f.offset = before.length + ((fields.map len).take n).sum) :
    parts = fields.map fun f => ((before ++ parts.flatten).drop f.offset).take (len f) := by
  induction hlen generalizing before with
  | nil => rfl
  | @cons f p fields parts hp _ ih =>
    have hf : f.offset = before.length := by simpa using h 0 f rfl
    have hrest : ∀ n g, fields[n]? = some g →
        g.offset = (before ++ p).length + ((fields.map len).take n).sum := fun n g hg => by
      simpa [Nat.add_assoc, hp] using h (n + 1) g hg
    rw [List.map_cons, List.flatten_cons, hf, List.drop_left, ← hp, List.take_left,
      ← List.append_assoc, ← ih _ hrest]

/-- Column `i` of a record of `count` columns is the `k`-th one of the field at place `n`. -/
def InShare (t : RecordType) (count i n k : Nat) : Prop :=
  ∃ f, t.fields[n]? = some f ∧ k < t.share count f ∧ i = f.offset + k

theorem InColumns.flatMap_columnsOf (h : t.InColumns) {columns : List String}
    (hc : Delimited.checkCount t columns.length = .ok ()) :
    t.fields.flatMap (t.columnsOf columns) = columns := by
  have hpieces := flatMap_pieces columns 0 fun n f hf =>
    (h.offset_eq columns.length hf).trans (Nat.zero_add _).symm
  rwa [h.sum_share hc, List.drop_zero, List.take_length] at hpieces

theorem InColumns.existsUnique_share (h : t.InColumns) {count i : Nat}
    (hc : Delimited.checkCount t count = .ok ()) (hi : i < count) :
    ∃! place : Nat × Nat, t.InShare count i place.1 place.2 := by
  have hshare {n : Nat} {f : Field} (hf : t.fields[n]? = some f) :
      (t.fields.map (t.share count))[n]? = some (t.share count f) := by simp [hf]
  have hbefore {n m : Nat} {f g : Field} (hf : t.fields[n]? = some f)
      (hg : t.fields[m]? = some g) (hlt : n < m) : f.offset + t.share count f ≤ g.offset := by
    rw [h.offset_eq count hf, h.offset_eq count hg]
    exact take_sum_le_of_lt (hshare hf) hlt
  rw [← h.sum_share hc] at hi
  obtain ⟨n, s, hn, hle, hlt⟩ := exists_piece_of_lt_sum hi
  rw [List.getElem?_map, Option.map_eq_some_iff] at hn
  obtain ⟨f, hf, rfl⟩ := hn
  rw [← h.offset_eq count hf] at hle hlt
  refine ⟨(n, i - f.offset), ⟨f, hf, by omega, by omega⟩, ?_⟩
  rintro ⟨m, k⟩ ⟨g, hg, hk, rfl⟩
  rcases Nat.lt_trichotomy n m with hnm | rfl | hnm
  · have := hbefore hf hg hnm
    omega
  · obtain rfl := Option.some.inj (hf.symm.trans hg)
    rw [Nat.add_sub_cancel_left]
  · have := hbefore hg hf hnm
    omega

end Division
end RecordType

-- ------------------------------------------------------------------
-- Written and read
-- ------------------------------------------------------------------

/-- A field of texts without converters, which may be empty. -/
structure Field.IsPlainText (f : Field) : Prop where
  dataType : f.dataType.name = "X"
  converters : f.converters = []
  filler : f.isFiller = false
  optional : f.isArray = false → f.isRequired = false

instance (f : Field) : Decidable f.IsPlainText :=
  decidable_of_iff
    (f.dataType.name = "X" ∧ f.converters.isEmpty ∧ f.isFiller = false ∧
      (f.isArray = false → f.isRequired = false))
    ⟨fun ⟨hx, hnone, hfill, hoptional⟩ => ⟨hx, List.isEmpty_iff.1 hnone, hfill, hoptional⟩,
      fun ⟨hx, hnone, hfill, hoptional⟩ => ⟨hx, List.isEmpty_iff.2 hnone, hfill, hoptional⟩⟩

namespace Delimited

variable {settings : Settings} {t : RecordType} {f : Field} {r : Record} {value : Value}
  {columns part : List String} {last : Bool}

theorem encodeField_length (hsingle : f.isArray = false → f.slots = 1)
    (h : encodeField settings f last value = .ok part) :
    if last then f.Takes part.length else part.length = f.slots := by
  simp only [encodeField] at h
  split at h
  next harray =>
    obtain ⟨_, hcount, h⟩ := bind_eq_ok.1 h
    have hlength := (mapM_eq_ok.1 h).length_eq
    cases last with
    | false => simpa [Fixed.padItems_length] using hlength.symm
    | true =>
      rw [if_pos rfl, Field.Takes, if_pos harray]
      rw [if_pos rfl] at hlength
      exact hlength ▸ hcount
  next harray =>
    obtain ⟨prepared, -, h⟩ := bind_eq_ok.1 h
    obtain ⟨column, -, h⟩ := bind_eq_ok.1 h
    obtain rfl := Except.ok.inj h
    have hslots := hsingle (Bool.eq_false_iff.2 harray)
    cases last <;> simp [Field.Takes, harray, hslots]

theorem lengths_of_parts {init : List Field} {last : Field} {ps : List (List String)}
    (ht : t.InColumns) (hinit : t.fields = init ++ [last])
    (hps : List.Forall₂ (fun f p => encodeField settings f (t.isLast f) (r.valueFor f) = .ok p)
      init ps)
    (hlast : encodeField settings last (t.isLast last) (r.valueFor last) = .ok part) :
    List.Forall₂ (fun f p => p.length = f.extent) init ps ∧ last.Takes part.length := by
  have hencoded {f : Field} {p : List String} (hf : f ∈ t.fields)
      (hp : encodeField settings f (t.isLast f) (r.valueFor f) = .ok p) :=
    encodeField_length (ht.slots_eq_one hf) hp
  rw [hinit] at hencoded
  constructor
  · refine ((List.forall₂_and_left init ps).2 ⟨fun _ hf => hf, hps⟩).imp fun f p ⟨hf, hp⟩ => ?_
    have hmem := List.mem_append_left [last] hf
    have hlength := hencoded hmem hp
    rw [ht.isLast_init hinit hf] at hlength
    exact hlength.trans (ht.extent (hinit ▸ hmem)).symm
  · have hlength := hencoded (List.mem_append_right init (List.mem_singleton_self last)) hlast
    rwa [ht.isLast_last hinit, if_pos rfl] at hlength

/-- The parts that the fields are written in are as long as their shares of the whole. -/
theorem encodeRecord_parts (ht : t.InColumns) (h : encodeRecord settings t r = .ok columns) :
    checkCount t columns.length = .ok () ∧ ∃ parts, columns = parts.flatten ∧
      List.Forall₂ (fun f p => encodeField settings f (t.isLast f) (r.valueFor f) = .ok p)
        t.fields parts ∧
      List.Forall₂ (fun f p => p.length = t.share columns.length f) t.fields parts := by
  rw [encodeRecord, RecordType.write,
    RecordType.writeFields_flagged ht.tellsLast] at h
  obtain ⟨parts, hparts, rfl⟩ := RecordType.writeFields_ok h
  suffices hlengths : checkCount t parts.flatten.length = .ok () ∧
      List.Forall₂ (fun f p => p.length = t.share parts.flatten.length f) t.fields parts from
    ⟨hlengths.1, parts, rfl, hparts, hlengths.2⟩
  cases hlast : t.fields.getLast? with
  | none =>
    have hnone := List.getLast?_eq_none_iff.1 hlast
    rw [hnone, List.forall₂_nil_left_iff] at hparts
    have hlength : t.length = 0 := by simpa [hnone] using ht.tiled.length
    simp [hparts, hnone, checkCount, columnBounds, hlength]
  | some last =>
    obtain ⟨init, hinit, hoffset, -⟩ := ht.exists_init hlast
    rw [hinit] at hparts ⊢
    obtain ⟨ps, p, rfl, hps, hp⟩ := forall₂_concat_left hparts
    obtain ⟨hextents, htakes⟩ := lengths_of_parts ht hinit hps hp
    have hcount : (ps ++ [p]).flatten.length = last.offset + p.length := by
      rw [hoffset, ← Field.flatten_length_of_extents hextents, List.flatten_append,
        List.flatten_singleton, List.length_append]
    have hshare : p.length = t.share (last.offset + p.length) last := by
      rw [ht.share_last hinit, Nat.add_sub_cancel_left]
      rw [Field.Takes] at htakes
      split at htakes
      next harray => rw [if_pos harray]
      next hsingle => rw [if_neg hsingle, htakes]
    rw [hcount]
    refine ⟨(ht.checkCount_eq_ok hlast).2 ⟨Nat.le_add_right _ _, ?_⟩,
      List.rel_append ?_ (.cons hshare .nil)⟩
    · rwa [Nat.add_sub_cancel_left]
    · refine ((List.forall₂_and_left init ps).2 ⟨fun _ hf => hf, hextents⟩).imp fun f p ⟨hf, hp⟩ => ?_
      rw [ht.share_init hinit _ hf, hp]

theorem range_map_getElem? {start count : Nat} (h : start + count ≤ columns.length) :
    ((List.range count).map fun k => columns[start + k]?) =
      ((columns.drop start).take count).map some := by
  refine List.ext_getElem (by simp; omega) fun k hk _ => ?_
  simp only [List.length_map, List.length_range] at hk
  simp only [List.getElem_map, List.getElem_range, List.getElem_take, List.getElem_drop]
  exact List.getElem?_eq_getElem (by omega)

theorem share_of_isArray (ht : t.InColumns) (hf : f ∈ t.fields) (harray : f.isArray = true)
    (count : Nat) : t.share count f = if t.isLast f then count - f.offset else f.size := by
  rw [RecordType.share, harray, Bool.true_and, ht.size hf]

theorem arrayColumns_columnsOf (ht : t.InColumns) (hc : checkCount t columns.length = .ok ())
    (hf : f ∈ t.fields) (harray : f.isArray = true) :
    arrayColumns columns f (t.isLast f) = (t.columnsOf columns f).map some := by
  rw [arrayColumns, ← share_of_isArray ht hf harray]
  exact range_map_getElem? (ht.end_le hc hf)

theorem arrayColumns_own (ht : t.InColumns) (hc : checkCount t columns.length = .ok ())
    (hf : f ∈ t.fields) (harray : f.isArray = true) :
    arrayColumns (t.columnsOf columns f) { f with offset := 0 } (t.isLast f) =
      (t.columnsOf columns f).map some := by
  have hcount : (if t.isLast f then (t.columnsOf columns f).length - 0 else f.size) =
      (t.columnsOf columns f).length := by
    rw [ht.columnsOf_length hc hf, share_of_isArray ht hf harray]
    split <;> rfl
  refine (congrArg (fun n => (List.range n).map _) hcount).trans ?_
  exact (range_map_getElem? (by simp)).trans (by simp)

theorem columnsOf_single (ht : t.InColumns) (hc : checkCount t columns.length = .ok ())
    (hf : f ∈ t.fields) (hsingle : f.isArray = false) :
    ∃ column, columns[f.offset]? = some column ∧ t.columnsOf columns f = [column] := by
  have hshare : t.share columns.length f = 1 := by
    rw [RecordType.share, hsingle, Bool.false_and, if_neg Bool.false_ne_true,
      ht.slots_eq_one hf hsingle]
  have hend := ht.end_le hc hf
  have hlt : f.offset < columns.length := by omega
  refine ⟨_, List.getElem?_eq_getElem hlt, ?_⟩
  rw [RecordType.columnsOf, hshare, List.drop_eq_getElem_cons hlt]
  rfl

theorem decodeField_columnsOf (ht : t.InColumns) (hc : checkCount t columns.length = .ok ())
    (hf : f ∈ t.fields) :
    decodeField settings columns f (t.isLast f) =
      decodeField settings (t.columnsOf columns f) { f with offset := 0 } (t.isLast f) := by
  show _ = if f.isArray = true then
      (arrayColumns (t.columnsOf columns f) { f with offset := 0 } (t.isLast f)).mapM
        (decodeColumn settings f) >>= fun items => .ok (.array (items.map Value.toText))
    else decodeColumn settings f (t.columnsOf columns f)[0]?
  rw [decodeField]
  split
  next harray => rw [arrayColumns_columnsOf ht hc hf harray, arrayColumns_own ht hc hf harray]
  next harray =>
    obtain ⟨column, hcolumn, hown⟩ := columnsOf_single ht hc hf (Bool.eq_false_iff.2 harray)
    rw [hcolumn, hown]
    rfl

theorem decodeColumn_text {x : ColumnText} (hx : x.dataType = f.dataType)
    (hplain : f.converters = []) {column : String}
    (h : decodeColumn settings f (some column) = .ok value) :
    value = .text column ∧ f.writeValue value = .ok value ∧
      encodeColumn settings f value = .ok column := by
  obtain ⟨decoded, hdecoded, hvalue⟩ := bind_eq_ok.1 (mapError_eq_ok.1 h)
  rw [Option.elim_some, ← hx] at hdecoded
  obtain ⟨_, hcheck, hdecoded⟩ := bind_eq_ok.1 hdecoded
  obtain rfl := Except.ok.inj hdecoded
  rw [Field.readValue, hplain] at hvalue
  obtain rfl := Except.ok.inj hvalue
  refine ⟨rfl, by rw [Field.writeValue, hplain]; rfl, mapError_eq_ok.2 ?_⟩
  rw [← hx]
  exact bind_eq_ok.2 ⟨_, hcheck, rfl⟩

theorem padItems_of_length {items : List Value} {n : Nat} (h : items.length = n) :
    Value.padItems n items = items := by
  simp [Value.padItems, ← h]

theorem checkCount_share (ht : t.InColumns) {count : Nat} (hc : checkCount t count = .ok ())
    (hf : f ∈ t.fields) (harray : f.isArray = true) :
    f.checkCount (t.share count f) = .ok () := by
  obtain ⟨n, hn⟩ := List.mem_iff_getElem?.1 hf
  rw [share_of_isArray ht hf harray, ht.isLast_eq hn]
  by_cases hend : n + 1 = t.fields.length
  · have hlast : t.fields.getLast? = some f := by
      rw [List.getLast?_eq_getElem?, ← hend, Nat.add_sub_cancel, hn]
    obtain ⟨-, htakes⟩ := (ht.checkCount_eq_ok hlast).1 hc
    rw [Field.Takes, if_pos harray] at htakes
    rwa [decide_eq_true hend, if_pos rfl]
  · obtain ⟨max, hmax⟩ := Option.ne_none_iff_exists'.1 fun hopen =>
      hend (ht.tiled.openLast n f hn hopen)
    rw [decide_eq_false hend, if_neg Bool.false_ne_true, ht.size hf, Field.checkCount_eq_ok,
      Field.slots_eq_max hmax]
    refine ⟨(ht.ordered f hf max hmax).1, fun max' hmax' => ?_⟩
    exact Nat.le_of_eq (Option.some.inj (hmax.symm.trans hmax'))

theorem encodeField_single {x : ColumnText} (hx : x.dataType = f.dataType)
    (hplain : f.IsPlainText) (ht : t.InColumns) (hc : checkCount t columns.length = .ok ())
    (hf : f ∈ t.fields) (hsingle : f.isArray = false)
    (h : decodeField settings columns f (t.isLast f) = .ok value) :
    encodeField settings f (t.isLast f) value = .ok (t.columnsOf columns f) := by
  obtain ⟨column, hcolumn, hown⟩ := columnsOf_single ht hc hf hsingle
  rw [decodeField, hsingle, if_neg Bool.false_ne_true, hcolumn] at h
  obtain ⟨-, hwritten, hencoded⟩ := decodeColumn_text hx hplain.converters h
  have hprepare : f.prepare value = .ok value :=
    bind_eq_ok.2 ⟨value, mapError_eq_ok.2 hwritten, by simp [hplain.optional hsingle]⟩
  rw [encodeField, hsingle, if_neg Bool.false_ne_true, hown]
  exact bind_eq_ok.2 ⟨value, hprepare, bind_eq_ok.2 ⟨column, hencoded, rfl⟩⟩

theorem encodeField_array {x : ColumnText} (hx : x.dataType = f.dataType)
    (hplain : f.IsPlainText) (ht : t.InColumns) (hc : checkCount t columns.length = .ok ())
    (hf : f ∈ t.fields) (harray : f.isArray = true)
    (h : decodeField settings columns f (t.isLast f) = .ok value) :
    encodeField settings f (t.isLast f) value = .ok (t.columnsOf columns f) := by
  have hlength := ht.columnsOf_length hc hf
  rw [decodeField, if_pos harray, arrayColumns_columnsOf ht hc hf harray] at h
  obtain ⟨items, hitems, h⟩ := bind_eq_ok.1 h
  obtain rfl := Except.ok.inj h
  rw [mapM_eq_ok, List.forall₂_map_left_iff] at hitems
  have hread := hitems.imp fun _ _ => decodeColumn_text hx hplain.converters
  obtain rfl : (t.columnsOf columns f).map Value.text = items := by
    rw [← List.forall₂_eq_eq_eq, List.forall₂_map_left_iff]
    exact hread.imp fun _ _ hitem => hitem.1.symm
  generalize t.columnsOf columns f = own at hlength hread ⊢
  have htexts : (Value.array ((own.map Value.text).map Value.toText)).items =
      own.map Value.text := by
    simp [Value.items, Function.comp_def, Value.toText]
  -- No slot is left over, so that nothing is padded.
  have hall : (if t.isLast f then own.map Value.text
      else Value.padItems f.slots (own.map Value.text)) = own.map Value.text := by
    split
    next => rfl
    next hlast =>
      refine padItems_of_length ?_
      rw [List.length_map, hlength, share_of_isArray ht hf harray, if_neg hlast, ht.size hf]
  rw [encodeField, if_pos harray, htexts]
  refine bind_eq_ok.2 ⟨(), ?_, ?_⟩
  · rw [List.length_map, hlength]
    exact checkCount_share ht hc hf harray
  · rw [hall, mapM_eq_ok]
    refine (hread.imp fun column item hitem => ?_).flip
    obtain ⟨-, hwritten, hencoded⟩ := hitem
    exact bind_eq_ok.2 ⟨item, mapError_eq_ok.2 hwritten, hencoded⟩

theorem encodeField_decodeField {x : ColumnText} (hx : x.dataType = f.dataType)
    (hplain : f.IsPlainText) (ht : t.InColumns) (hc : checkCount t columns.length = .ok ())
    (hf : f ∈ t.fields) (h : decodeField settings columns f (t.isLast f) = .ok value) :
    encodeField settings f (t.isLast f) value = .ok (t.columnsOf columns f) := by
  cases harray : f.isArray with
  | false => exact encodeField_single hx hplain ht hc hf harray h
  | true => exact encodeField_array hx hplain ht hc hf harray h

/-- Writer, reader and the check of the number of columns agree on which columns are whose. -/
structure ColumnsAgree (settings : Settings) (t : RecordType) : Prop where
  written : ∀ r columns, encodeRecord settings t r = .ok columns →
    checkCount t columns.length = .ok () ∧
      ∀ f ∈ t.fields,
        encodeField settings f (t.isLast f) (r.valueFor f) = .ok (t.columnsOf columns f)
  /-- If the number is accepted, the shares are all the columns, no two fields have one in common,
  and each field is read from its share. -/
  shared : ∀ columns, checkCount t columns.length = .ok () →
    t.fields.flatMap (t.columnsOf columns) = columns ∧
      (∀ i < columns.length, ∃! place : Nat × Nat, t.InShare columns.length i place.1 place.2) ∧
      t.ReadsTo
        (fun f => decodeField settings (t.columnsOf columns f) { f with offset := 0 } (t.isLast f))
        (decodeRecord settings t columns)
  /-- Texts that are read are written again in the same columns. -/
  rewritten : (∀ f ∈ t.fields, f.IsPlainText) → ∀ columns r,
    decodeRecord settings t columns = .ok r → encodeRecord settings t r = .ok columns

theorem decodeRecord_readsTo (ht : t.InColumns) (hkeys : RecordType.KeysApart t.fields)
    (hc : checkCount t columns.length = .ok ()) :
    t.ReadsTo (fun f => decodeField settings columns f (t.isLast f))
      (decodeRecord settings t columns) := by
  have hread : decodeRecord settings t columns =
      t.read fun f _ => decodeField settings columns f (t.isLast f) := by
    rw [decodeRecord, hc, RecordType.read,
      ← RecordType.readFields_flagged ht.tellsLast]
    rfl
  rw [hread]
  exact RecordType.read_readsTo hkeys _

theorem columnsAgree_of_inColumns (ht : t.InColumns) (hkeys : RecordType.KeysApart t.fields)
    (htext : ∀ f ∈ t.fields, f.dataType.name = "X" → ∃ x : ColumnText, x.dataType = f.dataType)
    (settings : Settings) : ColumnsAgree settings t := by
  refine ⟨fun r columns h => ?_, fun columns hc => ⟨ht.flatMap_columnsOf hc, ?_, ?_⟩,
    fun hplain columns r h => ?_⟩
  · obtain ⟨hc, parts, hcolumns, hparts, hlengths⟩ := encodeRecord_parts ht h
    refine ⟨hc, ?_⟩
    have heq : parts = t.fields.map (t.columnsOf columns) := by
      have hpieces := RecordType.parts_eq_pieces [] hlengths fun n f hf =>
        (ht.offset_eq columns.length hf).trans (Nat.zero_add _).symm
      rwa [List.nil_append, ← hcolumns] at hpieces
    rwa [heq, List.forall₂_map_right_iff, List.forall₂_same] at hparts
  · exact fun i hi => ht.existsUnique_share hc hi
  · exact (decodeRecord_readsTo ht hkeys hc).congr fun f hf => decodeField_columnsOf ht hc hf
  · obtain ⟨_, hc, -⟩ := bind_eq_ok.1 h
    have hreads : t.ReadsTo (fun f => decodeField settings columns f (t.isLast f)) (.ok r) :=
      h ▸ decodeRecord_readsTo ht hkeys hc
    cases hreads with
    | record hread _ _ hget =>
      have hencode : ∀ f ∈ t.fields, encodeField settings f (t.isLast f) (r.valueFor f) =
          .ok (t.columnsOf columns f) := by
        intro f hf
        obtain ⟨x, hx⟩ := htext f hf (hplain f hf).dataType
        have hfill := (hplain f hf).filler
        rw [Record.valueFor, hfill, if_neg Bool.false_ne_true, hget f hf hfill, Option.getD_some]
        exact encodeField_decodeField hx (hplain f hf) ht hc hf (hread f hf)
      calc encodeRecord settings t r
          = RecordType.writeFields (fun f _ => encodeField settings f (t.isLast f)) r t.fields :=
            RecordType.writeFields_flagged ht.tellsLast
        _ = .ok (t.fields.flatMap (t.columnsOf columns)) := RecordType.writeFields_flatMap hencode
        _ = .ok columns := by rw [ht.flatMap_columnsOf hc]

end Delimited

-- ------------------------------------------------------------------
-- Linked schemas
-- ------------------------------------------------------------------

namespace Link

variable {ctx : LinkContext} {layout : Layout} {schema : Schema}

theorem FieldLinked.columnData {charset : Charset} {record : String} {d : FieldDecl} {f : Field}
    (h : FieldLinked Registry.columns charset record d f) :
    f.width = 1 ∧ (f.dataType.name = "X" → ∃ x : ColumnText, x.dataType = f.dataType) := by
  obtain ⟨call, declared, -, hmade, -, -⟩ := h.codec
  unfold dataTypeOf at hmade
  split at hmade
  next => cases hmade
  next made hfound =>
    rw [mapError_eq_ok.1 hmade] at hfound
    exact Registry.columns_texts hfound

theorem LayoutLinked.columnFields (h : LayoutLinked ctx layout schema)
    (hcolumns : ctx.columns = Registry.columns) (hdelimited : schema.fileType = .delimited)
    {t : RecordType} (ht : t ∈ schema.recordTypes) {f : Field} (hf : f ∈ t.fields) :
    ∃ r ∈ layout.recordTypes, ∃ d ∈ r.fields,
      FieldLinked Registry.columns schema.settings.charset r.name d f := by
  have hdeclared := field_of_recordTypes h.recordTypes t ht f hf
  simpa only [hdelimited, Family.ofFileType, LinkContext.registry, hcolumns] using hdeclared

end Link

theorem compile_fits_of_columns {ctx : LinkContext} {text : String} {source : Option String}
    {schema : Schema} {t : RecordType} (h : Schema.compile ctx text source = .ok schema)
    (hcolumns : ctx.columns = Registry.columns) (hdelimited : schema.fileType = .delimited)
    (ht : t ∈ schema.recordTypes) : (∀ f ∈ t.fields, f.width = 1) ∧ t.Fits := by
  obtain ⟨layout, -, hlinked⟩ := Link.compile_ok h
  have hwidth : ∀ f ∈ t.fields, f.width = 1 := by
    intro f hf
    obtain ⟨r, -, d, -, hfield⟩ := hlinked.columnFields hcolumns hdelimited ht hf
    exact hfield.columnData.1
  exact ⟨hwidth, (hlinked.walked t ht).fits_of_columns (fun f => Schema.compile_inWords h ht)
    hwidth⟩

/-- The writer and the reader of a delimited file agree on the columns of every record type, under
whatever settings, as long as the data types of columns are the built-in ones. -/
theorem compile_columnsAgree {ctx : LinkContext} {text : String} {source : Option String}
    {schema : Schema} {t : RecordType} (h : Schema.compile ctx text source = .ok schema)
    (hcolumns : ctx.columns = Registry.columns) (hdelimited : schema.fileType = .delimited)
    (ht : t ∈ schema.recordTypes) (settings : Settings) :
    Delimited.ColumnsAgree settings t := by
  obtain ⟨layout, hparse, hlinked⟩ := Link.compile_ok h
  have hordered := Layout.parse_ordered hparse
  have hdeclared {f : Field} (hf : f ∈ t.fields) :=
    hlinked.columnFields hcolumns hdelimited ht hf
  obtain ⟨hwidth, hfits⟩ := compile_fits_of_columns h hcolumns hdelimited ht
  refine Delimited.columnsAgree_of_inColumns
    ⟨compile_tiled_of_fits h ht hfits, hfits, hwidth, fun f hf => ?_⟩
    (hlinked.keysApart (Layout.parse_hasAsciiNames hparse) ht) (fun f hf => ?_) settings
  · obtain ⟨r, hr, d, hd, hfield⟩ := hdeclared hf
    exact hfield.occurs ▸ hordered r (List.mem_append_left _ hr) d hd
  · obtain ⟨r, -, d, -, hfield⟩ := hdeclared hf
    exact hfield.columnData.2

def sharingLayout : String :=
  "file-type: Variable\ntext-encoding: \"UTF-8\"\nfield-separator: \",\"\n" ++
  "record-separator: \"\\n\"\n[R]\n1 a X\n2 b[0..2] X(3)\n4 c[1..*] X\n"

theorem compile_columnsAgree_sharing :
    ∃ schema t r, Schema.compile {} sharingLayout none = .ok schema ∧
      schema.fileType = .delimited ∧ t ∈ schema.recordTypes ∧
      (∀ f ∈ t.fields, f.IsPlainText) ∧
      Delimited.decodeRecord schema.settings t ["x", "", "1", "p", "q", ""] = .ok r ∧
      Delimited.encodeRecord schema.settings t r = .ok ["x", "", "1", "p", "q", ""] ∧
      Delimited.ColumnsAgree schema.settings t := by
  let columns := ["x", "", "1", "p", "q", ""]
  have hshape : (Schema.compile {} sharingLayout none).toOption.any fun schema =>
      schema.recordTypes.any fun t =>
        schema.fileType = .delimited ∧ (∀ f ∈ t.fields, f.IsPlainText) ∧
          (Delimited.decodeRecord schema.settings t columns).toOption.isSome := by
    decide +kernel
  obtain ⟨schema, hschema, hshape⟩ := (Option.any_eq_true _ _).1 hshape
  obtain ⟨t, ht, hshape⟩ := List.any_eq_true.1 hshape
  obtain ⟨hdelimited, hplain, hread⟩ := of_decide_eq_true hshape
  obtain ⟨r, hr⟩ := Option.isSome_iff_exists.1 hread
  rw [toOption_eq_some] at hschema hr
  have hagree := compile_columnsAgree hschema rfl hdelimited ht schema.settings
  exact ⟨schema, t, r, hschema, hdelimited, ht, hplain, hr, hagree.rewritten hplain _ r hr, hagree⟩

end Flatfile
