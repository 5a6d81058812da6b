import Flatfile.Proofs.Lookup
import Flatfile.Record.Basic
import Mathlib.Data.List.Flatten

/-!
# Records as ordered maps with aliases

A record without its index is a list of values in order, each with its names, where no name is given
twice: an `AliasMap`. Each operation on a record does to its entries what the operation of the same
name does to such a list, and the index follows (`Indexed`): it leads from every name to the entry
that has it and nowhere else. So a record and the list cannot be told apart, whatever was done to
both (`run_agrees`).
-/

namespace Flatfile

-- ------------------------------------------------------------------
-- Names of entries
-- ------------------------------------------------------------------

namespace Entry

def keys (e : Entry) : List String :=
  e.names.map Record.key

def isNamed (e : Entry) (name : String) : Bool :=
  e.keys.contains (Record.key name)

variable {e : Entry} {name : String}

theorem isNamed_iff : e.isNamed name = true ↔ Record.key name ∈ e.keys :=
  List.contains_iff_mem

def setValue (value : Value) (e : Entry) : Entry :=
  { e with value }

def addName (name : String) (e : Entry) : Entry :=
  { e with aliases := e.aliases ++ [name] }

@[simp] theorem keys_mk (name : String) (value : Value) :
    ({ name, value } : Entry).keys = [Record.key name] := rfl

@[simp] theorem keys_ite_setValue (p : Prop) [Decidable p] (value : Value) (e : Entry) :
    (if p then e.setValue value else e).keys = e.keys := by
  split <;> rfl

@[simp] theorem keys_addName (name : String) (e : Entry) :
    (e.addName name).keys = e.keys ++ [Record.key name] := by
  simp [keys, names, addName]

end Entry

/-- No two names are looked up under one key, be they of one entry or of two. -/
def Entry.NamesApart (entries : List Entry) : Prop :=
  (entries.flatMap Entry.keys).Nodup

namespace Entry.NamesApart

variable {entries : List Entry} {name : String} {i : Nat} {e : Entry}

theorem isNamed_iff (h : NamesApart entries) (hi : entries[i]? = some e) (he : e.isNamed name)
    {j : Nat} {e' : Entry} (hj : entries[j]? = some e') : e'.isNamed name = true ↔ j = i := by
  constructor
  · intro he'
    rw [Entry.isNamed_iff] at he he'
    have hpairs := List.pairwise_iff_getElem.1 (List.nodup_flatMap.1 h).2
    obtain ⟨hilt, rfl⟩ := List.getElem?_eq_some_iff.1 hi
    obtain ⟨hjlt, rfl⟩ := List.getElem?_eq_some_iff.1 hj
    rcases Nat.lt_trichotomy j i with hlt | heq | hlt
    · exact absurd he (hpairs j i hjlt hilt hlt he')
    · exact heq
    · exact absurd he' (hpairs i j hilt hjlt hlt he)
  · rintro rfl
    rw [hi] at hj
    exact Option.some.inj hj ▸ he

theorem map_eq_modify (h : NamesApart entries) (hi : entries[i]? = some e) (he : e.isNamed name)
    (f : Entry → Entry) :
    entries.map (fun e => if e.isNamed name then f e else e) = entries.modify i f := by
  refine List.ext_getElem? fun j => ?_
  rw [List.getElem?_map, List.getElem?_modify]
  cases hj : entries[j]? with
  | none => rfl
  | some e' =>
    have hnamed := h.isNamed_iff hi he hj
    by_cases hij : i = j
    · simp [hij, hnamed.2 hij.symm]
    · have hnot : ¬ e'.isNamed name := fun hn => hij (hnamed.1 hn).symm
      simp [hij, hnot]

theorem filter_eq_eraseIdx (h : NamesApart entries) (hi : entries[i]? = some e)
    (he : e.isNamed name) : entries.filter (!·.isNamed name) = entries.eraseIdx i := by
  have hsplit : entries = entries.take i ++ e :: entries.drop (i + 1) := by
    obtain ⟨hlt, rfl⟩ := List.getElem?_eq_some_iff.1 hi
    rw [List.getElem_cons_drop, List.take_append_drop]
  have hothers : ∀ x ∈ entries.take i ++ entries.drop (i + 1), (!x.isNamed name) = true := by
    intro x hx
    rw [← List.eraseIdx_eq_take_drop_succ] at hx
    obtain ⟨j, hj⟩ := List.mem_iff_getElem?.1 hx
    rw [List.getElem?_eraseIdx] at hj
    split at hj <;> rename_i hji
    all_goals
      have hnamed := h.isNamed_iff hi he hj
      simp only [Bool.not_eq_true', Bool.eq_false_iff, ne_eq, hnamed]
      omega
  rw [List.eraseIdx_eq_take_drop_succ]
  conv_lhs => rw [hsplit]
  rw [List.filter_append, List.filter_cons_of_neg (by simp [he]), ← List.filter_append]
  exact List.filter_eq_self.2 hothers

theorem find?_eq (h : NamesApart entries) (hi : entries[i]? = some e) (he : e.isNamed name) :
    entries.find? (·.isNamed name) = some e := by
  cases hfind : entries.find? (·.isNamed name) with
  | none =>
    have hnone := List.find?_eq_none.1 hfind e (List.mem_of_getElem? hi)
    exact absurd he hnone
  | some e' =>
    obtain ⟨j, hj⟩ := List.mem_iff_getElem?.1 (List.mem_of_find?_eq_some hfind)
    have hname := List.find?_some (p := fun e : Entry => e.isNamed name) hfind
    obtain rfl := (h.isNamed_iff hi he hj).1 hname
    rw [← hi, ← hj]

end Entry.NamesApart

-- ------------------------------------------------------------------
-- Ordered maps with aliases
-- ------------------------------------------------------------------

@[ext] structure AliasMap where
  entries : List Entry := []
  apart : Entry.NamesApart entries := by exact List.nodup_nil

namespace AliasMap

def entry? (m : AliasMap) (name : String) : Option Entry :=
  m.entries.find? (·.isNamed name)

def get? (m : AliasMap) (name : String) : Option Value :=
  (m.entry? name).map (·.value)

def contains (m : AliasMap) (name : String) : Bool :=
  m.entries.any (·.isNamed name)

def names? (m : AliasMap) (name : String) : Option (List String) :=
  (m.entry? name).map Entry.names

def names (m : AliasMap) : List String :=
  m.entries.map (·.name)

def toList (m : AliasMap) : List (String × Value) :=
  m.entries.map fun e => (e.name, e.value)

def size (m : AliasMap) : Nat :=
  m.entries.length

def sharesEntry (m : AliasMap) (name other : String) : Bool :=
  m.entries.any fun e => e.isNamed name && e.isNamed other

variable {m : AliasMap} {name : String}

theorem contains_iff : m.contains name = true ↔ Record.key name ∈ m.entries.flatMap Entry.keys := by
  simp [contains, Entry.isNamed_iff]

def setValue (m : AliasMap) (name : String) (value : Value) : AliasMap where
  entries := m.entries.map fun e => if e.isNamed name then e.setValue value else e
  apart := by
    simpa only [Entry.NamesApart, List.flatMap_map, Entry.keys_ite_setValue] using m.apart

def append (m : AliasMap) (name : String) (value : Value) (hnew : ¬ m.contains name) :
    AliasMap where
  entries := m.entries ++ [{ name, value }]
  apart := by
    rw [contains_iff] at hnew
    rw [Entry.NamesApart, List.flatMap_append, List.nodup_append']
    exact ⟨m.apart, by simp, by simpa using hnew⟩

def insert (m : AliasMap) (name : String) (value : Value) : AliasMap :=
  if hknown : m.contains name then m.setValue name value else m.append name value hknown

theorem addName_apart (m : AliasMap) (name : String) {newName : String}
    (hnew : ¬ m.contains newName) :
    Entry.NamesApart (m.entries.map fun e => if e.isNamed name then e.addName newName else e) := by
  rw [contains_iff] at hnew
  obtain ⟨heach, hpairs⟩ := List.nodup_flatMap.1 m.apart
  simp only [List.mem_flatMap, not_exists, not_and] at hnew
  rw [Entry.NamesApart, List.nodup_flatMap, List.pairwise_map, List.forall_mem_map]
  constructor
  · intro e he
    split
    · rw [Entry.keys_addName, List.nodup_append']
      exact ⟨heach e he, by simp, by simpa using hnew e he⟩
    · exact heach e he
  · refine List.Pairwise.imp_of_mem ?_ hpairs
    intro a b ha hb hab
    -- The new name goes to one of the two at most, and the other one does not have it.
    by_cases hna : a.isNamed name
    · have hnb : ¬ b.isNamed name := fun hnb =>
        hab (Entry.isNamed_iff.1 hna) (Entry.isNamed_iff.1 hnb)
      simp only [Function.onFun, hna, hnb, if_true, Bool.false_eq_true, if_false,
        Entry.keys_addName]
      exact List.disjoint_append_left.2 ⟨hab, by simpa using hnew b hb⟩
    · by_cases hnb : b.isNamed name
      · simp only [Function.onFun, hna, hnb, if_true, Bool.false_eq_true, if_false,
          Entry.keys_addName]
        exact List.disjoint_append_right.2 ⟨hab, by simpa using hnew a ha⟩
      · simpa only [Function.onFun, hna, hnb, Bool.false_eq_true, if_false] using hab

def addName (m : AliasMap) (name newName : String) (hnew : ¬ m.contains newName) : AliasMap where
  entries := m.entries.map fun e => if e.isNamed name then e.addName newName else e
  apart := m.addName_apart name hnew

theorem addName_of_unknown {newName : String} (hnew : ¬ m.contains newName)
    (hname : ¬ m.contains name) : m.addName name newName hnew = m := by
  rw [contains, List.any_eq_true] at hname
  have hkept : ∀ e ∈ m.entries, (if e.isNamed name then e.addName newName else e) = e :=
    fun e he => if_neg fun hnamed => hname ⟨e, he, hnamed⟩
  exact AliasMap.ext ((List.map_congr_left hkept).trans (List.map_id' _))

/-- The name is given if the first one is known and the other one is new, or names the same entry
already. -/
def addAlias (m : AliasMap) (name newName : String) : Bool × AliasMap :=
  (m.contains name && (!m.contains newName || m.sharesEntry name newName),
    if hnew : m.contains newName then m else m.addName name newName hnew)

def erase (m : AliasMap) (name : String) : AliasMap where
  entries := m.entries.filter (!·.isNamed name)
  apart := m.apart.sublist (List.filter_sublist.flatMap Entry.keys)

theorem erase_of_unknown (hname : ¬ m.contains name) : m.erase name = m := by
  rw [contains, List.any_eq_true] at hname
  refine AliasMap.ext (List.filter_eq_self.2 fun e he => ?_)
  simpa using fun hnamed => hname ⟨e, he, hnamed⟩

def remove (m : AliasMap) (name : String) : Option Value × AliasMap :=
  (m.get? name, m.erase name)

end AliasMap

-- ------------------------------------------------------------------
-- Records
-- ------------------------------------------------------------------

namespace Record

variable {r : Record} {m : AliasMap} {name newName k : String} {value : Value} {i j : Nat}

/-- The record has the entries of the map, and its index leads from each name to the entry that has
it, and nowhere else. -/
structure Refines (r : Record) (m : AliasMap) : Prop where
  entries : r.entries = m.entries
  keys : (r.index.map Prod.fst).Nodup
  index : ∀ k i, (k, i) ∈ r.index ↔ ∃ e, m.entries[i]? = some e ∧ k ∈ e.keys

theorem refines_empty (hentries : r.entries = []) (hindex : r.index = []) : r.Refines {} :=
  ⟨hentries, by simp [hindex], by simp [hindex]⟩

theorem Refines.place?_eq_some (h : r.Refines m) :
    r.place? name = some i ↔ ∃ e, m.entries[i]? = some e ∧ e.isNamed name := by
  rw [place?, lookup_eq_some_iff_mem h.keys, h.index]
  simp only [Entry.isNamed_iff]

theorem Refines.contains_eq (h : r.Refines m) (name : String) :
    r.contains name = m.contains name := by
  rw [Bool.eq_iff_iff, contains, Option.isSome_iff_exists, AliasMap.contains, List.any_eq_true]
  simp only [h.place?_eq_some, List.mem_iff_getElem?]
  constructor
  · rintro ⟨i, e, hi, he⟩
    exact ⟨e, ⟨i, hi⟩, he⟩
  · rintro ⟨e, ⟨i, hi⟩, he⟩
    exact ⟨i, e, hi, he⟩

theorem Refines.place?_eq_none (h : r.Refines m) :
    r.place? name = none ↔ ¬ m.contains name := by
  rw [← h.contains_eq, contains, Option.not_isSome_iff_eq_none]

theorem Refines.entry?_eq (h : r.Refines m) (name : String) : r.entry? name = m.entry? name := by
  cases hplace : r.place? name with
  | none =>
    have hunknown := h.place?_eq_none.1 hplace
    rw [AliasMap.contains, List.any_eq_true] at hunknown
    unfold entry? AliasMap.entry?
    rw [hplace, eq_comm, Option.bind_none, List.find?_eq_none]
    exact fun e he hname => hunknown ⟨e, he, hname⟩
  | some i =>
    obtain ⟨e, hi, he⟩ := h.place?_eq_some.1 hplace
    unfold entry? AliasMap.entry?
    rw [m.apart.find?_eq hi he, ← hi, hplace, h.entries]
    rfl

theorem Refines.get?_eq (h : r.Refines m) (name : String) : r.get? name = m.get? name := by
  rw [get?, h.entry?_eq, AliasMap.get?]

-- ------------------------------------------------------------------
-- Operations
-- ------------------------------------------------------------------

theorem Refines.setValue (h : r.Refines m) (hplace : r.place? name = some i) (value : Value) :
    ({ r with entries := r.entries.modify i fun e => { e with value } } : Record).Refines
      (m.setValue name value) := by
  obtain ⟨e, hi, he⟩ := h.place?_eq_some.1 hplace
  refine ⟨?_, h.keys, fun k j => ?_⟩
  · rw [h.entries]
    exact (m.apart.map_eq_modify hi he _).symm
  · simp only [h.index, AliasMap.setValue, List.getElem?_map, Option.map_eq_some_iff,
      exists_exists_and_eq_and, Entry.keys_ite_setValue]

theorem Refines.append (h : r.Refines m) (hnew : ¬ m.contains name) (value : Value) :
    ({ r with
        entries := r.entries ++ [{ name, value }]
        index := (key name, r.entries.length) :: r.index } : Record).Refines
      (m.append name value hnew) := by
  have hlookup : r.place? name = none := h.place?_eq_none.2 hnew
  have hfresh : key name ∉ r.index.map Prod.fst := by
    rw [mem_keys_iff, ← place?, hlookup]
    decide
  refine ⟨?_, List.nodup_cons.2 ⟨hfresh, h.keys⟩, fun k j => ?_⟩
  · rw [AliasMap.append, h.entries]
  · rw [List.mem_cons, h.index, Prod.mk.injEq, AliasMap.append, h.entries]
    rcases Nat.lt_trichotomy j m.entries.length with hlt | rfl | hlt
    · rw [List.getElem?_append_left hlt]
      simp [Nat.ne_of_lt hlt]
    · simp
    · rw [List.getElem?_append_right (Nat.le_of_lt hlt)]
      have hbeyond : m.entries[j]? = none := List.getElem?_eq_none (Nat.le_of_lt hlt)
      have hsingle : ([{ name, value }] : List Entry)[j - m.entries.length]? = none :=
        List.getElem?_eq_none (by rw [List.length_singleton]; omega)
      simp [hbeyond, hsingle, Nat.ne_of_gt hlt]

theorem Refines.insert (h : r.Refines m) (name : String) (value : Value) :
    (r.insert name value).Refines (m.insert name value) := by
  unfold Record.insert AliasMap.insert
  cases hplace : r.place? name with
  | some i =>
    have hknown : m.contains name := by
      rw [← h.contains_eq, contains, hplace]
      rfl
    rw [dif_pos hknown]
    exact h.setValue hplace value
  | none =>
    have hnew := h.place?_eq_none.1 hplace
    rw [dif_neg hnew]
    exact h.append hnew value

theorem Refines.sharesEntry_eq (h : r.Refines m) (hname : r.place? name = some i)
    (hother : r.place? newName = some j) : m.sharesEntry name newName = (i == j) := by
  obtain ⟨e, hi, he⟩ := h.place?_eq_some.1 hname
  obtain ⟨e', hj, he'⟩ := h.place?_eq_some.1 hother
  rw [Bool.eq_iff_iff, AliasMap.sharesEntry, List.any_eq_true, beq_iff_eq]
  constructor
  · rintro ⟨x, hx, hboth⟩
    obtain ⟨n, hn⟩ := List.mem_iff_getElem?.1 hx
    obtain ⟨hxname, hxother⟩ := Bool.and_eq_true_iff.1 hboth
    rw [← (m.apart.isNamed_iff hi he hn).1 hxname, (m.apart.isNamed_iff hj he' hn).1 hxother]
  · rintro rfl
    obtain rfl := Option.some.inj (hi.symm.trans hj)
    exact ⟨e, List.mem_of_getElem? hi, Bool.and_eq_true_iff.2 ⟨he, he'⟩⟩

theorem Refines.addName (h : r.Refines m) (hplace : r.place? name = some i)
    (hnew : ¬ m.contains newName) :
    ({ r with
        entries := r.entries.modify i fun e => { e with aliases := e.aliases ++ [newName] }
        index := (key newName, i) :: r.index } : Record).Refines
      (m.addName name newName hnew) := by
  obtain ⟨e, hi, he⟩ := h.place?_eq_some.1 hplace
  have hfresh : key newName ∉ r.index.map Prod.fst := by
    rw [mem_keys_iff, ← place?, h.place?_eq_none.2 hnew]
    decide
  refine ⟨?_, List.nodup_cons.2 ⟨hfresh, h.keys⟩, fun k j => ?_⟩
  · rw [h.entries]
    exact (m.apart.map_eq_modify hi he _).symm
  · rw [List.mem_cons, h.index, Prod.mk.injEq, AliasMap.addName, List.getElem?_map]
    cases hj : m.entries[j]? with
    | none =>
      have hne : j ≠ i := fun heq => by simp [heq, hi] at hj
      simp [hne]
    | some e' =>
      have hnamed := m.apart.isNamed_iff hi he hj
      by_cases hij : j = i
      · simp [hij, hnamed.2 hij, or_comm]
      · have hnot : ¬ e'.isNamed name := fun hn => hij (hnamed.1 hn)
        simp [hij, hnot]

theorem Refines.addAlias (h : r.Refines m) (name newName : String) :
    (r.addAlias name newName).1 = (m.addAlias name newName).1 ∧
      (r.addAlias name newName).2.Refines (m.addAlias name newName).2 := by
  have hknown := h.contains_eq name
  have hnew := h.contains_eq newName
  unfold Record.addAlias AliasMap.addAlias
  rw [← hknown]
  cases hplace : r.place? name with
  | none =>
    have hname := h.place?_eq_none.1 hplace
    refine ⟨by simp [contains, hplace], ?_⟩
    by_cases hcontains : m.contains newName
    · rw [dif_pos hcontains]
      exact h
    · rw [dif_neg hcontains, AliasMap.addName_of_unknown hcontains hname]
      exact h
  | some i =>
    cases hother : r.place? newName with
    | some j =>
      have hcontains : m.contains newName := by simp [← hnew, contains, hother]
      rw [dif_pos hcontains]
      exact ⟨by simp [contains, hplace, hcontains, h.sharesEntry_eq hplace hother], h⟩
    | none =>
      have hcontains := h.place?_eq_none.1 hother
      rw [dif_neg hcontains]
      exact ⟨by simp [contains, hplace, hcontains], h.addName hplace hcontains⟩

theorem mem_dropPlace {index : List (String × Nat)} :
    (k, j) ∈ dropPlace i index ↔ (k, if j < i then j else j + 1) ∈ index := by
  simp only [dropPlace, List.mem_filterMap, Prod.exists]
  constructor
  · rintro ⟨k', j', hmem, h⟩
    split at h
    · simp at h
    · obtain ⟨rfl, rfl⟩ := Prod.mk.inj (Option.some.inj h)
      rename_i hne
      convert hmem using 2
      split_ifs <;> omega
  · intro hmem
    refine ⟨k, _, hmem, ?_⟩
    by_cases hlt : j < i
    · rw [if_pos hlt, if_neg (Nat.ne_of_lt hlt), if_neg (Nat.lt_asymm hlt)]
    · have hle : i < j + 1 := by omega
      rw [if_neg hlt, if_neg (Nat.ne_of_gt hle), if_pos hle, Nat.add_sub_cancel]

theorem dropPlace_keys (i : Nat) (index : List (String × Nat)) :
    ((dropPlace i index).map Prod.fst).Sublist (index.map Prod.fst) := by
  induction index with
  | nil => exact .slnil
  | cons entry index ih =>
    obtain ⟨k, j⟩ := entry
    by_cases hj : j = i
    · simpa [dropPlace, hj] using ih.cons k
    · simpa [dropPlace, hj] using ih.cons_cons k

theorem Refines.remove (h : r.Refines m) (name : String) :
    (r.remove name).1 = (m.remove name).1 ∧ (r.remove name).2.Refines (m.remove name).2 := by
  unfold Record.remove AliasMap.remove
  rw [← h.get?_eq, get?, entry?]
  cases hplace : r.place? name with
  | none =>
    rw [AliasMap.erase_of_unknown (h.place?_eq_none.1 hplace)]
    exact ⟨rfl, h⟩
  | some i =>
    obtain ⟨e, hi, he⟩ := h.place?_eq_some.1 hplace
    have herase : (m.erase name).entries = m.entries.eraseIdx i :=
      m.apart.filter_eq_eraseIdx hi he
    refine ⟨rfl, ?_, h.keys.sublist (dropPlace_keys i r.index), fun k j => ?_⟩
    · rw [h.entries, herase]
    · rw [mem_dropPlace, h.index, herase, List.getElem?_eraseIdx]
      split <;> rfl

-- ------------------------------------------------------------------
-- Runs
-- ------------------------------------------------------------------

inductive Change where
  | insert (name : String) (value : Value)
  | addAlias (name newName : String)
  | remove (name : String)
  deriving DecidableEq

inductive Reply where
  | done
  | named (given : Bool)
  | removed (value : Option Value)
  deriving DecidableEq

def change (r : Record) : Change → Reply × Record
  | .insert name value => (.done, r.insert name value)
  | .addAlias name newName => (.named (r.addAlias name newName).1, (r.addAlias name newName).2)
  | .remove name => (.removed (r.remove name).1, (r.remove name).2)

end Record

open Record in
def AliasMap.change (m : AliasMap) : Change → Reply × AliasMap
  | .insert name value => (.done, m.insert name value)
  | .addAlias name newName => (.named (m.addAlias name newName).1, (m.addAlias name newName).2)
  | .remove name => (.removed (m.remove name).1, (m.remove name).2)

namespace Record

variable {r : Record} {m : AliasMap}

def run (change : α → Change → Reply × α) : List Change → α → List Reply × α
  | [], a => ([], a)
  | c :: changes, a =>
    let (reply, a) := change a c
    let (replies, a) := run change changes a
    (reply :: replies, a)

/-- Record and map cannot be told apart, and the index leads to no place beyond the entries and to
no entry that does not have the name. -/
structure Agrees (r : Record) (m : AliasMap) : Prop where
  get? : ∀ name, r.get? name = m.get? name
  contains : ∀ name, r.contains name = m.contains name
  names? : ∀ name, r.names? name = m.names? name
  names : r.names = m.names
  toList : r.toList = m.toList
  size : r.size = m.size
  index : ∀ k i, (k, i) ∈ r.index → ∃ e, r.entries[i]? = some e ∧ k ∈ e.keys

theorem Refines.agrees (h : r.Refines m) : r.Agrees m where
  get? := h.get?_eq
  contains := h.contains_eq
  names? name := by rw [Record.names?, h.entry?_eq, AliasMap.names?]
  names := by rw [Record.names, h.entries, AliasMap.names]
  toList := by rw [Record.toList, h.entries, AliasMap.toList]
  size := by rw [Record.size, h.entries, AliasMap.size]
  index k i hmem := by
    rw [h.entries]
    exact (h.index k i).1 hmem

theorem Refines.change (h : r.Refines m) (c : Change) :
    (r.change c).1 = (m.change c).1 ∧ (r.change c).2.Refines (m.change c).2 := by
  cases c with
  | insert name value => exact ⟨rfl, h.insert name value⟩
  | addAlias name newName =>
    obtain ⟨hgiven, h⟩ := h.addAlias name newName
    exact ⟨congrArg Reply.named hgiven, h⟩
  | remove name =>
    obtain ⟨hvalue, h⟩ := h.remove name
    exact ⟨congrArg Reply.removed hvalue, h⟩

theorem Refines.run (h : r.Refines m) (changes : List Change) :
    (Record.run Record.change changes r).1 = (Record.run AliasMap.change changes m).1 ∧
      (Record.run Record.change changes r).2.Refines (Record.run AliasMap.change changes m).2 := by
  induction changes generalizing r m with
  | nil => exact ⟨rfl, h⟩
  | cons c changes ih =>
    obtain ⟨hreply, h⟩ := h.change c
    obtain ⟨hreplies, h⟩ := ih h
    exact ⟨List.cons_eq_cons.2 ⟨hreply, hreplies⟩, h⟩

/-- Whatever is done to an empty record and to an empty map, all replies are the same, and so is all
that can be asked of them afterwards. -/
theorem run_agrees (changes : List Change) :
    (run change changes empty).1 = (run AliasMap.change changes {}).1 ∧
      (run change changes empty).2.Agrees (run AliasMap.change changes {}).2 := by
  have hempty : empty.Refines {} := refines_empty rfl rfl
  obtain ⟨hreplies, h⟩ := hempty.run changes
  exact ⟨hreplies, h.agrees⟩

end Record

end Flatfile
