import Flatfile.Proofs.Formatter.Emission
import Flatfile.Proofs.Formatter.LookAhead
import Flatfile.Proofs.Formatter.Titles
import Flatfile.Proofs.Schema.Dispatch
import Flatfile.Tool.CheckLayout

/-!
# Record types that stand behind others

A record type without conditions takes every record that can be read as it, so `check_layout` warns
that the types after it are never selected. The warning goes by the conditions alone. A type that
stands behind is selected all the same as a title, which comes first wherever it is declared, behind
a title, which no later record can be, and on reading for data that cannot be read as the type in
front. These are the only ways, whatever is requested of a formatter (`selectsBehind_of_shadowing`).
-/

namespace Flatfile

-- ------------------------------------------------------------------
-- Selection among several types
-- ------------------------------------------------------------------

def RecordType.Takes (decode : RecordType → Except InvalidData Record) (t : RecordType) : Prop :=
  ∃ r, decode t = .ok r ∧ t.accepts r

namespace Schema

variable {s : Schema} {exclude : Option String} {t u : RecordType} {r : Record}
  {types front back : List RecordType} {decodeKey decode : RecordType → Except InvalidData Record}

theorem accepts_of_unconditional (h : t.predicates = []) (r : Record) : t.accepts r :=
  RecordType.accepts_iff.2 (by simp [h])

theorem error_of_passedOver (h : t.predicates = []) (hpassed : t.PassedOver decode) :
    ∃ e, decode t = .error e := by
  rw [RecordType.PassedOver] at hpassed
  cases hdecode : decode t with
  | error e => exact ⟨e, rfl⟩
  | ok r =>
    rw [hdecode] at hpassed
    cases hpassed.symm.trans (accepts_of_unconditional h r)

/-- A type behind others is taken exactly if all of those are passed over. -/
theorem firstAccepted_behind (hu : u ∉ front) :
    firstAccepted decode (front ++ u :: back) = .ok (some (u, r)) ↔
      decode u = .ok r ∧ u.accepts r ∧ ∀ t ∈ front, t.PassedOver decode := by
  induction front with
  | nil =>
    refine ⟨fun h => ?_, fun ⟨hdecode, haccepts, _⟩ => ?_⟩
    · obtain ⟨-, hdecode, haccepts⟩ := firstAccepted_eq_some h
      exact ⟨hdecode, haccepts, nofun⟩
    · simp [firstAccepted, hdecode, haccepts]
  | cons w front ih =>
    obtain ⟨hwu, hu⟩ := not_or.1 (mt List.mem_cons.2 hu)
    rw [List.forall_mem_cons, List.cons_append, firstAccepted, RecordType.PassedOver]
    cases hdecode : decode w with
    | error e =>
      by_cases hpanic : e.cause = .outOfRange
      · simp [hpanic]
      · simp only [hpanic, if_false, ih hu, ne_eq, not_false_eq_true, true_and]
    | ok r' =>
      cases haccepts : w.accepts r' with
      | true => simp [haccepts, Ne.symm hwu]
      | false => simp only [haccepts, Bool.false_eq_true, if_false, ih hu, true_and]

theorem selectForRead_several (hclassifier : s.classifier = none)
    (hmany : (s.candidates exclude).length ≠ 1) {found : RecordType × Record} :
    s.selectForRead exclude decodeKey decode = .ok found ↔
      firstAccepted decode (s.candidates exclude) = .ok (some found) := by
  unfold selectForRead
  rw [hclassifier]
  cases htypes : s.candidates exclude with
  | nil => simp [firstAccepted, bind, Except.bind]
  | cons first rest =>
    cases rest with
    | nil => exact absurd (congrArg List.length htypes) hmany
    | cons second rest =>
      simp only
      rcases firstAccepted decode (first :: second :: rest) with e | _ | found
      all_goals simp [bind, Except.bind]

theorem selectForWrite_candidate (hname : r.typeName = none)
    (h : s.selectForWrite none exclude r = .ok t) : t ∈ s.candidates exclude := by
  by_cases hmany : (s.candidates exclude).length = 1
  · obtain ⟨only, honly⟩ := List.length_eq_one_iff.1 hmany
    rw [selectForWrite_only hname honly] at h
    obtain rfl := Except.ok.inj h
    simp [honly]
  · exact List.mem_of_find?_eq_some ((selectForWrite_first hname hmany).1 h)

end Schema

-- ------------------------------------------------------------------
-- A type that stands behind another
-- ------------------------------------------------------------------

namespace Schema

variable {s : Schema} {title : Option RecordType} {t u : RecordType} {r : Record}
  {front back : List RecordType} {decodeKey decode : RecordType → Except InvalidData Record}

/-- The types of a schema without a classifier are those in front of the type `u`, among them the
type `t`, which has no conditions, then `u` and those at the back. -/
structure Behind (s : Schema) (front : List RecordType) (t u : RecordType)
    (back : List RecordType) : Prop where
  classifier : s.classifier = none
  types : s.recordTypes = front ++ u :: back
  front : t ∈ front
  unconditional : t.predicates = []
  namesApart : NamesApart RecordType.name s.recordTypes

theorem mem_candidates (h : NamesApart RecordType.name s.recordTypes)
    (htitle : ∀ w ∈ title, w ∈ s.recordTypes) :
    t ∈ s.candidates (title.map (·.name)) ↔ t ∈ s.recordTypes ∧ title ≠ some t := by
  rw [candidates, List.mem_filter]
  refine and_congr_right fun ht => ?_
  cases title with
  | none => simp
  | some w =>
    constructor
    · rintro hname ⟨⟩
      simp [Text.sameName_refl] at hname
    · intro hother
      have hapart : Text.sameName t.name w.name ≠ true :=
        fun hname => hother (congrArg some (h.eq_of_sameName ht (htitle w rfl) hname).symm)
      simpa using hapart

namespace Behind

variable (h : s.Behind front t u back)
include h

theorem mem_front (hw : w ∈ front) : w ∈ s.recordTypes := by
  simp [h.types, hw]

theorem mem : u ∈ s.recordTypes := by
  simp [h.types]

theorem notMem_front : u ∉ front := by
  intro hu
  have hapart := h.namesApart
  rw [NamesApart, h.types, List.pairwise_append] at hapart
  have hself := hapart.2.2 u hu u List.mem_cons_self
  simp [Text.sameName_refl] at hself

theorem candidates_eq (htitle : ∀ w ∈ title, w ∈ s.recordTypes) (ht : title ≠ some t)
    (hu : title ≠ some u) :
    ∃ front' back', s.candidates (title.map (·.name)) = front' ++ u :: back' ∧
      (s.candidates (title.map (·.name))).length ≠ 1 ∧ t ∈ front' ∧ u ∉ front' ∧
      ∀ w, w ∈ front' ↔ w ∈ front ∧ title ≠ some w := by
  obtain ⟨p, hp⟩ : ∃ p, s.candidates (title.map (·.name)) = s.recordTypes.filter p := ⟨_, rfl⟩
  have hkept (w : RecordType) (hw : w ∈ s.recordTypes) : p w ↔ title ≠ some w := by
    have hcandidate := mem_candidates (t := w) h.namesApart htitle
    simpa [hp, hw] using hcandidate
  have hcandidates : s.candidates (title.map (·.name)) = front.filter p ++ u :: back.filter p := by
    rw [hp, h.types, List.filter_append, List.filter_cons_of_pos ((hkept u h.mem).2 hu)]
  have htfront : t ∈ front.filter p :=
    List.mem_filter.2 ⟨h.front, (hkept t (h.mem_front h.front)).2 ht⟩
  refine ⟨front.filter p, back.filter p, hcandidates, ?_, htfront, ?_, fun w => ?_⟩
  · have hsome := List.length_pos_of_mem htfront
    rw [hcandidates, List.length_append, List.length_cons]
    omega
  · exact fun hmem => h.notMem_front (List.mem_filter.1 hmem).1
  · rw [List.mem_filter]
    exact and_congr_right fun hw => hkept w (h.mem_front hw)

/-- What stands behind is selected on reading exactly if it takes the data and all types in front
are passed over, so that the data cannot be read as the type without conditions. -/
theorem selectForRead_iff (htitle : ∀ w ∈ title, w ∈ s.recordTypes) (ht : title ≠ some t)
    (hu : title ≠ some u) :
    s.selectForRead (title.map (·.name)) decodeKey decode = .ok (u, r) ↔
      decode u = .ok r ∧ u.accepts r ∧ (∃ e, decode t = .error e) ∧
        ∀ w ∈ front, title ≠ some w → w.PassedOver decode := by
  obtain ⟨front', back', hcandidates, hmany, htfront, hufront, hmem⟩ :=
    h.candidates_eq htitle ht hu
  rw [selectForRead_several h.classifier hmany, hcandidates, firstAccepted_behind hufront]
  refine and_congr_right fun _ => and_congr_right fun _ => ?_
  constructor
  · intro hpassed
    exact ⟨error_of_passedOver h.unconditional (hpassed t htfront),
      fun w hw hother => hpassed w ((hmem w).2 ⟨hw, hother⟩)⟩
  · rintro ⟨-, hpassed⟩ w hw
    exact hpassed w ((hmem w).1 hw).1 ((hmem w).1 hw).2

theorem selectForWrite_ne (htitle : ∀ w ∈ title, w ∈ s.recordTypes) (ht : title ≠ some t)
    (hu : title ≠ some u) (hname : r.typeName = none) :
    s.selectForWrite none (title.map (·.name)) r ≠ .ok u := by
  intro hselect
  obtain ⟨front', back', hcandidates, hmany, htfront, hufront, -⟩ :=
    h.candidates_eq htitle ht hu
  rw [selectForWrite_first hname hmany, hcandidates, List.find?_append] at hselect
  cases hfound : front'.find? (·.accepts r) with
  | none =>
    have hrefused := List.find?_eq_none.1 hfound t htfront
    exact hrefused (accepts_of_unconditional h.unconditional r)
  | some w =>
    rw [hfound, Option.some_or] at hselect
    obtain rfl := Option.some.inj hselect
    exact hufront (List.mem_of_find?_eq_some hfound)

end Behind
end Schema

-- ------------------------------------------------------------------
-- Formatters
-- ------------------------------------------------------------------

namespace Formatter

variable {f : Formatter} {store : Store} {explicit : Option String} {r : Record} {raw : Raw}
  {title : Option RecordType} {t u : RecordType} {front back : List RecordType}

def title? (f : Formatter) : Except FormatError (Option RecordType) :=
  match f.engine with
  | .fixed _ _ => .ok none
  | .delimited _ => Delimited.titleType? f.schema f.settings

def owesTitle (f : Formatter) : Bool :=
  match f.engine with
  | .fixed _ _ => false
  | .delimited _ => f.settings.requiresTitle && !f.titleWritten

def typeForRead (f : Formatter) (raw : Raw) : Except FormatError RecordType :=
  if f.atTitle then Delimited.titleType f.schema f.settings
  else do
    let title ← f.title?
    let selected := f.schema.selectForRead (title.map (·.name)) (f.decodeKey raw) (f.decode raw)
    let (t, _) ← selected.mapError f.readError
    .ok t

def typeForWrite (f : Formatter) (explicit : Option String) (r : Record) :
    Except FormatError RecordType :=
  match f.engine with
  | .fixed _ _ => (f.schema.selectForWrite explicit none r).mapError f.writeError
  | .delimited _ => f.delimitedType explicit r

def encodeAs (f : Formatter) (t : RecordType) (r : Record) : Except FormatError (List UInt8) :=
  match f.engine with
  | .fixed _ separator => do
    let bytes ← (Fixed.encodeRecord f.settings t r).mapError f.writeError
    .ok (bytes ++ separator)
  | .delimited d => do
    let columns ← (Delimited.encodeRecord f.settings t r).mapError f.writeError
    let line ← (Delimited.joinColumns d f.settings.minimalQuoting columns).mapError f.writeError
    .ok (f.settings.charset.encodeChars line)

theorem isSome_of_titleType? (h : Delimited.titleType? f.schema f.settings = .ok title) :
    f.settings.requiresTitle = title.isSome := by
  unfold Delimited.titleType? at h
  split at h
  next hrequired =>
    cases htype : Delimited.titleType f.schema f.settings with
    | error e => simp [htype, Except.map] at h
    | ok t =>
      rw [htype] at h
      obtain rfl := Except.ok.inj h
      exact hrequired
  next hnone =>
    obtain rfl := Except.ok.inj h
    simpa using hnone

theorem title?_mem (h : f.title? = .ok title) : ∀ t ∈ title, t ∈ f.schema.recordTypes := by
  rintro t rfl
  unfold title? at h
  split at h
  · cases h
  · exact Delimited.titleType?_mem h

theorem title?_of_titleType (hfirst : f.atTitle = true)
    (h : Delimited.titleType f.schema f.settings = .ok t) : f.title? = .ok (some t) := by
  unfold atTitle at hfirst
  unfold title?
  cases hengine : f.engine with
  | fixed length separator => simp [hengine] at hfirst
  | delimited d =>
    simp only [hengine, Bool.and_eq_true] at hfirst
    simp [Delimited.titleType?, hfirst.1, h, Except.map]

theorem typeForRead_later (hlater : f.atTitle = false) :
    f.typeForRead raw = .ok t ↔ ∃ title r, f.title? = .ok title ∧
      f.schema.selectForRead (title.map (·.name)) (f.decodeKey raw) (f.decode raw) =
        .ok (t, r) := by
  rw [typeForRead, if_neg (by simp [hlater])]
  constructor
  · intro h
    obtain ⟨title, htitle, h⟩ := bind_eq_ok.1 h
    obtain ⟨⟨t', r⟩, hselect, h⟩ := bind_eq_ok.1 h
    obtain rfl := Except.ok.inj h
    exact ⟨title, r, htitle, mapError_eq_ok.1 hselect⟩
  · rintro ⟨title, r, htitle, hselect⟩
    exact bind_eq_ok.2 ⟨title, htitle, bind_eq_ok.2 ⟨(t, r), mapError_eq_ok.2 hselect, rfl⟩⟩

theorem typeForRead_mem (h : f.typeForRead raw = .ok t) : t ∈ f.schema.recordTypes := by
  cases hfirst : f.atTitle with
  | true =>
    rw [typeForRead, if_pos hfirst] at h
    exact title?_mem (title?_of_titleType hfirst h) t rfl
  | false =>
    obtain ⟨title, r, -, hselect⟩ := (typeForRead_later hfirst).1 h
    exact (List.mem_filter.1 (Schema.selectForRead_ok hselect).1).1

theorem read_typeForRead (h : f.read.1 = .ok (some r)) :
    ∃ raw t decoded, f.typeForRead raw = .ok t ∧ f.decode raw t = .ok decoded ∧
      r = { decoded with sequence := f.read.2.records } := by
  have hread : f.read = (.ok (some r), f.read.2) := Prod.ext h rfl
  cases read_answersWith hread with
  | fixed hready hinput hengine hraw hafter hr =>
    obtain ⟨bytes, t, selected, -, hselect, hr⟩ := finish_ok hr
    have hlater : f.atTitle = false := by simp [atTitle, hengine]
    have htitle : f.title? = .ok none := by simp [title?, hengine]
    rw [hafter] at hselect
    replace hselect := mapError_eq_ok.1 hselect
    obtain ⟨-, hdecode, -⟩ := Schema.selectForRead_ok hselect
    exact ⟨.bytes bytes, t, selected,
      (typeForRead_later hlater).2 ⟨none, selected, htitle, hselect⟩, hdecode, hr⟩
  | delimited hready hinput hengine hto hafter hr =>
    obtain ⟨columns, t, selected, -, hselect, hr⟩ := finish_ok hr
    rw [hafter] at hselect
    refine ⟨.columns columns, t, selected, ?_⟩
    have hdue : f.atTitle = true ↔ f.settings.requiresTitle ∧ (!f.titleRead) = true := by
      simp [atTitle, hengine]
    by_cases hfirst : f.atTitle = true
    · rw [selectColumns, if_pos (by exact hdue.1 hfirst)] at hselect
      obtain ⟨title, htitle, hselect⟩ := bind_eq_ok.1 hselect
      obtain ⟨decoded, hdecode, hselect⟩ := bind_eq_ok.1 hselect
      obtain ⟨rfl, rfl⟩ := Prod.mk.inj (Except.ok.inj hselect)
      rw [typeForRead, if_pos hfirst]
      exact ⟨htitle, mapError_eq_ok.1 hdecode, hr⟩
    · obtain ⟨title, htitle, hselect⟩ := selectColumns_ok (by exact mt hdue.2 hfirst) hselect
      obtain ⟨-, hdecode, -⟩ := Schema.selectForRead_ok hselect
      refine ⟨(typeForRead_later (by simpa using hfirst)).2 ⟨title, selected, ?_, hselect⟩,
        hdecode, hr⟩
      rw [title?, hengine]
      exact htitle

theorem encode_eq_bind (f : Formatter) (explicit : Option String) (r : Record) :
    f.encode explicit r = f.typeForWrite explicit r >>= fun t => f.encodeAs t r := by
  unfold encode typeForWrite encodeAs
  cases f.engine <;> rfl

theorem write_typeForWrite (h : (f.write store explicit r).1 = .ok ()) :
    ∃ t bytes, f.typeForWrite explicit r = .ok t ∧ f.encodeAs t r = .ok bytes ∧
      f.write store explicit r = f.emit store bytes := by
  rcases f.write_cases store explicit r with ⟨e, hwrite⟩ | ⟨bytes, -, hencode, hwrite⟩
  · simp [hwrite] at h
  · rw [encode_eq_bind] at hencode
    obtain ⟨t, ht, hbytes⟩ := bind_eq_ok.1 hencode
    exact ⟨t, bytes, ht, hbytes, hwrite⟩

theorem typeForWrite_ok (h : f.typeForWrite explicit r = .ok t) :
    ∃ title, f.title? = .ok title ∧
      (f.owesTitle = true ∧ title = some t ∨ f.owesTitle = false ∧
        f.schema.selectForWrite explicit (title.map (·.name)) r = .ok t) := by
  unfold typeForWrite at h
  unfold title? owesTitle
  split at h
  next => exact ⟨none, rfl, .inr ⟨rfl, mapError_eq_ok.1 h⟩⟩
  next =>
    obtain ⟨title, htitle, h⟩ := delimitedType_ok.1 h
    have hrequired := isSome_of_titleType? htitle
    refine ⟨title, htitle, ?_⟩
    rw [hrequired]
    cases title with
    | none => exact .inr ⟨rfl, h⟩
    | some title =>
      simp only at h
      split at h
      next hlater =>
        obtain ⟨t', hselect, h⟩ := bind_eq_ok.1 h
        obtain ⟨-, -, h⟩ := bind_eq_ok.1 h
        obtain rfl := Except.ok.inj h
        exact .inr ⟨by simp [hlater], hselect⟩
      next hfirst =>
        obtain rfl := titleForWrite_ok h
        exact .inl ⟨by simp [hfirst], rfl⟩

/-- When a formatter selects the type `u`, which stands behind the type `t` without conditions. -/
structure SelectsBehind (f : Formatter) (store : Store) (front : List RecordType)
    (t u : RecordType) : Prop where
  read : ∀ r, f.read.1 = .ok (some r) → r.typeName = some u.name →
    ∃ raw decoded, f.typeForRead raw = .ok u ∧ f.decode raw u = .ok decoded ∧
      r = { decoded with sequence := f.read.2.records }
  /-- It is the title and comes first, or the title is in front and comes no more, or the data
  cannot be read as the type in front. -/
  typeForRead : ∀ raw, f.typeForRead raw = .ok u →
    f.title? = .ok (some (bif f.atTitle then u else t)) ∨
      f.atTitle = false ∧ ∃ e, f.decode raw t = .error e
  passedOver : ∀ raw title, f.atTitle = false → f.title? = .ok title → title ≠ some t →
    title ≠ some u → (f.typeForRead raw = .ok u ↔
      u.Takes (f.decode raw) ∧ (∃ e, f.decode raw t = .error e) ∧
        ∀ w ∈ front, title ≠ some w → w.PassedOver (f.decode raw))
  write : ∀ explicit r, (f.write store explicit r).1 = .ok () →
    ∃ w bytes, f.typeForWrite explicit r = .ok w ∧ f.encodeAs w r = .ok bytes ∧
      f.write store explicit r = f.emit store bytes
  typeForWrite : ∀ r, r.typeName = none → f.typeForWrite none r = .ok u →
    f.title? = .ok (some (bif f.owesTitle then u else t))

theorem typeForRead_iff (h : f.schema.Behind front t u back) (hlater : f.atTitle = false)
    (htitle : f.title? = .ok title) (ht : title ≠ some t) (hu : title ≠ some u) :
    f.typeForRead raw = .ok u ↔ u.Takes (f.decode raw) ∧ (∃ e, f.decode raw t = .error e) ∧
      ∀ w ∈ front, title ≠ some w → w.PassedOver (f.decode raw) := by
  rw [typeForRead_later hlater]
  constructor
  · rintro ⟨title', r, htitle', hselect⟩
    obtain rfl := Except.ok.inj (htitle'.symm.trans htitle)
    obtain ⟨hdecode, haccepts, hrest⟩ := (h.selectForRead_iff (title?_mem htitle) ht hu).1 hselect
    exact ⟨⟨r, hdecode, haccepts⟩, hrest⟩
  · rintro ⟨⟨r, hdecode, haccepts⟩, hrest⟩
    exact ⟨title, r, htitle,
      (h.selectForRead_iff (title?_mem htitle) ht hu).2 ⟨hdecode, haccepts, hrest⟩⟩

theorem selectsBehind (h : f.schema.Behind front t u back) (store : Store) :
    f.SelectsBehind store front t u := by
  constructor
  case read =>
    intro r hread hname
    obtain ⟨raw, w, decoded, htype, hdecode, rfl⟩ := read_typeForRead hread
    have hsame : w.name = u.name := Option.some.inj ((decode_typeName hdecode).symm.trans hname)
    obtain rfl := h.namesApart.eq_of_sameName (typeForRead_mem htype) h.mem
      (hsame ▸ Text.sameName_refl _)
    exact ⟨raw, decoded, htype, hdecode, rfl⟩
  case typeForRead =>
    intro raw htype
    cases hfirst : f.atTitle with
    | true =>
      rw [Formatter.typeForRead, if_pos hfirst] at htype
      exact .inl (title?_of_titleType hfirst htype)
    | false =>
      obtain ⟨title, r, htitle, hselect⟩ := (typeForRead_later hfirst).1 htype
      by_cases ht : title = some t
      · exact .inl (ht ▸ htitle)
      · have hmem := (Schema.selectForRead_ok hselect).1
        have hu := ((Schema.mem_candidates h.namesApart (title?_mem htitle)).1 hmem).2
        obtain ⟨-, hrefused, -⟩ := (typeForRead_iff h hfirst htitle ht hu).1 htype
        exact .inr ⟨rfl, hrefused⟩
  case passedOver => exact fun raw title => typeForRead_iff h
  case write => exact fun explicit r => write_typeForWrite
  case typeForWrite =>
    intro r hname htype
    obtain ⟨title, htitle, ⟨howed, hu⟩ | ⟨hlater, hselect⟩⟩ := typeForWrite_ok htype
    · rw [howed, htitle, hu]
      rfl
    · rw [hlater, htitle]
      by_contra hother
      have ht : title ≠ some t := fun ht => hother (ht ▸ rfl)
      have hmem := Schema.selectForWrite_candidate hname hselect
      have hu := ((Schema.mem_candidates h.namesApart (title?_mem htitle)).1 hmem).2
      exact h.selectForWrite_ne (title?_mem htitle) ht hu hname hselect

end Formatter

-- ------------------------------------------------------------------
-- Types that are warned of
-- ------------------------------------------------------------------

namespace Tool.CheckLayout

open Formatter (Raw)

theorem performAll_schema {schema : Schema} {defaults : Defaults} {opened : Formatter}
    (hopen : Formatter.ofSchema schema defaults = .ok opened) (store : Store)
    (requests : List Request) :
    (requests.foldl Session.perform { formatter := opened, store }).formatter.schema = schema :=
  (Session.performAll_openedAs { formatter := opened, store } requests).schema.trans
    (Formatter.ofSchema_opened hopen).1

theorem behind_of_mem_shadowing {ctx : LinkContext} {text : String} {source : Option String}
    {schema : Schema} {t u : RecordType} {front back : List RecordType}
    (hcompile : Schema.compile ctx text source = .ok schema) (ht : t ∈ shadowing schema)
    (htypes : schema.recordTypes = front ++ u :: back) (hfront : t ∈ front) :
    schema.Behind front t u back := by
  unfold shadowing at ht
  split at ht
  next => cases ht
  next hclassifier =>
    have hconditions := (List.mem_filter.1 ht).2
    exact ⟨by simpa using hclassifier, htypes, hfront, by simpa using hconditions,
      recordTypes_namesApart hcompile⟩

/-- The tool warns that the types behind `t` are never selected. Whatever is requested of a
formatter that was opened, it selects a type `u` behind `t` only where one of the two is the title,
or on reading data that cannot be read as `t`. -/
theorem selectsBehind_of_shadowing {ctx : LinkContext} {text : String} {source : Option String}
    {schema : Schema} {defaults : Defaults} {opened : Formatter}
    (hcompile : Schema.compile ctx text source = .ok schema)
    (hopen : Formatter.ofSchema schema defaults = .ok opened) (store : Store)
    (requests : List Request) {t u : RecordType} {front back : List RecordType}
    (ht : t ∈ shadowing schema) (htypes : schema.recordTypes = front ++ u :: back)
    (hfront : t ∈ front) :
    let s : Session := requests.foldl .perform { formatter := opened, store }
    s.formatter.schema = schema ∧ s.formatter.SelectsBehind s.store front t u := by
  intro s
  have hschema : s.formatter.schema = schema := performAll_schema hopen store requests
  have hbehind : s.formatter.schema.Behind front t u back := by
    rw [hschema]
    exact behind_of_mem_shadowing hcompile ht htypes hfront
  exact ⟨hschema, Formatter.selectsBehind hbehind s.store⟩

def digitLayout : String :=
  "file-type: Fixed\ntext-encoding: \"US-ASCII\"\nrecord-length: 1\n" ++
  "[Digit]\n1 a N(1)\n[Letter]\n1 a X(1)\n"

def titledLayout (first second : String) : String :=
  "file-type: Variable\ntext-encoding: \"US-ASCII\"\nfield-separator: \",\"\n" ++
  "record-separator: \"\\n\"\nrequires-title: true\n" ++
  "[" ++ first ++ "]\n1 a X\n[" ++ second ++ "]\n1 a X\n"

def titleName (f : Formatter) : Option String :=
  f.title?.toOption.join.map (·.name)

structure Outlook where
  classified : Bool
  types : List (String × Bool)
  atTitle : Bool
  title : Option String
  read : Option String
  written : Option String
  deriving DecidableEq

def outlook (f : Formatter) : Outlook where
  classified := f.schema.classifier.isSome
  types := f.schema.recordTypes.map fun t => (t.name, t.predicates.isEmpty)
  atTitle := f.atTitle
  title := titleName f
  read := f.read.1.toOption.join.bind (·.typeName)
  written := (f.typeForWrite none (untyped "x")).toOption.map (·.name)

def outlook? (layout : String) (requests : List Request) : Option Outlook :=
  (Schema.compile {} layout none).toOption.bind fun schema =>
    (Formatter.ofSchema schema {}).toOption.map fun opened =>
      outlook (requests.foldl Session.perform { formatter := opened }).formatter

/-- A layout of two types, of which the tool warns that the second is never selected. -/
theorem outlook?_eq_some {layout : String} {requests : List Request} {o : Outlook}
    {first second : String} (h : outlook? layout requests = some o)
    (hclassified : o.classified = false) (htypes : o.types = [(first, true), (second, true)]) :
    ∃ schema opened t u, Schema.compile {} layout none = .ok schema ∧
      Formatter.ofSchema schema {} = .ok opened ∧ t ∈ shadowing schema ∧
      schema.recordTypes = [t, u] ∧ t.name = first ∧ u.name = second ∧
      outlook (requests.foldl Session.perform { formatter := opened }).formatter = o := by
  obtain ⟨schema, hschema, h⟩ := Option.bind_eq_some_iff.1 h
  obtain ⟨opened, hopen, rfl⟩ := Option.map_eq_some_iff.1 h
  rw [toOption_eq_some] at hschema hopen
  simp only [outlook, performAll_schema hopen] at hclassified htypes
  obtain ⟨t, _, htypes, ht, hrest⟩ := List.map_eq_cons_iff.1 htypes
  obtain ⟨u, _, rfl, hu, hnil⟩ := List.map_eq_cons_iff.1 hrest
  obtain rfl := List.map_eq_nil_iff.1 hnil
  obtain ⟨htname, hconditions⟩ := Prod.mk.inj ht
  obtain ⟨huname, -⟩ := Prod.mk.inj hu
  have hwarned : t ∈ shadowing schema := by
    simp [shadowing, hclassified, htypes, hconditions]
  exact ⟨schema, opened, t, u, hschema, hopen, hwarned, htypes, htname, huname, rfl⟩

/-- After some requests, data is found to be of the second type of a layout, though the tool warns
that nothing is selected after the first. -/
structure FindsSecond (layout : String) (requests : List Request) (f : Formatter) (raw : Raw)
    (t u : RecordType) : Prop where
  compiled : Schema.compile {} layout none = .ok f.schema
  opened : ∃ opened, Formatter.ofSchema f.schema {} = .ok opened ∧
    (requests.foldl Session.perform { formatter := opened }).formatter = f
  warned : t ∈ shadowing f.schema
  types : f.schema.recordTypes = [t, u]
  found : f.typeForRead raw = .ok u

/-- A letter is no digit. Lines are read and written behind a title that comes no more. A title
comes first though it is declared last. -/
theorem selectsBehind_of_shadowing_three :
    (∃ f raw t u e, FindsSecond digitLayout [.start, .setInput (.ofBytes [0x78])] f raw t u ∧
      titleName f = none ∧ f.decode raw t = .error e) ∧
    (∃ f raw t u, FindsSecond (titledLayout "Title" "Data")
        [.start, .setOutput {}, .write none (untyped "x"),
          .setInput (.ofBytes [0x78, 0x0A, 0x79]), .read] f raw t u ∧
      titleName f = some t.name ∧
      (f.typeForWrite none (untyped "x")).toOption.map (·.name) = some u.name) ∧
    ∃ f raw t u, FindsSecond (titledLayout "Data" "Title")
        [.start, .setInput (.ofBytes [0x78])] f raw t u ∧ f.title? = .ok (some u) := by
  have hfinds (layout : String) (requests : List Request) (o : Outlook) (first second : String)
      (h : outlook? layout requests = some o) (hclassified : o.classified = false)
      (htypes : o.types = [(first, true), (second, true)]) (hread : o.read = some second) :
      ∃ f raw t u, FindsSecond layout requests f raw t u ∧ t.name = first ∧ u.name = second ∧
        outlook f = o ∧ (f.title? = .ok (some (bif f.atTitle then u else t)) ∨
          f.atTitle = false ∧ ∃ e, f.decode raw t = .error e) := by
    obtain ⟨schema, opened, t, u, hschema, hopen, hwarned, hboth, htname, huname, rfl⟩ :=
      outlook?_eq_some h hclassified htypes
    have hstands : schema.recordTypes = [t] ++ u :: [] := hboth
    obtain ⟨hafter, hselects⟩ :=
      selectsBehind_of_shadowing hschema hopen {} requests hwarned hstands List.mem_cons_self
    obtain ⟨r, hr, hname⟩ := Option.bind_eq_some_iff.1 hread
    rw [Option.join_eq_some_iff, toOption_eq_some] at hr
    obtain ⟨raw, -, hfound, -⟩ := hselects.read r hr (hname.trans (congrArg some huname.symm))
    refine ⟨_, raw, t, u, ⟨?_, ⟨opened, ?_, rfl⟩, ?_, ?_, hfound⟩, htname, huname, rfl,
      hselects.typeForRead raw hfound⟩
    all_goals rwa [hafter]
  refine ⟨?_, ?_, ?_⟩
  · obtain ⟨f, raw, t, u, hsecond, -, -, hseen, h | ⟨-, e, he⟩⟩ :=
      hfinds digitLayout [.start, .setInput (.ofBytes [0x78])]
        ⟨false, [("Digit", true), ("Letter", true)], false, none, some "Letter", some "Digit"⟩
        "Digit" "Letter" (by decide +kernel) rfl rfl rfl
    all_goals have htitle : titleName f = none := congrArg Outlook.title hseen
    · rw [titleName, h] at htitle
      cases htitle
    · exact ⟨f, raw, t, u, e, hsecond, htitle, he⟩
  · obtain ⟨f, raw, t, u, hsecond, ht, hu, hseen, -⟩ :=
      hfinds (titledLayout "Title" "Data")
        [.start, .setOutput {}, .write none (untyped "x"),
          .setInput (.ofBytes [0x78, 0x0A, 0x79]), .read]
        ⟨false, [("Title", true), ("Data", true)], false, some "Title", some "Data", some "Data"⟩
        "Title" "Data" (by decide +kernel) rfl rfl rfl
    have htitle : titleName f = some "Title" := congrArg Outlook.title hseen
    have hwritten := congrArg Outlook.written hseen
    exact ⟨f, raw, t, u, hsecond, ht ▸ htitle, hu ▸ hwritten⟩
  · obtain ⟨f, raw, t, u, hsecond, -, -, hseen, h | ⟨hlater, -⟩⟩ :=
      hfinds (titledLayout "Data" "Title") [.start, .setInput (.ofBytes [0x78])]
        ⟨false, [("Data", true), ("Title", true)], true, some "Title", some "Title", some "Title"⟩
        "Data" "Title" (by decide +kernel) rfl rfl rfl
    all_goals have hfirst : f.atTitle = true := congrArg Outlook.atTitle hseen
    · exact ⟨f, raw, t, u, hsecond, by rwa [hfirst] at h⟩
    · rw [hfirst] at hlater
      cases hlater

end Tool.CheckLayout
end Flatfile
