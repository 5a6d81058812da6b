import Flatfile.Proofs.Lookup
import Flatfile.Proofs.Outcome
import Flatfile.Schema.Cache
import Mathlib.Data.Finset.Card
import Mathlib.Data.List.DropRight

/-!
# What a cache of schemas gives

What a request for a schema is given is a matter of what was asked of the cache before: it is the
schema that the first successful request for the place was given since the place was last dropped
(`firstGiven`), whatever has become of the file, and whatever the request would link it with. Where
there is none, the file is compiled as it is then, however often that has failed (`run_faithful`).

A path that leads nowhere is dropped as it is spelled. A schema is therefore left from before an
invalidation if the path is relative, or goes up, and its file was missing at the time
(`given_after_invalidate`).
-/

namespace Flatfile.SchemaCache

-- ------------------------------------------------------------------
-- Logs
-- ------------------------------------------------------------------

inductive Request where
  | get (ctx : LinkContext) (path : String)
  | invalidate (path : String)
  | clear

inductive Event where
  | got (files : Files) (ctx : LinkContext) (path : String) (answer : Except FormatError Compiled)
  | invalidated (files : Files) (path : String)
  | cleared

def ask (cache : SchemaCache) (files : Files) : Request → Event × SchemaCache
  | .get ctx path =>
    let (answer, cache) := cache.get files ctx path
    (.got files ctx path answer, cache)
  | .invalidate path => (.invalidated files path, (cache.invalidate files path).2)
  | .clear => (.cleared, cache.clear)

def run : List (Files × Request) → SchemaCache → List Event × SchemaCache
  | [], cache => ([], cache)
  | (files, request) :: requests, cache =>
    let (event, cache) := cache.ask files request
    let (log, cache) := run requests cache
    (event :: log, cache)

/-- The place that is dropped for a path: where the path leads, or, if it leads nowhere, the place
that it spells. -/
def dropped? (files : Files) (path : String) : Option Place :=
  (files.placeOf path).toOption.or (spelledPlace? path)

namespace Event

def drops (place : Place) : Event → Bool
  | got .. => false
  | invalidated files path => dropped? files path == some place
  | cleared => true

def gives? (place : Place) : Event → Option Compiled
  | got files _ path answer =>
    if (files.placeOf path).toOption = some place then answer.toOption else none
  | invalidated .. | cleared => none

end Event

def sinceDropped (place : Place) (log : List Event) : List Event :=
  log.rtakeWhile (!·.drops place)

/-- What the first successful request for a place was given since the place was last dropped. -/
def firstGiven (place : Place) (log : List Event) : Option Compiled :=
  (sinceDropped place log).findSome? (·.gives? place)

def NewTo (log : List Event) (c : Compiled) : Prop :=
  ∀ files ctx path old, .got files ctx path (.ok old) ∈ log → old.number ≠ c.number

def Event.Explained (before : List Event) : Event → Prop
  | .got files ctx path answer =>
    match files.placeOf path with
    | .error fault => answer = .error (.io path fault)
    | .ok place =>
      match firstGiven place before with
      | some compiled => answer = .ok compiled
      | none =>
        answer.map (·.schema) = Schema.ofFile files ctx (files.fullName place) ∧
          ∀ c, answer = .ok c → NewTo before c
  | .invalidated .. | .cleared => True

/-- How a schema came to be at hand: it was compiled for the first request after the place was
dropped, and given to it. -/
def CompiledFor (place : Place) (log : List Event) (c : Compiled) : Prop :=
  ∃ before files ctx path after, log = before ++ .got files ctx path (.ok c) :: after ∧
    files.placeOf path = .ok place ∧ firstGiven place before = none ∧
    (∀ event ∈ after, event.drops place = false) ∧
    Schema.ofFile files ctx (files.fullName place) = .ok c.schema

variable {cache : SchemaCache} {files : Files} {ctx : LinkContext} {path : String}
  {place other : Place} {log before after : List Event} {event : Event} {c : Compiled}

theorem firstGiven_concat (place : Place) (log : List Event) (event : Event) :
    firstGiven place (log ++ [event]) =
      if event.drops place then none else (firstGiven place log).or (event.gives? place) := by
  rw [firstGiven, sinceDropped, List.rtakeWhile_concat]
  cases event.drops place with
  | true => rfl
  | false =>
    simp only [Bool.not_false, if_true, Bool.false_eq_true, if_false, List.findSome?_append]
    cases hgives : event.gives? place <;> simp [firstGiven, sinceDropped, hgives]

theorem firstGiven_append (place : Place) (before after : List Event) :
    firstGiven place (before ++ after) =
      if after.any (·.drops place) then firstGiven place after
      else (firstGiven place before).or (firstGiven place after) := by
  induction after using List.reverseRecOn with
  | nil =>
    rw [List.append_nil, List.any_nil, if_neg (by decide), firstGiven.eq_1 place [], sinceDropped,
      List.rtakeWhile_nil, List.findSome?_nil, Option.or_none]
  | append_singleton after event ih =>
    rw [← List.append_assoc, firstGiven_concat, firstGiven_concat, ih, List.any_append]
    cases hdrops : event.drops place with
    | true => simp [hdrops]
    | false =>
      cases hany : after.any (·.drops place) with
      | true => simp [hdrops]
      | false => simp [hdrops, Option.or_assoc]

-- ------------------------------------------------------------------
-- Slots
-- ------------------------------------------------------------------

theorem find?_putSlot (cache : SchemaCache) (place : Place) (slot : Option Compiled) :
    (cache.putSlot place slot).find? place = slot := by
  simp [find?, putSlot]

theorem find?_putSlot_of_ne (h : other ≠ place) (slot : Option Compiled) :
    (cache.putSlot place slot).find? other = cache.find? other := by
  have hapart : (other == place) = false := beq_false_of_ne h
  rw [find?, putSlot, List.lookup_cons, hapart, lookup_filter_of_ne h, find?]

def Distinct (cache : SchemaCache) : Prop :=
  (cache.slots.map Prod.fst).Nodup

theorem Distinct.filter (h : cache.Distinct) (place : Place) :
    ((cache.slots.filter fun (other, _) => other ≠ place).map Prod.fst).Nodup :=
  h.sublist (List.filter_sublist.map Prod.fst)

theorem Distinct.putSlot (h : cache.Distinct) (place : Place) (slot : Option Compiled) :
    (cache.putSlot place slot).Distinct := by
  refine List.nodup_cons.2 ⟨?_, h.filter place⟩
  rw [mem_keys_iff, lookup_filter_self]
  decide

def places (cache : SchemaCache) : Finset Place :=
  ((cache.slots.filter fun (_, slot) => slot.isSome).map Prod.fst).toFinset

theorem Distinct.mem_places (h : cache.Distinct) :
    place ∈ cache.places ↔ (cache.find? place).isSome := by
  simp only [places, List.mem_toFinset, List.mem_map, List.mem_filter, Prod.exists, find?]
  constructor
  · rintro ⟨place, slot, ⟨hmem, hslot⟩, rfl⟩
    rw [(lookup_eq_some_iff_mem h).2 hmem]
    exact hslot
  · intro hfound
    obtain ⟨c, hc⟩ := Option.isSome_iff_exists.1 hfound
    rw [Option.join_eq_some_iff] at hc
    exact ⟨place, some c, ⟨(lookup_eq_some_iff_mem h).1 hc, rfl⟩, rfl⟩

theorem Distinct.size_eq (h : cache.Distinct) : cache.size = cache.places.card := by
  have hnodup : ((cache.slots.filter fun (_, slot) => slot.isSome).map Prod.fst).Nodup :=
    h.sublist (List.filter_sublist.map Prod.fst)
  rw [places, List.toFinset_card_of_nodup hnodup, List.length_map, ← List.countP_eq_length_filter,
    size]

theorem Distinct.size_congr {cache' : SchemaCache} (h : cache.Distinct) (h' : cache'.Distinct)
    (hfind : ∀ place, cache'.find? place = cache.find? place) : cache'.size = cache.size := by
  have hplaces : cache'.places = cache.places := by
    ext place
    rw [h'.mem_places, h.mem_places, hfind]
  rw [h'.size_eq, h.size_eq, hplaces]

-- ------------------------------------------------------------------
-- One request
-- ------------------------------------------------------------------

/-- What a cache and the events that led to it agree on. -/
structure Follows (log : List Event) (cache : SchemaCache) : Prop where
  distinct : cache.Distinct
  held : ∀ place, cache.find? place = firstGiven place log
  counted : ∀ files ctx path c, .got files ctx path (.ok c) ∈ log → c.number < cache.compilations
  explained : ∀ before event after, log = before ++ event :: after → event.Explained before
  origin : ∀ place c, firstGiven place log = some c → CompiledFor place log c

theorem CompiledFor.concat (h : CompiledFor place log c) (hdrops : event.drops place = false) :
    CompiledFor place (log ++ [event]) c := by
  obtain ⟨before, files, ctx, path, after, rfl, hplace, hfirst, hapart, hschema⟩ := h
  refine ⟨before, files, ctx, path, after ++ [event], by simp, hplace, hfirst, ?_, hschema⟩
  intro e he
  obtain he | he := List.mem_append.1 he
  · exact hapart e he
  · rw [List.mem_singleton.1 he]
    exact hdrops

theorem explained_concat
    (h : ∀ before e after, log = before ++ e :: after → Event.Explained before e)
    (hevent : event.Explained log) (e : Event)
    (hlog : log ++ [event] = before ++ e :: after) : e.Explained before := by
  induction after using List.reverseRecOn with
  | nil =>
    obtain ⟨rfl, he⟩ := List.append_inj' hlog rfl
    obtain rfl := List.singleton_inj.1 he
    exact hevent
  | append_singleton after last =>
    rw [← List.cons_append, ← List.append_assoc] at hlog
    exact h before e after (List.append_inj' hlog rfl).1

theorem Follows.unchanged {cache' : SchemaCache} (h : Follows log cache)
    (hdistinct : cache'.Distinct) (hfind : ∀ place, cache'.find? place = cache.find? place)
    (hcompilations : cache'.compilations = cache.compilations)
    (hdrops : ∀ place, event.drops place = false)
    (hgives : ∀ place c, event.gives? place = some c → cache.find? place = some c)
    (hgiven : ∀ files ctx path c, event = .got files ctx path (.ok c) → c.number < cache.compilations)
    (hevent : event.Explained log) : Follows (log ++ [event]) cache' := by
  have hfirst : ∀ place, firstGiven place (log ++ [event]) = firstGiven place log := by
    intro place
    rw [firstGiven_concat, hdrops, if_neg (by decide), ← h.held]
    cases hfound : cache.find? place with
    | some c => rfl
    | none =>
      cases hc : event.gives? place with
      | none => rfl
      | some c => rw [hgives place c hc] at hfound; cases hfound
  refine ⟨hdistinct, fun place => ?_, ?_, fun _ e _ => explained_concat h.explained hevent e, ?_⟩
  · rw [hfind, hfirst, h.held]
  · intro files ctx path c hmem
    rw [hcompilations]
    obtain hmem | hmem := List.mem_append.1 hmem
    · exact h.counted files ctx path c hmem
    · exact hgiven files ctx path c (List.mem_singleton.1 hmem).symm
  · intro place c hc
    rw [hfirst] at hc
    exact (h.origin place c hc).concat (hdrops place)

theorem Event.gives?_of_placeOf (hplace : files.placeOf path = .ok place)
    (answer : Except FormatError Compiled) :
    Event.gives? other (.got files ctx path answer) =
      if other = place then answer.toOption else none := by
  simp [gives?, hplace, Except.toOption, eq_comm]

theorem get_refused {e : FormatError} (hdistinct : cache.Distinct)
    (h : (cache.get files ctx path).1 = .error e) :
    (cache.get files ctx path).2.Distinct ∧
      (∀ place, (cache.get files ctx path).2.find? place = cache.find? place) ∧
      (cache.get files ctx path).2.compilations = cache.compilations := by
  cases hplace : files.placeOf path with
  | error fault =>
    have hcache : (cache.get files ctx path).2 = cache := by simp only [get, hplace]
    rw [hcache]
    exact ⟨hdistinct, fun _ => rfl, rfl⟩
  | ok place =>
    cases hfound : cache.find? place with
    | some c =>
      simp only [get, hplace, hfound] at h
      cases h
    | none =>
      cases hschema : Schema.ofFile files ctx (files.fullName place) with
      | ok schema =>
        simp only [get, hplace, hfound, hschema] at h
        cases h
      | error fault =>
        simp only [get, hplace, hfound, hschema]
        refine ⟨hdistinct.putSlot place none, fun other => ?_, rfl⟩
        by_cases hother : other = place
        · rw [hother, find?_putSlot, hfound]
        · exact find?_putSlot_of_ne hother none

theorem Follows.get_refused {e : FormatError} (h : Follows log cache)
    (hget : (cache.get files ctx path).1 = .error e)
    (hevent : Event.Explained log (.got files ctx path (.error e))) :
    Follows (log ++ [.got files ctx path (.error e)]) (cache.get files ctx path).2 := by
  obtain ⟨hdistinct, hfind, hcompilations⟩ := SchemaCache.get_refused h.distinct hget
  refine h.unchanged hdistinct hfind hcompilations (fun _ => rfl) ?_ ?_ hevent
  · intro place c hc
    rw [Event.gives?] at hc
    split at hc <;> cases hc
  · intro files ctx path c hc
    cases hc

theorem Follows.compiled {schema : Schema} (h : Follows log cache)
    (hplace : files.placeOf path = .ok place) (hfound : cache.find? place = none)
    (hschema : Schema.ofFile files ctx (files.fullName place) = .ok schema) :
    Follows (log ++ [.got files ctx path (.ok ⟨cache.compilations, schema⟩)])
      { cache.putSlot place (some ⟨cache.compilations, schema⟩) with
        compilations := cache.compilations + 1 } := by
  have hnone : firstGiven place log = none := (h.held place).symm.trans hfound
  have hfirst : ∀ other, firstGiven other
      (log ++ [.got files ctx path (.ok ⟨cache.compilations, schema⟩)]) =
      if other = place then some ⟨cache.compilations, schema⟩ else firstGiven other log := by
    intro other
    rw [firstGiven_concat, Event.drops, if_neg (by decide), Event.gives?_of_placeOf hplace]
    split
    next hother => rw [hother, hnone, Option.none_or, Except.toOption]
    next => rw [Option.or_none]
  refine ⟨h.distinct.putSlot place _, fun other => ?_, ?_,
    fun _ e _ => explained_concat h.explained ?_ e, ?_⟩
  · rw [hfirst]
    split
    next hother =>
      rw [hother]
      exact find?_putSlot cache place _
    next hother => exact (find?_putSlot_of_ne hother _).trans (h.held other)
  · intro files' ctx' path' c hmem
    obtain hmem | hmem := List.mem_append.1 hmem
    · exact Nat.lt_succ_of_lt (h.counted files' ctx' path' c hmem)
    · cases List.mem_singleton.1 hmem
      exact Nat.lt_succ_self _
  · simp only [Event.Explained, hplace, hnone]
    refine ⟨hschema.symm, fun c hc => ?_⟩
    cases hc
    intro files' ctx' path' old hmem
    exact Nat.ne_of_lt (h.counted files' ctx' path' old hmem)
  · intro other c hc
    rw [hfirst] at hc
    split at hc
    next hother =>
      cases hc
      rw [hother]
      exact ⟨log, files, ctx, path, [], rfl, hplace, hnone, by simp, hschema⟩
    next => exact (h.origin other c hc).concat rfl

theorem Follows.get (h : Follows log cache) (files : Files) (ctx : LinkContext) (path : String) :
    Follows (log ++ [.got files ctx path (cache.get files ctx path).1])
      (cache.get files ctx path).2 := by
  cases hplace : files.placeOf path with
  | error fault =>
    have hget : (cache.get files ctx path).1 = .error (.io path fault) := by
      simp only [SchemaCache.get, hplace]
    rw [hget]
    exact h.get_refused hget (by simp only [Event.Explained, hplace])
  | ok place =>
    cases hfound : cache.find? place with
    | some c =>
      have hget : cache.get files ctx path = (.ok c, cache) := by
        simp only [SchemaCache.get, hplace, hfound]
      have hfirst := (h.held place).symm.trans hfound
      rw [hget]
      refine h.unchanged h.distinct (fun _ => rfl) rfl (fun _ => rfl) ?_ ?_ ?_
      · intro other c' hgives
        rw [Event.gives?_of_placeOf hplace] at hgives
        split at hgives
        next hother => rw [hother, hfound]; exact hgives
        next => cases hgives
      · intro files' ctx' path' c' hevent
        cases hevent
        obtain ⟨before, files', ctx', path', after, hlog, -⟩ := h.origin place c hfirst
        exact h.counted files' ctx' path' c (by rw [hlog]; simp)
      · simp only [Event.Explained, hplace, hfirst]
    | none =>
      have hfirst := (h.held place).symm.trans hfound
      cases hschema : Schema.ofFile files ctx (files.fullName place) with
      | error e =>
        have hget : (cache.get files ctx path).1 = .error e := by
          simp only [SchemaCache.get, hplace, hfound, hschema]
        rw [hget]
        refine h.get_refused hget ?_
        simp only [Event.Explained, hplace, hfirst]
        exact ⟨hschema.symm, fun c hc => by cases hc⟩
      | ok schema =>
        have hget : cache.get files ctx path = (.ok ⟨cache.compilations, schema⟩,
            { cache.putSlot place (some ⟨cache.compilations, schema⟩) with
              compilations := cache.compilations + 1 }) := by
          simp only [SchemaCache.get, hplace, hfound, hschema]
        rw [hget]
        exact h.compiled hplace hfound hschema

theorem Follows.dropping {cache' : SchemaCache} (h : Follows log cache)
    (hdistinct : cache'.Distinct)
    (hfind : ∀ place, cache'.find? place =
      if event.drops place then none else cache.find? place)
    (hcompilations : cache'.compilations = cache.compilations)
    (hgives : ∀ place, event.gives? place = none)
    (hgot : ∀ files ctx path answer, event ≠ .got files ctx path answer)
    (hevent : event.Explained log) : Follows (log ++ [event]) cache' := by
  have hfirst : ∀ place, firstGiven place (log ++ [event]) =
      if event.drops place then none else firstGiven place log := by
    intro place
    rw [firstGiven_concat, hgives, Option.or_none]
  refine ⟨hdistinct, fun place => ?_, ?_, fun _ e _ => explained_concat h.explained hevent e, ?_⟩
  · rw [hfind, hfirst, h.held]
  · intro files ctx path c hmem
    rw [hcompilations]
    obtain hmem | hmem := List.mem_append.1 hmem
    · exact h.counted files ctx path c hmem
    · exact absurd (List.mem_singleton.1 hmem).symm (hgot files ctx path (.ok c))
  · intro place c hc
    rw [hfirst] at hc
    split at hc
    next => cases hc
    next hkept => exact (h.origin place c hc).concat (by simpa using hkept)

theorem Follows.invalidate (h : Follows log cache) (files : Files) (path : String) :
    Follows (log ++ [.invalidated files path]) (cache.invalidate files path).2 := by
  have hdrops : ∀ place, Event.drops place (.invalidated files path) =
      (dropped? files path == some place) := fun _ => rfl
  rw [SchemaCache.invalidate, ← dropped?]
  cases hdropped : dropped? files path with
  | none =>
    refine h.dropping h.distinct (fun place => ?_) rfl (fun _ => rfl) (fun _ _ _ _ => nofun) trivial
    rw [hdrops, hdropped]
    rfl
  | some place =>
    refine h.dropping (h.distinct.filter place) (fun other => ?_) rfl (fun _ => rfl)
      (fun _ _ _ _ => nofun) trivial
    rw [hdrops, hdropped, find?]
    by_cases hother : other = place
    · rw [hother, lookup_filter_self]
      simp
    · rw [lookup_filter_of_ne hother, if_neg (by simpa using Ne.symm hother), find?]

theorem Follows.clear (h : Follows log cache) : Follows (log ++ [.cleared]) cache.clear := by
  refine h.dropping (by simp [Distinct, SchemaCache.clear]) (fun place => ?_) rfl (fun _ => rfl)
    (fun _ _ _ _ => nofun) trivial
  rfl

theorem Follows.ask (h : Follows log cache) (files : Files) (request : Request) :
    Follows (log ++ [(cache.ask files request).1]) (cache.ask files request).2 := by
  cases request with
  | get ctx path => exact h.get files ctx path
  | invalidate path => exact h.invalidate files path
  | clear => exact h.clear

theorem Follows.run (h : Follows log cache) (requests : List (Files × Request)) :
    Follows (log ++ (run requests cache).1) (run requests cache).2 := by
  induction requests generalizing log cache with
  | nil => rwa [SchemaCache.run, List.append_nil]
  | cons request requests ih =>
    obtain ⟨files, request⟩ := request
    have hnext := ih (h.ask files request)
    rwa [List.append_assoc] at hnext

theorem follows_empty : Follows [] {} where
  distinct := List.nodup_nil
  held _ := rfl
  counted _ _ _ _ hmem := absurd hmem List.not_mem_nil
  explained before event after hlog := by simp at hlog
  origin place c hc := by cases hc

theorem follows_run (requests : List (Files × Request)) :
    Follows (run requests {}).1 (run requests {}).2 := by
  simpa using follows_empty.run requests

theorem Distinct.get_refused_size {e : FormatError} (h : cache.Distinct)
    (hget : (cache.get files ctx path).1 = .error e) :
    (cache.get files ctx path).2.size = cache.size := by
  obtain ⟨hdistinct, hfind, -⟩ := SchemaCache.get_refused h hget
  exact h.size_congr hdistinct hfind

/-- What a cache does, in terms of what was asked of it and given. -/
structure Faithful (log : List Event) (cache : SchemaCache) : Prop where
  explained : ∀ before event after, log = before ++ event :: after → event.Explained before
  held : ∀ place, cache.find? place = firstGiven place log
  origin : ∀ place c, firstGiven place log = some c → CompiledFor place log c
  size : ∃ places : Finset Place,
    (∀ place, place ∈ places ↔ (firstGiven place log).isSome) ∧ cache.size = places.card
  refused : ∀ files ctx path e, (cache.get files ctx path).1 = .error e →
    (cache.get files ctx path).2.size = cache.size ∧
      ∀ place, (cache.get files ctx path).2.find? place = cache.find? place

theorem run_faithful (requests : List (Files × Request)) :
    Faithful (run requests {}).1 (run requests {}).2 := by
  have h := follows_run requests
  refine ⟨h.explained, h.held, h.origin, ?_, fun files ctx path e hget => ?_⟩
  · refine ⟨(run requests {}).2.places, fun place => ?_, h.distinct.size_eq⟩
    rw [h.distinct.mem_places, h.held]
  · exact ⟨h.distinct.get_refused_size hget, (SchemaCache.get_refused h.distinct hget).2.1⟩

-- ------------------------------------------------------------------
-- Where paths lead
-- ------------------------------------------------------------------

def settle (place : Place) : List String → Place
  | [] => place
  | name :: rest =>
    if name = "" ∨ name = "." then settle place rest
    else if name = ".." then settle place.dropLast rest
    else settle (place ++ [name]) rest

def nodePlace : Files.Node → Place
  | .file place | .directory place | .free place => place

theorem walk_settles {names : List String} {node : Files.Node}
    (h : files.walk place names = .ok node) : nodePlace node = settle place names := by
  induction names generalizing place with
  | nil =>
    cases h
    rfl
  | cons name rest ih =>
    unfold Files.walk at h
    unfold settle
    split at h
    next hdot => rw [if_pos hdot, ih h]
    next hdot =>
      rw [if_neg hdot]
      split at h
      next hup => rw [if_pos hup, ih h]
      next hup =>
        rw [if_neg hup]
        simp only at h
        split at h
        next => exact ih h
        next =>
          split at h
          next =>
            split at h
            next hrest =>
              cases h
              rw [hrest]
              rfl
            next => cases h
          next =>
            split at h
            next hrest =>
              cases h
              rw [hrest]
              rfl
            next => cases h

def startOf (files : Files) (path : String) : Place :=
  if path.toList.head? = some '/' then [] else files.current

theorem placeOf_settles (h : files.placeOf path = .ok place) :
    place = settle (startOf files path) (Files.parts path) := by
  have hwalk : ∀ node, files.find path = .ok node →
      nodePlace node = settle (startOf files path) (Files.parts path) := by
    intro node hnode
    rw [Files.find] at hnode
    split at hnode
    next => cases hnode
    next rest hslash =>
      rw [startOf, hslash, if_pos (by rfl)]
      exact walk_settles hnode
    next hempty hslash =>
      rw [startOf, if_neg ?_]
      · exact walk_settles hnode
      · intro hhead
        obtain ⟨rest, hrest⟩ := List.head?_eq_some_iff.1 hhead
        exact hslash rest hrest
  rw [Files.placeOf] at h
  split at h
  next other hfound =>
    cases h
    exact hwalk _ hfound
  next other hfound =>
    cases h
    exact hwalk _ hfound
  next => cases h
  next => cases h

theorem settle_of_plain {names : List String} (h : ".." ∉ names) :
    settle place names = place ++ names.filter fun name => name ≠ "" ∧ name ≠ "." := by
  induction names generalizing place with
  | nil => simp [settle]
  | cons name rest ih =>
    have hname : name ≠ ".." := fun hup => h (hup ▸ List.mem_cons_self)
    have hrest : ".." ∉ rest := fun hmem => h (List.mem_cons_of_mem _ hmem)
    unfold settle
    split
    next hdot =>
      rw [ih hrest, List.filter_cons_of_neg]
      simpa [← not_or] using hdot
    next hdot =>
      rw [ih hrest, List.filter_cons_of_pos, List.append_assoc, List.singleton_append]
      simpa [← not_or] using hdot

theorem not_mem_settle (h : ".." ∉ place) (names : List String) :
    ".." ∉ settle place names := by
  induction names generalizing place with
  | nil => exact h
  | cons name rest ih =>
    unfold settle
    split
    next => exact ih h
    next =>
      split
      next => exact ih fun hmem => h (List.mem_of_mem_dropLast hmem)
      next hup =>
        refine ih fun hmem => ?_
        obtain hmem | hmem := List.mem_append.1 hmem
        · exact h hmem
        · exact hup (List.mem_singleton.1 hmem).symm

/-- The path begins at the top and goes down only, so that it spells the place it leads to. -/
def SpelledFromTop (path : String) : Prop :=
  path.toList.head? = some '/' ∧ ".." ∉ Files.parts path

/-- The place that a path leads to is dropped for it if the path leads somewhere already when it is
dropped, or if it spells the place. -/
theorem dropped?_eq_some_iff {now : Files} (hcurrent : files.current = now.current)
    (hplace : now.placeOf path = .ok place) :
    dropped? files path = some place ↔
      (files.placeOf path).toOption.isSome ∨ SpelledFromTop path := by
  have hsettled := placeOf_settles hplace
  cases hfound : files.placeOf path with
  | ok earlier =>
    have hearlier := placeOf_settles hfound
    rw [startOf, hcurrent, ← startOf, ← hsettled] at hearlier
    simp [dropped?, hfound, hearlier, Except.toOption]
  | error fault =>
    have hdropped : dropped? files path = spelledPlace? path := by
      rw [dropped?, hfound]
      rfl
    rw [hdropped, spelledPlace?, SpelledFromTop]
    cases hpath : path.toList with
    | nil => simp [Except.toOption]
    | cons first rest =>
      by_cases hfirst : first = '/'
      · subst hfirst
        rw [startOf, hpath, if_pos (by rfl)] at hsettled
        have hspelled : (Files.parts path).filter (fun name => name ≠ "" ∧ name ≠ ".") = place ↔
            ".." ∉ Files.parts path := by
          constructor
          · intro hsame hmem
            have hgone := not_mem_settle (List.not_mem_nil : ".." ∉ ([] : Place)) (Files.parts path)
            refine hgone ?_
            rw [← hsettled, ← hsame]
            exact List.mem_filter.2 ⟨hmem, by decide⟩
          · intro hplain
            rw [hsettled, settle_of_plain hplain, List.nil_append]
        simpa [Except.toOption] using hspelled
      · simp [Except.toOption, hfirst]

-- ------------------------------------------------------------------
-- After an invalidation
-- ------------------------------------------------------------------

theorem NewTo.of_append (h : NewTo (before ++ after) c) : NewTo before c :=
  fun files ctx path old hmem => h files ctx path old (List.mem_append_left _ hmem)

theorem firstGiven_of_none (h : ∀ event ∈ log, event.gives? place = none) :
    firstGiven place log = none :=
  List.findSome?_eq_none_iff.2 fun event hmem => h event ((List.rtakeWhile_suffix _ _).subset hmem)

theorem firstGiven_append_of_renewed
    (h : firstGiven place before = none ∨ after.any (·.drops place)) :
    firstGiven place (before ++ after) = firstGiven place after := by
  rw [firstGiven_append]
  split
  next => rfl
  next hkept => rw [h.resolve_right hkept, Option.none_or]

theorem newTo_of_firstGiven
    (hexplained : ∀ b event a, before ++ after = b ++ event :: a → Event.Explained b event)
    (hrenewed : firstGiven place before = none ∨ after.any (·.drops place))
    (hc : firstGiven place after = some c) : NewTo before c := by
  -- The events are taken from the last one back, since that may drop the place.
  induction after using List.reverseRecOn with
  | nil => cases hc
  | append_singleton after event ih =>
    rw [firstGiven_concat] at hc
    split at hc
    next => cases hc
    next hdrops =>
      rw [List.any_append, List.any_cons, List.any_nil, Bool.eq_false_of_not_eq_true hdrops,
        Bool.or_false, Bool.or_false] at hrenewed
      cases hgiven : firstGiven place after with
      | some earlier =>
        rw [hgiven, Option.some_or] at hc
        refine ih (fun b e a hlog => ?_) hrenewed (hgiven.trans hc)
        exact hexplained b e (a ++ [event]) (by rw [← List.append_assoc, hlog]; simp)
      | none =>
        rw [hgiven, Option.none_or] at hc
        have hnone := (firstGiven_append_of_renewed hrenewed).trans hgiven
        have hevent := hexplained (before ++ after) event [] (by rw [List.append_assoc])
        cases event with
        | invalidated | cleared => cases hc
        | got files ctx path answer =>
          rw [Event.gives?] at hc
          split at hc
          next hplace =>
            simp only [Event.Explained, toOption_eq_some.1 hplace, hnone] at hevent
            exact (hevent.2 c (toOption_eq_some.1 hc)).of_append
          next => cases hc

/-- What was given was not given before, and is from the file as it is now unless it was asked for
in the meantime. -/
structure Renewed (before after : List Event) (now : Files) (ctx : LinkContext) (place : Place)
    (c : Compiled) : Prop where
  new : NewTo before c
  current : (∀ event ∈ after, event.gives? place = none) →
    Schema.ofFile now ctx (now.fullName place) = .ok c.schema

theorem renewed_of_dropped
    (hexplained : ∀ b event a, before ++ (after ++ [.got files ctx path (.ok c)]) =
      b ++ event :: a → Event.Explained b event)
    (hplace : files.placeOf path = .ok place)
    (hrenewed : firstGiven place before = none ∨ after.any (·.drops place)) :
    Renewed before after files ctx place c := by
  have hgot := hexplained (before ++ after) (.got files ctx path (.ok c)) []
    (by rw [List.append_assoc])
  have hsince := firstGiven_append_of_renewed hrenewed
  simp only [Event.Explained, hplace, hsince] at hgot
  constructor
  · refine newTo_of_firstGiven hexplained (?_ : firstGiven place before = none ∨ _) ?_
    · rw [List.any_append]
      exact hrenewed.imp_right fun hany => by rw [hany, Bool.true_or]
    · rw [firstGiven_concat, Event.drops, if_neg (by decide), Event.gives?_of_placeOf hplace,
        if_pos rfl]
      cases hfirst : firstGiven place after with
      | none => rfl
      | some earlier =>
        rw [hfirst] at hgot
        cases hgot
        rfl
  · intro hapart
    rw [firstGiven_of_none hapart] at hgot
    exact hgot.1.symm

theorem stale_of_kept
    (hgot : Event.Explained (before ++ after) (.got files ctx path (.ok c)))
    (hplace : files.placeOf path = .ok place) (hbefore : firstGiven place before ≠ none)
    (hkept : ¬ after.any (·.drops place)) : firstGiven place before = some c := by
  obtain ⟨earlier, hearlier⟩ := Option.ne_none_iff_exists'.1 hbefore
  simp only [Event.Explained, hplace, firstGiven_append, if_neg hkept, hearlier,
    Option.some_or] at hgot
  cases hgot
  exact hearlier

/-- No schema is left from before the path was invalidated: the path led somewhere then, or spells
the place, or no schema was at hand, or it was dropped later. -/
def NoneLeft (before after : List Event) (files : Files) (path : String) (place : Place) : Prop :=
  (files.placeOf path).toOption.isSome ∨ SpelledFromTop path ∨ firstGiven place before = none ∨
    ∃ event ∈ after, event.drops place

/-- A path is invalidated, and later a request for the place it then leads to is given a schema.
Where one is left from before, because the path led nowhere when it was invalidated and does not
spell the place, that is the old one. -/
theorem given_after_invalidate {requests : List (Files × Request)} {now : Files}
    (hlog : (run requests {}).1 =
      before ++ .invalidated files path :: (after ++ [.got now ctx path (.ok c)]))
    (hcurrent : files.current = now.current) (hplace : now.placeOf path = .ok place) :
    (NoneLeft before after files path place → Renewed before after now ctx place c) ∧
      (¬ NoneLeft before after files path place → firstGiven place before = some c) := by
  have h := (follows_run requests).explained
  rw [hlog, ← List.cons_append] at h
  have hleft : NoneLeft before after files path place ↔ firstGiven place before = none ∨
      (Event.invalidated files path :: after).any (·.drops place) := by
    rw [List.any_cons, Bool.or_eq_true, Event.drops, beq_iff_eq,
      dropped?_eq_some_iff hcurrent hplace, List.any_eq_true, NoneLeft]
    tauto
  rw [hleft]
  constructor
  · intro hrenewed
    obtain ⟨hnew, hcurrent⟩ := renewed_of_dropped h hplace hrenewed
    refine ⟨hnew, fun hapart => hcurrent fun event hmem => ?_⟩
    obtain rfl | hmem := List.mem_cons.1 hmem
    · rfl
    · exact hapart event hmem
  · intro hkept
    obtain ⟨hbefore, hkept⟩ := not_or.1 hkept
    have hgot := h (before ++ .invalidated files path :: after) (.got now ctx path (.ok c)) []
      (by rw [List.append_assoc])
    exact stale_of_kept hgot hplace hbefore hkept

def oneType (name : String) : String :=
  "file-type: Fixed\ntext-encoding: \"US-ASCII\"\nrecord-length: 3\n[" ++ name ++ "]\n1 a X(3)\n"

def noFile : Files :=
  { relativeNames := true }

def oneFile (text : String) : Files :=
  noFile.put ["a"] (Text.Utf8.encode text)

theorem parts_a : Files.parts "a" = ["a"] := by
  -- The path is cut by hand, since the cutting does not reduce.
  rw [Files.parts, String.splitOn, if_neg (by decide), String.splitOnAux, if_neg (by decide),
    if_neg (by decide), String.splitOnAux, if_pos (by decide)]
  decide

theorem noFile_placeOf : noFile.placeOf "a" = .error .notFound := by
  have hfind : noFile.find "a" = noFile.walk [] (Files.parts "a") := rfl
  rw [Files.placeOf, hfind, parts_a]
  rfl

theorem oneFile_find (text : String) : (oneFile text).find "a" = .ok (.file ["a"]) := by
  have hfind : (oneFile text).find "a" = (oneFile text).walk [] (Files.parts "a") := rfl
  rw [hfind, parts_a]
  rfl

theorem oneFile_placeOf (text : String) : (oneFile text).placeOf "a" = .ok ["a"] := by
  rw [Files.placeOf, oneFile_find]

theorem oneFile_compiles :
    ∃ schema, Schema.ofFile (oneFile (oneType "R")) {} "a" = .ok schema ∧
      schema.recordTypes.map (·.name) = ["R"] := by
  have htext : (oneFile (oneType "R")).readText "a" = .ok (oneType "R") := by
    rw [Files.readText, Files.read, oneFile_find]
    decide +kernel
  have hcompiles : (Schema.compile {} (oneType "R") (some "a")).toOption.any fun schema =>
      schema.recordTypes.map (·.name) = ["R"] := by decide +kernel
  obtain ⟨schema, hschema, htypes⟩ := (Option.any_eq_true _ _).1 hcompiles
  refine ⟨schema, ?_, of_decide_eq_true htypes⟩
  have hmapped := congrArg (Except.mapError FormatError.malformed) (toOption_eq_some.1 hschema)
  rw [Schema.ofFile, htext]
  exact hmapped

theorem given_after_invalidate_deleted :
    ∃ before after c,
      (run [(oneFile (oneType "R"), .get {} "a"), (noFile, .invalidate "a"),
          (oneFile (oneType "S"), .get {} "a")] {}).1 =
        before ++ .invalidated noFile "a" ::
          (after ++ [.got (oneFile (oneType "S")) {} "a" (.ok c)]) ∧
      firstGiven ["a"] before = some c ∧ c.schema.recordTypes.map (·.name) = ["R"] := by
  obtain ⟨schema, hschema, htypes⟩ := oneFile_compiles
  let held : SchemaCache := ⟨[(["a"], some ⟨0, schema⟩)], 1⟩
  have hget : get {} (oneFile (oneType "R")) {} "a" = (.ok ⟨0, schema⟩, held) := by
    have hnone : find? {} ["a"] = none := rfl
    have hname : (oneFile (oneType "R")).fullName ["a"] = "a" := by decide
    simp only [get, oneFile_placeOf, hnone, hname, hschema]
    rfl
  have hkept : held.invalidate noFile "a" = (false, held) := by
    rw [invalidate, noFile_placeOf]
    rfl
  have hstale : held.get (oneFile (oneType "S")) {} "a" = (.ok ⟨0, schema⟩, held) := by
    have hfound : held.find? ["a"] = some ⟨0, schema⟩ := rfl
    simp only [get, oneFile_placeOf, hfound]
  have hlog : (run [(oneFile (oneType "R"), .get {} "a"), (noFile, .invalidate "a"),
      (oneFile (oneType "S"), .get {} "a")] {}).1 =
        [.got (oneFile (oneType "R")) {} "a" (.ok ⟨0, schema⟩)] ++
          .invalidated noFile "a" ::
            ([] ++ [.got (oneFile (oneType "S")) {} "a" (.ok ⟨0, schema⟩)]) := by
    simp only [run, ask, hget, hkept, hstale]
    rfl
  have hfirst : firstGiven ["a"] [.got (oneFile (oneType "R")) {} "a" (.ok ⟨0, schema⟩)] =
      some ⟨0, schema⟩ := by
    refine (firstGiven_concat ["a"] [] _).trans ?_
    rw [Event.gives?_of_placeOf (oneFile_placeOf _)]
    rfl
  have hspelled : ¬ SpelledFromTop "a" := fun h => absurd h.1 (by decide)
  have hleft : ¬ NoneLeft [.got (oneFile (oneType "R")) {} "a" (.ok ⟨0, schema⟩)] [] noFile "a"
      ["a"] := by
    rw [NoneLeft, noFile_placeOf, hfirst]
    simp [hspelled, Except.toOption]
  exact ⟨_, _, _, hlog, (given_after_invalidate hlog rfl (oneFile_placeOf _)).2 hleft, htypes⟩

end Flatfile.SchemaCache
