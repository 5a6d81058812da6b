import Flatfile.Proofs.Lookup
import Flatfile.Store.Writer

/-!
# What an output receives

A target that takes everything receives the bytes that are written to it in order. A writer keeps
some of them back, but loses none and changes no order: what the target has received and what is
kept back are together what was written (`Sent`).
-/

namespace Flatfile

-- ------------------------------------------------------------------
-- Targets
-- ------------------------------------------------------------------

def Target.origin : Target → Target
  | .file place _ => .file place 0
  | .sink number => .sink number

theorem Files.content?_put (files : Files) (place : Place) (bytes : List UInt8) :
    (files.put place bytes).content? place = some bytes := by
  simp [put, content?]

theorem Files.content?_create {files files' : Files} {path : String} {place : Place}
    (h : files.create path = .ok (place, files')) : files'.content? place = some [] := by
  simp only [create] at h
  split at h
  · obtain ⟨rfl, rfl⟩ := Prod.mk.inj (Except.ok.inj h)
    exact content?_put files _ []
  · obtain ⟨rfl, rfl⟩ := Prod.mk.inj (Except.ok.inj h)
    exact content?_put files _ []
  · simp at h
  · simp at h

theorem Files.content?_put_of_ne {files : Files} {place other : Place} (h : other ≠ place)
    (bytes : List UInt8) : (files.put place bytes).content? other = files.content? other := by
  rw [content?, content?, put, List.lookup_cons, beq_false_of_ne h]
  exact lookup_filter_of_ne h

theorem Files.content?_writeAt {files : Files} {place : Place} {old : List UInt8}
    (h : files.content? place = some old) (bytes : List UInt8) :
    (files.writeAt place old.length bytes).content? place = some (old ++ bytes) := by
  rw [writeAt, content?_put, h]
  simp

namespace Store

variable {store : Store} {target : Target} {bytes : List UInt8}

def received? (store : Store) : Target → Option (List UInt8)
  | .file place _ => store.files.content? place
  | .sink number => store.sinks[number]?.map (·.received)

/-- The target takes everything and has received these bytes. A file is written behind its last
byte. -/
def Accepts (store : Store) (target : Target) (bytes : List UInt8) : Prop :=
  match target with
  | .file place offset => store.files.content? place = some bytes ∧ offset = bytes.length
  | .sink number =>
    ∃ sink, store.sinks[number]? = some sink ∧ sink.fault = none ∧ sink.received = bytes

theorem Accepts.received? (h : store.Accepts target bytes) :
    store.received? target.origin = some bytes := by
  cases target with
  | file place offset => exact h.1
  | sink number =>
    obtain ⟨sink, hsink, -, rfl⟩ := h
    simp [Store.received?, Target.origin, hsink]

theorem Accepts.deliver (h : store.Accepts target bytes) (more : List UInt8) :
    ∃ target' store', store.deliver target more = .ok (target', store') ∧
      store'.Accepts target' (bytes ++ more) ∧ target'.origin = target.origin := by
  cases target with
  | file place offset =>
    obtain ⟨hcontent, rfl⟩ := h
    refine ⟨_, _, rfl, ⟨Files.content?_writeAt hcontent more, ?_⟩, rfl⟩
    rw [List.length_append]
  | sink number =>
    obtain ⟨sink, hsink, hfault, rfl⟩ := h
    obtain ⟨hlt, -⟩ := List.getElem?_eq_some_iff.1 hsink
    let sink' : Sink := { sink with received := sink.received ++ more }
    refine ⟨.sink number, { store with sinks := store.sinks.set number sink' }, ?_, ?_, rfl⟩
    · simp only [Store.deliver, hsink, hfault, sink']
    · exact ⟨sink', by simp [hlt], hfault, rfl⟩

theorem addSink_accepts (store : Store) :
    (store.addSink {}).2.Accepts (store.addSink {}).1 [] :=
  ⟨{}, by simp [addSink], rfl, rfl⟩

def SameElsewhere (origin : Target) (store store' : Store) : Prop :=
  ∀ place, Target.file place 0 ≠ origin → store'.files.content? place = store.files.content? place

theorem SameElsewhere.refl (origin : Target) (store : Store) : SameElsewhere origin store store :=
  fun _ _ => rfl

theorem SameElsewhere.trans {origin : Target} {store' store'' : Store}
    (h : SameElsewhere origin store store') (h' : SameElsewhere origin store' store'') :
    SameElsewhere origin store store'' :=
  fun place hplace => (h' place hplace).trans (h place hplace)

theorem deliver_confined {target' : Target} {store' : Store}
    (h : store.deliver target bytes = .ok (target', store')) :
    target'.origin = target.origin ∧ SameElsewhere target.origin store store' := by
  cases target with
  | file place offset =>
    obtain ⟨rfl, rfl⟩ := Prod.mk.inj (Except.ok.inj h)
    refine ⟨rfl, fun other hother => Files.content?_put_of_ne ?_ _⟩
    rintro rfl
    exact hother rfl
  | sink number =>
    simp only [Store.deliver] at h
    split at h
    · split at h
      · simp at h
      · obtain ⟨rfl, rfl⟩ := Prod.mk.inj (Except.ok.inj h)
        exact ⟨rfl, .refl _ _⟩
    · simp at h

end Store

-- ------------------------------------------------------------------
-- Writers
-- ------------------------------------------------------------------

namespace Writer

variable {w : Writer} {store : Store} {bytes : List UInt8}

/-- What the target has received and what the writer keeps back are together these bytes. -/
def Sent (w : Writer) (store : Store) (bytes : List UInt8) : Prop :=
  ∃ front, store.Accepts w.target front ∧ front ++ w.pending = bytes

theorem sent_of_accepts {target : Target} (h : store.Accepts target bytes) :
    ({ target } : Writer).Sent store bytes :=
  ⟨bytes, h, List.append_nil bytes⟩

theorem Sent.flush (h : w.Sent store bytes) :
    ∃ w' store', w.flush store = (.ok (), w', store') ∧ w'.Sent store' bytes ∧ w'.pending = [] ∧
      w'.target.origin = w.target.origin := by
  obtain ⟨front, haccepts, rfl⟩ := h
  by_cases hnil : w.pending = []
  · exact ⟨w, store, by simp [Writer.flush, hnil], ⟨front, haccepts, rfl⟩, hnil, rfl⟩
  · obtain ⟨target, store', hdeliver, haccepts', horigin⟩ := haccepts.deliver w.pending
    exact ⟨{ target }, store', by simp [Writer.flush, hnil, hdeliver],
      sent_of_accepts haccepts', rfl, horigin⟩

theorem Sent.add (h : w.Sent store bytes) {more : List UInt8}
    (hfits : w.pending = [] ∨ more.length < capacity) :
    ∃ w' store', w.add store more = (.ok (), w', store') ∧ w'.Sent store' (bytes ++ more) ∧
      w'.target.origin = w.target.origin := by
  obtain ⟨front, haccepts, rfl⟩ := h
  by_cases hshort : more.length < capacity
  · exact ⟨_, store, if_pos hshort, ⟨front, haccepts, (List.append_assoc ..).symm⟩, rfl⟩
  · have hnil := hfits.resolve_right hshort
    obtain ⟨target, store', hdeliver, haccepts', horigin⟩ := haccepts.deliver more
    refine ⟨{ w with target }, store', by simp [Writer.add, hshort, hdeliver], ?_, horigin⟩
    exact ⟨front ++ more, haccepts', by simp [hnil]⟩

theorem Sent.write (h : w.Sent store bytes) (more : List UInt8) :
    ∃ w' store', w.write store more = (.ok (), w', store') ∧ w'.Sent store' (bytes ++ more) ∧
      w'.target.origin = w.target.origin := by
  by_cases hfull : capacity - w.pending.length < more.length
  · obtain ⟨w₁, store₁, hflush, hsent, hnil, horigin₁⟩ := h.flush
    have hfits : w₁.pending = [] ∨ more.length < capacity := .inl hnil
    obtain ⟨w', store', hadd, hsent', horigin⟩ := hsent.add hfits
    refine ⟨w', store', ?_, hsent', horigin.trans horigin₁⟩
    simp only [Writer.write, hfull, if_true, hflush, hadd]
  · have hfits : w.pending = [] ∨ more.length < capacity := by
      rw [← List.length_eq_zero_iff]
      simp only [capacity] at hfull ⊢
      omega
    obtain ⟨w', store', hadd, hsent', horigin⟩ := h.add hfits
    exact ⟨w', store', by simp only [Writer.write, hfull, if_false, hadd], hsent', horigin⟩

/-- Whatever was sent, the target has received once the writer is flushed. -/
theorem Sent.received? (h : w.Sent store bytes) :
    (w.flush store).2.2.received? w.target.origin = some bytes := by
  obtain ⟨w', store', hflush, ⟨front, haccepts, hfront⟩, hnil, horigin⟩ := h.flush
  rw [hnil, List.append_nil] at hfront
  rw [hflush, ← horigin]
  exact hfront ▸ haccepts.received?

/-- A writer has done something, and that only to its target. -/
structure Confined (w : Writer) (store : Store) (w' : Writer) (store' : Store) : Prop where
  origin : w'.target.origin = w.target.origin
  elsewhere : store.SameElsewhere w.target.origin store'

theorem Confined.refl (w : Writer) (store : Store) : Confined w store w store :=
  ⟨rfl, .refl _ _⟩

theorem Confined.trans {w' w'' : Writer} {store' store'' : Store}
    (h : Confined w store w' store') (h' : Confined w' store' w'' store'') :
    Confined w store w'' store'' :=
  ⟨h'.origin.trans h.origin, h.elsewhere.trans (h.origin ▸ h'.elsewhere)⟩

theorem flush_confined (w : Writer) (store : Store) :
    Confined w store (w.flush store).2.1 (w.flush store).2.2 := by
  simp only [flush]
  split
  · exact .refl w store
  · split
    · rename_i hdeliver
      obtain ⟨horigin, helsewhere⟩ := Store.deliver_confined hdeliver
      exact ⟨horigin, helsewhere⟩
    · exact .refl w store

theorem add_confined (w : Writer) (store : Store) (more : List UInt8) :
    Confined w store (w.add store more).2.1 (w.add store more).2.2 := by
  simp only [add]
  split
  · exact ⟨rfl, .refl _ _⟩
  · split
    · rename_i hdeliver
      obtain ⟨horigin, helsewhere⟩ := Store.deliver_confined hdeliver
      exact ⟨horigin, helsewhere⟩
    · exact .refl w store

theorem write_confined (w : Writer) (store : Store) (more : List UInt8) :
    Confined w store (w.write store more).2.1 (w.write store more).2.2 := by
  have hflush := w.flush_confined store
  simp only [write]
  split
  · cases hflushed : w.flush store with
    | mk done rest =>
      rw [hflushed] at hflush
      cases done with
      | error fault => exact hflush
      | ok => exact hflush.trans (rest.1.add_confined rest.2 more)
  · exact w.add_confined store more

end Writer
end Flatfile
