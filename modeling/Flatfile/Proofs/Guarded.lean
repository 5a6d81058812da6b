import Flatfile.Outcome

/-!
# Operations within their ranges

Some operations make sense on a range only: a part of a list has to lie in the list, and what is
taken off a number must not be more than the number. Lists and natural numbers have an answer
everywhere, so that a step beyond the range goes unnoticed. A guarded computation has no answer
there. Where it gives the outcome of the plain computation (`Gives`), no operation was asked for
anything outside its range.
-/

namespace Flatfile

/-- An outcome, unless an operation left its range. -/
abbrev Guarded (ε α : Type) :=
  ExceptT ε Option α

namespace Guarded

variable {ε ε' α β : Type}

def outcome (y : Except ε α) : Guarded ε α :=
  ExceptT.mk (some y)

def within (range : Prop) [Decidable range] : Guarded ε Unit :=
  ExceptT.mk (if range then some (.ok ()) else none)

def mapError (f : ε → ε') (x : Guarded ε α) : Guarded ε' α :=
  ExceptT.mk (x.run.map (·.mapError f))

/-- An error counts as no answer. -/
def attempt (x : Guarded ε α) : Guarded ε' (Option α) :=
  ExceptT.mk (x.run.map fun y => .ok y.toOption)

-- ------------------------------------------------------------------
-- Operations
-- ------------------------------------------------------------------

def minus (n m : Nat) : Guarded ε Nat := do
  within (m ≤ n)
  pure (n - m)

def slice (xs : List α) (start stop : Nat) : Guarded ε (List α) := do
  within (start ≤ stop ∧ stop ≤ xs.length)
  pure ((xs.drop start).take (stop - start))

def item (xs : List α) (i : Nat) : Guarded ε α :=
  ExceptT.mk (xs[i]?.map .ok)

def steps (start stop width : Nat) : Guarded ε (List Nat) := do
  within (0 < width)
  pure ((List.range ((stop - start + (width - 1)) / width)).map fun k => start + k * width)

-- ------------------------------------------------------------------
-- What is given
-- ------------------------------------------------------------------

def Gives (x : Guarded ε α) (y : Except ε α) : Prop :=
  x.run = some y

variable {x : Guarded ε α} {y : Except ε α} {a : α} {n m start stop i : Nat} {xs : List α}

theorem gives_outcome (y : Except ε α) : (outcome y).Gives y :=
  rfl

theorem gives_pure (a : α) : (pure a : Guarded ε α).Gives (.ok a) :=
  rfl

theorem gives_throw (e : ε) : (throw e : Guarded ε α).Gives (.error e) :=
  rfl

theorem gives_within {range : Prop} [Decidable range] (h : range) :
    (within range : Guarded ε Unit).Gives (.ok ()) := by
  rw [Gives, within, ExceptT.run_mk, if_pos h]

theorem Gives.bind {f : α → Guarded ε β} {g : α → Except ε β} (hx : x.Gives y)
    (hf : ∀ a, y = .ok a → (f a).Gives (g a)) : (x >>= f).Gives (y >>= g) := by
  rw [Gives, ExceptT.run_bind, hx]
  cases y with
  | error e => rfl
  | ok a => exact hf a rfl

theorem Gives.bind_ok {f : α → Guarded ε β} {z : Except ε β} (hx : x.Gives (.ok a))
    (hf : (f a).Gives z) : (x >>= f).Gives z :=
  hx.bind (g := fun _ => z) fun _ h => Except.ok.inj h ▸ hf

theorem Gives.mapError (hx : x.Gives y) (f : ε → ε') :
    (Guarded.mapError f x).Gives (y.mapError f) := by
  rw [Gives, Guarded.mapError, ExceptT.run_mk, hx, Option.map_some]

theorem Gives.attempt (hx : x.Gives y) :
    (Guarded.attempt x : Guarded ε' (Option α)).Gives (.ok y.toOption) := by
  rw [Gives, Guarded.attempt, ExceptT.run_mk, hx, Option.map_some]

theorem gives_mapM {f : α → Guarded ε β} {g : α → Except ε β}
    (h : ∀ a ∈ xs, (f a).Gives (g a)) : (xs.mapM f).Gives (xs.mapM g) := by
  induction xs with
  | nil => rfl
  | cons a xs ih =>
    rw [List.mapM_cons, List.mapM_cons]
    refine (h a List.mem_cons_self).bind fun b _ => ?_
    exact (ih fun a ha => h a (List.mem_cons_of_mem _ ha)).bind fun bs _ => rfl

theorem gives_allM {p : α → Guarded ε Bool} {q : α → Bool}
    (h : ∀ a ∈ xs, (p a).Gives (.ok (q a))) : (xs.allM p).Gives (.ok (xs.all q)) := by
  induction xs with
  | nil => rfl
  | cons a xs ih =>
    rw [List.allM, List.all_cons]
    refine (h a List.mem_cons_self).bind_ok ?_
    cases q a with
    | true => exact ih fun a ha => h a (List.mem_cons_of_mem _ ha)
    | false => rfl

theorem gives_findM? {p : α → Guarded ε Bool} {q : α → Bool}
    (h : ∀ a ∈ xs, (p a).Gives (.ok (q a))) : (xs.findM? p).Gives (.ok (xs.find? q)) := by
  induction xs with
  | nil => rfl
  | cons a xs ih =>
    rw [List.findM?, List.find?_cons]
    refine (h a List.mem_cons_self).bind_ok ?_
    cases q a with
    | true => rfl
    | false => exact ih fun a ha => h a (List.mem_cons_of_mem _ ha)

theorem gives_findSomeM? {p : α → Guarded ε (Option β)} {q : α → Option β}
    (h : ∀ a ∈ xs, (p a).Gives (.ok (q a))) : (xs.findSomeM? p).Gives (.ok (xs.findSome? q)) := by
  induction xs with
  | nil => rfl
  | cons a xs ih =>
    rw [List.findSomeM?, List.findSome?_cons]
    refine (h a List.mem_cons_self).bind_ok ?_
    cases q a with
    | some b => rfl
    | none => exact ih fun a ha => h a (List.mem_cons_of_mem _ ha)

theorem gives_minus (h : m ≤ n) : (minus n m : Guarded ε Nat).Gives (.ok (n - m)) :=
  (gives_within h).bind_ok (gives_pure _)

theorem gives_slice (hstart : start ≤ stop) (hstop : stop ≤ xs.length) :
    (slice xs start stop : Guarded ε (List α)).Gives (.ok ((xs.drop start).take (stop - start))) :=
  (gives_within ⟨hstart, hstop⟩).bind_ok (gives_pure _)

theorem gives_item (h : xs[i]? = some a) : (item xs i : Guarded ε α).Gives (.ok a) := by
  rw [Gives, item, ExceptT.run_mk, h, Option.map_some]

theorem gives_steps {width : Nat} (hwidth : 0 < width) (start count : Nat) :
    (steps start (start + width * count) width : Guarded ε (List Nat)).Gives
      (.ok ((List.range count).map fun k => start + k * width)) := by
  have hcount : (start + width * count - start + (width - 1)) / width = count := by
    rw [Nat.add_sub_cancel_left, Nat.mul_add_div hwidth, Nat.div_eq_of_lt (by omega), Nat.add_zero]
  rw [steps, hcount]
  exact (gives_within hwidth).bind_ok (gives_pure _)

end Guarded
end Flatfile
