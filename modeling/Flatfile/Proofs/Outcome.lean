import Flatfile.Outcome
import Mathlib.Data.List.Forall2

/-!
# Chained outcomes over lists

A step taken for each entry of a list succeeds when it succeeds for every entry, and what a chain
of steps keeps true holds at its end.
-/

namespace Flatfile

theorem mapError_eq_ok {x : Except ε α} {f : ε → ε'} {a : α} :
    x.mapError f = .ok a ↔ x = .ok a := by
  cases x <;> simp [Except.mapError]

theorem mapError_eq_error {x : Except ε α} {f : ε → ε'} {e : ε'} :
    x.mapError f = .error e ↔ ∃ e', x = .error e' ∧ f e' = e := by
  cases x <;> simp [Except.mapError]

theorem toOption_eq_some {x : Except ε α} {a : α} : x.toOption = some a ↔ x = .ok a := by
  cases x <;> simp [Except.toOption]

instance decidableExistsOk (x : Except ε α) (P : α → Prop) [DecidablePred P] :
    Decidable (∃ a, x = .ok a ∧ P a) :=
  match x with
  | .ok a => decidable_of_iff (P a) (by simp)
  | .error _ => isFalse (by simp)

theorem ite_error_eq_ok {c : Prop} [Decidable c] {e : ε} {x : Except ε α} {a : α} :
    (if c then .error e else x) = .ok a ↔ ¬ c ∧ x = .ok a := by
  split <;> simp [*]

theorem mapM_eq_ok {f : α → Except ε β} {as : List α} {bs : List β} :
    as.mapM f = .ok bs ↔ List.Forall₂ (fun a b => f a = .ok b) as bs := by
  induction as generalizing bs with
  | nil => cases bs <;> simp [pure, Except.pure]
  | cons a as ih =>
    rw [List.mapM_cons]
    simp only [bind_eq_ok, pure, Except.pure, Except.ok.injEq, List.forall₂_cons_left_iff]
    constructor
    · rintro ⟨b, hb, bs, hbs, rfl⟩
      exact ⟨b, bs, hb, ih.1 hbs, rfl⟩
    · rintro ⟨b, bs, hb, hbs, rfl⟩
      exact ⟨b, hb, bs, ih.2 hbs, rfl⟩

theorem mapM_congr {f g : α → Except ε β} {as : List α} (h : ∀ a ∈ as, f a = g a) :
    as.mapM f = as.mapM g := by
  induction as with
  | nil => rfl
  | cons a as ih =>
    obtain ⟨ha, has⟩ := List.forall_mem_cons.1 h
    rw [List.mapM_cons, List.mapM_cons, ha, ih has]

theorem mapM_eq_ok_map {f : α → Except ε β} {P : α → Prop} {g : α → β} {as : List α} {bs : List β}
    (h : ∀ a b, f a = .ok b ↔ P a ∧ b = g a) :
    as.mapM f = .ok bs ↔ (∀ a ∈ as, P a) ∧ bs = as.map g := by
  simp only [mapM_eq_ok, h]
  constructor
  · intro hsteps
    induction hsteps with
    | nil => exact ⟨nofun, rfl⟩
    | cons hab _ ih =>
      rw [hab.2, ih.2]
      exact ⟨List.forall_mem_cons.2 ⟨hab.1, ih.1⟩, rfl⟩
  · rintro ⟨hall, rfl⟩
    rw [List.forall₂_map_right_iff, List.forall₂_same]
    exact fun a ha => ⟨hall a ha, rfl⟩

theorem exists_mem_of_mapM_error {f : α → Except ε β} {as : List α} {e : ε}
    (h : as.mapM f = .error e) : ∃ a ∈ as, f a = .error e := by
  induction as with
  | nil => cases h
  | cons a as ih =>
    rw [List.mapM_cons] at h
    rcases bind_eq_error.1 h with hfirst | ⟨b, -, h⟩
    · exact ⟨a, List.mem_cons_self, hfirst⟩
    rcases bind_eq_error.1 h with hrest | ⟨bs, -, h⟩
    · obtain ⟨c, hc, hfail⟩ := ih hrest
      exact ⟨c, List.mem_cons_of_mem _ hc, hfail⟩
    · cases h

theorem forM_eq_ok {f : α → Except ε Unit} {as : List α} :
    as.forM f = .ok () ↔ ∀ a ∈ as, f a = .ok () := by
  induction as with
  | nil => exact ⟨fun _ => List.forall_mem_nil _, fun _ => rfl⟩
  | cons a as ih =>
    rw [List.forall_mem_cons, ← ih]
    constructor
    · intro h
      obtain ⟨_, ha, has⟩ := bind_eq_ok.1 h
      exact ⟨ha, has⟩
    · rintro ⟨ha, has⟩
      exact bind_eq_ok.2 ⟨(), ha, has⟩

theorem exists_mem_of_forM_error {f : α → Except ε Unit} {as : List α} {e : ε}
    (h : as.forM f = .error e) : ∃ a ∈ as, f a = .error e := by
  induction as with
  | nil => cases h
  | cons a as ih =>
    rcases bind_eq_error.1 h with h | ⟨_, -, h⟩
    · exact ⟨a, List.mem_cons_self, h⟩
    · obtain ⟨b, hb, hfail⟩ := ih h
      exact ⟨b, List.mem_cons_of_mem _ hb, hfail⟩

theorem mapM_replicate {f : α → Except ε β} {a : α} {b : β} (h : f a = .ok b) (n : Nat) :
    (List.replicate n a).mapM f = .ok (List.replicate n b) := by
  rw [mapM_eq_ok]
  induction n with
  | zero => exact .nil
  | succ n ih => exact .cons h ih

theorem mapM_append_eq_ok {f : α → Except ε β} {as as' : List α} {bs : List β} :
    (as ++ as').mapM f = .ok bs ↔
      ∃ xs ys, as.mapM f = .ok xs ∧ as'.mapM f = .ok ys ∧ bs = xs ++ ys := by
  rw [List.mapM_append]
  simp only [bind_eq_ok, pure, Except.pure, Except.ok.injEq]
  constructor
  · rintro ⟨xs, hxs, ys, hys, rfl⟩
    exact ⟨xs, ys, hxs, hys, rfl⟩
  · rintro ⟨xs, ys, hxs, hys, rfl⟩
    exact ⟨xs, hxs, ys, hys, rfl⟩

theorem exists_mapM_ok {f : α → Except ε β} {as : List α} (h : ∀ a ∈ as, ∃ b, f a = .ok b) :
    ∃ bs, as.mapM f = .ok bs := by
  induction as with
  | nil => exact ⟨[], rfl⟩
  | cons a as ih =>
    obtain ⟨⟨b, hb⟩, has⟩ := List.forall_mem_cons.1 h
    obtain ⟨bs, hbs⟩ := ih has
    exact ⟨b :: bs, mapM_eq_ok.2 (.cons hb (mapM_eq_ok.1 hbs))⟩

theorem mapM_eq_error {f : α → Except ε β} {as : List α} {e : ε}
    (h : ∀ a ∈ as, (∃ b, f a = .ok b) ∨ f a = .error e) {a : α} (ha : a ∈ as)
    (hfail : f a = .error e) : as.mapM f = .error e := by
  induction as with
  | nil => cases ha
  | cons c as ih =>
    obtain ⟨hc, has⟩ := List.forall_mem_cons.1 h
    rw [List.mapM_cons]
    rcases hc with ⟨b, hb⟩ | hfirst
    · have hrest : a ∈ as := (List.mem_cons.1 ha).resolve_left fun heq => by
        rw [heq, hb] at hfail
        cases hfail
      rw [hb, ih has hrest]
      rfl
    · rw [hfirst]
      rfl

theorem exists_mem_left_of_forall₂ {R : α → β → Prop} {as : List α} {bs : List β}
    (h : List.Forall₂ R as bs) {b : β} (hb : b ∈ bs) : ∃ a ∈ as, R a b := by
  induction h with
  | nil => simp at hb
  | cons hab _ ih =>
    rcases List.mem_cons.1 hb with rfl | hb
    · exact ⟨_, List.mem_cons_self, hab⟩
    · obtain ⟨a, ha, har⟩ := ih hb
      exact ⟨a, List.mem_cons_of_mem _ ha, har⟩

theorem forall₂_comp {R : α → β → Prop} {S : β → γ → Prop} {as : List α} {bs : List β}
    {cs : List γ} (h : List.Forall₂ R as bs) (h' : List.Forall₂ S bs cs) :
    List.Forall₂ (fun a c => ∃ b, R a b ∧ S b c) as cs := by
  induction h generalizing cs with
  | nil =>
    rw [List.forall₂_nil_left_iff.1 h']
    exact .nil
  | cons hab _ ih =>
    obtain ⟨c, cs, hbc, hcs, rfl⟩ := List.forall₂_cons_left_iff.1 h'
    exact .cons ⟨_, hab, hbc⟩ (ih hcs)

theorem forall₂_append_left {R : α → β → Prop} {as as' : List α} {bs : List β}
    (h : List.Forall₂ R (as ++ as') bs) :
    ∃ cs cs', bs = cs ++ cs' ∧ List.Forall₂ R as cs ∧ List.Forall₂ R as' cs' := by
  have hinit := List.forall₂_take as.length h
  have hlast := List.forall₂_drop as.length h
  rw [List.take_left] at hinit
  rw [List.drop_left] at hlast
  exact ⟨_, _, (List.take_append_drop _ _).symm, hinit, hlast⟩

theorem forall₂_concat_left {R : α → β → Prop} {as : List α} {a : α} {bs : List β}
    (h : List.Forall₂ R (as ++ [a]) bs) :
    ∃ bs' b, bs = bs' ++ [b] ∧ List.Forall₂ R as bs' ∧ R a b := by
  obtain ⟨bs', last, rfl, hinit, hlast⟩ := forall₂_append_left h
  obtain ⟨b, rest, hb, hrest, rfl⟩ := List.forall₂_cons_left_iff.1 hlast
  obtain rfl := List.forall₂_nil_left_iff.1 hrest
  exact ⟨bs', b, rfl, hinit, hb⟩

/-- What every step keeps true holds at the end of a successful chain. -/
theorem foldlM_induct {f : β → α → Except ε β} {P : β → Prop} {as : List α} {b b' : β}
    (hstep : ∀ a ∈ as, ∀ {b b'}, P b → f b a = .ok b' → P b') (hb : P b)
    (h : as.foldlM f b = .ok b') : P b' := by
  induction as generalizing b with
  | nil =>
    simp only [List.foldlM_nil, pure, Except.pure, Except.ok.injEq] at h
    exact h ▸ hb
  | cons a as ih =>
    rw [List.foldlM_cons] at h
    obtain ⟨c, hc, h⟩ := bind_eq_ok.1 h
    exact ih (fun a ha => hstep a (List.mem_cons_of_mem _ ha))
      (hstep a List.mem_cons_self hb hc) h

theorem foldlM_back {f : β → α → Except ε β} {P : β → Prop} {as : List α} {b c : β}
    (hback : ∀ {a b c}, f b a = .ok c → P c → P b) (h : as.foldlM f b = .ok c) (hc : P c) : P b := by
  induction as generalizing b with
  | nil => exact Except.ok.inj h ▸ hc
  | cons a as ih =>
    rw [List.foldlM_cons] at h
    obtain ⟨d, hd, h⟩ := bind_eq_ok.1 h
    exact hback hd (ih h)

/-- Chains of steps that keep what relates them end in related outcomes. -/
theorem foldlM_sim {f : β → α → Except ε β} {f' : β' → α' → Except ε β'} {P : β → Prop}
    {R : β → β' → Prop} {Q : α → α' → Prop} {as : List α} {as' : List α'} {b c : β} {b' : β'}
    (has : List.Forall₂ Q as as') (hback : ∀ {a b c}, f b a = .ok c → P c → P b)
    (hstep : ∀ {a a' b b' c}, Q a a' → R b b' → f b a = .ok c → P c →
      ∃ c', f' b' a' = .ok c' ∧ R c c')
    (hb : R b b') (h : as.foldlM f b = .ok c) (hc : P c) :
    ∃ c', as'.foldlM f' b' = .ok c' ∧ R c c' := by
  induction has generalizing b b' with
  | nil =>
    obtain rfl := Except.ok.inj h
    exact ⟨b', rfl, hb⟩
  | @cons a a' as as' ha _ ih =>
    rw [List.foldlM_cons] at h
    obtain ⟨d, hd, h⟩ := bind_eq_ok.1 h
    obtain ⟨d', hd', hrel⟩ := hstep ha hb hd (foldlM_back hback h hc)
    obtain ⟨c', hc', hrel'⟩ := ih hrel h
    exact ⟨c', bind_eq_ok.2 ⟨d', hd', hc'⟩, hrel'⟩

end Flatfile
