import Flatfile.Codec.Column
import Flatfile.Codec.Converters
import Flatfile.Proofs.Lookup
import Flatfile.Proofs.Outcome
import Flatfile.Schema.Basic
import Mathlib.Data.List.Nodup
import Mathlib.Data.List.Perm.Subperm
import Mathlib.Data.List.Zip

/-!
# Translations that can be undone

Each of two texts of one length gives a translation a partner for every character of the other.
Writing undoes reading exactly if the second text is a rearrangement of the first: then the
translation moves the characters of the first text among themselves and leaves all others alone. A
chain of converters that can be undone can be undone as a whole, since writing goes through the
chain backwards (`translations_undone`).
-/

namespace Flatfile

-- ------------------------------------------------------------------
-- Chains of converters
-- ------------------------------------------------------------------

structure Converter.Inverts (c : Converter) : Prop where
  write_read : ∀ v, (c.read v >>= c.write) = .ok v
  read_write : ∀ v, (c.write v >>= c.read) = .ok v

section Chains

variable {converters : List Converter}

theorem writeChain_readChain (h : ∀ c ∈ converters, c.Inverts) (v : Value) :
    (converters.foldlM (fun v c => c.read v) v >>=
      converters.reverse.foldlM fun v c => c.write v) = .ok v := by
  induction converters generalizing v with
  | nil => rfl
  | cons c converters ih =>
    obtain ⟨hc, hrest⟩ := List.forall_mem_cons.1 h
    obtain ⟨w, hread, hwrite⟩ := bind_eq_ok.1 (hc.write_read v)
    obtain ⟨x, hto, hback⟩ := bind_eq_ok.1 (ih hrest w)
    refine bind_eq_ok.2 ⟨x, ?_, ?_⟩
    · simp only [List.foldlM_cons]
      exact bind_eq_ok.2 ⟨w, hread, hto⟩
    · simp only [List.reverse_cons, List.foldlM_append]
      refine bind_eq_ok.2 ⟨w, hback, ?_⟩
      simpa using hwrite

theorem readChain_writeChain (h : ∀ c ∈ converters, c.Inverts) (v : Value) :
    (converters.reverse.foldlM (fun v c => c.write v) v >>=
      converters.foldlM fun v c => c.read v) = .ok v := by
  induction converters generalizing v with
  | nil => rfl
  | cons c converters ih =>
    obtain ⟨hc, hrest⟩ := List.forall_mem_cons.1 h
    obtain ⟨x, hto, hback⟩ := bind_eq_ok.1 (ih hrest v)
    obtain ⟨w, hwrite, hread⟩ := bind_eq_ok.1 (hc.read_write x)
    refine bind_eq_ok.2 ⟨w, ?_, ?_⟩
    · simp only [List.reverse_cons, List.foldlM_append]
      refine bind_eq_ok.2 ⟨x, hto, ?_⟩
      simpa using hwrite
    · simp only [List.foldlM_cons]
      exact bind_eq_ok.2 ⟨x, hread, hback⟩

end Chains

-- ------------------------------------------------------------------
-- Arguments
-- ------------------------------------------------------------------

namespace Args

variable {args : Args}

theorem between_ok {least most : Nat} (h : args.between least most = .ok ()) :
    least ≤ args.items.length ∧ args.items.length ≤ most := by
  simp only [between, atMost, refuse] at h
  split at h
  · simp at h
  · split at h
    · simp at h
    · omega

theorem string?_ok {i : Nat} {found : Option String} (h : args.string? i = .ok found) :
    args.items[i]? = found.map .string := by
  simp only [string?, refuse] at h
  split at h
  next hnone =>
    cases h
    exact hnone
  next s hstring =>
    cases h
    exact hstring
  next => simp at h

end Args

-- ------------------------------------------------------------------
-- Partners
-- ------------------------------------------------------------------

namespace Translate

section Partners

variable {pairs : List (Char × Char)} {source target : List Char} {c d : Char}

theorem partner_of_not_mem (h : c ∉ pairs.map Prod.fst) : partner pairs c = c := by
  have hnone : pairs.reverse.lookup c = none := by
    cases hfound : pairs.reverse.lookup c with
    | none => rfl
    | some d =>
      refine absurd (mem_keys_iff.2 (Option.isSome_of_eq_some hfound)) ?_
      simpa using h
  simp [partner, hnone]

theorem partner_of_mem (h : (pairs.map Prod.fst).Nodup) (hmem : (c, d) ∈ pairs) :
    partner pairs c = d := by
  have hreverse : (pairs.reverse.map Prod.fst).Nodup := by simpa using h
  have hfound : pairs.reverse.lookup c = some d :=
    (lookup_eq_some_iff_mem hreverse).2 (by simpa using hmem)
  simp [partner, hfound]

theorem exists_mem_zip (hlength : source.length = target.length) (hc : c ∈ source) :
    ∃ d, (c, d) ∈ source.zip target := by
  have hfirst : (source.zip target).map Prod.fst = source :=
    List.map_fst_zip (Nat.le_of_eq hlength)
  rw [← hfirst] at hc
  obtain ⟨⟨c, d⟩, hmem, rfl⟩ := List.mem_map.1 hc
  exact ⟨d, hmem⟩

theorem map_partner_zip (hsource : source.Nodup) (hlength : source.length = target.length) :
    source.map (partner (source.zip target)) = target := by
  have hfirst : (source.zip target).map Prod.fst = source :=
    List.map_fst_zip (Nat.le_of_eq hlength)
  have hsecond : (source.zip target).map Prod.snd = target :=
    List.map_snd_zip (Nat.le_of_eq hlength.symm)
  calc source.map (partner (source.zip target))
      = (source.zip target).map fun p => partner (source.zip target) p.1 := by
        conv_lhs => rw [← hfirst, List.map_map]
        simp [hfirst, Function.comp_def]
    _ = (source.zip target).map Prod.snd := by
        refine List.map_congr_left fun p hp => ?_
        exact partner_of_mem (by rwa [hfirst]) hp
    _ = target := hsecond

theorem partner_partner (hsource : source.Nodup) (hperm : target.Perm source) (c : Char) :
    partner (target.zip source) (partner (source.zip target) c) = c := by
  have hlength : source.length = target.length := hperm.length_eq.symm
  have hfirst : (source.zip target).map Prod.fst = source :=
    List.map_fst_zip (Nat.le_of_eq hlength)
  have hback : (target.zip source).map Prod.fst = target :=
    List.map_fst_zip (Nat.le_of_eq hlength.symm)
  by_cases hc : c ∈ source
  · obtain ⟨d, hd⟩ := exists_mem_zip hlength hc
    have hswap : (d, c) ∈ target.zip source := by
      rw [← List.zip_swap]
      exact List.mem_map_of_mem (f := Prod.swap) hd
    rw [partner_of_mem (by rwa [hfirst]) hd]
    exact partner_of_mem (by rw [hback]; exact hperm.nodup_iff.2 hsource) hswap
  · have hto : partner (source.zip target) c = c := partner_of_not_mem (by rwa [hfirst])
    rw [hto]
    exact partner_of_not_mem (by rwa [hback, hperm.mem_iff])

/-- What has a way back takes no two characters to one. So the partners are as many characters as
the first text has, and each of them is one that is moved on. -/
theorem perm_of_partner_partner (hsource : source.Nodup) (hlength : source.length = target.length)
    (h : ∀ c, partner (target.zip source) (partner (source.zip target) c) = c) :
    target.Perm source := by
  have hinjective : Function.Injective (partner (source.zip target)) :=
    Function.LeftInverse.injective h
  have htarget := map_partner_zip hsource hlength
  have hnodup : target.Nodup := htarget ▸ hsource.map hinjective
  have hsubset : target ⊆ source := by
    intro d hd
    rw [← htarget] at hd
    obtain ⟨c, hc, rfl⟩ := List.mem_map.1 hd
    by_contra hout
    have hstays : partner (source.zip target) (partner (source.zip target) c) =
        partner (source.zip target) c := by
      apply partner_of_not_mem
      rwa [List.map_fst_zip (Nat.le_of_eq hlength)]
    rw [hinjective hstays] at hout
    exact hout hc
  exact (List.subperm_of_subset hnodup hsubset).perm_of_length_le (Nat.le_of_eq hlength)

end Partners

-- ------------------------------------------------------------------
-- Translations
-- ------------------------------------------------------------------

variable {args : Args} {t : Translate} {source target : String}

theorem ofArgs_ok (h : ofArgs args = .ok t) :
    ∃ source target : String, args.items = [.string source, .string target] ∧
      source.toList.length = target.toList.length ∧
      t = { pairs := source.toList.zip target.toList } := by
  obtain ⟨_, hcount, h⟩ := bind_eq_ok.1 h
  obtain ⟨first, hfirst, h⟩ := bind_eq_ok.1 h
  obtain ⟨second, hsecond, h⟩ := bind_eq_ok.1 h
  obtain ⟨hleast, hmost⟩ := Args.between_ok hcount
  obtain ⟨a, b, hitems⟩ := List.length_eq_two.1 (Nat.le_antisymm hmost hleast)
  replace hfirst := Args.string?_ok hfirst
  replace hsecond := Args.string?_ok hsecond
  simp only [hitems, List.getElem?_cons_zero, List.getElem?_cons_succ] at hfirst hsecond
  cases first with
  | none => simp at hfirst
  | some source =>
    cases second with
    | none => simp at hsecond
    | some target =>
      simp only [Option.getD_some] at h
      split at h
      next => simp at h
      next hlength =>
        refine ⟨source, target, ?_, not_not.1 hlength, (Except.ok.inj h).symm⟩
        simp_all

theorem map_map_chars {f g : Char → Char} (h : ∀ c, g (f c) = c) (s : String) :
    String.ofList ((String.ofList (s.toList.map f)).toList.map g) = s := by
  simp [Function.comp_def, h]

theorem write_read_text_iff :
    (∀ s, (t.converter.read (.text s) >>= t.converter.write) = .ok (.text s)) ↔
      ∀ c, partner (t.pairs.map Prod.swap) (partner t.pairs c) = c := by
  have hread (s : String) : (t.converter.read (.text s) >>= t.converter.write) =
      .ok (.text (t.backward (t.forward s))) := rfl
  simp only [hread, Except.ok.injEq, Value.text.injEq]
  constructor
  · intro h c
    simpa [forward, backward, String.ext_iff] using h (String.ofList [c])
  · exact map_map_chars

/-- The two texts have the same characters, and no character twice. -/
def Permutes (source target : String) : Prop :=
  source.toList.Nodup ∧ target.toList.Perm source.toList

instance : Decidable (Permutes source target) :=
  inferInstanceAs (Decidable (_ ∧ _))

theorem Permutes.symm (h : Permutes source target) : Permutes target source :=
  ⟨h.2.nodup_iff.2 h.1, h.2.symm⟩

theorem Permutes.inverts (h : Permutes source target) :
    ({ pairs := source.toList.zip target.toList } : Translate).converter.Inverts := by
  have hforth := partner_partner h.1 h.2
  have hback := partner_partner h.symm.1 h.symm.2
  rw [← List.zip_swap source.toList target.toList] at hforth hback
  constructor
  · intro v
    cases v with
    | text s => exact congrArg (fun s => Except.ok (Value.text s)) (map_map_chars hforth s)
    | _ => rfl
  · intro v
    cases v with
    | text s => exact congrArg (fun s => Except.ok (Value.text s)) (map_map_chars hback s)
    | _ => rfl

def IsPermuting (c : Converter) : Prop :=
  ∃ args t source target, ofArgs args = .ok t ∧ args.items = [.string source, .string target] ∧
    Permutes source target ∧ c = t.converter

theorem IsPermuting.inverts {c : Converter} (h : IsPermuting c) : c.Inverts := by
  obtain ⟨args, t, source, target, hmade, hitems, hpermutes, rfl⟩ := h
  obtain ⟨source', target', hitems', -, rfl⟩ := ofArgs_ok hmade
  rw [hitems] at hitems'
  cases hitems'
  exact hpermutes.inverts

end Translate

/-- A translation whose first text has no character twice is undone by writing exactly if the second
text is a rearrangement of the first. A field with any number of such converters gives back what was
written and writes what was read. -/
theorem translations_undone :
    (∀ args t, Translate.ofArgs args = .ok t →
      ∃ source target : String, args.items = [.string source, .string target] ∧
        (source.toList.Nodup →
          ((∀ s, (t.converter.read (.text s) >>= t.converter.write) = .ok (.text s)) ↔
            target.toList.Perm source.toList))) ∧
    ∀ f : Field, (∀ c ∈ f.converters, Translate.IsPermuting c) →
      ∀ v, (f.readValue v >>= f.writeValue) = .ok v ∧ (f.writeValue v >>= f.readValue) = .ok v := by
  constructor
  · intro args t hmade
    obtain ⟨source, target, hitems, hlength, rfl⟩ := Translate.ofArgs_ok hmade
    refine ⟨source, target, hitems, fun hsource => ?_⟩
    rw [Translate.write_read_text_iff, List.zip_swap]
    constructor
    · exact Translate.perm_of_partner_partner hsource hlength
    · exact Translate.partner_partner hsource
  · intro f hpermuting v
    have hinverts : ∀ c ∈ f.converters, c.Inverts := fun c hc => (hpermuting c hc).inverts
    exact ⟨writeChain_readChain hinverts v, readChain_writeChain hinverts v⟩

def translationArgs (source target : String) : Args :=
  { name := "Translate", items := [.string source, .string target] }

def recodedField : Field :=
  { name := "a", position := 1, offset := 0, occurs := .once, isRequired := false
    isAttribute := false, isFiller := false, charset := .utf8, dataType := ColumnHex.dataType
    converters := [(Translate.mk [('a', 'b'), ('b', 'c'), ('c', 'a')]).converter,
      (Translate.mk [('c', 'd'), ('d', 'c')]).converter]
    line := 1 }

/-- A text that is rearranged is given back, and one that is not is lost. A field with two
rearrangements gives back every value. -/
theorem translations_undone_cycles :
    (∃ t, Translate.ofArgs (translationArgs "abc" "bca") = .ok t ∧
      ∀ s, (t.converter.read (.text s) >>= t.converter.write) = .ok (.text s)) ∧
    (∃ t, Translate.ofArgs (translationArgs "ab" "bc") = .ok t ∧
      ¬ ∀ s, (t.converter.read (.text s) >>= t.converter.write) = .ok (.text s)) ∧
    (∀ c ∈ recodedField.converters, Translate.IsPermuting c) ∧
    ∀ v, (recodedField.readValue v >>= recodedField.writeValue) = .ok v ∧
      (recodedField.writeValue v >>= recodedField.readValue) = .ok v := by
  obtain ⟨hsingle, hfields⟩ := translations_undone
  have hpermuting : ∀ c ∈ recodedField.converters, Translate.IsPermuting c := by
    intro c hc
    simp only [recodedField, List.mem_cons, List.not_mem_nil, or_false] at hc
    cases hc with
    | inl hfirst =>
      exact ⟨translationArgs "abc" "bca", _, "abc", "bca", rfl, rfl, by decide, hfirst⟩
    | inr hsecond =>
      exact ⟨translationArgs "cd" "dc", _, "cd", "dc", rfl, rfl, by decide, hsecond⟩
  refine ⟨?_, ?_, hpermuting, hfields recodedField hpermuting⟩
  · obtain ⟨source, target, hitems, hiff⟩ := hsingle (translationArgs "abc" "bca") _ rfl
    cases hitems
    exact ⟨_, rfl, (hiff (by decide)).2 (by decide)⟩
  · obtain ⟨source, target, hitems, hiff⟩ := hsingle (translationArgs "ab" "bc") _ rfl
    cases hitems
    refine ⟨_, rfl, fun h => ?_⟩
    exact absurd ((hiff (by decide)).1 h) (by decide)

end Flatfile
