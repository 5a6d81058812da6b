import Flatfile.Proofs.Decimal.NormalForm
import Flatfile.Proofs.Outcome
import Flatfile.Schema.Link

/-!
# Conditions on numbers

A condition compares texts. The text of a number is that of its normal form, so that comparing the
texts of numbers comes to comparing the numbers, whatever their scales and the sign of a zero
(`numericCondition_holds_iff`).
-/

namespace Flatfile

variable {p : Predicate} {r : Record} {d : Decimal}

theorem Predicate.holds_decimal_iff (h : r.get? p.field = some (.decimal d)) :
    p.holds r = true ↔ (Value.decimal d).toText ∈ p.values := by
  simp [holds, h, Value.isNull]

theorem Literal.toText_number_eq_iff (a b : Decimal) :
    (number a).toText = (Value.decimal b).toText ↔ a.toRat = b.toRat :=
  Decimal.toText_normalize_eq_iff

theorem Link.predicate_spells {record : String} {fields : List Field}
    {classifier : Option RecordType} {c : ConditionDecl}
    (h : Link.predicate record fields classifier c = .ok p) :
    p.field = c.field ∧ p.values = c.values.map Literal.toText := by
  simp only [Link.predicate] at h
  split at h
  next =>
    obtain rfl := Except.ok.inj h
    exact ⟨rfl, rfl⟩
  next => cases h

/-- A condition whose values are numbers holds of a record with a number in the field exactly if
that number is one of them. -/
theorem numericCondition_holds_iff {record : String} {fields : List Field}
    {classifier : Option RecordType} {c : ConditionDecl} {numbers : List Decimal}
    (hlink : Link.predicate record fields classifier c = .ok p)
    (hvalues : c.values = numbers.map .number) (hfield : r.get? c.field = some (.decimal d)) :
    (p.holds r = true ↔ ∃ n ∈ numbers, n.toRat = d.toRat) ∧
      ∀ a b : Decimal, (Literal.number a).toText = (Value.decimal b).toText ↔
        a.toRat = b.toRat := by
  refine ⟨?_, Literal.toText_number_eq_iff⟩
  have hmem : (Value.decimal d).toText ∈ (numbers.map Literal.number).map Literal.toText ↔
      ∃ n ∈ numbers, n.toRat = d.toRat := by
    rw [List.map_map, List.mem_map]
    exact exists_congr fun n => and_congr_right fun _ => Literal.toText_number_eq_iff n d
  obtain ⟨hname, hspelled⟩ := Link.predicate_spells hlink
  rw [← hname] at hfield
  rw [Predicate.holds_decimal_iff hfield, hspelled, hvalues, hmem]

def numericLayout : String :=
  "file-type: Variable\ntext-encoding: \"UTF-8\"\nfield-separator: \",\"\n" ++
  "record-separator: \"\\n\"\n[R]\ncode = 10.0, 0, -2.50\n1 code N\n"

/-- It holds of -2.500 and of a zero with three places and a minus sign, but not of 2.5. -/
theorem numericCondition_holds_iff_scaled :
    ∃ layout t c fields p, Layout.parse numericLayout none = .ok layout ∧
      t ∈ layout.recordTypes ∧ c ∈ t.conditions ∧ Link.fields .columns .utf8 t = .ok fields ∧
      Link.predicate t.name fields none c = .ok p ∧
      p.holds (.ofList [("Code", .decimal ⟨true, 2500, 3, by decide, by decide⟩)]) = true ∧
      p.holds (.ofList [("Code", .decimal ⟨true, 0, 3, by decide, by decide⟩)]) = true ∧
      p.holds (.ofList [("Code", .decimal ⟨false, 25, 1, by decide, by decide⟩)]) = false := by
  let numbers : List Decimal := [⟨false, 100, 1, by decide, by decide⟩, .zero,
    ⟨true, 250, 2, by decide, by decide⟩]
  have hshape : (Layout.parse numericLayout none).toOption.any fun layout =>
      layout.recordTypes.any fun t => t.conditions.any fun c =>
      (Link.fields .columns .utf8 t).toOption.any fun fields =>
      (Link.predicate t.name fields none c).toOption.any fun _ =>
        c.field = "code" ∧ c.values = numbers.map .number := by decide +kernel
  obtain ⟨layout, hparse, hshape⟩ := (Option.any_eq_true _ _).1 hshape
  obtain ⟨t, ht, hshape⟩ := List.any_eq_true.1 hshape
  obtain ⟨c, hc, hshape⟩ := List.any_eq_true.1 hshape
  obtain ⟨fields, hfields, hshape⟩ := (Option.any_eq_true _ _).1 hshape
  obtain ⟨p, hp, hshape⟩ := (Option.any_eq_true _ _).1 hshape
  obtain ⟨hname, hvalues⟩ := of_decide_eq_true hshape
  rw [toOption_eq_some] at hparse hfields hp
  have hget (d : Decimal) : (Record.ofList [("Code", .decimal d)]).get? c.field =
      some (.decimal d) := by
    rw [hname]
    rfl
  have hholds (d : Decimal) := (numericCondition_holds_iff hp hvalues (hget d)).1
  refine ⟨layout, t, c, fields, p, hparse, ht, hc, hfields, hp, ?_, ?_, ?_⟩
  · exact (hholds _).2 ⟨⟨true, 250, 2, by decide, by decide⟩, by simp [numbers], by
      norm_num [Decimal.toRat, Decimal.mantissa]⟩
  · exact (hholds _).2 ⟨.zero, by simp [numbers], by
      norm_num [Decimal.toRat, Decimal.mantissa, Decimal.zero]⟩
  · refine Bool.eq_false_iff.2 fun h => ?_
    obtain ⟨n, hn, heq⟩ := (hholds _).1 h
    simp only [numbers, List.mem_cons, List.not_mem_nil, or_false] at hn
    rcases hn with rfl | rfl | rfl
    all_goals norm_num [Decimal.toRat, Decimal.mantissa, Decimal.zero] at heq

end Flatfile
