import Flatfile.Proofs.Layout.Places
import Flatfile.Proofs.Schema.Faults

/-!
# Where the errors of compiling are

Whichever step of compiling fails, the error carries the name of the layout and a place of its text
(`compile_error_inText`). The linker has no text at hand: it takes the places that the reader has
recorded with directives, fields, calls, conditions and record types, or the beginning of the text.
A field that is taken over keeps the line on which it was declared.
-/

namespace Flatfile

variable {P : Nat → Nat → Prop} {layout : Layout} {e : SyntaxError}

theorem SyntaxError.PointsTo.inSource (h : e.PointsTo P) (source : Option String) :
    (e.inSource source).source = source ∧ ∃ line column,
      (e.inSource source).line = some line ∧ (e.inSource source).column = some column ∧
        P line column :=
  ⟨by simp [SyntaxError.inSource, h.1], h.2⟩

namespace Link

theorem DirectivesRefused.pointsTo {directives : List Directive} (hbeginning : P 1 1)
    (hdirectives : ∀ d ∈ directives, P d.line d.column) (h : DirectivesRefused directives e) :
    e.PointsTo P := by
  cases h with
  | missingFileType => exact pointsTo_located hbeginning _
  | missing name t => exact pointsTo_located hbeginning _
  | fileType hd => exact pointsTo_located (hdirectives _ hd) _
  | unknown hd t => exact pointsTo_located (hdirectives _ hd) _
  | kind hd rule => exact pointsTo_located (hdirectives _ hd) _
  | value h =>
    obtain ⟨hd, fault⟩ := h
    exact pointsTo_located (hdirectives _ hd) _
  | title hd name => exact pointsTo_located (hdirectives _ hd) _

theorem FieldRefused.pointsTo {record : String} {d : FieldDecl} (hd : Layout.FieldAt P d)
    (h : FieldRefused record d e) : e.PointsTo P := by
  cases h with
  | atField fault => exact pointsTo_located hd.place _
  | atCall hcall fault => exact pointsTo_atToken (hd.calls _ hcall) _ _

theorem TypeRefused.pointsTo {linked : List RecordType} {r : RecordDecl}
    (hfirst : ∀ line column, P line column → P line 1) (hr : Layout.RecordAt P r)
    (hlinked : ∀ t ∈ linked, ∀ f ∈ t.fields, P f.line 1) (h : TypeRefused linked r e) :
    e.PointsTo P := by
  cases h with
  | field hd h => exact h.pointsTo (hr.fields _ hd)
  | base _ _ => exact pointsTo_located hr.line _
  | place hf fault =>
    refine pointsTo_located ?_ _
    rcases hf with ⟨d, hd, hline⟩ | ⟨t, ht, hf⟩
    · exact hline ▸ hfirst _ _ (hr.fields d hd).place
    · exact hlinked t ht _ hf
  | length covered declared => exact pointsTo_located hr.line _
  | condition hc => exact pointsTo_located (hr.conditions _ hc) _

theorem LayoutRefused.pointsTo (hbeginning : P 1 1)
    (hfirst : ∀ line column, P line column → P line 1) (hlayout : layout.At P)
    (h : LayoutRefused layout e) : e.PointsTo P := by
  cases h with
  | directives h => exact h.pointsTo hbeginning hlayout.directives
  | classifier hr hd h => exact h.pointsTo ((hlayout.classifier _ hr).fields _ hd)
  | recordType hrecords hlinked h =>
    -- A field may be declared by any record type up to the one that is refused.
    have hrecord : ∀ r, r ∈ layout.recordTypes → Layout.RecordAt P r := hlayout.recordTypes
    rw [hrecords] at hrecord
    refine h.pointsTo hfirst (hrecord _ (by simp)) fun t ht f hf => ?_
    obtain ⟨r, hr, d, hd, hfield⟩ := field_of_recordTypes hlinked t ht f hf
    exact hfield.line ▸ hfirst _ _ ((hrecord r (by simp [hr])).fields d hd).place

end Link

-- ------------------------------------------------------------------
-- Compiling
-- ------------------------------------------------------------------

theorem InText.first {lines : List (List Char)} {line column : Nat} (h : InText lines line column) :
    InText lines line 1 :=
  ⟨h.1, Nat.le_refl 1, by omega⟩

theorem inText_beginning (lines : List (List Char)) : InText lines 1 1 :=
  ⟨⟨Nat.le_refl 1, Nat.le_max_left _ _⟩, Nat.le_refl 1, by omega⟩

/-- An error of compiling a layout that has a name carries that name, and a place of the text. -/
theorem compile_error_inText {ctx : LinkContext} {text source : String}
    (h : Schema.compile ctx text (some source) = .error e) :
    e.source = some source ∧ ∃ line column, e.line = some line ∧ e.column = some column ∧
      InText (Layout.textLines text.toList) line column := by
  have hread := Layout.Parser.ofLines_points (some source) (fun _ _ h => h.first)
    (Layout.ofSource_places text) (Layout.endOfInput_place text)
  rcases bind_eq_error.1 h with h | ⟨layout, hparse, h⟩
  · obtain ⟨fault, hfault, rfl⟩ := mapError_eq_error.1 h
    exact (hread.error hfault).inSource _
  · obtain ⟨hlayout, hsource⟩ := hread.ok (mapError_eq_ok.1 hparse)
    obtain ⟨fault, hfault, rfl⟩ := Link.link_error h
    rw [hsource]
    exact (hfault.pointsTo (inText_beginning _) (fun _ _ h => h.first) hlayout).inSource _

def takenOverLayout : String :=
  "file-type: Fixed\ntext-encoding: \"US-ASCII\"\nrecord-length: 4\n" ++
  "[A]\n1 kind X(1)\n2 a X(2)\n4 id X(1)\n[B] < [A]\n1 b X(2)\n"

/-- The error is where the first record type declares the field, on the seventh line. -/
theorem compile_error_inText_takenOver :
    ∃ e, Schema.compile {} takenOverLayout (some "layout") = .error e ∧
      e.cause = .inField "B" "id" (.wrongPosition 3 4) ∧ e.line = some 7 ∧
      e.source = some "layout" ∧ ∃ line column, e.line = some line ∧ e.column = some column ∧
        InText (Layout.textLines takenOverLayout.toList) line column := by
  have hshape : (match Schema.compile {} takenOverLayout (some "layout") with
      | .ok _ => false
      | .error e => decide (e.cause = .inField "B" "id" (.wrongPosition 3 4) ∧
          e.line = some 7)) = true := by decide +kernel
  cases h : Schema.compile {} takenOverLayout (some "layout") with
  | ok schema => simp [h] at hshape
  | error e =>
    rw [h] at hshape
    obtain ⟨hcause, hline⟩ := of_decide_eq_true hshape
    exact ⟨e, rfl, hcause, hline, compile_error_inText h⟩

end Flatfile
