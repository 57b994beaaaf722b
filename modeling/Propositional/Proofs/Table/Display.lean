import Propositional.Proofs.Layout.QuasiColumns
import Propositional.Proofs.Table.Values
import Propositional.Table.PlainText

/-! Showing a generated table.

A row of a generated table has an entry for each letter (`letterCell_of_mem_rows`), and every point
of a formula has its truth value under the row (`layoutCells_of_mem_rows`). So the lines of the
table can be made in either format: showing it never fails (`display_ofBatch`,
`compactLines_ofBatch`). -/
namespace Propositional.Table

variable {formulas : List Sentence} {r : Row}

/-! ### Cells -/

/-- The marks of the letters of a batch in a row. -/
def letterMarks (formulas : List Sentence) (r : Row) : List Text :=
  (Sentence.batchLetters formulas).map fun l => mark (valuation r.assignment l)

/-- The cells of a formula under a valuation. -/
def formulaCells (everyPoint : Bool) (v : Letter → Bool) (f : Sentence) : List Text :=
  (List.range f.layout.pieces.length).map
    (pieceCell everyPoint (f.layout.points.map (Layout.pointValue v)))

theorem letterCell_of_mem_rows (hr : r ∈ (ofBatch formulas).rows) {l : Letter}
    (hl : l ∈ Sentence.batchLetters formulas) :
    letterCell r l = .ok (mark (valuation r.assignment l)) := by
  have hlookup := lookup_of_mem_rows hr hl
  rw [Row.lookup] at hlookup
  rw [letterCell]
  cases hentry : r.assignment.get? l.name with
  | none => rw [hentry] at hlookup; cases hlookup
  | some entry => rw [valuation, hentry]; rfl

theorem letterCells_of_mem_rows (hr : r ∈ (ofBatch formulas).rows) :
    (ofBatch formulas).letters.mapM (letterCell r) = .ok (letterMarks formulas r) :=
  mapM_eq_ok fun _ hl => letterCell_of_mem_rows hr hl

/-- The points of a formula have their truth values under a generated row. -/
theorem evaluate_layout_of_mem_rows (hr : r ∈ (ofBatch formulas).rows) {f : Sentence}
    (hf : f ∈ formulas) :
    (f.layout.evaluate r.toAssignment).outcome =
      .ok (f.layout.points.map (Layout.pointValue (valuation r.assignment))) := by
  rw [Layout.outcome_evaluate]
  refine mapM_eq_ok fun p hp => ?_
  rw [Layout.outcome_evaluatePoint,
    evaluate_of_mem_rows hr hf (f.placed_layout.occurrences_subset p hp)]
  rfl

theorem layoutCells_of_mem_rows (everyPoint : Bool) (hr : r ∈ (ofBatch formulas).rows)
    {f : Sentence} (hf : f ∈ formulas) :
    layoutCells everyPoint r f.layout =
      .ok (formulaCells everyPoint (valuation r.assignment) f) := by
  rw [layoutCells, evaluate_layout_of_mem_rows hr hf]
  rfl

/-! ### Lines -/

theorem rowLine_of_mem_rows (everyPoint : Bool) (hr : r ∈ (ofBatch formulas).rows) :
    (ofBatch formulas).rowLine everyPoint (ofBatch formulas).layouts r =
      .ok ((ofBatch formulas).withLetters (letterMarks formulas r)
        (formulas.map (formulaCells everyPoint (valuation r.assignment)))) := by
  have hgroups : (ofBatch formulas).layouts.mapM (layoutCells everyPoint r) =
      .ok (formulas.map (formulaCells everyPoint (valuation r.assignment))) := by
    show (formulas.map Sentence.layout).mapM _ = _
    rw [List.mapM_map]
    exact mapM_eq_ok fun f hf => layoutCells_of_mem_rows everyPoint hr hf
  rw [rowLine, letterCells_of_mem_rows hr, hgroups]
  rfl

/-- A generated table can be shown. -/
theorem display_ofBatch (everyPoint : Bool) (formulas : List Sentence) :
    ∃ shown, (ofBatch formulas).display everyPoint (ofBatch formulas).layouts = .ok shown := by
  have hrows := mapM_eq_ok fun r (hr : r ∈ (ofBatch formulas).rows) =>
    rowLine_of_mem_rows everyPoint hr
  rw [display, displayLines, hrows]
  exact ⟨_, rfl⟩

/-- The compact line of a generated row. -/
def compactText (formulas : List Sentence) (r : Row) : Text :=
  let values := Text.joinWith [' '] (r.values.map mark)
  if (letterMarks formulas r).isEmpty then values
  else Text.joinWith [' '] (letterMarks formulas r) ++ [' ', ':', ' '] ++ values

theorem compactLine_of_mem_rows (hr : r ∈ (ofBatch formulas).rows) :
    (ofBatch formulas).compactLine r = .ok (compactText formulas r) := by
  rw [compactLine, letterCells_of_mem_rows hr]
  rfl

/-- A generated table can be shown in the compact format. -/
theorem compactLines_ofBatch (formulas : List Sentence) :
    ∃ lines, (ofBatch formulas).compactLines = .ok lines :=
  ⟨_, mapM_eq_ok fun _ hr => compactLine_of_mem_rows hr⟩

end Propositional.Table
