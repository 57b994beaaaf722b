import Propositional.Proofs.Table.Alignment

/-! The lines of a displayed table.

The text of a table has a header with a rule below it, a line for each row and, where every point
shows its value, a line of numbers on top; its lines are found again at the line feeds
(`exists_display`). What stands in the columns of a line is said of the table alone: names and
pieces in the header (`IsHeader`), the numbers of the points (`IsNumbering`), and in a row the
values of the letters and those of the points, or of the formulas at their main points (`IsRow`).
`display_aligns` says that all of them are aligned in the same columns. -/
namespace Propositional.Table

variable {t : Table} {everyPoint : Bool}

/-! ### What the cells show -/

/-- The header has the names of the letters and the pieces of the layouts. -/
structure IsHeader (t : Table) (cell : Column → Text) : Prop where
  letter : ∀ l ∈ t.letters, cell (.letter l) = l.name
  piece : ∀ (j i : Nat) (f : Sentence) (piece : Piece), t.formulas[j]? = some f →
    f.layout.pieces[i]? = some piece → cell (.piece j i) = Text.trim piece.text

/-- The points of each formula are numbered from 1, and nothing else is. -/
structure IsNumbering (t : Table) (cell : Column → Text) : Prop where
  letter : ∀ l ∈ t.letters, cell (.letter l) = []
  literal : ∀ (j i : Nat) (f : Sentence) (text : Text), t.formulas[j]? = some f →
    f.layout.pieces[i]? = some (.literal text) → cell (.piece j i) = []
  point : ∀ (j i k : Nat) (f : Sentence) (p : Point), t.formulas[j]? = some f →
    f.layout.points[k]? = some (i, p) → cell (.piece j i) = Text.ofNat (k + 1)

/-- A row has the values of the letters and of the points, or of the formulas at their main points
only. -/
structure IsRow (t : Table) (everyPoint : Bool) (r : Row) (cell : Column → Text) : Prop where
  letter : ∀ l ∈ t.letters, ∃ b, r.lookup l = .ok (some b) ∧ cell (.letter l) = mark b
  literal : ∀ (j i : Nat) (f : Sentence) (text : Text), t.formulas[j]? = some f →
    f.layout.pieces[i]? = some (.literal text) → cell (.piece j i) = []
  point : everyPoint = true → ∀ (j i : Nat) (f : Sentence) (p : Point), t.formulas[j]? = some f →
    (i, p) ∈ f.layout.points →
      ∃ b, p.sentence.evaluate r.toAssignment = .ok b ∧ cell (.piece j i) = mark b
  main : everyPoint = false → ∀ (j i : Nat) (f : Sentence) (p : Point), t.formulas[j]? = some f →
    (i, p) ∈ f.layout.points → p.isMain = true →
      ∃ b, r.values[j]? = some b ∧ cell (.piece j i) = mark b
  hidden : everyPoint = false → ∀ (j i : Nat) (f : Sentence) (p : Point),
    t.formulas[j]? = some f → (i, p) ∈ f.layout.points → p.isMain = false → cell (.piece j i) = []

/-! ### The cells of the lines -/

def headerCell (t : Table) : Column → Text :=
  t.cellsOf Letter.name fun f i =>
    (f.layout.pieces.map fun piece => Text.trim piece.text)[i]?.getD []

def numberCell (t : Table) : Column → Text :=
  t.cellsOf (fun _ => []) fun f i => (f.layout.pieceNumbers.map shownNumber)[i]?.getD []

def rowCell (t : Table) (everyPoint : Bool) (r : Row) : Column → Text :=
  t.cellsOf (fun l => mark (valuation r.assignment l)) fun f =>
    pieceCell everyPoint (f.layout.points.map (Layout.pointValue (valuation r.assignment)))

theorem isHeader_headerCell (t : Table) : IsHeader t t.headerCell := by
  constructor
  case letter => exact fun _ _ => rfl
  case piece =>
    intro j i f piece hf hpiece
    rw [headerCell, cellsOf_piece hf, List.getElem?_map, hpiece]
    rfl

theorem isNumbering_numberCell (t : Table) : IsNumbering t t.numberCell := by
  constructor
  case letter => exact fun _ _ => rfl
  case literal =>
    intro j i f text hf hpiece
    have hnone : f.layout.pieceNumbers[i]? = some none := Layout.numberFrom_literal hpiece 1
    rw [numberCell, cellsOf_piece hf, List.getElem?_map, hnone]
    rfl
  case point =>
    intro j i k f p hf hp
    have hfrom : (Layout.pointsFrom 0 f.layout.pieces)[k]? = some (0 + i, p) := by
      rwa [Nat.zero_add]
    have hnumber : f.layout.pieceNumbers[i]? = some (some (1 + k)) :=
      Layout.numberFrom_point hfrom 1
    rw [numberCell, cellsOf_piece hf, List.getElem?_map, hnumber, Nat.add_comm]
    rfl

/-- At a piece without a value stands nothing. -/
theorem pieceCell_literal {l : Layout} {i : Nat} {text : Text}
    (h : l.pieces[i]? = some (.literal text)) (everyPoint : Bool) (v : Letter → Bool) :
    pieceCell everyPoint (l.points.map (Layout.pointValue v)) i = [] := by
  have hnone : (l.points.map (Layout.pointValue v)).find? (fun w => w.position == i) = none := by
    refine List.find?_eq_none.mpr fun w hw hi => ?_
    obtain ⟨⟨j, p⟩, hp, rfl⟩ := List.mem_map.mp hw
    obtain rfl : j = i := beq_iff_eq.mp hi
    rw [Layout.mem_points, h] at hp
    cases hp
  rw [pieceCell, hnone]

theorem pieceCell_point {l : Layout} {i : Nat} {p : Point} (hp : (i, p) ∈ l.points)
    (everyPoint : Bool) (v : Letter → Bool) :
    pieceCell everyPoint (l.points.map (Layout.pointValue v)) i =
      if everyPoint || p.isMain then mark (p.sentence.truth v) else [] := by
  rw [pieceCell, Layout.find?_pointValue v hp]
  rfl

theorem isRow_rowCell {formulas : List Sentence} {r : Row} (hr : r ∈ (ofBatch formulas).rows) :
    IsRow (ofBatch formulas) everyPoint r ((ofBatch formulas).rowCell everyPoint r) := by
  constructor
  case letter => exact fun l hl => ⟨_, lookup_of_mem_rows hr hl, rfl⟩
  case literal =>
    intro j i f text hf hpiece
    rw [rowCell, cellsOf_piece hf, pieceCell_literal hpiece]
  case point =>
    intro hevery j i f p hf hp
    have hvalue := evaluate_of_mem_rows hr (List.mem_of_getElem? hf)
      (f.placed_layout.occurrences_subset _ hp)
    refine ⟨_, hvalue, ?_⟩
    rw [rowCell, cellsOf_piece hf, pieceCell_point hp, hevery]
    rfl
  case main =>
    intro _ j i f p hf hp hmain
    refine ⟨_, getElem?_values hr hf, ?_⟩
    rw [rowCell, cellsOf_piece hf, pieceCell_point hp, hmain, (Sentence.eq_of_isMain hp hmain).2,
      Bool.or_true]
    rfl
  case hidden =>
    intro hmainOnly j i f p hf hp hmain
    rw [rowCell, cellsOf_piece hf, pieceCell_point hp, hmain, hmainOnly]
    rfl

/-! ### Tidy cells -/

theorem tidy_mark (b : Bool) : Text.Tidy (mark b) := Sentence.tidy_constantSign b

theorem tidy_getD {texts : List Text} (h : ∀ text ∈ texts, Text.Tidy text) (i : Nat) :
    Text.Tidy (texts[i]?.getD []) := by
  cases hi : texts[i]? with
  | none => exact Text.tidy_nil
  | some text => exact h text (List.mem_of_getElem? hi)

theorem tidy_headerCell (t : Table) (c : Column) : Text.Tidy (t.headerCell c) := by
  refine tidy_cellsOf Sentence.tidy_name (fun f i => tidy_getD (fun text htext => ?_) i) c
  obtain ⟨piece, hpiece, rfl⟩ := List.mem_map.mp htext
  exact (Sentence.tidy_of_mem_pieces f piece hpiece).of_subset fun _ => Text.mem_of_mem_trim

theorem tidy_numberCell (t : Table) (c : Column) : Text.Tidy (t.numberCell c) := by
  refine tidy_cellsOf (fun _ => Text.tidy_nil) (fun f i => tidy_getD (fun text htext => ?_) i) c
  obtain ⟨number, -, rfl⟩ := List.mem_map.mp htext
  cases number with
  | none => exact Text.tidy_nil
  | some n => exact Text.tidy_ofNat n

theorem tidy_rowCell (t : Table) (everyPoint : Bool) (r : Row) (c : Column) :
    Text.Tidy (t.rowCell everyPoint r c) := by
  refine tidy_cellsOf (fun l => tidy_mark _) (fun f i => ?_) c
  unfold pieceCell
  split
  · split
    · exact tidy_mark _
    · exact Text.tidy_nil
  · exact Text.tidy_nil

/-! ### The lines -/

theorem map_range_getD {texts : List Text} {n : Nat} (h : texts.length = n) :
    ((List.range n).map fun i => texts[i]?.getD []) = texts := by
  subst h
  refine List.ext_getElem (by simp) fun i hi hi' => ?_
  simp [hi']

theorem headerLine_eq (t : Table) : t.headerLine t.layouts = t.lineOf t.headerCell := by
  rw [headerCell, lineOf_cellsOf, headerLine, layouts, List.map_map]
  congr 1
  exact List.map_congr_left fun f _ => (map_range_getD (List.length_map _)).symm

theorem numberLine_eq (t : Table) : t.numberLine t.layouts = t.lineOf t.numberCell := by
  rw [numberCell, lineOf_cellsOf, numberLine, layouts, List.map_map]
  congr 1
  refine List.map_congr_left fun f _ => (map_range_getD ?_).symm
  exact (List.length_map _).trans (Layout.length_numberFrom 1 f.layout.pieces)

theorem rowLine_eq {formulas : List Sentence} {r : Row} (hr : r ∈ (ofBatch formulas).rows) :
    (ofBatch formulas).rowLine everyPoint (ofBatch formulas).layouts r =
      .ok ((ofBatch formulas).lineOf ((ofBatch formulas).rowCell everyPoint r)) := by
  rw [rowLine_of_mem_rows everyPoint hr, rowCell, lineOf_cellsOf]
  rfl

/-- The widths of the columns. The numbers count also where they are not shown. -/
def columnWidth (t : Table) (everyPoint : Bool) : Column → Nat :=
  widthOver t.headerCell (t.rows.map (t.rowCell everyPoint) ++ [t.numberCell])

/-- The line of a table with these cells. -/
def shownLine (t : Table) (everyPoint : Bool) (cell : Column → Text) : Text :=
  alignedLine (t.columns.map (List.map (t.columnWidth everyPoint))) (t.lineOf cell)

def shownLines (t : Table) (everyPoint : Bool) : List Text :=
  let header := t.shownLine everyPoint t.headerCell
  (if everyPoint then [t.shownLine everyPoint t.numberCell] else []) ++
    header :: List.replicate header.length '-' ::
      t.rows.map fun r => t.shownLine everyPoint (t.rowCell everyPoint r)

theorem displayLines_ofBatch (everyPoint : Bool) (formulas : List Sentence) :
    (ofBatch formulas).displayLines everyPoint (ofBatch formulas).layouts =
      .ok ((ofBatch formulas).shownLines everyPoint) := by
  generalize ht : ofBatch formulas = t
  have hbody : t.rows.mapM (t.rowLine everyPoint t.layouts) =
      .ok ((t.rows.map (t.rowCell everyPoint)).map t.lineOf) := by
    rw [List.map_map]
    subst ht
    exact mapM_eq_ok fun r hr => rowLine_eq hr
  have hwidths : columnWidths (t.lineOf t.headerCell)
      ((t.rows.map (t.rowCell everyPoint)).map t.lineOf ++ [t.lineOf t.numberCell]) =
        t.columns.map (List.map (t.columnWidth everyPoint)) := by
    rw [columnWidth, ← columnWidths_lineOf, List.map_append]
    rfl
  rw [displayLines, hbody, headerLine_eq, numberLine_eq]
  show Except.ok _ = Except.ok _
  rw [hwidths, shownLines, List.map_map, List.map_map]
  cases everyPoint <;> rfl

theorem aligned_shownLine {cell : Column → Text} (htidy : ∀ c, Text.Tidy (cell c))
    (hcell : cell ∈ t.headerCell :: (t.rows.map (t.rowCell everyPoint) ++ [t.numberCell])) :
    Aligned t (t.columnWidth everyPoint) cell (t.shownLine everyPoint cell) :=
  aligned_alignedLine htidy (length_le_widthOver hcell)

theorem aligned_header (t : Table) (everyPoint : Bool) :
    Aligned t (t.columnWidth everyPoint) t.headerCell (t.shownLine everyPoint t.headerCell) :=
  aligned_shownLine t.tidy_headerCell List.mem_cons_self

theorem aligned_numbers (t : Table) (everyPoint : Bool) :
    Aligned t (t.columnWidth everyPoint) t.numberCell (t.shownLine everyPoint t.numberCell) :=
  aligned_shownLine t.tidy_numberCell (by simp)

theorem aligned_row {r : Row} (hr : r ∈ t.rows) :
    Aligned t (t.columnWidth everyPoint) (t.rowCell everyPoint r)
      (t.shownLine everyPoint (t.rowCell everyPoint r)) :=
  aligned_shownLine (t.tidy_rowCell everyPoint r)
    (List.mem_cons_of_mem _ (List.mem_append_left _ (List.mem_map_of_mem hr)))

/-- No line of a table is broken. -/
theorem not_mem_shownLines (t : Table) (everyPoint : Bool) :
    ∀ line ∈ t.shownLines everyPoint, '\n' ∉ line := by
  have hcell {cell : Column → Text} (h : ∀ c, Text.Tidy (cell c)) :
      '\n' ∉ t.shownLine everyPoint cell := (tidy_alignedLine h).not_mem_lineFeed
  have hrule : '\n' ∉ List.replicate (t.shownLine everyPoint t.headerCell).length '-' :=
    fun hmem => absurd (List.eq_of_mem_replicate hmem) (by decide)
  intro line hline
  rw [shownLines, List.mem_append, List.mem_cons, List.mem_cons] at hline
  rcases hline with hline | rfl | rfl | hline
  · cases everyPoint with
    | false => cases hline
    | true =>
      obtain rfl := List.mem_singleton.mp hline
      exact hcell t.tidy_numberCell
  · exact hcell t.tidy_headerCell
  · exact hrule
  · obtain ⟨r, -, rfl⟩ := List.mem_map.mp hline
    exact hcell (t.tidy_rowCell everyPoint r)

/-- A generated table can be shown, and the lines of the text are its lines. -/
theorem exists_display (everyPoint : Bool) (formulas : List Sentence) :
    ∃ shown, (ofBatch formulas).display everyPoint (ofBatch formulas).layouts = .ok shown ∧
      shown.splitOn '\n' = (ofBatch formulas).shownLines everyPoint := by
  refine ⟨Text.joinLines ((ofBatch formulas).shownLines everyPoint), ?_, ?_⟩
  · rw [display, displayLines_ofBatch]
    rfl
  · refine List.splitOn_intercalate '\n' (not_mem_shownLines _ everyPoint) ?_
    rw [shownLines]
    exact List.append_ne_nil_of_right_ne_nil _ (List.cons_ne_nil _ _)

/-- The lines of a table in columns: numbers, a header, and one line for each row. -/
structure Arranged (t : Table) (everyPoint : Bool) (width : Column → Nat) (numbers header : Text)
    (body : List Text) : Prop where
  numbers_aligned : ∃ cell, IsNumbering t cell ∧ Aligned t width cell numbers
  header_aligned : ∃ cell, IsHeader t cell ∧ Aligned t width cell header
  body_aligned : List.Forall₂ (fun r line => ∃ cell, IsRow t everyPoint r cell ∧
    Aligned t width cell line) t.rows body

/-- **A table is displayed in columns.** Whatever the batch, its table can be shown. The text is the
header, a rule as long as the header and one line for each row, with the numbers on top if every
point shows its value. There is a column for each letter and for each piece of the layouts, with one
width for all lines, in which their cells are centred. -/
theorem display_aligns (everyPoint : Bool) (formulas : List Sentence) :
    ∃ t shown width numbers header body, generate formulas = .ok t ∧
      t.display everyPoint t.layouts = .ok shown ∧
      shown.splitOn '\n' = (if everyPoint then [numbers] else []) ++
        header :: List.replicate header.length '-' :: body ∧
      Arranged t everyPoint width numbers header body := by
  obtain ⟨shown, hshown, hlines⟩ := exists_display everyPoint formulas
  refine ⟨ofBatch formulas, shown, (ofBatch formulas).columnWidth everyPoint, _, _, _,
    generate_eq_ofBatch formulas, hshown, hlines, ?_⟩
  constructor
  case numbers_aligned => exact ⟨_, isNumbering_numberCell _, aligned_numbers _ _⟩
  case header_aligned => exact ⟨_, isHeader_headerCell _, aligned_header _ _⟩
  case body_aligned =>
    rw [List.forall₂_map_right_iff, List.forall₂_same]
    exact fun r hr => ⟨_, isRow_rowCell hr, aligned_row hr⟩

end Propositional.Table
