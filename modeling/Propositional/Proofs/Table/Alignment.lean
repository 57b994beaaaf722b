import Propositional.Proofs.Layout.Pieces
import Propositional.Proofs.Table.Display

/-! The columns of a displayed table.

A displayed table has a column for each letter and for each piece of its layouts (`columns`), and a
line has a cell in every column (`lineOf`). So the widths of the columns come from comparing the
lines column by column (`columnWidths_lineOf`), and a line with cells that fit in the widths of
their columns is aligned in them (`aligned_alignedLine`). -/
namespace Propositional.Table

variable {t : Table} {everyPoint : Bool}

/-! ### Columns and cells -/

/-- The column of a letter, or of the piece at a position of the layout of the formula at a
position. -/
inductive Column where
  | letter (l : Letter)
  | piece (formula position : Nat)

/-- The columns of a table in their groups. -/
def columns (t : Table) : List (List Column) :=
  let groups := t.formulas.mapIdx fun j f =>
    (List.range f.layout.pieces.length).map (Column.piece j)
  if t.letters.isEmpty then groups else t.letters.map Column.letter :: groups

/-- The line that has these cells in the columns. -/
def lineOf (t : Table) (cell : Column → Text) : Line := t.columns.map fun group => group.map cell

/-- Cells that are given for the letters and for the positions in the layouts of the formulas. -/
def cellsOf (t : Table) (letter : Letter → Text) (piece : Sentence → Nat → Text) : Column → Text
  | .letter l => letter l
  | .piece j i => (t.formulas[j]?.map fun f => piece f i).getD []

section
variable {letter : Letter → Text} {piece : Sentence → Nat → Text}

theorem cellsOf_piece {j : Nat} {f : Sentence} (hf : t.formulas[j]? = some f) (i : Nat) :
    t.cellsOf letter piece (.piece j i) = piece f i := by
  rw [cellsOf, hf]
  rfl

theorem lineOf_cellsOf (t : Table) (letter : Letter → Text) (piece : Sentence → Nat → Text) :
    t.lineOf (t.cellsOf letter piece) = t.withLetters (t.letters.map letter)
      (t.formulas.map fun f => (List.range f.layout.pieces.length).map (piece f)) := by
  have hgroups : (t.formulas.mapIdx fun j f =>
      (List.range f.layout.pieces.length).map (Column.piece j)).map
        (List.map (t.cellsOf letter piece)) =
      t.formulas.map fun f => (List.range f.layout.pieces.length).map (piece f) := by
    refine List.ext_getElem? fun j => ?_
    rw [List.getElem?_map, List.getElem?_mapIdx, List.getElem?_map]
    cases hj : t.formulas[j]? with
    | none => rfl
    | some f =>
      simp only [Option.map_some, List.map_map, Function.comp_def, cellsOf_piece hj]
  rw [lineOf, columns, withLetters]
  split
  · exact hgroups
  · rw [List.map_cons, hgroups, List.map_map]
    rfl

theorem tidy_cellsOf (hletter : ∀ l, Text.Tidy (letter l)) (hpiece : ∀ f i, Text.Tidy (piece f i))
    (c : Column) : Text.Tidy (t.cellsOf letter piece c) := by
  cases c with
  | letter l => exact hletter l
  | piece j i =>
    cases hj : t.formulas[j]? with
    | none =>
      rw [cellsOf, hj]
      exact Text.tidy_nil
    | some f =>
      rw [cellsOf_piece hj]
      exact hpiece f i

end

/-! ### Widths -/

/-- The width of a column over a line and some more. -/
def widthOver (first : Column → Text) (rest : List (Column → Text)) (c : Column) : Nat :=
  rest.foldl (fun width cell => max width (cell c).length) (first c).length

theorem widest_map (columns : List (List Column)) (a b : Column → Nat) :
    widest (columns.map (List.map a)) (columns.map (List.map b)) =
      columns.map (List.map fun c => max (a c) (b c)) := by
  simp only [widest, List.zipWith_map, List.zipWith_self]

theorem cellWidths_lineOf (t : Table) (cell : Column → Text) :
    cellWidths (t.lineOf cell) = t.columns.map (List.map fun c => (cell c).length) := by
  simp only [cellWidths, lineOf, List.map_map, Function.comp_def]

theorem columnWidths_lineOf (t : Table) (first : Column → Text) (rest : List (Column → Text)) :
    columnWidths (t.lineOf first) (rest.map t.lineOf) =
      t.columns.map (List.map (widthOver first rest)) := by
  have hfold (width : Column → Nat) :
      ((rest.map t.lineOf).map cellWidths).foldl widest (t.columns.map (List.map width)) =
        t.columns.map (List.map fun c =>
          rest.foldl (fun width cell => max width (cell c).length) (width c)) := by
    induction rest generalizing width with
    | nil => rfl
    | cons cell rest ih =>
      rw [List.map_cons, List.map_cons, List.foldl_cons, cellWidths_lineOf, widest_map, ih]
      rfl
  rw [columnWidths, cellWidths_lineOf, hfold]
  rfl

theorem le_foldl_max {α : Type} (f : α → Nat) (l : List α) (n : Nat) :
    n ≤ l.foldl (fun m a => max m (f a)) n ∧ ∀ a ∈ l, f a ≤ l.foldl (fun m a => max m (f a)) n := by
  induction l generalizing n with
  | nil => exact ⟨Nat.le_refl n, nofun⟩
  | cons b rest ih =>
    obtain ⟨hstart, hrest⟩ := ih (max n (f b))
    refine ⟨Nat.le_trans (Nat.le_max_left _ _) hstart, fun a ha => ?_⟩
    rcases List.mem_cons.mp ha with rfl | ha
    · exact Nat.le_trans (Nat.le_max_right _ _) hstart
    · exact hrest a ha

/-- A column is as wide as each of its cells. -/
theorem length_le_widthOver {first cell : Column → Text} {rest : List (Column → Text)}
    (h : cell ∈ first :: rest) (c : Column) : (cell c).length ≤ widthOver first rest c := by
  obtain ⟨hfirst, hrest⟩ := le_foldl_max (fun cell : Column → Text => (cell c).length) rest
    (first c).length
  rcases List.mem_cons.mp h with rfl | h
  · exact hfirst
  · exact hrest cell h

/-! ### Aligned lines -/

/-- The fields of a line: those of a group are one space apart, and groups have a bar between
them. -/
def joinedFields (t : Table) (field : Column → Text) : Text :=
  Text.joinWith [' ', '|', ' '] (t.columns.map fun group => Text.joinWith [' '] (group.map field))

/-- A line of text with a cell in each column. Every cell fits and stands in the middle of its
field, and the line is the fields, joined, without the spaces at the end. -/
structure Aligned (t : Table) (width : Column → Nat) (cell : Column → Text) (line : Text) :
    Prop where
  fits : ∀ group ∈ t.columns, ∀ c ∈ group, (cell c).length ≤ width c
  joined : ∃ (field : Column → Text) (n : Nat),
    (∀ group ∈ t.columns, ∀ c ∈ group, Text.Centred (cell c) (width c) (field c)) ∧
      line ++ Text.spaces n = t.joinedFields field
  trimmed : ∀ u, line ≠ u ++ [' ']

section
variable {width : Column → Nat} {cell : Column → Text}

theorem alignedLine_lineOf (t : Table) (width : Column → Nat) (cell : Column → Text) :
    alignedLine (t.columns.map (List.map width)) (t.lineOf cell) =
      Text.trimEnd (t.joinedFields fun c => Text.centered (cell c) (width c)) := by
  simp only [alignedLine, lineOf, joinedFields, List.zipWith_map, List.zipWith_self, alignedGroup]

theorem tidy_joinedFields (htidy : ∀ c, Text.Tidy (cell c)) :
    Text.Tidy (t.joinedFields fun c => Text.centered (cell c) (width c)) := by
  refine Text.Tidy.joinWith (by simp [Text.Tidy, Text.isBlankChar]) fun text htext => ?_
  obtain ⟨group, -, rfl⟩ := List.mem_map.mp htext
  refine Text.Tidy.joinWith (Text.tidy_spaces 1) fun field hfield => ?_
  obtain ⟨c, -, rfl⟩ := List.mem_map.mp hfield
  exact (htidy c).centered (width c)

theorem tidy_alignedLine (htidy : ∀ c, Text.Tidy (cell c)) :
    Text.Tidy (alignedLine (t.columns.map (List.map width)) (t.lineOf cell)) := by
  rw [alignedLine_lineOf]
  exact (tidy_joinedFields htidy).of_subset (Text.trimEnd_subset _)

/-- Cells that fit are aligned. -/
theorem aligned_alignedLine (htidy : ∀ c, Text.Tidy (cell c))
    (hfits : ∀ c, (cell c).length ≤ width c) :
    Aligned t width cell (alignedLine (t.columns.map (List.map width)) (t.lineOf cell)) := by
  rw [alignedLine_lineOf]
  constructor
  case fits => exact fun _ _ c _ => hfits c
  case joined =>
    have htext : Text.Tidy (t.joinedFields fun c => Text.centered (cell c) (width c)) :=
      tidy_joinedFields htidy
    obtain ⟨n, hn⟩ := htext.exists_trimEnd_append
    exact ⟨_, n, fun _ _ c _ => Text.centred_centered (hfits c), hn⟩
  case trimmed =>
    intro u hu
    have hnil := Text.eq_nil_of_trimEnd hu (List.forall_mem_singleton.mpr rfl)
    cases hnil

end

end Propositional.Table
