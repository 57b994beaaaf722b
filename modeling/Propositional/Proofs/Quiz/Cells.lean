import Propositional.Proofs.Layout.OpenParts
import Propositional.Proofs.Quiz.Accuracy

/-! The cells of a session, listed and counted.

Cells are listed row by row, formula by formula and left to right, so the list ascends
(`Sheet.pairwise_cells`) and has no cell twice; whether something is a cell is decided without the
list, by the bounds of the table and the nodes of a graph. The nodes are the places of the open
parts of a formula (`DependencyMap.length_nodes`), so what a tally counts in all is known from the
formulas: in every row one cell for each negation and each connective. `run_lists_cells` states this
in every state of a session. -/
namespace Propositional

/-- The negations and the sentences with a connective in a sentence, each at every place where it
stands. -/
def Sentence.openParts : Sentence → List Sentence
  | const _ | letter _ => []
  | negation s => negation s :: s.openParts
  | binary c l r => l.openParts ++ binary c l r :: r.openParts

theorem Sentence.filter_inorder (s : Sentence) :
    s.inorder.filter (fun u => !u.isAtomic) = s.openParts := by
  induction s with
  | const b => rfl
  | letter l => rfl
  | negation s ih =>
    rw [inorder, List.filter_cons_of_pos rfl, ih]
    rfl
  | binary c l r ihl ihr =>
    rw [inorder, List.filter_append, List.filter_cons_of_pos rfl, ihl, ihr]
    rfl

/-- There is a node for each open part. -/
theorem DependencyMap.length_nodes (s : Sentence) :
    (ofSentence s).nodes.length = s.openParts.length := by
  rw [← s.filter_inorder]
  exact (nodes_hold s).length_eq

namespace Quiz

/-- A cell is listed before another one. -/
def Cell.Before (a b : Cell) : Prop :=
  a.row < b.row ∨ a.row = b.row ∧
    (a.formula < b.formula ∨ a.formula = b.formula ∧ a.position < b.position)

theorem Cell.Before.ne {a b : Cell} (h : a.Before b) : a ≠ b := by
  rintro rfl
  rcases h with hrow | ⟨-, hformula | ⟨-, hposition⟩⟩
  · exact Int.lt_irrefl _ hrow
  · exact Int.lt_irrefl _ hformula
  · exact Int.lt_irrefl _ hposition

namespace Sheet

/-! ### The list of cells -/

theorem pairwise_zipIdx {α : Type} (l : List α) : l.zipIdx.Pairwise fun a b => a.2 < b.2 := by
  have hpositions : (l.zipIdx.map Prod.snd).Pairwise (· < ·) := by
    rw [List.zipIdx_map_snd]
    exact List.pairwise_lt_range'
  exact List.pairwise_map.mp hpositions

/-- The cells of a row that belong to given formulas. -/
def rowCells (graphs : List (DependencyMap × Nat)) (row : Nat) : List Cell :=
  graphs.flatMap fun (graph, formula) => graph.nodes.map fun position => ⟨row, formula, position⟩

theorem row_of_mem_rowCells {graphs : List (DependencyMap × Nat)} {row : Nat} {c : Cell}
    (hc : c ∈ rowCells graphs row) : c.row = row := by
  obtain ⟨_, -, hc⟩ := List.mem_flatMap.mp hc
  obtain ⟨_, -, rfl⟩ := List.mem_map.mp hc
  rfl

theorem pairwise_rowCells (graphs : List DependencyMap) (row : Nat) :
    (rowCells graphs.zipIdx row).Pairwise Cell.Before := by
  rw [rowCells, List.pairwise_flatMap]
  constructor
  · rintro ⟨graph, formula⟩ -
    rw [List.pairwise_map]
    exact graph.pairwise_nodes.imp fun hposition => .inr ⟨rfl, .inr ⟨rfl, hposition⟩⟩
  · refine (pairwise_zipIdx graphs).imp fun {a b} hformula c hc d hd => ?_
    obtain ⟨_, -, rfl⟩ := List.mem_map.mp hc
    obtain ⟨_, -, rfl⟩ := List.mem_map.mp hd
    exact .inr ⟨rfl, .inl (Int.ofNat_lt.mpr hformula)⟩

/-- The list of cells ascends. -/
theorem pairwise_cells (s : Sheet) : s.cells.Pairwise Cell.Before := by
  show ((List.range s.table.rows.length).flatMap (rowCells s.graphs.zipIdx)).Pairwise Cell.Before
  rw [List.pairwise_flatMap]
  constructor
  · exact fun row _ => pairwise_rowCells s.graphs row
  · refine List.pairwise_lt_range.imp fun {row row'} hrow c hc d hd => .inl ?_
    rw [row_of_mem_rowCells hc, row_of_mem_rowCells hd]
    exact Int.ofNat_lt.mpr hrow

/-! ### The number of cells -/

theorem length_rowCells (graphs : List (DependencyMap × Nat)) (row : Nat) :
    (rowCells graphs row).length = (graphs.flatMap fun g => g.1.nodes).length := by
  simp only [rowCells, List.length_flatMap, List.length_map]

theorem length_cells (s : Sheet) :
    s.cells.length = s.table.rows.length * (s.graphs.flatMap DependencyMap.nodes).length := by
  have hrow : ∀ row, (rowCells s.graphs.zipIdx row).length =
      (s.graphs.flatMap DependencyMap.nodes).length := by
    intro row
    have hgraphs := List.flatMap_map Prod.fst DependencyMap.nodes (l := s.graphs.zipIdx)
    rw [List.zipIdx_map_fst] at hgraphs
    rw [length_rowCells, hgraphs]
  show ((List.range s.table.rows.length).flatMap (rowCells s.graphs.zipIdx)).length = _
  simp [List.length_flatMap, hrow]

theorem length_cells_ofTable (t : Table) :
    (ofTable t).cells.length = t.rows.length * (t.formulas.flatMap Sentence.openParts).length := by
  have hnodes : ((t.formulas.map DependencyMap.ofSentence).flatMap DependencyMap.nodes).length =
      (t.formulas.flatMap Sentence.openParts).length := by
    simp only [List.flatMap_map, List.length_flatMap, DependencyMap.length_nodes]
  rw [length_cells, ← hnodes]
  rfl

end Sheet

namespace Session

/-- The cells of a session on a table are listed in order, each once, and all of them are. -/
structure ListsCells (s : Session) (t : Table) : Prop where
  ascend : s.sheet.cells.Pairwise Cell.Before
  nodup : s.sheet.cells.Nodup
  /-- This is so for all addresses, those with negative parts as well. -/
  contains_iff : ∀ c, s.sheet.contains c = true ↔ c ∈ s.sheet.cells
  /-- There is a cell for each open part of a formula in each row. -/
  total_eq : s.tally.total = t.rows.length * (t.formulas.flatMap Sentence.openParts).length

theorem listsCells_of_sheet {s : Session} {t : Table} (hsheet : s.sheet = Sheet.ofTable t) :
    s.ListsCells t where
  ascend := s.sheet.pairwise_cells
  nodup := s.sheet.pairwise_cells.imp Cell.Before.ne
  contains_iff := fun _ => Sheet.mem_cells_iff.symm
  total_eq := by
    show s.sheet.cells.length = _
    rw [hsheet, Sheet.length_cells_ofTable]

/-- **Cells are listed as they are counted and recognized.** Whatever has been done in a session on
a generated table, its cells are listed by row, formula and position, each once; what is recognized
as a cell is what is listed; and their number is that of the rows times that of the negations and
connectives in the formulas. -/
theorem run_lists_cells (formulas : List Sentence) :
    ∃ t, Table.generate formulas = .ok t ∧ t.formulas = formulas ∧ ∀ actions,
      ((start t).run actions).ListsCells t := by
  refine ⟨Table.ofBatch formulas, Table.generate_eq_ofBatch formulas, rfl, fun actions => ?_⟩
  obtain ⟨hsheet, -⟩ := run_consistent (Sheet.answerable_ofBatch formulas) actions
  exact listsCells_of_sheet hsheet

end Session

end Quiz

end Propositional
