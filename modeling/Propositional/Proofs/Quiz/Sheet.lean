import Propositional.Proofs.Layout.OpenParts
import Propositional.Proofs.Table.Values
import Propositional.Quiz

/-! The sheet of a generated table.

A cell is listed exactly if it is one (`mem_cells_iff`). On the sheet of a table that is generated
for a batch, every cell has a right answer, since a row has a value for each letter of its formulas,
and a cell depends on cells only. `Answerable` names the two; what is shown of sessions rests on
them and not on how tables are made. -/
namespace Propositional.Quiz.Sheet

/-! ### Cells -/

theorem fromFront?_eq_some_iff {α : Type} {l : List α} {q : Int} {a : α} :
    fromFront? l q = some a ↔ ∃ n : Nat, q = n ∧ l[n]? = some a := by
  unfold fromFront?
  constructor
  · intro h
    split at h
    next hq => exact ⟨q.toNat, (Int.toNat_of_nonneg hq).symm, h⟩
    next => cases h
  · rintro ⟨n, rfl, h⟩
    simpa using h

theorem fromFront?_natCast {α : Type} (l : List α) (n : Nat) : fromFront? l n = l[n]? := by
  simp [fromFront?]

theorem fromFront?_map {α β : Type} (f : α → β) (l : List α) (q : Int) :
    fromFront? (l.map f) q = (fromFront? l q).map f := by
  unfold fromFront?
  split <;> simp

theorem contains_iff {s : Sheet} {c : Cell} :
    s.contains c = true ↔ ∃ row graph, s.row? c = some row ∧ s.graph? c = some graph ∧
      graph.isNode c.position = true := by
  rw [contains]
  cases s.row? c <;> cases s.graph? c <;> simp

/-- The cells of a sheet are listed, and nothing else. -/
theorem mem_cells_iff {s : Sheet} {c : Cell} : c ∈ s.cells ↔ s.contains c = true := by
  rw [contains_iff]
  simp only [cells, List.mem_flatMap, List.mem_map, List.mem_range, row?, graph?,
    fromFront?_eq_some_iff]
  constructor
  · rintro ⟨row, hrow, ⟨graph, formula⟩, hgraph, position, hposition, rfl⟩
    exact ⟨s.table.rows[row], graph, ⟨row, rfl, List.getElem?_eq_getElem hrow⟩,
      ⟨formula, rfl, List.mem_zipIdx_iff_getElem?.mp hgraph⟩,
      DependencyMap.mem_nodes_iff.mp hposition⟩
  · rintro ⟨row, graph, ⟨n, hn, hrow⟩, ⟨k, hk, hgraph⟩, hnode⟩
    obtain ⟨hlt, -⟩ := List.getElem?_eq_some_iff.mp hrow
    refine ⟨n, hlt, (graph, k), List.mem_zipIdx_iff_getElem?.mpr hgraph, c.position,
      DependencyMap.mem_nodes_iff.mpr hnode, ?_⟩
    rw [← hn, ← hk]

/-! ### Sheets on which every cell can be answered -/

/-- What the sheet of a generated table promises. -/
structure Answerable (s : Sheet) : Prop where
  solution_ok : ∀ {c}, s.contains c = true → ∃ b, s.solution c = .ok b
  contains_dependency : ∀ {c d}, s.contains c = true → d ∈ s.dependencies c →
    s.contains d = true

/-- The right answer to a cell that has one. -/
def expected (s : Sheet) (c : Cell) : Bool := ((s.solution c).toOption).getD false

theorem Answerable.solution_eq {s : Sheet} (h : s.Answerable) {c : Cell}
    (hc : s.contains c = true) : s.solution c = .ok (s.expected c) := by
  obtain ⟨b, hb⟩ := h.solution_ok hc
  rw [expected, hb]
  rfl

/-! ### The sheet of a generated table -/

theorem graph?_ofTable (t : Table) (c : Cell) :
    (ofTable t).graph? c = (fromFront? t.formulas c.formula).map DependencyMap.ofSentence :=
  fromFront?_map _ _ _

theorem layout?_ofTable (t : Table) (c : Cell) :
    (ofTable t).layout? c = (fromFront? t.formulas c.formula).map Sentence.layout :=
  fromFront?_map _ _ _

theorem contains_ofTable_iff {t : Table} {c : Cell} :
    (ofTable t).contains c = true ↔ ∃ row f, (ofTable t).row? c = some row ∧
      fromFront? t.formulas c.formula = some f ∧
      (DependencyMap.ofSentence f).isNode c.position = true := by
  rw [contains_iff, graph?_ofTable]
  simp only [Option.map_eq_some_iff]
  constructor
  · rintro ⟨row, _, hrow, ⟨f, hf, rfl⟩, hnode⟩
    exact ⟨row, f, hrow, hf, hnode⟩
  · rintro ⟨row, f, hrow, hf, hnode⟩
    exact ⟨row, _, hrow, ⟨f, hf, rfl⟩, hnode⟩

/-- The cells of a table are at the open points of its formulas. -/
theorem cells_ofTable (t : Table) :
    (ofTable t).cells =
      (List.range t.rows.length).flatMap fun row => t.formulas.zipIdx.flatMap fun f =>
        (f.1.layout.points.filter fun p => !p.2.sentence.isAtomic).map fun p =>
          ⟨row, f.2, p.1⟩ := by
  simp only [cells, ofTable, List.zipIdx_map, List.flatMap_map, Prod.map_fst, Prod.map_snd, id_eq,
    DependencyMap.nodes_ofSentence, List.map_map]
  rfl

/-- The point that a cell stands for. -/
def point? (s : Sheet) (c : Cell) : Option Point :=
  (s.layout? c).bind fun l => (l.pointAt c.position).toOption

theorem sentence?_eq_map (s : Sheet) (c : Cell) :
    s.sentence? c = (s.point? c).map Point.sentence := by
  rw [sentence?, point?]
  cases s.layout? c <;> rfl

theorem point?_ofTable {t : Table} {c : Cell} {f : Sentence}
    (hf : fromFront? t.formulas c.formula = some f) {i : Nat} {p : Point}
    (hi : c.position = i) (hp : (i, p) ∈ f.layout.points) : (ofTable t).point? c = some p := by
  rw [point?, layout?_ofTable, hf, hi]
  show (f.layout.pointAt i).toOption = some p
  rw [Layout.pointAt_natCast.mpr hp]
  rfl

theorem contains_of_mem_dependencies {t : Table} {c d : Cell}
    (hc : (ofTable t).contains c = true) (hd : d ∈ (ofTable t).dependencies c) :
    (ofTable t).contains d = true := by
  obtain ⟨row, f, hrow, hf, -⟩ := contains_ofTable_iff.mp hc
  rw [dependencies, graph?_ofTable, hf] at hd
  obtain ⟨q, hq, rfl⟩ := List.mem_map.mp hd
  exact contains_ofTable_iff.mpr
    ⟨row, f, hrow, hf, DependencyMap.isNode_of_mem_dependencies hq⟩

/-- The right answer to a cell is the truth value of its sentence in its row. -/
theorem solution_ofBatch {formulas : List Sentence} {c : Cell} {r : Row} {f : Sentence}
    (hr : (ofTable (Table.ofBatch formulas)).row? c = some r)
    (hf : fromFront? formulas c.formula = some f) {i : Nat} {p : Point} (hi : c.position = i)
    (hp : (i, p) ∈ f.layout.points) (hopen : p.sentence.isAtomic = false) :
    (ofTable (Table.ofBatch formulas)).solution c =
      .ok (p.sentence.truth (Table.valuation r.assignment)) := by
  have hnode : (DependencyMap.ofSentence f).isNode c.position = true :=
    DependencyMap.isNode_ofSentence_iff.mpr ⟨i, p, hi, hp, hopen⟩
  have hc := contains_ofTable_iff.mpr ⟨r, f, hr, hf, hnode⟩
  obtain ⟨_, -, hrow⟩ := fromFront?_eq_some_iff.mp hr
  obtain ⟨_, -, hformula⟩ := fromFront?_eq_some_iff.mp hf
  have heval := Table.evaluate_of_mem_rows (List.mem_of_getElem? hrow)
    (List.mem_of_getElem? hformula) (f.placed_layout.occurrences_subset _ hp)
  rw [solution, if_pos hc, hr, sentence?_eq_map, point?_ofTable hf hi hp]
  show (p.sentence.evaluate r.toAssignment).mapError Error.unbound = _
  rw [heval]
  rfl

theorem answerable_ofBatch (formulas : List Sentence) :
    (ofTable (Table.ofBatch formulas)).Answerable where
  contains_dependency := contains_of_mem_dependencies
  solution_ok := by
    intro c hc
    obtain ⟨r, f, hr, hf, hnode⟩ := contains_ofTable_iff.mp hc
    obtain ⟨i, p, hi, hp, hopen⟩ := DependencyMap.isNode_ofSentence_iff.mp hnode
    exact ⟨_, solution_ofBatch hr hf hi hp hopen⟩

end Propositional.Quiz.Sheet
