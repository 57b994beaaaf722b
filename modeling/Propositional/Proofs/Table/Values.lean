import Propositional.Proofs.Evaluation.Outcome
import Propositional.Table

/-! The values in a truth table.

A row of a generated table stands for a valuation, `Table.valuation` of its assignment, which has a
value for every letter of the batch (`lookup_of_mem_rows`), and the row lists the truth values of
the formulas under it (`values_of_mem_rows`). So evaluating a formula under the row never meets a
letter without a value and comes to the value that is listed, whether the row is asked letter by
letter or its assignment is taken as a mapping; and the value says whether the formula holds.
`generate_valued` states this for the table of a batch. -/
namespace Propositional.Table

variable {formulas : List Sentence} {r : Row}

/-! ### The valuation of a row -/

theorem truth?_toAssignment_iff {l : Letter} {b : Bool} :
    r.toAssignment.truth? l = some b ↔ r.lookup l = .ok (some b) := by
  show (r.reply l).truth? = some b ↔ _
  rw [Row.reply, Row.lookup]
  rcases r.assignment.get? l.name with _ | _ | b' <;> simp [Reply.ofEntry, Reply.truth?]

/-- A row and its assignment, taken as a mapping by display name, give the same values. -/
theorem evaluate_mapping (r : Row) (s : Sentence) :
    s.evaluate (.mapping .empty r.assignment) = s.evaluate r.toAssignment :=
  Sentence.evaluate_congr fun _ _ => rfl

/-- A generated row has a value for every letter of the batch. -/
theorem lookup_of_mem_rows (hr : r ∈ (ofBatch formulas).rows) {l : Letter}
    (hl : l ∈ Sentence.batchLetters formulas) :
    r.lookup l = .ok (some (valuation r.assignment l)) := by
  obtain ⟨state, -, rfl⟩ := List.mem_map.mp hr
  exact truth?_toAssignment_iff.mp (truth?_stateAssignment hl state _)

/-- Under a generated row every part of a formula comes to its truth value. -/
theorem evaluate_of_mem_rows (hr : r ∈ (ofBatch formulas).rows) {f s : Sentence}
    (hf : f ∈ formulas) (hs : s.occurrences ⊆ f.occurrences) :
    s.evaluate r.toAssignment = .ok (s.truth (valuation r.assignment)) := by
  refine Sentence.evaluate_eq_truth fun l hl => truth?_toAssignment_iff.mpr ?_
  exact lookup_of_mem_rows hr (Sentence.mem_batchLetters.mpr ⟨f, hf, hs hl⟩)

/-- A generated row lists the truth values of the formulas. -/
theorem values_of_mem_rows (hr : r ∈ (ofBatch formulas).rows) :
    r.values = formulas.map (Sentence.truth (valuation r.assignment)) := by
  obtain ⟨state, -, rfl⟩ := List.mem_map.mp hr
  rfl

theorem getElem?_values (hr : r ∈ (ofBatch formulas).rows) {j : Nat} {f : Sentence}
    (hf : formulas[j]? = some f) : r.values[j]? = some (f.truth (valuation r.assignment)) := by
  rw [values_of_mem_rows hr, List.getElem?_map, hf]
  rfl

/-! ### Columns -/

theorem column?_eq_map {t : Table} {j : Nat} {g : Row → Bool}
    (h : ∀ r ∈ t.rows, r.values[j]? = some (g r)) : t.column? j = some (t.rows.map g) := by
  show t.rows.mapM (fun r => r.values[j]?) = some (t.rows.map g)
  generalize t.rows = rows at h
  induction rows with
  | nil => rfl
  | cons r rest ih =>
    rw [List.mapM_cons, h r List.mem_cons_self, ih fun x hx => h x (List.mem_cons_of_mem r hx)]
    rfl

/-- The truth values of a sentence down the rows of a batch. -/
def truths (formulas : List Sentence) (s : Sentence) : List Bool :=
  (ofBatch formulas).rows.map fun r => s.truth (valuation r.assignment)

theorem column?_ofBatch {j : Nat} {f : Sentence} (hf : formulas[j]? = some f) :
    (ofBatch formulas).column? j = some (truths formulas f) :=
  column?_eq_map fun _ hr => getElem?_values hr hf

/-! ### The whole table -/

/-- The values in a table are those of its formulas. -/
structure Valued (formulas : List Sentence) (t : Table) : Prop where
  formulas_eq : t.formulas = formulas
  length_values : ∀ r ∈ t.rows, r.values.length = formulas.length
  /-- No formula has a letter without a value. -/
  lookup_ok : ∀ r ∈ t.rows, ∀ f ∈ formulas, ∀ l ∈ f.occurrences, ∃ b, r.lookup l = .ok (some b)
  /-- What a row lists for a formula is what the formula evaluates to under the row, and whether it
  holds. -/
  value_eq : ∀ r ∈ t.rows, ∀ (j : Nat) (f : Sentence), formulas[j]? = some f →
    ∃ b, r.values[j]? = some b ∧
      f.evaluate r.toAssignment = .ok b ∧ f.evaluate (.mapping .empty r.assignment) = .ok b ∧
      ∀ v : Letter → Bool, (∀ l ∈ f.occurrences, r.lookup l = .ok (some (v l))) →
        (b = true ↔ f.Holds v)
  /-- A column lists the values of its formula in the order of the rows. -/
  column_eq : ∀ (j : Nat) (f : Sentence), formulas[j]? = some f →
    ∃ column, t.column? j = some column ∧ column.map some = t.rows.map fun r => r.values[j]?

/-- **The values in a table are the truth values of its formulas.** Whatever the batch, its table is
generated without a letter that has no value; in each row stands, formula by formula, what the
formula evaluates to under that row, and a column lists these values. -/
theorem generate_valued (formulas : List Sentence) :
    ∃ t, generate formulas = .ok t ∧ Valued formulas t := by
  refine ⟨ofBatch formulas, generate_eq_ofBatch formulas, ?_⟩
  have hletters : ∀ f ∈ formulas, ∀ l ∈ f.occurrences, l ∈ Sentence.batchLetters formulas :=
    fun f hf l hl => Sentence.mem_batchLetters.mpr ⟨f, hf, hl⟩
  constructor
  case formulas_eq => rfl
  case length_values =>
    intro r hr
    rw [values_of_mem_rows hr, List.length_map]
  case lookup_ok =>
    intro r hr f hf l hl
    exact ⟨_, lookup_of_mem_rows hr (hletters f hf l hl)⟩
  case value_eq =>
    intro r hr j f hf
    have hmem := List.mem_of_getElem? hf
    have heval := evaluate_of_mem_rows hr hmem (List.Subset.refl _)
    refine ⟨f.truth (valuation r.assignment), getElem?_values hr hf, heval, ?_, ?_⟩
    · rw [evaluate_mapping, heval]
    · intro v hv
      have hagree : ∀ l ∈ f.occurrences, valuation r.assignment l = v l := fun l hl =>
        Option.some.inj (Except.ok.inj
          ((lookup_of_mem_rows hr (hletters f hmem l hl)).symm.trans (hv l hl)))
      rw [Sentence.truth_congr hagree, Sentence.truth_eq_true_iff]
  case column_eq =>
    intro j f hf
    refine ⟨truths formulas f, column?_ofBatch hf, ?_⟩
    rw [truths, List.map_map]
    exact List.map_congr_left fun r hr => (getElem?_values hr hf).symm

end Propositional.Table
