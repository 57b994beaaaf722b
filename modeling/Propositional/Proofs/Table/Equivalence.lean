import Propositional.Proofs.Table.Enumeration
import Propositional.Proofs.Table.Values

/-! Tables decide which formulas say the same.

There are infinitely many letters, and a table has rows for those of its batch only. That is enough:
each valuation of all letters agrees with some row on the letters of the batch
(`exists_row_agrees`), so whatever depends on these letters alone holds in all rows exactly if it
holds under all valuations (`forall_rows_iff`). Two columns are the same list if their formulas have
the same value in each row, hence if they are equivalent; `generate_decides` states this, and the
same for a column that is true throughout. -/
namespace Propositional

/-- The assignment that gives every letter its value in a valuation. -/
def Assignment.total (v : Letter → Bool) : Assignment := .function fun l => .value (v l)

namespace Sentence

/-- Two sentences hold under the same valuations. -/
def Equivalent (f g : Sentence) : Prop := ∀ v, f.Holds v ↔ g.Holds v

/-- The sentence holds under every valuation. -/
def Valid (f : Sentence) : Prop := ∀ v, f.Holds v

theorem evaluate_total (v : Letter → Bool) (s : Sentence) :
    s.evaluate (.total v) = .ok (s.truth v) :=
  evaluate_eq_truth fun _ _ => rfl

theorem evaluate_total_eq_iff {v : Letter → Bool} {f g : Sentence} :
    (∃ b, f.evaluate (.total v) = .ok b ∧ g.evaluate (.total v) = .ok b) ↔
      f.truth v = g.truth v := by
  rw [evaluate_total, evaluate_total]
  constructor
  · rintro ⟨b, hf, hg⟩
    exact (Except.ok.inj hf).trans (Except.ok.inj hg).symm
  · intro h
    exact ⟨_, rfl, congrArg _ h.symm⟩

theorem equivalent_iff {f g : Sentence} : f.Equivalent g ↔ ∀ v, f.truth v = g.truth v := by
  refine forall_congr' fun v => ?_
  rw [← truth_eq_true_iff, ← truth_eq_true_iff]
  exact Bool.eq_iff_iff.symm

theorem valid_iff {f : Sentence} : f.Valid ↔ ∀ v, f.truth v = true := by
  simp only [Valid, truth_eq_true_iff]

end Sentence

namespace Table

variable {formulas : List Sentence}

/-! ### Rows and valuations -/

/-- Some row agrees with a valuation on the letters of the batch. -/
theorem exists_row_agrees (formulas : List Sentence) (v : Letter → Bool) :
    ∃ r ∈ (ofBatch formulas).rows, ∀ l ∈ Sentence.batchLetters formulas,
      valuation r.assignment l = v l := by
  obtain ⟨state, ⟨hstate, hrow⟩, -⟩ :=
    existsUnique_state (Sentence.nodup_batchLetters formulas) formulas v
  have hr := List.mem_of_getElem? (getElem?_rows_ofBatch hstate)
  refine ⟨_, hr, fun l hl => ?_⟩
  have hlookup := lookup_of_mem_rows hr hl
  exact Option.some.inj (Except.ok.inj (hlookup.symm.trans (hrow l hl)))

/-- What depends on the letters of the batch alone is settled by the rows. -/
theorem forall_rows_iff {P : (Letter → Bool) → Prop}
    (hP : ∀ v w, (∀ l ∈ Sentence.batchLetters formulas, v l = w l) → P v → P w) :
    (∀ r ∈ (ofBatch formulas).rows, P (valuation r.assignment)) ↔ ∀ v, P v := by
  constructor
  · intro hrows v
    obtain ⟨r, hr, hagree⟩ := exists_row_agrees formulas v
    exact hP _ v hagree (hrows r hr)
  · exact fun h r _ => h _

theorem truth_congr_of_mem {f : Sentence} (hf : f ∈ formulas) {v w : Letter → Bool}
    (h : ∀ l ∈ Sentence.batchLetters formulas, v l = w l) : f.truth v = f.truth w :=
  Sentence.truth_congr fun l hl => h l (Sentence.mem_batchLetters.mpr ⟨f, hf, hl⟩)

/-! ### Columns -/

theorem truths_eq_iff {f g : Sentence} (hf : f ∈ formulas) (hg : g ∈ formulas) :
    truths formulas f = truths formulas g ↔ ∀ v, f.truth v = g.truth v := by
  rw [truths, truths, List.map_inj_left]
  refine forall_rows_iff (P := fun v => f.truth v = g.truth v) fun v w hagree hv => ?_
  rw [← truth_congr_of_mem hf hagree, ← truth_congr_of_mem hg hagree, hv]

theorem forall_truths_iff {f : Sentence} (hf : f ∈ formulas) :
    (∀ b ∈ truths formulas f, b = true) ↔ ∀ v, f.truth v = true := by
  rw [truths, List.forall_mem_map]
  refine forall_rows_iff (P := fun v => f.truth v = true) fun v w hagree hv => ?_
  rw [← truth_congr_of_mem hf hagree, hv]

/-! ### The whole table -/

/-- The columns of a table tell which of its formulas are equivalent and which are valid. -/
structure Decides (formulas : List Sentence) (t : Table) : Prop where
  /-- Two columns are equal exactly if their formulas have the same value under every assignment to
  all letters, that is, if they are equivalent. -/
  columns_eq_iff : ∀ (i j : Nat) (f g : Sentence), formulas[i]? = some f → formulas[j]? = some g →
    ∃ left right, t.column? i = some left ∧ t.column? j = some right ∧
      (left = right ↔ f.Equivalent g) ∧
      (left = right ↔ ∀ v, ∃ b, f.evaluate (.total v) = .ok b ∧ g.evaluate (.total v) = .ok b)
  /-- A column is true throughout exactly if its formula is true under every assignment. -/
  column_true_iff : ∀ (i : Nat) (f : Sentence), formulas[i]? = some f →
    ∃ column, t.column? i = some column ∧
      ((∀ b ∈ column, b = true) ↔ f.Valid) ∧
      ((∀ b ∈ column, b = true) ↔ ∀ v, f.evaluate (.total v) = .ok true)

/-- **A table decides equivalence.** Whatever the batch, its table is generated, and two formulas of
the batch are equivalent, under valuations of all letters whatever, exactly if their columns are
equal; and a formula is valid exactly if its column is all true. -/
theorem generate_decides (formulas : List Sentence) :
    ∃ t, generate formulas = .ok t ∧ Decides formulas t := by
  refine ⟨ofBatch formulas, generate_eq_ofBatch formulas, ?_⟩
  constructor
  case columns_eq_iff =>
    intro i j f g hf hg
    have hiff := truths_eq_iff (List.mem_of_getElem? hf) (List.mem_of_getElem? hg)
    refine ⟨truths formulas f, truths formulas g, column?_ofBatch hf, column?_ofBatch hg, ?_, ?_⟩
    · rw [hiff, Sentence.equivalent_iff]
    · simp only [hiff, Sentence.evaluate_total_eq_iff]
  case column_true_iff =>
    intro i f hf
    have hiff := forall_truths_iff (List.mem_of_getElem? hf)
    refine ⟨truths formulas f, column?_ofBatch hf, ?_, ?_⟩
    · rw [hiff, Sentence.valid_iff]
    · simp only [hiff, Sentence.evaluate_total, Except.ok.injEq]

end Table

end Propositional
