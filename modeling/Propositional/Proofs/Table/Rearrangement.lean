import Propositional.Proofs.Letters.Order
import Propositional.Table

/-! Batches in another order.

The letters of a batch come in their own order, by character and number, and only once, so they are
settled by which letters occur (`Sentence.batchLetters_congr`): in which order the formulas come,
how often, and what else is there that brings no new letter does not matter. So a batch whose
formulas are put in another order has a table with the same letters and the same assignments, row
by row, and the values in each row are put in that order, too. `generate_rearranges` puts this
together. An order is a list of positions, each of them once. -/
namespace Propositional

/-- The elements of a list at some positions, in the order of the positions. -/
def atPositions {α : Type} (order : List Nat) (l : List α) : List α := order.filterMap (l[·]?)

section
variable {α β : Type} {order : List Nat} {l : List α}

theorem atPositions_map (f : α → β) (order : List Nat) (l : List α) :
    atPositions order (l.map f) = (atPositions order l).map f := by
  rw [atPositions, atPositions, List.map_filterMap]
  simp only [List.getElem?_map]

theorem atPositions_range (l : List α) : atPositions (List.range l.length) l = l := by
  induction l with
  | nil => rfl
  | cons a rest ih =>
    have hfirst : (a :: rest)[0]? = some a := rfl
    rw [atPositions, List.length_cons, List.range_succ_eq_map,
      List.filterMap_cons_some (f := ((a :: rest)[·]?)) hfirst, List.filterMap_map]
    exact congrArg (a :: ·) ih

/-- All positions, each once, give all elements. -/
theorem perm_atPositions (h : order.Perm (List.range l.length)) : (atPositions order l).Perm l := by
  have hperm := h.filterMap (l[·]?)
  rwa [← atPositions, ← atPositions, atPositions_range] at hperm

end

/-- A row with its values in another order. -/
def Row.rearranged (order : List Nat) (r : Row) : Row :=
  { r with values := atPositions order r.values }

namespace Table

/-- A table with its formulas in another order; letters and rows stay where they are. -/
def rearranged (order : List Nat) (t : Table) : Table :=
  { t with formulas := atPositions order t.formulas, rows := t.rows.map (Row.rearranged order) }

theorem rowOfState_atPositions (letters : List Letter) (order : List Nat) (batch : List Sentence)
    (state : Nat) :
    rowOfState letters (atPositions order batch) state =
      (rowOfState letters batch state).rearranged order := by
  rw [rowOfState, rowOfState, Row.rearranged, atPositions_map]

theorem ofBatch_atPositions {batch : List Sentence} {order : List Nat}
    (h : order.Perm (List.range batch.length)) :
    ofBatch (atPositions order batch) = (ofBatch batch).rearranged order := by
  have hletters : Sentence.batchLetters (atPositions order batch) = Sentence.batchLetters batch :=
    Sentence.batchLetters_congr fun l => by simp only [(perm_atPositions h).mem_iff]
  have hrows (letters : List Letter) : rowOfState letters (atPositions order batch) =
      Row.rearranged order ∘ rowOfState letters batch :=
    funext (rowOfState_atPositions letters order batch)
  rw [rearranged, ofBatch, ofBatch, hletters, List.map_map, hrows]

end Table

/-- The letters that occur in a batch, and nothing else of it, settle the list. -/
structure SettledByLetters (batch : List Sentence) (letters : List Letter) : Prop where
  /-- The characters come first, then the numbers, as numbers. -/
  ascending : letters.Pairwise fun a b => a.id < b.id ∨ a.id = b.id ∧ a.index < b.index
  mem_iff : ∀ l, l ∈ letters ↔ ∃ f ∈ batch, l ∈ f.occurrences
  of_perm : ∀ batch', batch'.Perm batch → Sentence.batchLetters batch' = letters
  /-- Formulas may come any number of times, in any places. -/
  of_repeated : ∀ batch', (∀ f, f ∈ batch' ↔ f ∈ batch) → Sentence.batchLetters batch' = letters
  /-- Formulas whose letters occur already may be added, in any places. -/
  of_added : ∀ batch', batch ⊆ batch' →
    (∀ f ∈ batch', ∀ l ∈ f.occurrences, ∃ g ∈ batch, l ∈ g.occurrences) →
    Sentence.batchLetters batch' = letters

theorem settledByLetters_batchLetters (batch : List Sentence) :
    SettledByLetters batch (Sentence.batchLetters batch) where
  ascending := Sentence.ascending_batchLetters batch
  mem_iff := fun _ => Sentence.mem_batchLetters
  of_perm := fun batch' h => Sentence.batchLetters_congr fun l => by simp only [h.mem_iff]
  of_repeated := fun batch' h => Sentence.batchLetters_congr fun l => by simp only [h]
  of_added := by
    intro batch' hsub hoccurs
    refine Sentence.batchLetters_congr fun l => ⟨?_, ?_⟩
    · rintro ⟨f, hf, hl⟩
      exact hoccurs f hf l hl
    · rintro ⟨g, hg, hl⟩
      exact ⟨g, hsub hg, hl⟩

/-- **The order of a batch does not matter to its table.** The letters of a batch are those that
occur in it, in ascending order, whatever the order and the number of its formulas; and if the
formulas are put in another order, the table has the same letters and the same assignments in the
same rows, and in each row the values are put in that order. -/
theorem Table.generate_rearranges (batch : List Sentence) :
    SettledByLetters batch (Sentence.batchLetters batch) ∧
      ∃ t, generate batch = .ok t ∧ t.letters = Sentence.batchLetters batch ∧
        ∀ order : List Nat, order.Perm (List.range batch.length) →
          generate (atPositions order batch) = .ok (t.rearranged order) := by
  refine ⟨settledByLetters_batchLetters batch, ofBatch batch, generate_eq_ofBatch batch, rfl,
    fun order h => ?_⟩
  rw [generate_eq_ofBatch, ofBatch_atPositions h]

/-- The table of `A10` and `~A2` lists `A2` first. With the formulas the other way round it is the
same, but for the two values of each row. -/
theorem Table.rearranges_two_formulas :
    ∃ a2 a10 : Letter, a2.name = "A2".toList ∧ a10.name = "A10".toList ∧
      ∃ t, generate [.letter a10, .negation (.letter a2)] = .ok t ∧ t.letters = [a2, a10] ∧
        generate [.negation (.letter a2), .letter a10] = .ok (t.rearranged [1, 0]) := by
  refine ⟨{ id := 'A', index := 2, isUpper := rfl }, { id := 'A', index := 10, isUpper := rfl },
    by decide, by decide, ?_⟩
  obtain ⟨hsettled, t, ht, hletters, hrearranged⟩ := generate_rearranges
    [.letter { id := 'A', index := 10, isUpper := rfl },
      .negation (.letter { id := 'A', index := 2, isUpper := rfl })]
  refine ⟨t, ht, hletters.trans ?_, hrearranged [1, 0] (by decide)⟩
  refine Letter.eq_of_pairwise (Sentence.pairwise_batchLetters _) (by decide)
    (Sentence.nodup_batchLetters _) (by decide) fun l => ?_
  rw [hsettled.mem_iff]
  simp [Sentence.occurrences, or_comm]

end Propositional
