import Propositional.Proofs.Evaluation.Outcome
import Propositional.Proofs.Layout.Linearization
import Propositional.Proofs.Letters.Collecting

/-! The letters of a sentence settle what it comes to.

The letters that an evaluation asks for, those that are collected and those that a layout shows are
the same. All three are read off the tree from left to right: a layout shows a letter at each of its
places (`letterPoints_layout`), and a collection keeps the first place of each
(`Letters.toList_ofList`). So an assignment matters only at the collected letters, value by value or
failure by failure, and it needs a value for each of them (`evaluate_settled_by_letters`). -/
namespace Propositional

/-- The letter that a sentence is, if it is one. -/
def Sentence.letter? : Sentence → Option Letter
  | letter l => some l
  | _ => none

/-- The letters that a layout shows, at all their places from left to right. -/
def Layout.letterPoints (l : Layout) : List Letter :=
  l.points.filterMap fun p => p.2.sentence.letter?

namespace Sentence

theorem filterMap_letter?_inorder (s : Sentence) : s.inorder.filterMap letter? = s.occurrences := by
  induction s with
  | const b => rfl
  | letter l => rfl
  | negation s ih => exact ih
  | binary c l r ihl ihr =>
    rw [inorder, List.filterMap_append, ihl, List.filterMap_cons_none rfl, ihr]
    rfl

theorem letterPoints_layout (s : Sentence) : s.layout.letterPoints = s.occurrences := by
  rw [← filterMap_letter?_inorder, ← s.placed_layout.sentences_eq, List.filterMap_map]
  rfl

/-- **The collected letters settle what a sentence comes to.** Two assignments that treat them alike
lead to the same value, or fail with the same letter; an evaluation fails exactly if one of them has
no value; and they are the letters that the layout shows, each at its first place. -/
theorem evaluate_settled_by_letters (s : Sentence) :
    (∀ a b : Assignment, (∀ l ∈ s.letters.toList, a.truth? l = b.truth? l) →
      s.evaluate a = s.evaluate b) ∧
    (∀ a : Assignment, (∃ u, s.evaluate a = .error u) ↔
      ∃ l ∈ s.letters.toList, a.truth? l = none) ∧
    s.letters.toList = s.layout.letterPoints.eraseDups := by
  refine ⟨fun a b h => ?_, fun a => ?_, ?_⟩
  · exact evaluate_congr fun l hl => h l (mem_letters.mpr hl)
  · simp only [mem_letters]
    exact exists_evaluate_error_iff a s
  · rw [letterPoints_layout, letters, Letters.toList_ofList]

end Sentence

end Propositional
