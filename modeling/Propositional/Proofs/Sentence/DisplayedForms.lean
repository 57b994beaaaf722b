import Propositional.Layout
import Propositional.Proofs.Sentence.Readability

/-! The forms that are displayed can be read in one way.

The spaced form and the text of a layout are written like any other form, the one with a gap on both
sides of every sign (`spaced_eq`), the other with gaps around the arrows only (`text_layout`). The
constants have signs of their own there, so nothing is lost: `displayed_eq_iff`. -/
namespace Propositional.Sentence

/-- A sign with a gap on either side. -/
def gappedSign (c : Connective) : Text := [' ', c.sign, ' ']

/-! ### The spaced form -/

theorem enclosed_spaced (s : Sentence) : enclosed s s.spaced = s.operandWith gappedSign := by
  induction s with
  | const b => rfl
  | letter l => rfl
  | negation s ih => exact congrArg ('~' :: ·) ih
  | binary c l r ihl ihr =>
    show bracketed (enclosed l l.spaced ++ ' ' :: c.sign :: ' ' :: enclosed r r.spaced) = _
    rw [ihl, ihr, operandWith, List.append_assoc]
    rfl

theorem spaced_eq (s : Sentence) : s.spaced = s.formWith gappedSign := by
  cases s with
  | binary c l r =>
    rw [spaced, formWith, enclosed_spaced, enclosed_spaced, List.append_assoc]
    rfl
  | const b => rfl
  | letter l => rfl
  | negation s => exact congrArg ('~' :: ·) (enclosed_spaced s)

/-! ### The text of a layout -/

theorem text_joinedPieces (start : Nat) (isMain : Bool) (c : Connective) (l r : Sentence)
    (left right : List Piece) :
    (joinedPieces start isMain c l r left right).flatMap Piece.text =
      left.flatMap Piece.text ++ (c.pointText ++ right.flatMap Piece.text) := by
  simp [joinedPieces, Piece.text]

theorem text_operandPieces (start : Nat) (s : Sentence) :
    (s.operandPieces start).flatMap Piece.text = s.operandWith Connective.pointText := by
  induction s generalizing start with
  | const b => rfl
  | letter l => exact List.append_nil _
  | negation s ih => exact congrArg ('~' :: ·) (ih (start + 1))
  | binary c l r ihl ihr =>
    rw [operandPieces, List.flatMap_append, List.flatMap_cons, text_joinedPieces, ihl, ihr,
      ← List.append_assoc (l.operandWith Connective.pointText)]
    rfl

theorem text_layout (s : Sentence) : s.layout.text = s.formWith Connective.pointText := by
  rw [Layout.text, pieces_layout]
  cases s with
  | const b => rfl
  | letter l => exact List.append_nil _
  | negation s => exact congrArg ('~' :: ·) (text_operandPieces 1 s)
  | binary c l r =>
    rw [pieces, text_joinedPieces, text_operandPieces, text_operandPieces, formWith,
      List.append_assoc]

/-! ### Reading them -/

theorem joints_gappedSign : Joints gappedSign where
  eq_cons c := ⟨' ', [c.sign, ' '], rfl, by decide⟩
  eq_of_append c c' u v h := by
    have hsign := (List.cons.inj (List.cons.inj h).2).1
    cases c <;> cases c' <;> first | rfl | cases hsign

theorem joints_pointText : Joints Connective.pointText where
  eq_cons c := by cases c <;> exact ⟨_, _, rfl, by decide⟩
  eq_of_append c c' u v h := by
    cases c <;> cases c' <;> first | rfl | simp [Connective.pointText, Connective.sign] at h

/-- **What is displayed can be read in one way.** Two sentences have the same spaced form exactly if
they are the same sentence, and the same holds of the texts of their layouts. -/
theorem displayed_eq_iff (a b : Sentence) :
    (a.spaced = b.spaced ↔ a = b) ∧ (a.layout.text = b.layout.text ↔ a = b) := by
  constructor
  · rw [spaced_eq, spaced_eq]
    exact ⟨formWith_inj joints_gappedSign, congrArg _⟩
  · rw [text_layout, text_layout]
    exact ⟨formWith_inj joints_pointText, congrArg _⟩

end Propositional.Sentence
