import Propositional.Proofs.Layout.Linearization
import Propositional.Proofs.Sentence.Readability
import Propositional.Proofs.Text.Fields

/-! What the pieces of a layout show.

The points of a layout are numbered in their order, from 1, and a literal piece has no number
(`numberFrom_point`, `numberFrom_literal`). The text of a piece has no blanks but the spaces around
an arrow (`tidy_of_mem_pieces`). -/
namespace Propositional

/-! ### Numbers -/

namespace Layout

theorem length_numberFrom (next : Nat) (pieces : List Piece) :
    (numberFrom next pieces).length = pieces.length := by
  induction pieces generalizing next with
  | nil => rfl
  | cons piece rest ih =>
    cases piece with
    | literal text => exact congrArg (· + 1) (ih next)
    | point p => exact congrArg (· + 1) (ih (next + 1))

theorem numberFrom_literal {pieces : List Piece} {i : Nat} {text : Text}
    (h : pieces[i]? = some (.literal text)) (next : Nat) :
    (numberFrom next pieces)[i]? = some none := by
  induction pieces generalizing i next with
  | nil => cases h
  | cons piece rest ih =>
    cases i with
    | zero =>
      obtain rfl := Option.some.inj h
      rfl
    | succ i =>
      cases piece with
      | literal text => exact ih h next
      | point p => exact ih h (next + 1)

/-- The points have ascending numbers. -/
theorem numberFrom_point {pieces : List Piece} {start k i : Nat} {p : Point}
    (h : (pointsFrom start pieces)[k]? = some (start + i, p)) (next : Nat) :
    (numberFrom next pieces)[i]? = some (some (next + k)) := by
  induction pieces generalizing start k i next with
  | nil => cases h
  | cons piece rest ih =>
    -- what stands behind the first piece has a position behind it
    have hsucc {k : Nat} (hk : (pointsFrom (start + 1) rest)[k]? = some (start + i, p)) :
        ∃ m, i = m + 1 ∧ (pointsFrom (start + 1) rest)[k]? = some (start + 1 + m, p) := by
      have hle := (mem_pointsFrom.mp (List.mem_of_getElem? hk)).1
      refine ⟨i - 1, by omega, ?_⟩
      rwa [show start + 1 + (i - 1) = start + i by omega]
    cases piece with
    | literal text =>
      obtain ⟨m, rfl, hm⟩ := hsucc h
      exact ih hm next
    | point q =>
      rw [pointsFrom_point] at h
      cases k with
      | zero =>
        have hi : start = start + i := (Prod.mk.inj (Option.some.inj h)).1
        obtain rfl : i = 0 := by omega
        rfl
      | succ k =>
        obtain ⟨m, rfl, hm⟩ := hsucc h
        have hnumber := ih hm (next + 1)
        rwa [Nat.add_assoc, Nat.add_comm 1 k] at hnumber

end Layout

/-! ### Texts -/

namespace Sentence
open Text

theorem tidy_name (l : Letter) : Tidy l.name := tidy_of_no_blank fun _ hc =>
  isBlankChar_eq_false (isUpper_or_isDigit_of_mem_name hc)

theorem tidy_pointText (c : Connective) : Tidy c.pointText := by
  cases c <;> simp [Tidy, Connective.pointText, Connective.sign, isBlankChar]

theorem tidy_constantSign (b : Bool) : Tidy [constantSign b] := by
  cases b <;> exact tidy_singleton rfl

theorem tidy_joinedPieces {left right : List Piece} (start : Nat) (isMain : Bool) (c : Connective)
    (l r : Sentence) (hleft : ∀ piece ∈ left, Tidy piece.text)
    (hright : ∀ piece ∈ right, Tidy piece.text) :
    ∀ piece ∈ joinedPieces start isMain c l r left right, Tidy piece.text :=
  List.forall_mem_append.mpr ⟨hleft, List.forall_mem_cons.mpr ⟨tidy_pointText c, hright⟩⟩

theorem tidy_operandPieces (s : Sentence) (start : Nat) :
    ∀ piece ∈ s.operandPieces start, Tidy piece.text := by
  induction s generalizing start with
  | const b => exact List.forall_mem_singleton.mpr (tidy_constantSign b)
  | letter l => exact List.forall_mem_singleton.mpr (tidy_name l)
  | negation s ih => exact List.forall_mem_cons.mpr ⟨tidy_singleton rfl, ih (start + 1)⟩
  | binary c l r ihl ihr =>
    have hjoined := tidy_joinedPieces (start + 1) false c l r (ihl (start + 1))
      (ihr (start + 1 + l.width + 1))
    exact List.forall_mem_cons.mpr ⟨tidy_singleton rfl, List.forall_mem_append.mpr
      ⟨hjoined, List.forall_mem_singleton.mpr (tidy_singleton rfl)⟩⟩

/-- The pieces of a layout have no blanks but spaces. -/
theorem tidy_of_mem_pieces (s : Sentence) : ∀ piece ∈ s.layout.pieces, Tidy piece.text := by
  rw [pieces_layout]
  cases s with
  | const b => exact List.forall_mem_singleton.mpr (tidy_constantSign b)
  | letter l => exact List.forall_mem_singleton.mpr (tidy_name l)
  | negation s => exact List.forall_mem_cons.mpr ⟨tidy_singleton rfl, tidy_operandPieces s 1⟩
  | binary c l r =>
    exact tidy_joinedPieces 0 true c l r (tidy_operandPieces l 0)
      (tidy_operandPieces r (l.width + 1))

end Sentence

end Propositional
