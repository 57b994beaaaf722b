import Propositional.Text

/-! A text centred in a field. The padding is split in two halves; when it is odd, the extra
space goes to the left in a field of odd width and to the right in one of even width. -/
namespace Propositional.Text

def spaces (n : Nat) : Text := List.replicate n ' '

/-- The part of the padding that goes to the left of a text of this length. -/
def leftPadding (length width : Nat) : Nat :=
  (width - length) / 2 + (width - length) % 2 * (width % 2)

/-- A text in the middle of a field; a text wider than its field stays as it is. -/
def centered (t : Text) (width : Nat) : Text :=
  let left := leftPadding t.length width
  spaces left ++ t ++ spaces (width - t.length - left)

theorem leftPadding_le (length width : Nat) : leftPadding length width ≤ width - length := by
  unfold leftPadding
  rcases Nat.mod_two_eq_zero_or_one width with h | h <;> rw [h] <;> omega

/-- The field is filled exactly. -/
@[simp] theorem length_centered (t : Text) (width : Nat) :
    (centered t width).length = max t.length width := by
  have := leftPadding_le t.length width
  simp only [centered, spaces, List.length_append, List.length_replicate]
  omega

end Propositional.Text
