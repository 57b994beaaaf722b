import Propositional.Text

/-! Positions in a list. A position counts from 0 at the front; a negative one counts from the
back, −1 being the last element. -/
namespace Propositional.Position

/-- What is said of a position that lies outside a list. -/
def outOfRangeMessage : Text := "tuple index out of range".toList

/-- The element at a position. -/
def get? {α : Type} (l : List α) : Int → Option α
  | .ofNat n => l[n]?
  | .negSucc n => if n < l.length then l[l.length - 1 - n]? else none

@[simp] theorem get?_ofNat {α : Type} (l : List α) (n : Nat) : get? l (n : Int) = l[n]? := rfl

end Propositional.Position
