/-! Text as a list of code points. Everything in the library that reads or writes characters
works on this view: a position counts code points from 0, and two texts are joined with
list append. -/
namespace Propositional

/-- Text as its code points. -/
abbrev Text := List Char

namespace Text

/-! ### Putting pieces together -/

/-- The decimal digits of a natural number. -/
def ofNat (n : Nat) : Text := Nat.toDigits 10 n

theorem ofNat_inj {m n : Nat} (h : ofNat m = ofNat n) : m = n := by
  have read (k : Nat) : Nat.ofDigitChars 10 (ofNat k) 0 = k :=
    Nat.ofDigitChars_toDigits (by decide) (by decide)
  rw [← read m, h, read n]

/-- An integer in decimal, with a minus sign in front of a negative one. -/
def ofInt : Int → Text
  | .ofNat n => ofNat n
  | .negSucc n => '-' :: ofNat (n + 1)

/-- Pieces with a separator between neighbours. -/
def joinWith (separator : Text) (pieces : List Text) : Text :=
  List.intercalate separator pieces

/-- Lines with a line feed between neighbours. -/
def joinLines (lines : List Text) : Text := joinWith ['\n'] lines

/-- The first part of a text up to a character, and what follows that character if it occurs. -/
def cutAt (c : Char) (t : Text) : Text × Option Text :=
  match t.dropWhile (· != c) with
  | [] => (t, none)
  | _ :: rest => (t.takeWhile (· != c), some rest)

end Text

end Propositional
