import Propositional.Text

/-! Lines of a text. A line ends at a line feed, a carriage return, the two of them in that order,
a vertical tab, a form feed, one of the three information separators U+001C to U+001E, or one of
U+0085, U+2028 and U+2029. A break at the very end starts no further line. -/
namespace Propositional.Text

/-- The characters that end a line. -/
def isLineBreak (c : Char) : Bool :=
  let n := c.toNat
  (0x0A ≤ n && n ≤ 0x0D) || (0x1C ≤ n && n ≤ 0x1E) || n == 0x85 || n == 0x2028 || n == 0x2029

/-- Puts a character in front of the first line. -/
def growFirst (c : Char) : List Text → List Text
  | [] => [[c]]
  | line :: rest => (c :: line) :: rest

/-- The lines of a text, without the breaks between them. -/
def lines : Text → List Text
  | [] => []
  | '\r' :: '\n' :: rest => [] :: lines rest
  | c :: rest => if isLineBreak c then [] :: lines rest else growFirst c (lines rest)

@[simp] theorem lines_nil : lines [] = [] := rfl

/-- A character ends a line or belongs to it, unless it is the first half of a pair. -/
theorem lines_cons {c : Char} {rest : Text} (h : ∀ more, c = '\r' → rest ≠ '\n' :: more) :
    lines (c :: rest) = if isLineBreak c then [] :: lines rest else growFirst c (lines rest) := by
  rw [lines]
  exact fun more hc hrest => h more hc hrest

/-- A text with a line feed for each carriage return, and for the two of them in a row. -/
def withLineFeeds : Text → Text
  | [] => []
  | '\r' :: '\n' :: rest => '\n' :: withLineFeeds rest
  | c :: rest => (if c = '\r' then '\n' else c) :: withLineFeeds rest

/-- A text has the same lines with line feeds. -/
theorem lines_withLineFeeds (t : Text) : lines (withLineFeeds t) = lines t := by
  fun_induction withLineFeeds t with
  | case1 => rfl
  | case2 rest ih => exact congrArg ([] :: ·) ih
  | case3 c rest hpair ih =>
    rw [lines_cons hpair]
    by_cases hc : c = '\r'
    · subst hc
      exact congrArg ([] :: ·) ih
    · rw [if_neg hc, lines_cons fun _ h => absurd h hc, ih]

end Propositional.Text
