import Propositional.Text

/-! Blank characters and trimming. A blank is any Unicode white space character together with the
four information separators; the zero-width space, the word joiner and the byte order mark are
not blank. Trimming removes blanks at the ends and nothing in between. -/
namespace Propositional.Text

/-- White space of every script, and the separators U+001C to U+001F. -/
def isBlankChar (c : Char) : Bool :=
  let n := c.toNat
  (0x09 ≤ n && n ≤ 0x0D) || (0x1C ≤ n && n ≤ 0x20) || n == 0x85 || n == 0xA0 || n == 0x1680 ||
    (0x2000 ≤ n && n ≤ 0x200A) || n == 0x2028 || n == 0x2029 || n == 0x202F || n == 0x205F ||
    n == 0x3000

/-- Whether a text has no character other than blanks. -/
def isBlank (t : Text) : Bool := t.all isBlankChar

def trimStart (t : Text) : Text := t.dropWhile isBlankChar

def trimEnd (t : Text) : Text := (t.reverse.dropWhile isBlankChar).reverse

def trim (t : Text) : Text := trimEnd (trimStart t)

/-! ### What trimming leaves -/

theorem dropWhile_eq_nil_of_all {p : Char → Bool} {t : Text} (h : t.all p = true) :
    t.dropWhile p = [] := by
  induction t with
  | nil => rfl
  | cons c rest ih =>
    simp only [List.all_cons, Bool.and_eq_true] at h
    simp [h.1, ih h.2]

theorem trim_of_isBlank {t : Text} (h : isBlank t = true) : trim t = [] := by
  simp [trim, trimStart, trimEnd, dropWhile_eq_nil_of_all h]

@[simp] theorem trim_nil : trim [] = [] := rfl

end Propositional.Text
