import Propositional.Text.Printable

/-! Text as a quoted literal. The quote is an apostrophe, or a quotation mark for a text that holds
an apostrophe and no quotation mark. The quote, the backslash, line feed, carriage return and
tab are written with a backslash, every other unprintable character by its code point in
hexadecimal, with as few of two, four or eight digits as it needs. -/
namespace Propositional.Text

def apostrophe : Char := '\x27'

def quotationMark : Char := '\x22'

def backslash : Char := '\x5c'

/-- The quote that a text is put in. -/
def quoteFor (t : Text) : Char :=
  if t.contains apostrophe && !t.contains quotationMark then quotationMark else apostrophe

/-- A number in lower-case hexadecimal, with zeros in front up to a number of digits. -/
def hexPadded (digits n : Nat) : Text :=
  let shown := Nat.toDigits 16 n
  List.replicate (digits - shown.length) '0' ++ shown

/-- A character by its code point. -/
def escapedByCode (c : Char) : Text :=
  let n := c.toNat
  if n < 0x100 then backslash :: 'x' :: hexPadded 2 n
  else if n < 0x10000 then backslash :: 'u' :: hexPadded 4 n
  else backslash :: 'U' :: hexPadded 8 n

/-- A character inside a literal with this quote. -/
def escaped (quote c : Char) : Text :=
  if c = quote || c = backslash then [backslash, c]
  else if c = '\n' then [backslash, 'n']
  else if c = '\r' then [backslash, 'r']
  else if c = '\t' then [backslash, 't']
  else if isPrintable c then [c]
  else escapedByCode c

/-- The literal that stands for a text. -/
def quoted (t : Text) : Text :=
  let quote := quoteFor t
  quote :: t.flatMap (escaped quote) ++ [quote]

end Propositional.Text
