import Propositional.Layout
import Propositional.Table
import Propositional.Text.Blank
import Propositional.Text.Centered

/-! Truth tables as plain text. A line is a row of groups of cells: one group for the letters and
one for each layout, a cell to every piece. Every column is as wide as its widest cell, cells
stand in the middle of their columns, and spaces at the end of a line are dropped. Above the rows
stand the header and a rule as long as the header, and above these the numbers of the points where
every point shows its value; otherwise only main points do, but the columns stay as wide. -/
namespace Propositional.Table

/-- Why a table cannot be shown. -/
inductive DisplayError where
  /-- A row has no entry for a letter of the table. -/
  | missingColumn (letter : Letter)
  | unbound (e : Unbound)
deriving DecidableEq

def DisplayError.message : DisplayError → Text
  | missingColumn l => Text.quoted l.name
  | unbound e => e.message

/-- The mark of a truth value. -/
def mark (value : Bool) : Text := [Sentence.constantSign value]

/-- The cells of a line, in their groups. -/
abbrev Line := List (List Text)

/-! ### Columns -/

def cellWidths (line : Line) : List (List Nat) := line.map fun group => group.map List.length

/-- The greater of two widths, column by column. -/
def widest (a b : List (List Nat)) : List (List Nat) := List.zipWith (List.zipWith max) a b

/-- The width of each column over a number of lines, of which there is at least one. -/
def columnWidths (first : Line) (rest : List Line) : List (List Nat) :=
  (rest.map cellWidths).foldl widest (cellWidths first)

def alignedGroup (group : List Text) (widths : List Nat) : Text :=
  Text.joinWith [' '] (List.zipWith Text.centered group widths)

/-- A line as text in columns of given widths. -/
def alignedLine (widths : List (List Nat)) (line : Line) : Text :=
  Text.trimEnd (Text.joinWith [' ', '|', ' '] (List.zipWith alignedGroup line widths))

/-! ### Lines -/

/-- A line with its group of letters, which a table without letters does not have. -/
def withLetters (t : Table) (letters : List Text) (groups : List (List Text)) : Line :=
  if t.letters.isEmpty then groups else letters :: groups

def headerLine (t : Table) (layouts : List Layout) : Line :=
  t.withLetters (t.letters.map Letter.name)
    (layouts.map fun l => l.pieces.map fun piece => Text.trim piece.text)

def shownNumber : Option Nat → Text
  | some n => Text.ofNat n
  | none => []

def numberLine (t : Table) (layouts : List Layout) : Line :=
  t.withLetters (t.letters.map fun _ => [])
    (layouts.map fun l => l.pieceNumbers.map shownNumber)

/-- The mark of a letter in a row; an entry without a value counts as false. -/
def letterCell (r : Row) (l : Letter) : Except DisplayError Text :=
  match r.assignment.get? l.name with
  | some entry => .ok (mark (entry == some true))
  | none => .error (.missingColumn l)

/-- The cell of a piece, given the values of the points. -/
def pieceCell (everyPoint : Bool) (values : List Layout.PointValue) (position : Nat) : Text :=
  match values.find? fun v => v.position == position with
  | some v => if everyPoint || v.isMain then mark v.value else []
  | none => []

def layoutCells (everyPoint : Bool) (r : Row) (l : Layout) : Except DisplayError (List Text) :=
  match (l.evaluate r.toAssignment).outcome with
  | .ok values => .ok ((List.range l.pieces.length).map (pieceCell everyPoint values))
  | .error e => .error (.unbound e)

def rowLine (t : Table) (everyPoint : Bool) (layouts : List Layout) (r : Row) :
    Except DisplayError Line := do
  let letters ← t.letters.mapM (letterCell r)
  let groups ← layouts.mapM (layoutCells everyPoint r)
  return t.withLetters letters groups

/-- The lines of a table whose formulas are displayed in these layouts. -/
def displayLines (t : Table) (everyPoint : Bool) (layouts : List Layout) :
    Except DisplayError (List Text) := do
  let body ← t.rows.mapM (t.rowLine everyPoint layouts)
  let header := t.headerLine layouts
  let numbers := t.numberLine layouts
  let aligned := alignedLine (columnWidths header (body ++ [numbers]))
  let rule := List.replicate (aligned header).length '-'
  let top := [aligned header, rule]
  return (if everyPoint then aligned numbers :: top else top) ++ body.map aligned

def display (t : Table) (everyPoint : Bool) (layouts : List Layout) : Except DisplayError Text :=
  (t.displayLines everyPoint layouts).map Text.joinLines

/-- The layouts of a table's own formulas. -/
def layouts (t : Table) : List Layout := t.formulas.map Sentence.layout

/-! ### The compact format -/

/-- The values of a row's letters, and of its formulas behind a colon. -/
def compactLine (t : Table) (r : Row) : Except DisplayError Text := do
  let letters ← t.letters.mapM (letterCell r)
  let values := Text.joinWith [' '] (r.values.map mark)
  return if letters.isEmpty then values
    else Text.joinWith [' '] letters ++ [' ', ':', ' '] ++ values

def compactLines (t : Table) : Except DisplayError (List Text) := t.rows.mapM t.compactLine

end Propositional.Table
