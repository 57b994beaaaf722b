import Propositional.Dependencies
import Propositional.Table

/-! Quizzes on a truth table. Every point of a formula whose sentence is not atomic is a cell to be
filled in, in every row. A cell is unlocked once every cell of its row and formula that it
depends on has an answer. Answers can be checked, which marks them correct or incorrect, and all
answers can be revealed; hiding them again brings back what was there before. -/
namespace Propositional

namespace Quiz

/-- The address of a cell: a row, a formula, and the position of a point in its layout. -/
structure Cell where
  row : Int
  formula : Int
  position : Int
deriving DecidableEq

namespace Cell

def shown (c : Cell) : Text :=
  Text.joinWith ['-'] [Text.ofInt c.row, Text.ofInt c.formula, Text.ofInt c.position]

/-- Row by row, formula by formula, left to right. -/
def precedes (a b : Cell) : Bool :=
  if a.row ≠ b.row then decide (a.row < b.row)
  else if a.formula ≠ b.formula then decide (a.formula < b.formula)
  else decide (a.position ≤ b.position)

end Cell

inductive Status where
  | correct
  | incorrect
deriving DecidableEq

namespace Status

/-- The mark of an answer, given the value that is expected. -/
def ofAnswer (answer expected : Bool) : Status :=
  if answer = expected then .correct else .incorrect

def word : Status → Text
  | correct => "CORRECT".toList
  | incorrect => "INCORRECT".toList

end Status

inductive Error where
  | notACell (c : Cell)
  | locked (c : Cell)
  | unbound (e : Unbound)
deriving DecidableEq

def Error.message : Error → Text
  | notACell c => "Cell ".toList ++ c.shown ++ " is not a quiz cell".toList
  | locked c => "Cell ".toList ++ c.shown ++ " is locked until its dependencies are answered".toList
  | unbound e => e.message

/-! ### The sheet of questions -/

/-- A table with the layout and the dependencies of each of its formulas. -/
structure Sheet where
  table : Table
  layouts : List Layout
  graphs : List DependencyMap

namespace Sheet

def ofTable (t : Table) : Sheet :=
  ⟨t, t.formulas.map Sentence.layout, t.formulas.map DependencyMap.ofSentence⟩

/-- An element of a list by a position that counts from the front only. -/
def fromFront? {α : Type} (l : List α) (position : Int) : Option α :=
  if 0 ≤ position then l[position.toNat]? else none

def row? (s : Sheet) (c : Cell) : Option Row := fromFront? s.table.rows c.row

def graph? (s : Sheet) (c : Cell) : Option DependencyMap := fromFront? s.graphs c.formula

def layout? (s : Sheet) (c : Cell) : Option Layout := fromFront? s.layouts c.formula

/-- Every cell, row by row, formula by formula, left to right. -/
def cells (s : Sheet) : List Cell :=
  (List.range s.table.rows.length).flatMap fun row =>
    s.graphs.zipIdx.flatMap fun (graph, formula) =>
      graph.nodes.map fun position => ⟨row, formula, position⟩

def contains (s : Sheet) (c : Cell) : Bool :=
  match s.row? c, s.graph? c with
  | some _, some graph => graph.isNode c.position
  | _, _ => false

/-- The cells that have to be answered before a cell. -/
def dependencies (s : Sheet) (c : Cell) : List Cell :=
  match s.graph? c with
  | some graph => (graph.dependencies c.position).map fun p => { c with position := p }
  | none => []

/-- The sentence whose value is asked for in a cell. -/
def sentence? (s : Sheet) (c : Cell) : Option Sentence :=
  match s.layout? c with
  | some l => (l.pointAt c.position).toOption.map Point.sentence
  | none => none

/-- The right answer to a cell. -/
def solution (s : Sheet) (c : Cell) : Except Error Bool :=
  if s.contains c then
    match s.row? c, s.sentence? c with
    | some row, some sentence => (sentence.evaluate row.toAssignment).mapError .unbound
    | _, _ => .error (.notACell c)
  else .error (.notACell c)

end Sheet

/-! ### A session -/

/-- What has been filled in and marked. -/
structure Marks where
  answers : Bindings Cell Bool
  statuses : Bindings Cell Status
  checked : Bool

namespace Marks

def blank : Marks := ⟨.empty, .empty, false⟩

/-- Sets or clears an answer. Once answers have been checked, a touched one loses its mark. -/
def answer (m : Marks) (c : Cell) (value : Option Bool) : Marks :=
  { m with
    answers := match value with
      | some b => m.answers.insert c b
      | none => m.answers.erase c
    statuses := if m.checked then m.statuses.erase c else m.statuses }

/-- Fills in the right answer to a cell, marked as correct. -/
def reveal (m : Marks) (c : Cell) (expected : Bool) : Marks :=
  { m with
    answers := m.answers.insert c expected
    statuses := m.statuses.insert c .correct }

end Marks

structure Session where
  sheet : Sheet
  marks : Marks
  revealed : Bool
  /-- What was there before the answers were revealed. -/
  saved : Option Marks

structure Tally where
  total : Nat
  filled : Nat
  correct : Nat
  incorrect : Nat
deriving DecidableEq

/-- What can be done in a session. -/
inductive Action where
  | answer (c : Cell) (value : Option Bool)
  | check
  | revealOrHide
  | reset
deriving DecidableEq

namespace Session

def start (t : Table) : Session := ⟨.ofTable t, .blank, false, none⟩

def answer? (s : Session) (c : Cell) : Option Bool := s.marks.answers.get? c

def status? (s : Session) (c : Cell) : Option Status := s.marks.statuses.get? c

/-- Whether a cell can be answered. -/
def isOpen (s : Session) (c : Cell) : Except Error Bool :=
  if s.sheet.contains c then .ok ((s.sheet.dependencies c).all s.marks.answers.contains)
  else .error (.notACell c)

/-- Sets the answer to a cell, or clears it. -/
def answer (s : Session) (c : Cell) (value : Option Bool) : Except Error Session :=
  s.isOpen c >>= fun unlocked =>
    if unlocked then .ok { s with marks := s.marks.answer c value } else .error (.locked c)

/-- The mark of one answer. -/
def judged (s : Session) (a : Cell × Bool) : Except Error (Cell × Status) :=
  (s.sheet.solution a.1).map fun expected => (a.1, .ofAnswer a.2 expected)

/-- Marks every answer. -/
def check (s : Session) : Except Error Session :=
  (s.marks.answers.toList.mapM s.judged).map fun statuses =>
    { s with marks := { s.marks with statuses := .ofList statuses, checked := true } }

/-- Fills in cells until one has no right answer; what was filled in before it stays. -/
def revealCells : List Cell → Session → Session × Except Error Unit
  | [], s => (s, .ok ())
  | c :: rest, s =>
    match s.sheet.solution c with
    | .ok expected => revealCells rest { s with marks := s.marks.reveal c expected }
    | .error e => (s, .error e)

def reveal (s : Session) : Session × Except Error Unit :=
  match revealCells s.sheet.cells { s with saved := some s.marks } with
  | (s, .ok ()) => ({ s with marks := { s.marks with checked := true }, revealed := true }, .ok ())
  | (s, .error e) => (s, .error e)

def hide (s : Session) : Session :=
  { s with marks := s.saved.getD s.marks, revealed := false, saved := none }

/-- Reveals all answers, or brings back what was there before. -/
def revealOrHide (s : Session) : Session × Except Error Unit :=
  if s.revealed then (s.hide, .ok ()) else s.reveal

def reset (s : Session) : Session := { s with marks := .blank, revealed := false, saved := none }

/-- The state after an operation that changes nothing when it fails. -/
def afterAttempt (s : Session) : Except Error Session → Session × Except Error Unit
  | .ok s' => (s', .ok ())
  | .error e => (s, .error e)

def perform (s : Session) : Action → Session × Except Error Unit
  | .answer c value => s.afterAttempt (s.answer c value)
  | .check => s.afterAttempt s.check
  | .revealOrHide => s.revealOrHide
  | .reset => (s.reset, .ok ())

/-- The state after a sequence of actions, whether or not they succeed. -/
def run (s : Session) (actions : List Action) : Session :=
  actions.foldl (fun s a => (s.perform a).1) s

def tally (s : Session) : Tally :=
  let cells := s.sheet.cells
  ⟨cells.length, cells.countP s.marks.answers.contains,
    cells.countP fun c => s.status? c == some .correct,
    cells.countP fun c => s.status? c == some .incorrect⟩

/-! ### The journal -/

/-- What is told of an action that succeeded and led to this state. The answer to a cell is shown
as it was given. -/
def actionEntry (after : Session) (shownAnswer : Text) : Action → Journal.Entry
  | .answer c _ =>
    Journal.quizMoved "answer".toList
      (.ofList [("cell".toList, c.shown), ("value".toList, shownAnswer)])
  | .check =>
    Journal.quizMoved "check".toList
      (.ofList [("answered".toList, Text.ofNat after.marks.answers.size)])
  | .revealOrHide =>
    if after.revealed then
      Journal.quizMoved "reveal".toList
        (.ofList [("cells".toList, Text.ofNat after.marks.answers.size)])
    else Journal.quizMoved "hide".toList .empty
  | .reset => Journal.quizMoved "reset".toList .empty

end Session

end Quiz

end Propositional
