import Propositional.Formula.Journal
import Propositional.Sentence.Rendering
import Propositional.Table
import Propositional.Text.Lines

/-! Submissions: formulas as they were typed, with what came of reading them. Each is judged on
its own, so a rejection touches no other formula; blank ones are neither right nor wrong. The
table of a batch is built from the formulas that could be read. -/
namespace Propositional

/-- A typed formula with the outcome of reading it. -/
structure Submission where
  text : Text
  parsed : Option Sentence := none
  diagnostic : Option Text := none
  warning : Option Text := none

namespace Submission

def isBlank (s : Submission) : Bool := Text.isBlank s.text

def isReadable (s : Submission) : Bool := s.parsed.isSome

/-! ### Outer brackets -/

/-- The remark on brackets around a whole formula. -/
def outerBracketsWarning : Text := "Outer parentheses not required.".toList

/-- The characters of each kind of brackets. -/
def bracketPairs : List (Char × Char) := [('(', ')'), ('[', ']'), ('\x7b', '\x7d')]

/-- Whether brackets of one kind stay open through a text, starting at a depth. -/
def staysOpen (opening closing : Char) (depth : Int) : Text → Bool
  | [] => true
  | c :: rest =>
    let depth := if c = opening then depth + 1 else if c = closing then depth - 1 else depth
    depth != 0 && staysOpen opening closing depth rest

/-- Whether a trimmed text starts and ends with one kind of brackets that closes only at the
end. -/
def isEnclosedBy (t : Text) (pair : Char × Char) : Bool :=
  t.head? == some pair.1 && t.getLast? == some pair.2 && staysOpen pair.1 pair.2 0 t.dropLast

/-- Whether a pair of brackets encloses the whole text of a sentence with a connective. -/
def hasNeedlessOuterBrackets (text : Text) (s : Sentence) : Bool :=
  bracketPairs.any (isEnclosedBy (Text.trim text)) && s.isBinary

/-! ### Judging a text -/

/-- What comes of reading a text. -/
def ofText (text : Text) : Submission :=
  if Text.isBlank text then { text := text }
  else match Sentence.parse text with
    | .error e => { text := text, diagnostic := some e.message }
    | .ok s =>
      { text := text, parsed := some s,
        warning := if hasNeedlessOuterBrackets text s then some outerBracketsWarning else none }

/-- What is told while a text is judged. -/
def entries (text : Text) : List Journal.Entry :=
  if Text.isBlank text then []
  else
    Sentence.parseEntries text ++
      match Sentence.parse text with
      | .ok _ => []
      | .error e =>
        [Journal.debug ("Rejected formula ".toList ++ Text.quoted text ++ ": ".toList ++ e.message)]

/-! ### Batches -/

/-- The lines of a text that hold a formula. -/
def batchTexts (text : Text) : List Text := (Text.lines text).filter fun line => !Text.isBlank line

def ofBatch (text : Text) : List Submission := (batchTexts text).map ofText

def batchEntries (text : Text) : List Journal.Entry := (batchTexts text).flatMap entries

/-- Whether there is a formula and every formula could be read. -/
def allReady (submissions : List Submission) : Bool :=
  let typed := submissions.filter fun s => !s.isBlank
  !typed.isEmpty && typed.all isReadable

def sentences (submissions : List Submission) : List Sentence := submissions.filterMap parsed

/-- The table of the formulas that could be read, if there are any. -/
def table? (submissions : List Submission) : Option Table :=
  match sentences submissions with
  | [] => none
  | formulas => some (Table.ofBatch formulas)

end Submission

end Propositional
