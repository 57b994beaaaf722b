import Propositional.Formula.Reading
import Propositional.Journal

/-! What the journal tells about the reading of a formula. -/
namespace Propositional

namespace IllegalCharacter

/-- A character that is no token was met. -/
def entry (e : IllegalCharacter) : Journal.Entry :=
  Journal.debug ("Illegal character \x27".toList ++ e.char :: "\x27 at position ".toList ++
    Text.ofNat e.position)

end IllegalCharacter

namespace Tokens

/-- The entries about splitting a text into tokens. -/
def entries (ts : Tokens) : List Journal.Entry := ts.failure.toList.map IllegalCharacter.entry

end Tokens

namespace Sentence

/-- The entries about the outcome of a reading. -/
def outcomeEntries : Except FormulaError Sentence → List Journal.Entry
  | .ok s =>
    [Journal.debug ("Successfully parsed formula into ".toList ++ s.variant),
      Journal.debug ("Formula parsed successfully into: ".toList ++ s.variant)]
  | .error e =>
    let cause :=
      match e with
      | .blank => []
      | .illegal c =>
        [c.entry, Journal.debug ("Unexpected parsing error: ".toList ++ c.message)]
      | _ => [Journal.debug "Parse error encountered".toList]
    cause ++ [Journal.debug "ParseError encountered during formula parsing".toList]

/-- The entries about reading a text, which is announced twice: as a request and as work begun. -/
def parseEntries (text : Text) : List Journal.Entry :=
  let announced := Journal.debug ("Parsing formula: ".toList ++ Text.quoted text)
  announced :: announced :: outcomeEntries (parse text)

end Sentence

end Propositional
