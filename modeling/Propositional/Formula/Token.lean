import Propositional.Sentence

/-! The tokens of a formula: letters, the negation sign, the signs of the connectives and three
kinds of brackets. Each connective has a typed spelling, and the sign it is displayed with is
read as well. Space, tab, carriage return and line feed separate tokens and mean nothing else. A
text is read into tokens from the left; the first character that starts no token ends the
reading. -/
namespace Propositional

/-- The kinds of brackets. -/
inductive Bracket where
  | round
  | square
  | curly
deriving DecidableEq

/-- What a token stands for. -/
inductive Symbol where
  | letter (l : Letter)
  | negation
  | connective (c : Connective)
  | opening (b : Bracket)
  | closing (b : Bracket)
deriving DecidableEq

namespace Symbol

/-- The name of a symbol's type. -/
def label : Symbol → Text
  | letter _ => "LETTER".toList
  | negation => "NOT".toList
  | connective .conjunction => "AND".toList
  | connective .disjunction => "OR".toList
  | connective .biconditional => "IFF".toList
  | connective .conditional => "IMP".toList
  | connective .xor => "XOR".toList
  | connective .nand => "NAND".toList
  | opening .round => "LPAREN".toList
  | closing .round => "RPAREN".toList
  | opening .square => "LBRACKET".toList
  | closing .square => "RBRACKET".toList
  | opening .curly => "LBRACE".toList
  | closing .curly => "RBRACE".toList

/-- The symbol spelled by one character. -/
def ofChar? (c : Char) : Option Symbol :=
  match c with
  | '~' => some .negation
  | '&' | '∧' => some (.connective .conjunction)
  | 'v' | '∨' => some (.connective .disjunction)
  | '→' => some (.connective .conditional)
  | '↔' => some (.connective .biconditional)
  | '+' | '⊕' => some (.connective .xor)
  | '|' => some (.connective .nand)
  | '(' => some (.opening .round)
  | ')' => some (.closing .round)
  | '[' => some (.opening .square)
  | ']' => some (.closing .square)
  | '\x7b' => some (.opening .curly)
  | '\x7d' => some (.closing .curly)
  | c => (Letter.ofChar? c).map .letter

/-- Whether a completed operand may stand before this symbol. -/
def followsOperand : Symbol → Bool
  | connective _ | closing _ => true
  | letter _ | negation | opening _ => false

end Symbol

/-- A symbol as it was written, and where. -/
structure Token where
  symbol : Symbol
  spelling : Text
  start : Nat
deriving DecidableEq

/-- The position after the last character of a token. -/
def Token.stop (t : Token) : Nat := t.start + t.spelling.length

/-- A character that starts no token. -/
structure IllegalCharacter where
  char : Char
  position : Nat
deriving DecidableEq

def IllegalCharacter.message (e : IllegalCharacter) : Text :=
  "Illegal character \x27".toList ++ e.char :: "\x27 encountered at position ".toList ++
    Text.ofNat e.position

/-- The tokens at the start of a text, and what ended the reading early, if anything. -/
structure Tokens where
  tokens : List Token
  failure : Option IllegalCharacter
deriving DecidableEq

namespace Tokens

def push (t : Token) (ts : Tokens) : Tokens := { ts with tokens := t :: ts.tokens }

/-- The characters between tokens. -/
def isSeparator (c : Char) : Bool := c == ' ' || c == '\t' || c == '\r' || c == '\n'

/-- The tokens of a text whose first character is at a given position. -/
def scanFrom (position : Nat) : Text → Tokens
  | [] => ⟨[], none⟩
  | '<' :: '-' :: '>' :: rest =>
    push ⟨.connective .biconditional, ['<', '-', '>'], position⟩ (scanFrom (position + 3) rest)
  | '-' :: '>' :: rest =>
    push ⟨.connective .conditional, ['-', '>'], position⟩ (scanFrom (position + 2) rest)
  | c :: rest =>
    if isSeparator c then scanFrom (position + 1) rest
    else match Symbol.ofChar? c with
      | some s => push ⟨s, [c], position⟩ (scanFrom (position + 1) rest)
      | none => ⟨[], some ⟨c, position⟩⟩

def scan (t : Text) : Tokens := scanFrom 0 t

end Tokens

end Propositional
