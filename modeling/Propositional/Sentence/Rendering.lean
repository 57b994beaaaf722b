import Propositional.Sentence

/-! Sentences as text. The spaced form is for readers: a space on both sides of every connective.
The compact form is a key: no spaces, and the constants as T and F. In both, a sentence with a
connective stands in round brackets wherever it is an operand, and nothing else does. The outline
spells out the tree. -/
namespace Propositional.Sentence

/-- The sign of a constant. -/
def constantSign (value : Bool) : Char := if value then '⊤' else '⊥'

def bracketed (t : Text) : Text := '(' :: t ++ [')']

/-- The text of an operand, in brackets if the operand has a connective. -/
def enclosed (s : Sentence) (t : Text) : Text := if s.isBinary then bracketed t else t

def spaced : Sentence → Text
  | const b => [constantSign b]
  | letter l => l.name
  | negation s => '~' :: enclosed s s.spaced
  | binary c l r => enclosed l l.spaced ++ ' ' :: c.sign :: ' ' :: enclosed r r.spaced

/-- The compact form, of a whole sentence or of an operand. -/
def compactAt (whole : Bool) : Sentence → Text
  | const b => [if b then 'T' else 'F']
  | letter l => l.name
  | negation s => '~' :: s.compactAt false
  | binary c l r =>
    let inner := l.compactAt false ++ c.sign :: r.compactAt false
    if whole then inner else bracketed inner

def compact (s : Sentence) : Text := s.compactAt true

/-- The tree of a sentence, part by part. -/
def outline : Sentence → Text
  | const b => "Value(value=".toList ++ (if b then "True" else "False").toList ++ [')']
  | letter l =>
    "Letter(id=".toList ++ Text.quoted [l.id] ++ ", index=".toList ++ Text.ofNat l.index ++ [')']
  | negation s => "Negation(operand=".toList ++ s.outline ++ [')']
  | binary c l r =>
    c.word ++ "(left=".toList ++ l.outline ++ ", right=".toList ++ r.outline ++ [')']

/-! ### The compact form of an operand -/

theorem compactAt_false (s : Sentence) : s.compactAt false = enclosed s s.compact := by
  cases s <;> rfl

end Propositional.Sentence
