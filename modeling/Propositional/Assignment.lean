import Propositional.Bindings
import Propositional.Sentence

/-! Assignments of truth values to letters. An assignment is either a finite mapping or a
function. A mapping may hold a letter itself or its display name, and an entry under the letter
decides over one under the name. What is asked for may be missing, or present without a value;
either way the letter is unbound. -/
namespace Propositional

/-- What an assignment says of a letter. -/
inductive Reply where
  | value (b : Bool)
  | blank
  | missing
deriving DecidableEq

namespace Reply

def truth? : Reply → Option Bool
  | value b => some b
  | blank | missing => none

def ofEntry : Option Bool → Reply
  | some b => value b
  | none => blank

end Reply

/-- A letter without a value. -/
structure Unbound where
  letter : Letter
deriving DecidableEq

def Unbound.message (e : Unbound) : Text :=
  "Letter ".toList ++ e.letter.name ++ " not found in assignment".toList

inductive Assignment where
  | mapping (byLetter : Bindings Letter (Option Bool)) (byName : Bindings Text (Option Bool))
  | function (reply : Letter → Reply)

namespace Assignment

def reply : Assignment → Letter → Reply
  | mapping byLetter byName, l =>
    match byLetter.get? l with
    | some entry => .ofEntry entry
    | none =>
      match byName.get? l.name with
      | some entry => .ofEntry entry
      | none => .missing
  | function reply, l => reply l

/-- The value of a letter, if it has one. -/
def truth? (a : Assignment) (l : Letter) : Option Bool := (a.reply l).truth?

/-- The function that knows letters by their display names and gives one reply for all others. -/
def ofNames (names : Bindings Text (Option Bool)) (otherwise : Reply) : Assignment :=
  function fun l =>
    match names.get? l.name with
    | some entry => .ofEntry entry
    | none => otherwise

/-- Whether asking for a letter is a call that can be watched. -/
def isFunction : Assignment → Bool
  | mapping .. => false
  | function _ => true

end Assignment

end Propositional
