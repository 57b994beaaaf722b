import Propositional.Decimal
import Propositional.Text.Quoted

/-! Loosely typed values. An assignment or an answer may be given as any value at all: nothing
stands for no value, zero and what is empty count as false, everything else counts as true. -/
namespace Propositional

/-- A value as it is handed in. -/
inductive Datum where
  | nothing
  | bool (b : Bool)
  | int (n : Int)
  | float (x : Float)
  | text (t : Text)
  | list (items : List Datum)
  | record (fields : List (Text × Datum))
deriving Inhabited

namespace Datum

/-- The truth value that a value counts as. -/
def truth? : Datum → Option Bool
  | nothing => none
  | bool b => some b
  | int n => some (n != 0)
  | float x => some (x != 0)
  | text t => some !t.isEmpty
  | list items => some !items.isEmpty
  | record fields => some !fields.isEmpty

/-! ### Showing a value -/

def shownBool (b : Bool) : Text := if b then "True".toList else "False".toList

mutual

/-- A value inside a list or a record, where text is quoted. -/
def shownInside : Datum → Text
  | nothing => "None".toList
  | bool b => shownBool b
  | int n => Text.ofInt n
  | float x => Decimal.ofFloat x
  | text t => Text.quoted t
  | list items => '[' :: Text.joinWith [',', ' '] (shownItems items) ++ [']']
  | record fields => '\x7b' :: Text.joinWith [',', ' '] (shownFields fields) ++ ['\x7d']

def shownItems : List Datum → List Text
  | [] => []
  | d :: rest => shownInside d :: shownItems rest

def shownFields : List (Text × Datum) → List Text
  | [] => []
  | (name, d) :: rest => (Text.quoted name ++ ':' :: ' ' :: shownInside d) :: shownFields rest

end

/-- A value on its own; text is shown as it is. -/
def shown : Datum → Text
  | text t => t
  | d => shownInside d

end Datum

end Propositional
