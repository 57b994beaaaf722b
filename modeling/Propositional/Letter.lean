import Propositional.Text.Quoted

/-! Propositional letters. A letter is one of the characters A to Z with a subscript, a natural
number that is shown only when it is not zero. Letters are ordered by their character and then by
the number, so that A2 comes before A10. -/
namespace Propositional

/-- One upper-case character and a subscript. -/
structure Letter where
  id : Char
  index : Nat := 0
  isUpper : id.isUpper = true
deriving DecidableEq

/-- Why a character and a number are not a letter. -/
inductive LetterError where
  | badId (id : Text)
  | negativeIndex (index : Int)
deriving DecidableEq

namespace LetterError

def message : LetterError → Text
  | badId id => "Letter id must be one uppercase character, got ".toList ++ Text.quoted id
  | negativeIndex index => "Letter index must be non-negative, got ".toList ++ Text.ofInt index

end LetterError

namespace Letter

/-- The letter of one character, without a subscript. -/
def ofChar? (c : Char) : Option Letter :=
  if h : c.isUpper = true then some { id := c, isUpper := h } else none

/-- The letter with this name and number. The name is examined first. -/
def ofParts (id : Text) (index : Int) : Except LetterError Letter :=
  match id with
  | [c] =>
    if h : c.isUpper = true then
      if index < 0 then .error (.negativeIndex index)
      else .ok { id := c, index := index.toNat, isUpper := h }
    else .error (.badId id)
  | _ => .error (.badId id)

/-- The letter as it is displayed. -/
def name (l : Letter) : Text := l.id :: if l.index = 0 then [] else Text.ofNat l.index

/-- The character and the number of a letter. -/
def key (l : Letter) : Char × Nat := (l.id, l.index)

/-! ### Order -/

instance : LT Letter where
  lt a b := a.id < b.id ∨ a.id = b.id ∧ a.index < b.index

instance : LE Letter where
  le a b := a.id < b.id ∨ a.id = b.id ∧ a.index ≤ b.index

instance (a b : Letter) : Decidable (a < b) :=
  inferInstanceAs (Decidable (a.id < b.id ∨ a.id = b.id ∧ a.index < b.index))

instance (a b : Letter) : Decidable (a ≤ b) :=
  inferInstanceAs (Decidable (a.id < b.id ∨ a.id = b.id ∧ a.index ≤ b.index))

@[ext] theorem ext_parts {a b : Letter} (hid : a.id = b.id) (hindex : a.index = b.index) :
    a = b := by
  cases a; cases b; simp_all

theorem key_inj {a b : Letter} : a.key = b.key ↔ a = b :=
  ⟨fun h => ext_parts (congrArg Prod.fst h) (congrArg Prod.snd h), congrArg key⟩

/-- The display name tells letters apart. -/
theorem name_inj {a b : Letter} (h : a.name = b.name) : a = b := by
  obtain ⟨hid, hindex⟩ := List.cons.inj h
  refine ext_parts hid ?_
  have hne (n : Nat) : Text.ofNat n ≠ [] := Nat.toDigits_ne_nil
  split at hindex <;> split at hindex
  · omega
  · exact absurd hindex.symm (hne _)
  · exact absurd hindex (hne _)
  · exact Text.ofNat_inj hindex

theorem lt_irrefl (a : Letter) : ¬a < a := by
  rintro (h | ⟨_, h⟩)
  · exact Char.lt_irrefl _ h
  · exact Nat.lt_irrefl _ h

end Letter

end Propositional
