import Propositional.Letters

/-! Sentences of propositional logic: constants, letters, negations, and two sentences joined by
one of six connectives. Equality of sentences is equality of trees. -/
namespace Propositional

/-- The connectives that join two sentences. -/
inductive Connective where
  | conjunction
  | disjunction
  | conditional
  | biconditional
  | xor
  | nand
deriving DecidableEq

namespace Connective

def all : List Connective := [conjunction, disjunction, conditional, biconditional, xor, nand]

/-- The truth function of a connective. -/
def apply : Connective → Bool → Bool → Bool
  | conjunction, a, b => a && b
  | disjunction, a, b => a || b
  | conditional, a, b => !a || b
  | biconditional, a, b => a == b
  | xor, a, b => a != b
  | nand, a, b => !(a && b)

/-- The sign a connective is displayed with. -/
def sign : Connective → Char
  | conjunction => '&'
  | disjunction => '∨'
  | conditional => '→'
  | biconditional => '↔'
  | xor => '⊕'
  | nand => '|'

/-- The word for a sentence whose outermost connective this is. -/
def word : Connective → Text
  | conjunction => "Conjunction".toList
  | disjunction => "Disjunction".toList
  | conditional => "Conditional".toList
  | biconditional => "Biconditional".toList
  | xor => "Xor".toList
  | nand => "Nand".toList

end Connective

/-- A sentence as a tree. -/
inductive Sentence where
  | const (value : Bool)
  | letter (l : Letter)
  | negation (operand : Sentence)
  | binary (c : Connective) (left right : Sentence)
deriving DecidableEq, Inhabited

namespace Sentence

/-- The word for the variant of a sentence. -/
def variant : Sentence → Text
  | const _ => "Value".toList
  | letter _ => "Letter".toList
  | negation _ => "Negation".toList
  | binary c _ _ => c.word

/-- Constants and letters, whose values need no working out. -/
def isAtomic : Sentence → Bool
  | const _ | letter _ => true
  | negation _ | binary .. => false

def isBinary : Sentence → Bool
  | binary .. => true
  | _ => false

/-- The immediate parts of a sentence, left to right. -/
def operands : Sentence → List Sentence
  | const _ | letter _ => []
  | negation s => [s]
  | binary _ l r => [l, r]

/-- The operands that have to be worked out before the sentence itself. -/
def dependencies (s : Sentence) : List Sentence := s.operands.filter fun o => !o.isAtomic

/-- The classical truth value under a valuation of all letters. -/
def truth (v : Letter → Bool) : Sentence → Bool
  | const b => b
  | letter l => v l
  | negation s => !s.truth v
  | binary c l r => c.apply (l.truth v) (r.truth v)

/-! ### The letters of a sentence -/

/-- Every letter at every place where it stands, left to right. -/
def occurrences : Sentence → List Letter
  | const _ => []
  | letter l => [l]
  | negation s => s.occurrences
  | binary _ l r => l.occurrences ++ r.occurrences

/-- The letters of a sentence, in the order of their first occurrence. -/
def letters (s : Sentence) : Letters := Letters.ofList s.occurrences

/-- The letters of a batch of sentences, by character and number. -/
def batchLetters (batch : List Sentence) : List Letter :=
  (batch.foldl (fun ls s => ls.addAll s.letters.toList) Letters.empty).sorted

theorem mem_letters {s : Sentence} {l : Letter} : l ∈ s.letters.toList ↔ l ∈ s.occurrences := by
  simp [letters, Letters.ofList]

theorem mem_batchLetters {batch : List Sentence} {l : Letter} :
    l ∈ batchLetters batch ↔ ∃ s ∈ batch, l ∈ s.occurrences := by
  suffices ∀ ls : Letters, l ∈ (batch.foldl (fun ls s => ls.addAll s.letters.toList) ls).toList ↔
      l ∈ ls.toList ∨ ∃ s ∈ batch, l ∈ s.occurrences by
    simpa [batchLetters, Letters.sorted, List.mem_mergeSort] using this Letters.empty
  induction batch with
  | nil => simp
  | cons s rest ih =>
    intro ls
    rw [List.foldl_cons, ih, Letters.mem_addAll, mem_letters]
    simp [or_assoc]

/-- A valuation matters only at the letters of the sentence. -/
theorem truth_congr {v w : Letter → Bool} {s : Sentence}
    (h : ∀ l ∈ s.occurrences, v l = w l) : s.truth v = s.truth w := by
  induction s with
  | const b => rfl
  | letter l => exact h l (by simp [occurrences])
  | negation s ih => simp only [truth, ih h]
  | binary c l r ihl ihr =>
    have hl := ihl fun x hx => h x (by simp [occurrences, hx])
    have hr := ihr fun x hx => h x (by simp [occurrences, hx])
    simp only [truth, hl, hr]

end Sentence

/-- Whether a sentence is one of the letters of a collection. -/
def Letters.containsSentence (ls : Letters) : Sentence → Bool
  | .letter l => ls.contains l
  | _ => false

/-- Whether anything at all is one of the letters of a collection. What is no sentence never is. -/
def Letters.containsAny {α : Type} (ls : Letters) : Sentence ⊕ α → Bool
  | .inl s => ls.containsSentence s
  | .inr _ => false

namespace Sentence

/-! ### Comparing -/

/-- The four order comparisons. -/
inductive Comparison where
  | lt
  | le
  | gt
  | ge
deriving DecidableEq

namespace Comparison

def sign : Comparison → Text
  | lt => ['<']
  | le => ['<', '=']
  | gt => ['>']
  | ge => ['>', '=']

def holds : Comparison → Letter → Letter → Bool
  | lt, a, b => decide (a < b)
  | le, a, b => decide (a ≤ b)
  | gt, a, b => decide (b < a)
  | ge, a, b => decide (b ≤ a)

end Comparison

/-- Two sentences that have no order, with the comparison that was asked for. -/
structure Incomparable where
  comparison : Comparison
  left : Sentence
  right : Sentence

def Incomparable.message (e : Incomparable) : Text :=
  ['\x27'] ++ e.comparison.sign ++ "\x27 not supported between instances of \x27".toList ++
    e.left.variant ++ "\x27 and \x27".toList ++ e.right.variant ++ ['\x27']

/-- Letters are the only sentences with an order. -/
def compare (c : Comparison) : Sentence → Sentence → Except Incomparable Bool
  | letter a, letter b => .ok (c.holds a b)
  | a, b => .error ⟨c, a, b⟩

end Sentence

end Propositional
