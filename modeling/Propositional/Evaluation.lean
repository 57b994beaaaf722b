import Propositional.Assignment

/-! Evaluating a sentence under an assignment. Both operands of a connective are evaluated, the
left one first, even where the left value settles the result; the first letter without a value
ends the evaluation. An evaluation records the letters it asked for. -/
namespace Propositional

/-- The letters asked for, in order, and the value or the letter that had none. -/
structure Evaluation (α : Type) where
  asked : List Letter
  outcome : Except Unbound α

namespace Evaluation

variable {α β : Type}

def value (a : α) : Evaluation α := ⟨[], .ok a⟩

/-- One evaluation after another; the second does not happen if the first failed. -/
def andThen (e : Evaluation α) (f : α → Evaluation β) : Evaluation β :=
  match e.outcome with
  | .ok a => ⟨e.asked ++ (f a).asked, (f a).outcome⟩
  | .error u => ⟨e.asked, .error u⟩

instance : Monad Evaluation where
  pure := value
  bind := andThen

/-- Asks an assignment for a letter. -/
def ask (a : Assignment) (l : Letter) : Evaluation Bool :=
  ⟨[l], match a.truth? l with
    | some b => .ok b
    | none => .error ⟨l⟩⟩

end Evaluation

namespace Sentence

def evaluation (a : Assignment) : Sentence → Evaluation Bool
  | const b => .value b
  | letter l => .ask a l
  | negation s => (s.evaluation a).andThen fun b => .value !b
  | binary c l r =>
    (l.evaluation a).andThen fun x => (r.evaluation a).andThen fun y => .value (c.apply x y)

def evaluate (a : Assignment) (s : Sentence) : Except Unbound Bool := (s.evaluation a).outcome

/-! ### Where every letter has a value -/

theorem evaluate_eq_truth {a : Assignment} {v : Letter → Bool} {s : Sentence}
    (h : ∀ l ∈ s.occurrences, a.truth? l = some (v l)) : s.evaluate a = .ok (s.truth v) := by
  induction s with
  | const b => rfl
  | letter l => simp [evaluate, evaluation, Evaluation.ask, h l (by simp [occurrences]), truth]
  | negation s ih =>
    have := ih h
    simp only [evaluate] at this
    simp [evaluate, evaluation, Evaluation.andThen, Evaluation.value, this, truth]
  | binary c l r ihl ihr =>
    have hl := ihl fun x hx => h x (by simp [occurrences, hx])
    have hr := ihr fun x hx => h x (by simp [occurrences, hx])
    simp only [evaluate] at hl hr
    simp [evaluate, evaluation, Evaluation.andThen, Evaluation.value, hl, hr, truth]

end Sentence

end Propositional
