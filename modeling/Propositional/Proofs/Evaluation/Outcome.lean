import Propositional.Evaluation

/-! What an evaluation comes to.

A truth value says whether the sentence holds, read as a proposition (`truth_eq_true_iff`). The
letters of a sentence are asked for from left to right, so an evaluation ends at the first of
them without a value (`evaluate_of_unbound`); if there is none, it gives the truth value under the
valuation that the assignment stands for (`evaluate_of_bound`). The operations on evaluations are
those of a lawful monad, and the outcome of a sequence of them is the sequence of their outcomes
(`outcome_mapM`). -/
namespace Propositional

/-- What a connective says of two propositions. -/
def Connective.Holds : Connective → Prop → Prop → Prop
  | conjunction, p, q => p ∧ q
  | disjunction, p, q => p ∨ q
  | conditional, p, q => p → q
  | biconditional, p, q => p ↔ q
  | xor, p, q => ¬(p ↔ q)
  | nand, p, q => ¬(p ∧ q)

theorem Connective.apply_eq_true_iff (c : Connective) (a b : Bool) :
    c.apply a b = true ↔ c.Holds (a = true) (b = true) := by
  cases c <;> cases a <;> cases b <;> simp [apply, Holds]

/-- What a sentence says under a valuation of all letters. -/
def Sentence.Holds (v : Letter → Bool) : Sentence → Prop
  | const b => b = true
  | letter l => v l = true
  | negation s => ¬s.Holds v
  | binary c l r => c.Holds (l.Holds v) (r.Holds v)

theorem Sentence.truth_eq_true_iff (v : Letter → Bool) (s : Sentence) :
    s.truth v = true ↔ s.Holds v := by
  induction s with
  | const b => rfl
  | letter l => rfl
  | negation s ih => rw [truth, Holds, ← ih, Bool.not_eq_true', Bool.not_eq_true]
  | binary c l r ihl ihr => rw [truth, Holds, c.apply_eq_true_iff, ihl, ihr]

namespace Evaluation

variable {α β : Type}

/-! ### Outcomes of composed evaluations -/

theorem outcome_andThen (e : Evaluation α) (f : α → Evaluation β) :
    (e.andThen f).outcome = e.outcome.bind fun a => (f a).outcome := by
  unfold andThen
  split <;> simp_all [Except.bind]

instance : LawfulMonad Evaluation := LawfulMonad.mk' Evaluation
  (by
    intro α e
    obtain ⟨asked, outcome⟩ := e
    show andThen ⟨asked, outcome⟩ (fun a => value (id a)) = ⟨asked, outcome⟩
    cases outcome <;> simp [andThen, value])
  (by
    intro α β a f
    show andThen (value a) f = f a
    simp [andThen, value])
  (by
    intro α β γ e f g
    show andThen (andThen e f) g = andThen e fun a => andThen (f a) g
    obtain ⟨asked, _ | a⟩ := e
    · rfl
    · cases h : (f a).outcome <;> simp [andThen, h])

theorem outcome_mapM (f : α → Evaluation β) (l : List α) :
    (l.mapM f).outcome = l.mapM fun a => (f a).outcome := by
  induction l with
  | nil => rfl
  | cons a rest ih =>
    rw [List.mapM_cons, List.mapM_cons, ← ih]
    show ((f a).andThen fun b => (rest.mapM f).andThen fun bs => value (b :: bs)).outcome = _
    rw [outcome_andThen]
    simp only [outcome_andThen]
    rfl

end Evaluation

/-- The valuation that an assignment stands for; letters without a value are false in it. -/
def Assignment.valuation (a : Assignment) (l : Letter) : Bool := (a.truth? l).getD false

namespace Sentence

variable {a : Assignment} {s : Sentence}

/-! ### Evaluating part by part -/

theorem evaluate_letter (a : Assignment) (l : Letter) :
    (letter l).evaluate a = match a.truth? l with
      | some b => .ok b
      | none => .error ⟨l⟩ := rfl

theorem evaluate_negation (a : Assignment) (s : Sentence) :
    (negation s).evaluate a = (s.evaluate a).bind fun b => .ok !b :=
  Evaluation.outcome_andThen _ _

theorem evaluate_binary (a : Assignment) (c : Connective) (l r : Sentence) :
    (binary c l r).evaluate a =
      (l.evaluate a).bind fun x => (r.evaluate a).bind fun y => .ok (c.apply x y) := by
  rw [evaluate, evaluation, Evaluation.outcome_andThen]
  simp only [Evaluation.outcome_andThen]
  rfl

/-- What letters without a place in the sentence have for a value does not matter. -/
theorem evaluate_congr {b : Assignment} (h : ∀ l ∈ s.occurrences, a.truth? l = b.truth? l) :
    s.evaluate a = s.evaluate b := by
  induction s with
  | const v => rfl
  | letter l => rw [evaluate_letter, evaluate_letter, h l (List.mem_singleton_self l)]
  | negation s ih => rw [evaluate_negation, evaluate_negation, ih h]
  | binary c l r ihl ihr =>
    rw [evaluate_binary, evaluate_binary, ihl fun x hx => h x (List.mem_append_left _ hx),
      ihr fun x hx => h x (List.mem_append_right _ hx)]

/-! ### The first letter without a value -/

/-- The first letter of a sentence, from the left, that has no value. -/
def firstUnbound (a : Assignment) (s : Sentence) : Option Letter :=
  s.occurrences.find? fun l => (a.truth? l).isNone

theorem firstUnbound_binary (a : Assignment) (c : Connective) (l r : Sentence) :
    (binary c l r).firstUnbound a = (l.firstUnbound a).or (r.firstUnbound a) :=
  List.find?_append

theorem truth?_of_bound (h : s.firstUnbound a = none) {l : Letter} (hl : l ∈ s.occurrences) :
    a.truth? l = some (a.valuation l) := by
  have hsome := List.find?_eq_none.mp h l hl
  cases htruth : a.truth? l with
  | none => exact absurd (by rw [htruth]; rfl) hsome
  | some b => rw [Assignment.valuation, htruth]; rfl

theorem truth?_of_unbound {x : Letter} (h : s.firstUnbound a = some x) :
    x ∈ s.occurrences ∧ a.truth? x = none := by
  have hisNone := List.find?_some (p := fun l => (a.truth? l).isNone) h
  exact ⟨List.mem_of_find?_eq_some h, Option.isNone_iff_eq_none.mp hisNone⟩

theorem firstUnbound_of_split {before after : List Letter} {x : Letter}
    (hsplit : s.occurrences = before ++ x :: after)
    (hbefore : ∀ l ∈ before, ∃ b, a.truth? l = some b) (hnone : a.truth? x = none) :
    s.firstUnbound a = some x := by
  refine List.find?_eq_some_iff_append.mpr ⟨by rw [hnone]; rfl, before, after, hsplit, ?_⟩
  intro l hl
  obtain ⟨b, hb⟩ := hbefore l hl
  rw [hb]
  rfl

theorem evaluate_of_bound (h : s.firstUnbound a = none) :
    s.evaluate a = .ok (s.truth a.valuation) :=
  evaluate_eq_truth fun _ => truth?_of_bound h

theorem evaluate_of_unbound {x : Letter} (h : s.firstUnbound a = some x) :
    s.evaluate a = .error ⟨x⟩ := by
  induction s with
  | const b => cases h
  | letter l =>
    obtain ⟨hmem, hnone⟩ := truth?_of_unbound h
    obtain rfl := List.mem_singleton.mp hmem
    rw [evaluate_letter, hnone]
  | negation s ih =>
    rw [evaluate_negation, ih h]
    rfl
  | binary c l r ihl ihr =>
    rw [firstUnbound_binary] at h
    rw [evaluate_binary]
    cases hl : l.firstUnbound a with
    | some y =>
      rw [hl] at h
      rw [ihl (hl.trans h)]
      rfl
    | none =>
      rw [hl] at h
      rw [evaluate_of_bound hl, ihr h]
      rfl

/-- An evaluation fails exactly if some letter has no value. -/
theorem exists_evaluate_error_iff (a : Assignment) (s : Sentence) :
    (∃ u, s.evaluate a = .error u) ↔ ∃ l ∈ s.occurrences, a.truth? l = none := by
  cases hs : s.firstUnbound a with
  | none =>
    rw [evaluate_of_bound hs]
    refine ⟨fun ⟨u, hu⟩ => (nomatch hu), fun ⟨l, hl, hnone⟩ => ?_⟩
    rw [truth?_of_bound hs hl] at hnone
    cases hnone
  | some x => exact ⟨fun _ => ⟨x, truth?_of_unbound hs⟩, fun _ => ⟨⟨x⟩, evaluate_of_unbound hs⟩⟩

end Sentence

end Propositional
