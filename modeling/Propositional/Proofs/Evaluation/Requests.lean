import Propositional.Proofs.Evaluation.Outcome

/-! The letters that an evaluation asks for.

An evaluation asks for the letters of a sentence where they stand, from left to right, and ends at
the first one without a value (`asked_evaluation`). No value that it has been given so far lets it
leave a letter out: if all letters have values, it asks for each of them at each of its places.
`evaluation_asks_in_order` says so of a function as the assignment, together with what comes of
it. -/
namespace Propositional

namespace Evaluation

variable {α β : Type}

theorem asked_andThen_of_ok {e : Evaluation α} {a : α} (h : e.outcome = .ok a)
    (f : α → Evaluation β) : (e.andThen f).asked = e.asked ++ (f a).asked := by
  rw [andThen, h]

theorem asked_andThen_of_error {e : Evaluation α} {u : Unbound} (h : e.outcome = .error u)
    (f : α → Evaluation β) : (e.andThen f).asked = e.asked := by
  rw [andThen, h]

/-- Working something out of a value asks for nothing more. -/
theorem asked_andThen_value (e : Evaluation α) (g : α → β) :
    (e.andThen fun a => value (g a)).asked = e.asked := by
  cases h : e.outcome with
  | error u => exact asked_andThen_of_error h _
  | ok a => exact (asked_andThen_of_ok h _).trans (List.append_nil _)

end Evaluation

namespace Assignment

variable {a : Assignment}

/-- Letters up to the first one that has no value, and that one. -/
def upToUnbound (a : Assignment) : List Letter → List Letter
  | [] => []
  | l :: rest => if (a.truth? l).isSome then l :: a.upToUnbound rest else [l]

theorem upToUnbound_append_of_bound {letters : List Letter}
    (h : ∀ l ∈ letters, (a.truth? l).isSome = true) (more : List Letter) :
    a.upToUnbound (letters ++ more) = letters ++ a.upToUnbound more := by
  induction letters with
  | nil => rfl
  | cons l rest ih =>
    rw [List.cons_append, upToUnbound, if_pos (h l List.mem_cons_self),
      ih fun m hm => h m (List.mem_cons_of_mem l hm)]
    rfl

theorem upToUnbound_of_bound {letters : List Letter}
    (h : ∀ l ∈ letters, (a.truth? l).isSome = true) : a.upToUnbound letters = letters := by
  simpa [upToUnbound] using upToUnbound_append_of_bound h []

/-- What follows a letter without a value does not matter. -/
theorem upToUnbound_append_of_unbound {letters : List Letter} {x : Letter} (hx : x ∈ letters)
    (hnone : a.truth? x = none) (more : List Letter) :
    a.upToUnbound (letters ++ more) = a.upToUnbound letters := by
  induction letters with
  | nil => cases hx
  | cons l rest ih =>
    by_cases hl : (a.truth? l).isSome = true
    · have hne : x ≠ l := by
        rintro rfl
        rw [hnone] at hl
        cases hl
      have hrest : x ∈ rest := List.mem_of_ne_of_mem hne hx
      rw [List.cons_append, upToUnbound, upToUnbound, if_pos hl, if_pos hl, ih hrest]
    · rw [List.cons_append, upToUnbound, upToUnbound, if_neg hl, if_neg hl]

end Assignment

namespace Sentence

variable {a : Assignment} {s : Sentence}

theorem isSome_truth?_of_bound (h : s.firstUnbound a = none) :
    ∀ l ∈ s.occurrences, (a.truth? l).isSome = true := fun l hl => by
  rw [truth?_of_bound h hl]
  rfl

/-- The letters that are asked for are those of the sentence, from left to right, up to the first
one without a value. -/
theorem asked_evaluation (a : Assignment) (s : Sentence) :
    (s.evaluation a).asked = a.upToUnbound s.occurrences := by
  induction s with
  | const b => rfl
  | letter l =>
    show [l] = if (a.truth? l).isSome then [l] else [l]
    split <;> rfl
  | negation s ih => exact (Evaluation.asked_andThen_value _ _).trans ih
  | binary c l r ihl ihr =>
    rw [occurrences, evaluation]
    cases hl : l.firstUnbound a with
    | none =>
      have hvalue : (l.evaluation a).outcome = .ok (l.truth a.valuation) := evaluate_of_bound hl
      have hbound := isSome_truth?_of_bound hl
      rw [Evaluation.asked_andThen_of_ok hvalue, Evaluation.asked_andThen_value, ihl, ihr,
        Assignment.upToUnbound_append_of_bound hbound, Assignment.upToUnbound_of_bound hbound]
    | some x =>
      have herror : (l.evaluation a).outcome = .error ⟨x⟩ := evaluate_of_unbound hl
      obtain ⟨hx, hnone⟩ := truth?_of_unbound hl
      rw [Evaluation.asked_andThen_of_error herror, ihl,
        Assignment.upToUnbound_append_of_unbound hx hnone]

end Sentence

/-! ### Functions as assignments -/

/-- A function gives a value for a letter. -/
def Gives (reply : Letter → Reply) (l : Letter) : Prop := ∃ b, reply l = .value b

theorem gives_iff {reply : Letter → Reply} {l : Letter} :
    Gives reply l ↔ ((Assignment.function reply).truth? l).isSome = true := by
  show _ ↔ (reply l).truth?.isSome = true
  cases h : reply l <;> simp [Gives, h, Reply.truth?]

theorem not_gives_iff {reply : Letter → Reply} {l : Letter} :
    ¬Gives reply l ↔ (Assignment.function reply).truth? l = none := by
  rw [gives_iff, Option.not_isSome_iff_eq_none]

theorem firstUnbound_eq_none_iff {reply : Letter → Reply} {s : Sentence} :
    s.firstUnbound (.function reply) = none ↔ ∀ l ∈ s.occurrences, Gives reply l := by
  simp only [Sentence.firstUnbound, List.find?_eq_none, gives_iff, Bool.not_eq_true,
    Option.isNone_eq_false_iff]

/-- An evaluation that asks for the letters of a sentence in order. -/
structure AsksInOrder (reply : Letter → Reply) (s : Sentence) (e : Evaluation Bool) : Prop where
  /-- A letter without a value, where all before it have one, is the last that is asked for, and it
  is the one that is named. -/
  of_missing : ∀ before l after, s.occurrences = before ++ l :: after →
    (∀ m ∈ before, Gives reply m) → ¬Gives reply l →
    e.asked = before ++ [l] ∧ e.outcome = .error ⟨l⟩
  fails_iff : (∃ u, e.outcome = .error u) ↔ ∃ l ∈ s.occurrences, ¬Gives reply l
  /-- Where all have a value, each is asked for at each of its places, and the sentence holds or not
  as the values say. -/
  of_given : (∀ l ∈ s.occurrences, Gives reply l) → e.asked = s.occurrences ∧
    ∃ b, e.outcome = .ok b ∧ ∀ v : Letter → Bool,
      (∀ l ∈ s.occurrences, reply l = .value (v l)) → (b = true ↔ s.Holds v)

/-- **An evaluation asks from left to right and leaves nothing out.** The letters that are asked for
are the letters of the sentence at all their places, left to right, up to the first one for which
the function gives no value; if there is one, the evaluation fails with it, and otherwise it comes
to the truth value of the sentence. -/
theorem Sentence.evaluation_asks_in_order (reply : Letter → Reply) (s : Sentence) :
    AsksInOrder reply s (s.evaluation (.function reply)) := by
  constructor
  case of_missing =>
    intro before l after hsplit hbefore hl
    have hbound : ∀ m ∈ before, ((Assignment.function reply).truth? m).isSome = true :=
      fun m hm => gives_iff.mp (hbefore m hm)
    have hnone := not_gives_iff.mp hl
    have hfirst : s.firstUnbound (.function reply) = some l := by
      refine List.find?_eq_some_iff_append.mpr ⟨by rw [hnone]; rfl, before, after, hsplit, ?_⟩
      exact fun m hm => by simpa using hbound m hm
    refine ⟨?_, evaluate_of_unbound hfirst⟩
    rw [asked_evaluation, hsplit, Assignment.upToUnbound_append_of_bound hbound,
      Assignment.upToUnbound, hnone]
    rfl
  case fails_iff =>
    simp only [not_gives_iff]
    exact exists_evaluate_error_iff (.function reply) s
  case of_given =>
    intro hgives
    have hbound := firstUnbound_eq_none_iff.mpr hgives
    refine ⟨?_, s.truth (Assignment.function reply).valuation, evaluate_of_bound hbound, ?_⟩
    · rw [asked_evaluation, Assignment.upToUnbound_of_bound (isSome_truth?_of_bound hbound)]
    · intro v hv
      have hagree : ∀ l ∈ s.occurrences, (Assignment.function reply).valuation l = v l := by
        intro l hl
        show ((reply l).truth?).getD false = v l
        rw [hv l hl]
        rfl
      rw [truth_congr hagree, truth_eq_true_iff]

end Propositional
