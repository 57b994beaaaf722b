import Propositional.Proofs.Sentence.Readability

/-! What the compact form tells of a sentence.

The compact form spells the constants as T and F, and these are letters too. With letters in the
place of the constants it is a form like any other, with a bare sign as the joint, and so uniquely
readable. Hence it cannot tell a constant from the letter of the same spelling
(`not_compact_injective`), and this is all that it cannot tell: `compact_eq_iff_lettered`. -/
namespace Propositional.Sentence

/-- The letter that a constant is spelled like in the compact form. -/
def constantLetter (value : Bool) : Letter :=
  if value then { id := 'T', isUpper := by decide } else { id := 'F', isUpper := by decide }

/-- A sentence with letters in the place of its constants. -/
def lettered : Sentence → Sentence
  | const b => letter (constantLetter b)
  | letter l => letter l
  | negation s => negation s.lettered
  | binary c l r => binary c l.lettered r.lettered

theorem joints_sign : Joints fun c => [c.sign] where
  eq_cons c := ⟨c.sign, [], rfl, by cases c <;> decide⟩
  eq_of_append c c' u v h := by
    have hsign := (List.cons.inj h).1
    cases c <;> cases c' <;> first | rfl | cases hsign

theorem compactAt_false_eq (s : Sentence) :
    s.compactAt false = s.lettered.operandWith fun c => [c.sign] := by
  induction s with
  | const b => cases b <;> rfl
  | letter l => rfl
  | negation s ih => exact congrArg ('~' :: ·) ih
  | binary c l r ihl ihr =>
    simp only [compactAt, lettered, operandWith, ihl, ihr, List.append_assoc]
    rfl

theorem compact_eq (s : Sentence) : s.compact = s.lettered.formWith fun c => [c.sign] := by
  cases s with
  | binary c l r =>
    show l.compactAt false ++ c.sign :: r.compactAt false = _
    simp only [lettered, formWith, compactAt_false_eq, List.append_assoc]
    rfl
  | const b => exact compactAt_false_eq (const b)
  | letter l => rfl
  | negation s => exact compactAt_false_eq (negation s)

/-- **The compact form tells everything but how the constants are spelled.** Two sentences have the
same compact form exactly if they are the same sentence with the letters T and F in the place of the
constants. -/
theorem compact_eq_iff_lettered (a b : Sentence) :
    a.compact = b.compact ↔ a.lettered = b.lettered := by
  rw [compact_eq, compact_eq]
  exact ⟨formWith_inj joints_sign, congrArg _⟩

/-- The constant true and the letter T have one compact form. -/
theorem not_compact_injective : ¬∀ a b : Sentence, a.compact = b.compact → a = b :=
  fun h => nomatch h (const true) (letter (constantLetter true)) rfl

end Propositional.Sentence
