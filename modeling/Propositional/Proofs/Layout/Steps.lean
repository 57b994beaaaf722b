import Propositional.Proofs.Evaluation.Outcome
import Propositional.Proofs.Layout.Linearization

/-! Values that are worked out step by step.

Somebody who fills a layout in knows the letters and the constants and puts a value at every other
point. One step is right by itself if the value is what the sign of the point makes of the values at
its operand positions (`Follows`), whatever those are. If all steps are right, all values are
(`truth_of_follows`): the operand positions hold the operands, so this is an induction on the
sentence of a point. The converse needs the truth functions alone (`follows_of_truth`). -/
namespace Propositional.Layout

/-- What is shown at a position comes from what is shown at the operand positions of its point, by
the truth function of its sign. -/
inductive Follows (shown : Int → Option Bool) (q : Int) (p : Point) : Prop where
  | negation {s : Sentence} {j : Int} {x : Bool} : p.sentence = .negation s → p.operands = [j] →
      shown j = some x → shown q = some !x → Follows shown q p
  | binary {c : Connective} {s t : Sentence} {j k : Int} {x y z : Bool} :
      p.sentence = .binary c s t → p.operands = [j, k] → shown j = some x → shown k = some y →
      shown q = some z → (z = true ↔ c.Holds (x = true) (y = true)) → Follows shown q p

variable {l : Layout} {isMain : Bool} {main : Nat} {s : Sentence} {v : Letter → Bool}

/-- Where all values are right, each follows from those at its operand positions. -/
theorem follows_of_truth (shown : Int → Option Bool) (h : Placed isMain main s l.points)
    (hshown : ∀ {i p}, (i, p) ∈ l.points → shown i = some (p.sentence.truth v))
    {i : Nat} {p : Point} (hp : (i, p) ∈ l.points) (hopen : p.sentence.isAtomic = false) :
    Follows shown i p := by
  have hown := hshown hp
  cases hsentence : p.sentence with
  | const b =>
    rw [hsentence] at hopen
    cases hopen
  | letter x =>
    rw [hsentence] at hopen
    cases hopen
  | negation u =>
    obtain ⟨j, o, hoperands, ho, rfl⟩ := h.operand_of_negation hp hsentence
    rw [hsentence] at hown
    exact .negation hsentence hoperands (hshown ho) hown
  | binary c u w =>
    obtain ⟨j, k, o, o', hoperands, ⟨ho, rfl⟩, ho', rfl⟩ := h.operands_of_binary hp hsentence
    rw [hsentence] at hown
    exact .binary hsentence hoperands (hshown ho) (hshown ho') hown (c.apply_eq_true_iff _ _)

/-- Where the letters and the constants are right and every other value follows from those at its
operand positions, all values are right. -/
theorem truth_of_follows (shown : Int → Option Bool) (h : Placed isMain main s l.points)
    (hknown : ∀ {i p}, (i, p) ∈ l.points → p.sentence.isAtomic = true →
      shown i = some (p.sentence.truth v))
    (hfollows : ∀ {i p}, (i, p) ∈ l.points → p.sentence.isAtomic = false → Follows shown i p)
    {i : Nat} {p : Point} (hp : (i, p) ∈ l.points) : shown i = some (p.sentence.truth v) := by
  -- on the sentence of the point, wherever it stands
  generalize hsentence : p.sentence = u
  induction u generalizing i p with
  | const b => exact hsentence ▸ hknown hp (by rw [hsentence]; rfl)
  | letter x => exact hsentence ▸ hknown hp (by rw [hsentence]; rfl)
  | negation u ih =>
    obtain ⟨j, o, hoperands, ho, hu⟩ := h.operand_of_negation hp hsentence
    cases hfollows hp (by rw [hsentence]; rfl) with
    | @negation _ j' x _ hoperands' hx hown =>
      obtain rfl := List.singleton_inj.mp (hoperands.symm.trans hoperands')
      obtain rfl := Option.some.inj (hx.symm.trans (ih ho hu))
      exact hown
    | binary hbinary => cases hsentence.symm.trans hbinary
  | binary c u w ihu ihw =>
    obtain ⟨j, k, o, o', hoperands, ⟨ho, hu⟩, ho', hw⟩ := h.operands_of_binary hp hsentence
    cases hfollows hp (by rw [hsentence]; rfl) with
    | negation hnegation => cases hsentence.symm.trans hnegation
    | @binary c' _ _ j' k' x y z hbinary hoperands' hx hy hown hvalue =>
      obtain ⟨rfl, -, -⟩ := Sentence.binary.inj (hsentence.symm.trans hbinary)
      have hpair := hoperands.symm.trans hoperands'
      simp only [List.cons.injEq, and_true] at hpair
      obtain ⟨rfl, rfl⟩ := hpair
      obtain rfl := Option.some.inj (hx.symm.trans (ihu ho hu))
      obtain rfl := Option.some.inj (hy.symm.trans (ihw ho' hw))
      rw [← c.apply_eq_true_iff] at hvalue
      exact hown.trans (congrArg some (Bool.eq_iff_iff.mpr hvalue))

end Propositional.Layout
