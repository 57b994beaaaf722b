import Propositional.Proofs.Evaluation.Outcome
import Propositional.Proofs.Layout.Linearization
import Propositional.Table

/-! The values under the points of a layout.

Each point is evaluated on its own, from the sentence it stands for; a reader works the values out
from the operand positions instead. The two agree: the values that are reported are truth values
under one valuation (`pointValue`), the operand positions hold the operands
(`Placed.operands_placed`), and the truth value of a sentence comes from those of its operands. The
points are visited in the order of display, so the first letter of the sentence without a value is
also the first that a point asks for in vain (`Placed.mapM_of_unbound`). -/
namespace Propositional

/-- What is reported of a point under a valuation. -/
def Layout.pointValue (v : Letter → Bool) (p : Nat × Point) : Layout.PointValue :=
  ⟨p.1, p.2.text, p.2.sentence.truth v, p.2.isMain⟩

/-- The value that is reported at a position. -/
def Layout.valueAt (reported : List Layout.PointValue) (position : Int) : Option Bool :=
  (reported.find? fun v => (v.position : Int) == position).map fun v => v.value

/-! ### One point -/

namespace Layout

variable {a : Assignment}

theorem outcome_evaluatePoint (a : Assignment) (p : Nat × Point) :
    (evaluatePoint a p).outcome =
      (p.2.sentence.evaluate a).bind fun b => .ok ⟨p.1, p.2.text, b, p.2.isMain⟩ :=
  Evaluation.outcome_andThen _ _

theorem outcome_evaluatePoint_of_bound {p : Nat × Point} (h : p.2.sentence.firstUnbound a = none) :
    (evaluatePoint a p).outcome = .ok (pointValue a.valuation p) := by
  rw [outcome_evaluatePoint, Sentence.evaluate_of_bound h]
  rfl

theorem outcome_evaluatePoint_of_unbound {p : Nat × Point} {x : Letter}
    (h : p.2.sentence.firstUnbound a = some x) : (evaluatePoint a p).outcome = .error ⟨x⟩ := by
  rw [outcome_evaluatePoint, Sentence.evaluate_of_unbound h]
  rfl

end Layout

/-! ### All points, in the order of display -/

namespace Placed

open Layout

variable {a : Assignment} {isMain : Bool} {root : Nat} {s : Sentence} {points : List (Nat × Point)}

/-- Where every letter has a value, every point has one. -/
theorem firstUnbound_of_bound (h : Placed isMain root s points) (hs : s.firstUnbound a = none) :
    ∀ p ∈ points, p.2.sentence.firstUnbound a = none := by
  intro p hp
  rw [Sentence.firstUnbound, List.find?_eq_none] at hs ⊢
  exact fun l hl => hs l (h.occurrences_subset p hp hl)

theorem mapM_of_bound (h : Placed isMain root s points) (hs : s.firstUnbound a = none) :
    points.mapM (fun p => (evaluatePoint a p).outcome) =
      .ok (points.map (pointValue a.valuation)) :=
  Table.mapM_eq_ok fun p hp => outcome_evaluatePoint_of_bound (h.firstUnbound_of_bound hs p hp)

/-- The first letter of a sentence without a value is the first one that its points ask for in
vain. -/
theorem mapM_of_unbound (h : Placed isMain root s points) {x : Letter}
    (hs : s.firstUnbound a = some x) :
    points.mapM (fun p => (evaluatePoint a p).outcome) = .error ⟨x⟩ := by
  induction h with
  | const => cases hs
  | letter m i t l =>
    rw [List.mapM_cons, outcome_evaluatePoint_of_unbound hs]
    rfl
  | negation m i t _ _ =>
    rw [List.mapM_cons, outcome_evaluatePoint_of_unbound hs]
    rfl
  | @binary j k l r left right m i t c hl hr ihl ihr =>
    rw [List.mapM_append]
    cases hleft : l.firstUnbound a with
    | some y =>
      have hxy : some y = some x := by rwa [Sentence.firstUnbound_binary, hleft] at hs
      rw [ihl (hleft.trans hxy)]
      rfl
    | none =>
      -- the left operand has its values, so the connective itself is the first to fail
      rw [hl.mapM_of_bound hleft, List.mapM_cons, outcome_evaluatePoint_of_unbound hs]
      rfl

end Placed

namespace Layout

theorem outcome_evaluate (a : Assignment) (l : Layout) :
    (l.evaluate a).outcome = l.points.mapM fun p => (evaluatePoint a p).outcome :=
  Evaluation.outcome_mapM _ _

/-! ### Reading the values at the operand positions -/

theorem find?_pointValue {l : Layout} {i : Nat} {p : Point} (v : Letter → Bool)
    (hp : (i, p) ∈ l.points) :
    (l.points.map (pointValue v)).find? (fun w => w.position == i) =
      some (pointValue v (i, p)) := by
  have hsome : ((l.points.map (pointValue v)).find? fun w => w.position == i).isSome := by
    rw [List.find?_isSome]
    exact ⟨pointValue v (i, p), List.mem_map_of_mem hp, beq_self_eq_true i⟩
  obtain ⟨w, hw⟩ := Option.isSome_iff_exists.mp hsome
  obtain ⟨⟨j, q⟩, hq, rfl⟩ := List.mem_map.mp (List.mem_of_find?_eq_some hw)
  have hposition := List.find?_some hw
  have hj : j = i := beq_iff_eq.mp hposition
  subst hj
  obtain rfl := point_unique hp hq
  exact hw

theorem valueAt_points {l : Layout} {i : Nat} {p : Point} (v : Letter → Bool)
    (hp : (i, p) ∈ l.points) :
    valueAt (l.points.map (pointValue v)) i = some (p.sentence.truth v) := by
  have hsame : (fun w : PointValue => (w.position : Int) == (i : Int)) = fun w => w.position == i :=
    funext fun w => Bool.eq_iff_iff.mpr (by rw [beq_iff_eq, beq_iff_eq, Int.ofNat_inj])
  rw [valueAt, hsame, find?_pointValue v hp]
  rfl

/-- What is reported of a layout, as a reader has it who follows the operand positions. -/
structure Reports (a : Assignment) (l : Layout) (reported : List PointValue) : Prop where
  /-- There is one value for each point, in the order of display. -/
  one_each : reported.map (fun v => (v.position, v.text, v.isMain)) =
    l.points.map fun p => (p.1, p.2.text, p.2.isMain)
  const_value : ∀ {i p b}, (i, p) ∈ l.points → p.sentence = .const b →
    valueAt reported i = some b
  letter_value : ∀ {i p x}, (i, p) ∈ l.points → p.sentence = .letter x →
    ∃ b, a.truth? x = some b ∧ valueAt reported i = some b
  negation_value : ∀ {i p s}, (i, p) ∈ l.points → p.sentence = .negation s →
    ∃ j b, p.operands = [j] ∧ valueAt reported j = some b ∧ valueAt reported i = some !b
  binary_value : ∀ {i p c s t}, (i, p) ∈ l.points → p.sentence = .binary c s t →
    ∃ j k x y z, p.operands = [j, k] ∧ valueAt reported j = some x ∧
      valueAt reported k = some y ∧ valueAt reported i = some z ∧
      (z = true ↔ c.Holds (x = true) (y = true))

theorem reports_of_placed {a : Assignment} {l : Layout} {isMain : Bool} {main : Nat} {s : Sentence}
    (h : Placed isMain main s l.points) (hs : s.firstUnbound a = none) :
    Reports a l (l.points.map (pointValue a.valuation)) := by
  constructor
  case one_each =>
    rw [List.map_map]
    rfl
  case const_value =>
    intro i p b hp hsentence
    rw [valueAt_points _ hp, hsentence]
    rfl
  case letter_value =>
    intro i p x hp hsentence
    have hbound := h.firstUnbound_of_bound hs _ hp
    rw [hsentence] at hbound
    have htruth := Sentence.truth?_of_bound hbound (List.mem_singleton_self x)
    refine ⟨a.valuation x, htruth, ?_⟩
    rw [valueAt_points _ hp, hsentence]
    rfl
  case negation_value =>
    intro i p u hp hsentence
    obtain ⟨j, o, hoperands, ho, hu⟩ := h.operand_of_negation hp hsentence
    refine ⟨j, u.truth a.valuation, hoperands, ?_, ?_⟩
    · rw [valueAt_points _ ho, hu]
    · rw [valueAt_points _ hp, hsentence]
      rfl
  case binary_value =>
    intro i p c u w hp hsentence
    obtain ⟨j, k, o, o', hoperands, ⟨ho, hu⟩, ho', hw⟩ := h.operands_of_binary hp hsentence
    refine ⟨j, k, u.truth a.valuation, w.truth a.valuation,
      (Sentence.binary c u w).truth a.valuation, hoperands, ?_, ?_, ?_, ?_⟩
    · rw [valueAt_points _ ho, hu]
    · rw [valueAt_points _ ho', hw]
    · rw [valueAt_points _ hp, hsentence]
    · exact c.apply_eq_true_iff _ _

end Layout

/-- **The values under a layout are those of its sentence.** Under any assignment, the points of a
layout have values exactly if the sentence has one, and fail with the same letter otherwise. The
value of a point comes from the values at its operand positions by its own truth function, and at
the main position stands the value of the sentence. -/
theorem Sentence.evaluate_layout_reports (a : Assignment) (s : Sentence) :
    match s.evaluate a with
    | .error u => (s.layout.evaluate a).outcome = .error u
    | .ok b => ∃ reported main, (s.layout.evaluate a).outcome = .ok reported ∧
        s.layout.Reports a reported ∧ s.layout.positionOfMain = .ok main ∧
        Layout.valueAt reported main = some b := by
  have h := s.placed_layout
  cases hs : s.firstUnbound a with
  | some x =>
    rw [evaluate_of_unbound hs]
    show (s.layout.evaluate a).outcome = .error ⟨x⟩
    rw [Layout.outcome_evaluate, h.mapM_of_unbound hs]
  | none =>
    obtain ⟨p, hp, hsentence⟩ := h.root_mem
    rw [evaluate_of_bound hs]
    refine ⟨s.layout.points.map (Layout.pointValue a.valuation), s.mainPosition, ?_,
      Layout.reports_of_placed h hs, s.positionOfMain_layout, ?_⟩
    · rw [Layout.outcome_evaluate, h.mapM_of_bound hs]
    · rw [Layout.valueAt_points _ hp, hsentence]

end Propositional
