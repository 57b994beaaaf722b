import Propositional.Proofs.Layout.Steps
import Propositional.Proofs.Quiz.Accuracy

/-! What a check rewards.

An answer is marked against the truth value of the sentence at its cell, worked out from scratch.
Somebody who answers a formula cell by cell looks at less: at the answers in the operand cells and,
where an operand is a letter or a constant, at its value in the row (`Session.shown?`). All cells of
a formula in a row are marked correct exactly if each of their answers follows in this way from what
is shown at its operands, `Layout.Follows`; and then the answer in the main cell is the value of the
formula in the table. `run_rewards_steps` states this in every state of a session. -/
namespace Propositional.Quiz

namespace Session

/-- What a cell shows: letters and constants are filled in, all else is as answered. -/
def shown? (s : Session) (c : Cell) : Option Bool :=
  match s.sheet.sentence? c with
  | some (.const b) => some b
  | some (.letter l) => (s.sheet.row? c).bind fun r => r.toAssignment.truth? l
  | some (.negation _) | some (.binary ..) => s.answer? c
  | none => none

/-- Each cell of a formula in a row has an answer that follows from what is shown at its
operands. -/
def WorkedOut (s : Session) (row formula : Nat) : Prop :=
  ∀ position, s.sheet.contains ⟨row, formula, position⟩ = true →
    ∃ p, s.sheet.point? ⟨row, formula, position⟩ = some p ∧
      Layout.Follows (fun q => s.shown? ⟨row, formula, q⟩) position p

/-- Each cell of a formula in a row is marked correct. -/
def AllCorrect (s : Session) (row formula : Nat) : Prop :=
  ∀ position, s.sheet.contains ⟨row, formula, position⟩ = true →
    s.status? ⟨row, formula, position⟩ = some .correct

/-! ### What the cells show -/

variable {s : Session} {c : Cell} {p : Point}

theorem shown?_of_open (hp : s.sheet.point? c = some p) (hopen : p.sentence.isAtomic = false) :
    s.shown? c = s.answer? c := by
  rw [shown?, Sheet.sentence?_eq_map, hp, Option.map_some]
  cases hsentence : p.sentence with
  | const b => rw [hsentence] at hopen; cases hopen
  | letter l => rw [hsentence] at hopen; cases hopen
  | negation u => rfl
  | binary k u w => rfl

theorem shown?_of_known {r : Row} {v : Letter → Bool} (hp : s.sheet.point? c = some p)
    (hr : s.sheet.row? c = some r) (hknown : p.sentence.isAtomic = true)
    (hv : ∀ l ∈ p.sentence.occurrences, r.toAssignment.truth? l = some (v l)) :
    s.shown? c = some (p.sentence.truth v) := by
  rw [shown?, Sheet.sentence?_eq_map, hp, Option.map_some]
  cases hsentence : p.sentence with
  | const b => rfl
  | letter l =>
    rw [hsentence] at hv
    rw [hr]
    exact hv l (List.mem_singleton_self l)
  | negation u => rw [hsentence] at hknown; cases hknown
  | binary k u w => rw [hsentence] at hknown; cases hknown

/-- A check marks the answers that are right as correct, and no others. -/
theorem status?_check_iff (ha : s.sheet.Answerable) (hs : s.Consistent) :
    (s.perform .check).1.status? c = some .correct ↔
      s.answer? c = some (s.sheet.expected c) := by
  rw [perform_check ha hs]
  show (s.marks.checkedBy s.sheet.expected).statuses.get? c = some .correct ↔ _
  rw [Marks.get?_statuses_checkedBy, Option.map_eq_some_iff]
  constructor
  · rintro ⟨b, hb, hcorrect⟩
    rwa [← (Status.ofAnswer_eq_correct_iff _ _).mp hcorrect]
  · intro hanswer
    exact ⟨_, hanswer, (Status.ofAnswer_eq_correct_iff _ _).mpr rfl⟩

/-! ### One formula in one row -/

/-- The session is on the table of a batch, with this row and this formula at these places. -/
structure At (s : Session) (formulas : List Sentence) (row formula : Nat) (r : Row)
    (f : Sentence) : Prop where
  sheet_eq : s.sheet = Sheet.ofTable (Table.ofBatch formulas)
  row_eq : (Table.ofBatch formulas).rows[row]? = some r
  formula_eq : formulas[formula]? = some f

namespace At
variable {formulas : List Sentence} {row formula : Nat} {r : Row} {f : Sentence}

theorem row?_eq (h : s.At formulas row formula r f) (q : Int) :
    (Sheet.ofTable (Table.ofBatch formulas)).row? ⟨row, formula, q⟩ = some r := by
  rw [Sheet.row?, Sheet.fromFront?_natCast]
  exact h.row_eq

theorem formula?_eq (h : s.At formulas row formula r f) :
    Sheet.fromFront? formulas formula = some f := by
  rw [Sheet.fromFront?_natCast, h.formula_eq]

theorem point?_eq (h : s.At formulas row formula r f) {i : Nat} (hp : (i, p) ∈ f.layout.points) :
    s.sheet.point? ⟨row, formula, i⟩ = some p := by
  rw [h.sheet_eq]
  exact Sheet.point?_ofTable h.formula?_eq rfl hp

theorem contains_iff (h : s.At formulas row formula r f) {q : Int} :
    s.sheet.contains ⟨row, formula, q⟩ = true ↔
      ∃ i p, q = ((i : Nat) : Int) ∧ (i, p) ∈ f.layout.points ∧ p.sentence.isAtomic = false := by
  rw [← DependencyMap.isNode_ofSentence_iff, h.sheet_eq, Sheet.contains_ofTable_iff]
  constructor
  · rintro ⟨_, f', -, hf', hnode⟩
    obtain rfl := Option.some.inj (h.formula?_eq.symm.trans hf')
    exact hnode
  · exact fun hnode => ⟨r, f, h.row?_eq q, h.formula?_eq, hnode⟩

theorem expected_eq (h : s.At formulas row formula r f) {i : Nat}
    (hp : (i, p) ∈ f.layout.points) (hopen : p.sentence.isAtomic = false) :
    s.sheet.expected ⟨row, formula, i⟩ = p.sentence.truth (Table.valuation r.assignment) := by
  rw [h.sheet_eq, Sheet.expected,
    Sheet.solution_ofBatch (h.row?_eq i) h.formula?_eq rfl hp hopen]
  rfl

theorem shown?_of_isAtomic (h : s.At formulas row formula r f) {i : Nat}
    (hp : (i, p) ∈ f.layout.points) (hknown : p.sentence.isAtomic = true) :
    s.shown? ⟨row, formula, i⟩ = some (p.sentence.truth (Table.valuation r.assignment)) := by
  refine shown?_of_known (h.point?_eq hp) (by rw [h.sheet_eq, h.row?_eq]) hknown fun l hl => ?_
  have hl := f.placed_layout.occurrences_subset _ hp hl
  exact Table.truth?_toAssignment_iff.mpr (Table.lookup_of_mem_rows
    (List.mem_of_getElem? h.row_eq)
    (Sentence.mem_batchLetters.mpr ⟨f, List.mem_of_getElem? h.formula_eq, hl⟩))

/-- If every answer follows from what is shown at its operands, all that is shown is right. -/
theorem shown?_of_workedOut (h : s.At formulas row formula r f) (hworked : s.WorkedOut row formula)
    {i : Nat} (hp : (i, p) ∈ f.layout.points) :
    s.shown? ⟨row, formula, i⟩ = some (p.sentence.truth (Table.valuation r.assignment)) := by
  refine Layout.truth_of_follows (fun q => s.shown? ⟨row, formula, q⟩) f.placed_layout
    (fun hp => h.shown?_of_isAtomic hp) (fun {i p} hp hopen => ?_) hp
  obtain ⟨p', hp', hfollows⟩ := hworked i (h.contains_iff.mpr ⟨i, p, rfl, hp, hopen⟩)
  obtain rfl := Option.some.inj ((h.point?_eq hp).symm.trans hp')
  exact hfollows

theorem answer?_of_workedOut (h : s.At formulas row formula r f)
    (hworked : s.WorkedOut row formula) {i : Nat} (hp : (i, p) ∈ f.layout.points)
    (hopen : p.sentence.isAtomic = false) :
    s.answer? ⟨row, formula, i⟩ = some (p.sentence.truth (Table.valuation r.assignment)) := by
  rw [← shown?_of_open (h.point?_eq hp) hopen]
  exact h.shown?_of_workedOut hworked hp

/-- Right answers follow from what is shown at their operands. -/
theorem workedOut_of_answers (h : s.At formulas row formula r f)
    (hanswers : ∀ {i p}, (i, p) ∈ f.layout.points → p.sentence.isAtomic = false →
      s.answer? ⟨row, formula, i⟩ = some (p.sentence.truth (Table.valuation r.assignment))) :
    s.WorkedOut row formula := by
  have hshown : ∀ {i p}, (i, p) ∈ f.layout.points →
      s.shown? ⟨row, formula, i⟩ = some (p.sentence.truth (Table.valuation r.assignment)) := by
    intro i p hp
    cases hatomic : p.sentence.isAtomic with
    | true => exact h.shown?_of_isAtomic hp hatomic
    | false => rw [shown?_of_open (h.point?_eq hp) hatomic, hanswers hp hatomic]
  intro q hq
  obtain ⟨i, p, rfl, hp, hopen⟩ := h.contains_iff.mp hq
  exact ⟨p, h.point?_eq hp, Layout.follows_of_truth _ f.placed_layout hshown hp hopen⟩

theorem allCorrect_check_iff (h : s.At formulas row formula r f) (ha : s.sheet.Answerable)
    (hs : s.Consistent) :
    (s.perform .check).1.AllCorrect row formula ↔
      ∀ {i p}, (i, p) ∈ f.layout.points → p.sentence.isAtomic = false →
        s.answer? ⟨row, formula, i⟩ =
          some (p.sentence.truth (Table.valuation r.assignment)) := by
  have hsheet : (s.perform .check).1.sheet = s.sheet := (move_perform ha hs .check).sheet_eq
  constructor
  · intro hcorrect i p hp hopen
    have hcell := h.contains_iff.mpr ⟨i, p, rfl, hp, hopen⟩
    rw [← h.expected_eq hp hopen]
    exact (status?_check_iff ha hs).mp (hcorrect i (by rwa [hsheet]))
  · intro hanswers q hq
    rw [hsheet] at hq
    obtain ⟨i, p, rfl, hp, hopen⟩ := h.contains_iff.mp hq
    exact (status?_check_iff ha hs).mpr (by rw [h.expected_eq hp hopen, hanswers hp hopen])

end At

/-- A check judges a formula in a row step by step. -/
structure RewardsSteps (s : Session) (row formula : Nat) (r : Row) (f : Sentence) : Prop where
  check_ok : (s.perform .check).2 = .ok ()
  /-- All cells are marked correct exactly if they all have answers that follow from what is shown
  at their operands. -/
  allCorrect_iff : (s.perform .check).1.AllCorrect row formula ↔ s.WorkedOut row formula
  /-- In the main cell stands then the value of the formula. -/
  main_answer : f.isAtomic = false → s.WorkedOut row formula →
    ∃ main b, f.layout.positionOfMain = .ok main ∧
      s.sheet.contains ⟨row, formula, main⟩ = true ∧
      s.answer? ⟨row, formula, main⟩ = some b ∧ r.values[formula]? = some b

/-- **A check rewards step-by-step reasoning.** Whatever has been done in a session on a generated
table, the next check marks all cells of a formula in a row as correct exactly if each answer
follows from the answers and the values of the row at its operands; and then the main cell has the
value that the table lists for the formula. -/
theorem run_rewards_steps (formulas : List Sentence) :
    ∃ t, Table.generate formulas = .ok t ∧ ∀ actions (row formula : Nat) (r : Row) (f : Sentence),
      t.rows[row]? = some r → formulas[formula]? = some f →
      ((start t).run actions).RewardsSteps row formula r f := by
  refine ⟨Table.ofBatch formulas, Table.generate_eq_ofBatch formulas, ?_⟩
  intro actions row formula r f hr hf
  have ha := Sheet.answerable_ofBatch formulas
  obtain ⟨hsheet, hs⟩ := run_consistent ha actions
  rw [← hsheet] at ha
  have hat : ((start (Table.ofBatch formulas)).run actions).At formulas row formula r f :=
    ⟨hsheet, hr, hf⟩
  constructor
  case check_ok => rw [perform_check ha hs]
  case allCorrect_iff =>
    rw [hat.allCorrect_check_iff ha hs]
    exact ⟨fun hanswers => hat.workedOut_of_answers hanswers,
      fun hworked _ _ => hat.answer?_of_workedOut hworked⟩
  case main_answer =>
    intro hopen hworked
    obtain ⟨p, hp, rfl⟩ := f.placed_layout.root_mem
    exact ⟨_, _, Sentence.positionOfMain_layout _,
      hat.contains_iff.mpr ⟨_, p, rfl, hp, hopen⟩, hat.answer?_of_workedOut hworked hp hopen,
      Table.getElem?_values (List.mem_of_getElem? hr) hf⟩

/-- In the third row of `~P&Q` both cells are answered, each as it follows, so a check marks both as
correct, and the answer to the conjunction is the value in the table. -/
theorem rewards_steps_negated_conjunct :
    ∃ t s, Table.generate [.binary .conjunction (.negation Table.letterP) Table.letterQ] = .ok t ∧
      s = (start t).run [.answer ⟨2, 0, 0⟩ (some true), .answer ⟨2, 0, 2⟩ (some true)] ∧
      s.WorkedOut 2 0 ∧ (s.perform .check).1.AllCorrect 2 0 ∧
      ∃ main b, s.answer? ⟨2, 0, main⟩ = some b ∧ t.rows[2]?.bind (·.values[0]?) = some b := by
  obtain ⟨t, ht, hsteps⟩ := run_rewards_steps
    [.binary .conjunction (.negation Table.letterP) Table.letterQ]
  -- the letters occur in their order, so they are the columns as they are
  have hletters : Sentence.batchLetters [.binary .conjunction (.negation Table.letterP)
      Table.letterQ] = [{ id := 'P', isUpper := rfl }, { id := 'Q', isUpper := rfl }] :=
    Letters.sorted_of_pairwise (by decide)
  have htable := Table.eq_of_generate ht hletters
  obtain ⟨s, hrun⟩ : ∃ s, s = (start t).run
      [.answer ⟨2, 0, 0⟩ (some true), .answer ⟨2, 0, 2⟩ (some true)] := ⟨_, rfl⟩
  obtain ⟨r, hr⟩ : ∃ r, t.rows[2]? = some r :=
    Option.isSome_iff_exists.mp (by rw [htable]; rfl)
  have hs : s.RewardsSteps 2 0 r
      (.binary .conjunction (.negation Table.letterP) Table.letterQ) := by
    rw [hrun]
    exact hsteps _ 2 0 r _ hr rfl
  have hsheet : s.sheet = .ofTable t := by rw [hrun, htable]; rfl
  have hcells : s.sheet.cells = [⟨0, 0, 0⟩, ⟨0, 0, 2⟩, ⟨1, 0, 0⟩, ⟨1, 0, 2⟩, ⟨2, 0, 0⟩, ⟨2, 0, 2⟩,
      ⟨3, 0, 0⟩, ⟨3, 0, 2⟩] := by
    rw [hsheet, Sheet.cells_ofTable, htable]
    rfl
  have hworked : s.WorkedOut 2 0 := by
    intro q hq
    rw [← Sheet.mem_cells_iff, hcells] at hq
    obtain rfl | rfl : q = 0 ∨ q = 2 := by simpa using hq
    · refine ⟨⟨['~'], .negation Table.letterP, false, [1]⟩, by rw [hrun, htable]; rfl, ?_⟩
      exact .negation (x := false) rfl rfl (by rw [hrun, htable]; rfl) (by rw [hrun, htable]; rfl)
    · refine ⟨⟨['&'], .binary .conjunction (.negation Table.letterP) Table.letterQ, true, [0, 3]⟩,
        by rw [hrun, htable]; rfl, ?_⟩
      exact .binary (x := true) (y := true) (z := true) rfl rfl (by rw [hrun, htable]; rfl)
        (by rw [hrun, htable]; rfl) (by rw [hrun, htable]; rfl) (by simp [Connective.Holds])
  obtain ⟨main, b, -, -, hb, hvalue⟩ := hs.main_answer rfl hworked
  refine ⟨t, s, ht, hrun, hworked, hs.allCorrect_iff.mpr hworked, main, b, hb, ?_⟩
  rw [hr]
  exact hvalue

end Session

end Propositional.Quiz
