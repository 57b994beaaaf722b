import Propositional.Proofs.Quiz.Moves

/-! The marks of a session are accurate, whatever has been done in it.

`Accurate` is what a session on a generated table promises in every state: answers stand in cells
only, a status says of the answer that stands there now whether it is right, there are no statuses
before a check, and something is saved exactly while the answers are revealed. The tally follows:
a cell that counts as correct or incorrect has a status (`correct_add_incorrect`), so it counts as
filled, and right after a check every filled cell has one. `run_accurate` states it for all runs. -/
namespace Propositional.Quiz

theorem Status.ofAnswer_eq_correct_iff (answer expected : Bool) :
    ofAnswer answer expected = .correct ↔ answer = expected := by
  cases answer <;> cases expected <;> decide

theorem Status.ofAnswer_eq_incorrect_iff (answer expected : Bool) :
    ofAnswer answer expected = .incorrect ↔ answer ≠ expected := by
  cases answer <;> cases expected <;> decide

theorem countP_correct_add_incorrect {α : Type} (status? : α → Option Status) (l : List α) :
    (l.countP fun a => status? a == some .correct) +
        (l.countP fun a => status? a == some .incorrect) =
      l.countP fun a => (status? a).isSome := by
  induction l with
  | nil => rfl
  | cons a rest ih =>
    simp only [List.countP_cons]
    rcases status? a with _ | _ | _ <;> simp <;> omega

namespace Session

/-- What is on display is accurate. -/
structure Accurate (s : Session) : Prop where
  contains_of_answer : ∀ {c b}, s.answer? c = some b → s.sheet.contains c = true
  /-- A cell with a status has an answer, and the status is about that answer. -/
  answer_of_status : ∀ {c st}, s.status? c = some st → ∃ answer expected,
    s.answer? c = some answer ∧ s.sheet.solution c = .ok expected ∧
    (st = .correct ↔ answer = expected) ∧ (st = .incorrect ↔ answer ≠ expected)
  checked_of_status : ∀ {c st}, s.status? c = some st → s.marks.checked = true
  saved_iff : s.saved.isSome = true ↔ s.revealed = true
  tally_le : s.tally.correct + s.tally.incorrect ≤ s.tally.filled ∧ s.tally.filled ≤ s.tally.total
  /-- A check succeeds, and leaves no answer without a status. -/
  check_ok : (s.perform .check).2 = .ok ()
  tally_check : (s.perform .check).1.tally.correct + (s.perform .check).1.tally.incorrect =
    (s.perform .check).1.tally.filled

variable {s : Session}

/-! ### The tally -/

theorem correct_add_incorrect (s : Session) :
    s.tally.correct + s.tally.incorrect =
      s.sheet.cells.countP fun c => (s.status? c).isSome :=
  countP_correct_add_incorrect s.status? s.sheet.cells

theorem isSome_status_of_answered {c : Cell} (hs : s.Consistent) (h : (s.status? c).isSome = true) :
    s.marks.answers.contains c = true := by
  obtain ⟨st, hst⟩ := Option.isSome_iff_exists.mp h
  obtain ⟨b, hb, -⟩ := hs.marks.answer_of_status hst
  exact Marks.contains_answers_iff.mpr ⟨b, hb⟩

theorem tally_le_of_consistent (hs : s.Consistent) :
    s.tally.correct + s.tally.incorrect ≤ s.tally.filled ∧ s.tally.filled ≤ s.tally.total := by
  constructor
  · rw [correct_add_incorrect]
    exact List.countP_mono_left fun c _ => isSome_status_of_answered hs
  · exact List.countP_le_length

theorem tally_checkedBy (s : Session) (expected : Cell → Bool) :
    let after : Session := { s with marks := s.marks.checkedBy expected }
    after.tally.correct + after.tally.incorrect = after.tally.filled := by
  intro after
  rw [correct_add_incorrect]
  apply List.countP_congr
  intro c _
  have hstatus : after.status? c = (s.marks.answers.get? c).map fun b => .ofAnswer b (expected c) :=
    Marks.get?_statuses_checkedBy expected s.marks c
  rw [hstatus, Option.isSome_map, Bindings.contains_iff]
  rfl

/-! ### Every state of a run -/

theorem accurate_of_consistent (ha : s.sheet.Answerable) (hs : s.Consistent) : s.Accurate := by
  have hcheck := perform_check ha hs
  constructor
  case contains_of_answer =>
    intro c b hb
    exact hs.marks.contains_of_answered ⟨b, hb⟩
  case answer_of_status =>
    intro c st hst
    obtain ⟨b, hb, rfl⟩ := hs.marks.answer_of_status hst
    have hc := hs.marks.contains_of_answered ⟨b, hb⟩
    exact ⟨b, s.sheet.expected c, hb, ha.solution_eq hc, Status.ofAnswer_eq_correct_iff _ _,
      Status.ofAnswer_eq_incorrect_iff _ _⟩
  case checked_of_status => exact hs.marks.checked_of_status
  case saved_iff => exact hs.saved_iff
  case tally_le => exact tally_le_of_consistent hs
  case check_ok => rw [hcheck]
  case tally_check =>
    rw [hcheck]
    exact s.tally_checkedBy s.sheet.expected

/-- **A session is accurate in every state.** Whatever is done in a session on a generated table,
and whether or not it succeeds, the session stays on that table and its marks and its tally are
accurate. -/
theorem run_accurate (formulas : List Sentence) :
    ∃ t, Table.generate formulas = .ok t ∧ ∀ actions,
      ((start t).run actions).sheet = Sheet.ofTable t ∧ ((start t).run actions).Accurate := by
  refine ⟨Table.ofBatch formulas, Table.generate_eq_ofBatch formulas, fun actions => ?_⟩
  have ha := Sheet.answerable_ofBatch formulas
  obtain ⟨hsheet, hs⟩ := run_consistent ha actions
  exact ⟨hsheet, accurate_of_consistent (by rwa [hsheet]) hs⟩

end Session

end Propositional.Quiz
