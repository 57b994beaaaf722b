import Mathlib.Data.List.Induction
import Propositional.Proofs.Quiz.Moves

/-! Revealing the answers and hiding them again.

Revealing fills in every cell with its right answer and puts away what was there. Until the sheet is
hidden, answers and checks change the marks on display and nothing else (`perform_edit`), so what
was put away is still the same after any number of them (`run_edits`), and hiding brings it back:
the session is the one from before (`hide_run_reveal`). `run_reveal_hide` states this for every
state of a session in which the answers are not revealed. -/
namespace Propositional.Quiz

/-- Actions on what is on display: answers, given or cleared, and checks. -/
def Action.isEdit : Action → Bool
  | .answer _ _ | .check => true
  | .revealOrHide | .reset => false

namespace Session

variable {s : Session} {a : Action} {c : Cell}

/-! ### Edits -/

/-- An edit, accepted or refused, changes no more than the marks on display. -/
theorem perform_edit (s : Session) (h : a.isEdit = true) :
    ∃ m, (s.perform a).1 = { s with marks := m } := by
  cases a with
  | answer c value =>
    have hmove := s.move_answer c value
    generalize (s.perform (.answer c value)).1 = s', (s.perform (.answer c value)).2 = r at hmove ⊢
    cases hmove with
    | outside => exact ⟨s.marks, rfl⟩
    | locked => exact ⟨s.marks, rfl⟩
    | answered => exact ⟨s.marks.answer c value, rfl⟩
  | check =>
    rw [perform, check]
    cases s.marks.answers.toList.mapM s.judged with
    | error e => exact ⟨s.marks, rfl⟩
    | ok statuses => exact ⟨_, rfl⟩
  | revealOrHide => cases h
  | reset => cases h

theorem run_edits (s : Session) {edits : List Action} (h : ∀ a ∈ edits, a.isEdit = true) :
    ∃ m, s.run edits = { s with marks := m } := by
  induction edits using List.reverseRecOn with
  | nil => exact ⟨s.marks, rfl⟩
  | append_singleton edits a ih =>
    obtain ⟨m, hm⟩ := ih fun a ha => h a (List.mem_append_left _ ha)
    rw [run_concat, hm]
    exact perform_edit { s with marks := m } (h a (List.mem_append_right _ List.mem_cons_self))

/-! ### Revealing and hiding -/

theorem perform_reveal (ha : s.sheet.Answerable) (h : s.revealed = false) :
    s.perform .revealOrHide = ({ s with
      marks := s.marks.revealedBy s.sheet.expected s.sheet.cells
      revealed := true
      saved := some s.marks }, .ok ()) := by
  rw [perform, revealOrHide, h, if_neg Bool.false_ne_true, reveal_eq ha]

/-- What was there when the answers were revealed comes back, whatever has been edited. -/
theorem hide_run_reveal (ha : s.sheet.Answerable) (hs : s.Consistent) (h : s.revealed = false)
    {edits : List Action} (hedits : ∀ a ∈ edits, a.isEdit = true) :
    ((s.perform .revealOrHide).1.run edits).perform .revealOrHide = (s, .ok ()) := by
  have hnone : s.saved = none := by
    rw [← Option.not_isSome_iff_eq_none, hs.saved_iff, h]
    exact Bool.false_ne_true
  obtain ⟨m, hm⟩ := (s.perform .revealOrHide).1.run_edits hedits
  rw [hm, perform_reveal ha h]
  show ({ s with revealed := false, saved := none }, Except.ok ()) = (s, .ok ())
  rw [← h, ← hnone]

/-! ### What a revealed sheet shows -/

theorem answer?_reveal (ha : s.sheet.Answerable) (h : s.revealed = false) (hc : c ∈ s.sheet.cells) :
    (s.perform .revealOrHide).1.answer? c = some (s.sheet.expected c) := by
  rw [perform_reveal ha h]
  show (s.marks.filledBy s.sheet.expected s.sheet.cells).answers.get? c = _
  rw [Marks.get?_answers_filledBy, if_pos hc]

theorem status?_reveal (ha : s.sheet.Answerable) (h : s.revealed = false) (hc : c ∈ s.sheet.cells) :
    (s.perform .revealOrHide).1.status? c = some .correct := by
  rw [perform_reveal ha h]
  show (s.marks.filledBy s.sheet.expected s.sheet.cells).statuses.get? c = _
  rw [Marks.get?_statuses_filledBy, if_pos hc]

/-- Every cell shows its right answer, marked correct, and is not locked. -/
structure ShowsSolution (s : Session) : Prop where
  answer_eq : ∀ c ∈ s.sheet.cells, ∃ b, s.sheet.solution c = .ok b ∧ s.answer? c = some b
  status_eq : ∀ c ∈ s.sheet.cells, s.status? c = some .correct
  isOpen : ∀ c ∈ s.sheet.cells, s.isOpen c = .ok true
  checked : s.marks.checked = true
  revealed : s.revealed = true
  filled_eq : s.tally.filled = s.tally.total
  correct_eq : s.tally.correct = s.tally.total

theorem showsSolution_reveal (ha : s.sheet.Answerable) (h : s.revealed = false) :
    (s.perform .revealOrHide).1.ShowsSolution := by
  have hsheet : (s.perform .revealOrHide).1.sheet = s.sheet := by rw [perform_reveal ha h]
  constructor
  case answer_eq =>
    intro c hc
    rw [hsheet] at hc ⊢
    exact ⟨_, ha.solution_eq (Sheet.mem_cells_iff.mp hc), answer?_reveal ha h hc⟩
  case status_eq =>
    intro c hc
    exact status?_reveal ha h (hsheet ▸ hc)
  case isOpen =>
    intro c hc
    have hcell := Sheet.mem_cells_iff.mp hc
    refine isOpen_eq_ok_true_iff.mpr ⟨hcell, fun d hd => ?_⟩
    rw [hsheet] at hcell hd
    have hdependency := Sheet.mem_cells_iff.mpr (ha.contains_dependency hcell hd)
    exact ⟨_, answer?_reveal ha h hdependency⟩
  case checked => rw [perform_reveal ha h]; rfl
  case revealed => rw [perform_reveal ha h]
  case filled_eq =>
    refine List.countP_eq_length.mpr fun c hc => ?_
    exact Marks.contains_answers_iff.mpr ⟨_, answer?_reveal ha h (hsheet ▸ hc)⟩
  case correct_eq =>
    refine List.countP_eq_length.mpr fun c hc => ?_
    rw [status?_reveal ha h (hsheet ▸ hc)]
    rfl

/-! ### Every state of a run -/

/-- **Nothing is lost by revealing.** In every state of a session on a generated table in which the
answers are not revealed, revealing them succeeds and shows the solution, and after any answers and
checks, accepted or refused, hiding brings back the session as it was. -/
theorem run_reveal_hide (formulas : List Sentence) :
    ∃ t, Table.generate formulas = .ok t ∧ ∀ actions, ((start t).run actions).revealed = false →
      (((start t).run actions).perform .revealOrHide).2 = .ok () ∧
      (((start t).run actions).perform .revealOrHide).1.sheet = ((start t).run actions).sheet ∧
      (((start t).run actions).perform .revealOrHide).1.ShowsSolution ∧
      ∀ edits, (∀ a ∈ edits, a.isEdit = true) →
        ((((start t).run actions).perform .revealOrHide).1.run edits).perform .revealOrHide =
          ((start t).run actions, .ok ()) := by
  refine ⟨Table.ofBatch formulas, Table.generate_eq_ofBatch formulas, fun actions h => ?_⟩
  have ha := Sheet.answerable_ofBatch formulas
  obtain ⟨hsheet, hs⟩ := run_consistent ha actions
  rw [← hsheet] at ha
  have hreveal := perform_reveal ha h
  refine ⟨by rw [hreveal], by rw [hreveal], showsSolution_reveal ha h, fun edits hedits => ?_⟩
  exact hide_run_reveal ha hs h hedits

/-- In the second row of `~P` the answer is wrong. It is replaced by the right one when the answers
are revealed, and is back after that one has been cleared, checked and hidden. -/
theorem reveal_hide_negation :
    ∃ t s, Table.generate [.negation Table.letterP] = .ok t ∧
      s = (start t).run [.answer ⟨1, 0, 0⟩ (some false)] ∧ s.revealed = false ∧
      s.answer? ⟨1, 0, 0⟩ = some false ∧
      (s.perform .revealOrHide).1.answer? ⟨1, 0, 0⟩ = some true ∧
      (s.perform .revealOrHide).1.tally = ⟨2, 2, 2, 0⟩ ∧
      ((s.perform .revealOrHide).1.run [.answer ⟨1, 0, 0⟩ none, .check]).perform .revealOrHide =
        (s, .ok ()) := by
  obtain ⟨t, ht, hreveal⟩ := run_reveal_hide [.negation Table.letterP]
  obtain rfl := Except.ok.inj ((Table.generate_eq_ofBatch _).symm.trans ht)
  have hhidden : ((start (Table.ofBatch [.negation Table.letterP])).run
      [.answer ⟨1, 0, 0⟩ (some false)]).revealed = false := by decide +kernel
  obtain ⟨-, -, -, hback⟩ := hreveal _ hhidden
  exact ⟨_, _, ht, rfl, hhidden, by decide +kernel, by decide +kernel, by decide +kernel,
    hback [.answer ⟨1, 0, 0⟩ none, .check] (by simp [Action.isEdit])⟩

end Session

end Propositional.Quiz
