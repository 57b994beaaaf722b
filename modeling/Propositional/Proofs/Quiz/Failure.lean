import Propositional.Proofs.Quiz.Moves

/-! What a failed action leaves behind.

On a table that was not generated a row may lack a letter, and then some cells have no right answer.
A check that meets one fails before it has marked anything, as a refused answer does before it has
set anything (`perform_eq_self_of_error`). Revealing fills cells in one after the other, and those
in front of the first cell without a right answer, `Sheet.solvedFirst`, stay filled in when it fails
(`reveal_of_error`). So a failed action leaves everything as it was exactly if it is no reveal or
these cells were answered right and marked correct already. `run_failure` states this on every table
and in every state of a session; that answers do get lost is `not_always_unchanged_of_error`. -/
namespace Propositional.Quiz

namespace Sheet

variable {s : Sheet} {c : Cell}

/-- Whether a cell has a right answer. -/
def isSolved (s : Sheet) (c : Cell) : Bool := (s.solution c).isOk

/-- The cells in front of the first one without a right answer. -/
def solvedFirst (s : Sheet) : List Cell := s.cells.takeWhile s.isSolved

theorem solution_of_isSolved (h : s.isSolved c = true) : s.solution c = .ok (s.expected c) := by
  rw [isSolved] at h
  rw [expected]
  cases hc : s.solution c with
  | ok b => rfl
  | error e => rw [hc] at h; cases h

theorem toOption_solution (h : c ∈ s.solvedFirst) :
    (s.solution c).toOption = some (s.expected c) := by
  rw [solution_of_isSolved (List.all_eq_true.mp List.all_takeWhile c h)]
  rfl

end Sheet

theorem Marks.checked_filledBy (expected : Cell → Bool) (cells : List Cell) (m : Marks) :
    (m.filledBy expected cells).checked = m.checked := by
  induction cells generalizing m with
  | nil => rfl
  | cons c rest ih => exact ih (m.reveal c (expected c))

namespace Session

variable {s s' : Session} {a : Action} {c : Cell} {e : Error}

/-! ### Actions that fail as a whole -/

theorem afterAttempt_of_error {r : Except Error Session} (h : (s.afterAttempt r).2 = .error e) :
    (s.afterAttempt r).1 = s := by
  cases r with
  | ok s' => cases h
  | error e' => rfl

/-- If anything but revealing fails, nothing has happened. -/
theorem perform_eq_self_of_error (h : (s.perform a).2 = .error e) (ha : a ≠ .revealOrHide) :
    (s.perform a).1 = s := by
  cases a with
  | answer c value => exact afterAttempt_of_error h
  | check => exact afterAttempt_of_error h
  | revealOrHide => exact absurd rfl ha
  | reset => cases h

/-! ### Revealing -/

/-- Cells are filled in up to the first one without a right answer. -/
theorem fst_revealCells (cells : List Cell) (s : Session) :
    (revealCells cells s).1 =
      { s with
        marks := s.marks.filledBy s.sheet.expected (cells.takeWhile s.sheet.isSolved) } := by
  induction cells generalizing s with
  | nil => rfl
  | cons c rest ih =>
    rw [revealCells]
    cases hc : s.sheet.solution c with
    | ok b =>
      have hsolved : s.sheet.isSolved c = true := by rw [Sheet.isSolved, hc]; rfl
      have hexpected : s.sheet.expected c = b := by rw [Sheet.expected, hc]; rfl
      rw [List.takeWhile_cons_of_pos hsolved, ← hexpected]
      exact ih { s with marks := s.marks.reveal c (s.sheet.expected c) }
    | error e =>
      have hunsolved : ¬s.sheet.isSolved c = true := by
        rw [Sheet.isSolved, hc]
        exact Bool.false_ne_true
      rw [List.takeWhile_cons_of_neg hunsolved]
      rfl

theorem reveal_of_error (h : (s.perform .revealOrHide).2 = .error e) :
    (s.perform .revealOrHide).1 =
      { s with
        marks := s.marks.filledBy s.sheet.expected s.sheet.solvedFirst
        saved := some s.marks } := by
  have hcells := fst_revealCells s.sheet.cells { s with saved := some s.marks }
  rw [perform, revealOrHide] at h ⊢
  cases hrevealed : s.revealed with
  | true => rw [hrevealed] at h; cases h
  | false =>
    rw [hrevealed] at h
    rw [if_neg Bool.false_ne_true, reveal] at h ⊢
    generalize revealCells s.sheet.cells { s with saved := some s.marks } = after at h hcells ⊢
    obtain ⟨s', _ | _⟩ := after
    · rw [← hrevealed]
      exact hcells
    · cases h

/-! ### What is left -/

/-- Answers, statuses and flags are the same. -/
structure Unchanged (s s' : Session) : Prop where
  answer_eq : ∀ c, s'.answer? c = s.answer? c
  status_eq : ∀ c, s'.status? c = s.status? c
  checked_eq : s'.marks.checked = s.marks.checked
  revealed_eq : s'.revealed = s.revealed

/-- What is left of a session by an action that failed. -/
structure Leaves (s : Session) (a : Action) (s' : Session) : Prop where
  eq_self : a ≠ .revealOrHide → s' = s
  /-- A reveal that failed has filled in the cells in front of the first one without a right
  answer, and no others. -/
  answer_eq : a = .revealOrHide → ∀ c, s'.answer? c =
    if c ∈ s.sheet.solvedFirst then (s.sheet.solution c).toOption else s.answer? c
  status_eq : a = .revealOrHide → ∀ c, s'.status? c =
    if c ∈ s.sheet.solvedFirst then some .correct else s.status? c
  checked_eq : s'.marks.checked = s.marks.checked
  revealed_eq : s'.revealed = s.revealed

theorem leaves_of_error (h : (s.perform a).2 = .error e) : s.Leaves a (s.perform a).1 := by
  by_cases ha : a = .revealOrHide
  · subst ha
    rw [reveal_of_error h]
    constructor
    case eq_self => exact fun hne => absurd rfl hne
    case answer_eq =>
      intro _ c
      show (s.marks.filledBy s.sheet.expected s.sheet.solvedFirst).answers.get? c = _
      rw [Marks.get?_answers_filledBy]
      split
      next hc => rw [Sheet.toOption_solution hc]
      next => rfl
    case status_eq => exact fun _ c => Marks.get?_statuses_filledBy _ _ _ c
    case checked_eq => exact Marks.checked_filledBy _ _ _
    case revealed_eq => rfl
  · rw [perform_eq_self_of_error h ha]
    exact ⟨fun _ => rfl, fun he => absurd he ha, fun he => absurd he ha, rfl, rfl⟩

/-- The cells that a failing reveal gets to are answered right and marked correct. -/
def HasSolvedFirst (s : Session) : Prop :=
  ∀ c ∈ s.sheet.solvedFirst,
    s.answer? c = (s.sheet.solution c).toOption ∧ s.status? c = some .correct

/-- Nothing has changed exactly if there was nothing for a reveal to fill in. -/
theorem Leaves.unchanged_iff (h : s.Leaves a s') :
    s.Unchanged s' ↔ (a = .revealOrHide → s.HasSolvedFirst) := by
  constructor
  · intro hsame ha c hc
    rw [← hsame.answer_eq, ← hsame.status_eq, h.answer_eq ha, h.status_eq ha, if_pos hc, if_pos hc]
    exact ⟨rfl, rfl⟩
  · intro hright
    by_cases ha : a = .revealOrHide
    · refine ⟨fun c => ?_, fun c => ?_, h.checked_eq, h.revealed_eq⟩
      · rw [h.answer_eq ha]
        split
        next hc => exact (hright ha c hc).1.symm
        next => rfl
      · rw [h.status_eq ha]
        split
        next hc => exact (hright ha c hc).2.symm
        next => rfl
    · rw [h.eq_self ha]
      exact ⟨fun _ => rfl, fun _ => rfl, rfl, rfl⟩

/-- **What a failed action leaves behind.** On any table, generated or not, and in every state of a
session on it, an action that fails leaves answers, statuses and flags as they were exactly if it is
no reveal or all cells in front of the first one without a right answer were answered right and
marked correct. A reveal that fails leaves these cells filled in, and the rest as it was. -/
theorem run_failure (t : Table) (actions : List Action) (a : Action) {e : Error}
    (h : (((start t).run actions).perform a).2 = .error e) :
    let s := (start t).run actions
    let s' := (s.perform a).1
    s.Leaves a s' ∧ (s.Unchanged s' ↔ (a = .revealOrHide → s.HasSolvedFirst)) :=
  ⟨leaves_of_error h, (leaves_of_error h).unchanged_iff⟩

/-- The table of `~P&~Q` with one row, in which `P` is true and `Q` is lacking. -/
def tableLackingQ : Table :=
  { Table.ofBatch [.binary .conjunction (.negation Table.letterP) (.negation Table.letterQ)] with
    rows := [⟨.ofList [(['P'], some true)], [false]⟩] }

/-- On that table a check fails at the negation of `Q`, and the wrong answer to that of `P` stays
without a mark. -/
theorem unchanged_by_failed_check :
    ∃ s e, s = (start tableLackingQ).run
        [.answer ⟨0, 0, 0⟩ (some true), .answer ⟨0, 0, 3⟩ (some true)] ∧
      (s.perform .check).2 = .error e ∧ s.Unchanged (s.perform .check).1 ∧
      s.answer? ⟨0, 0, 0⟩ = some true ∧ s.status? ⟨0, 0, 0⟩ = none := by
  have hfailed : (((start tableLackingQ).run [.answer ⟨0, 0, 0⟩ (some true),
      .answer ⟨0, 0, 3⟩ (some true)]).perform .check).2 =
      .error (.unbound ⟨{ id := 'Q', isUpper := rfl }⟩) := rfl
  exact ⟨_, _, rfl, hfailed, (run_failure _ _ _ hfailed).2.mpr (fun ha => by cases ha), rfl, rfl⟩

/-- On that table the answer `true` to the negation of `P` is lost when revealing fails at the
conjunction, whose operand is lacking. -/
theorem not_always_unchanged_of_error :
    ¬∀ t actions a e, (((start t).run actions).perform a).2 = .error e →
      ((start t).run actions).Unchanged (((start t).run actions).perform a).1 := by
  intro h
  obtain ⟨s, hs⟩ : ∃ s, s = (start tableLackingQ).run [.answer ⟨0, 0, 0⟩ (some true)] := ⟨_, rfl⟩
  have hsheet : s.sheet = .ofTable tableLackingQ := by rw [hs]; rfl
  have hcells : s.sheet.cells = [⟨0, 0, 0⟩, ⟨0, 0, 2⟩, ⟨0, 0, 3⟩] := by
    rw [hsheet, Sheet.cells_ofTable]
    rfl
  have hfailed : (s.perform .revealOrHide).2 =
      .error (.unbound ⟨{ id := 'Q', isUpper := rfl }⟩) := by
    rw [perform, revealOrHide, reveal, hcells, hs]
    rfl
  have hfirst : s.sheet.solvedFirst = [⟨0, 0, 0⟩] := by
    rw [Sheet.solvedFirst, hcells, hsheet]
    rfl
  have hanswer : s.answer? ⟨0, 0, 0⟩ = some true := by rw [hs]; rfl
  have hafter := (leaves_of_error hfailed).answer_eq rfl ⟨0, 0, 0⟩
  rw [hfirst, if_pos (List.mem_singleton_self _), hsheet] at hafter
  have hsame := h tableLackingQ _ _ _ (hs ▸ hfailed)
  rw [← hs] at hsame
  have hlost := hafter.symm.trans ((hsame.answer_eq ⟨0, 0, 0⟩).trans hanswer)
  cases hlost

end Session

end Propositional.Quiz
