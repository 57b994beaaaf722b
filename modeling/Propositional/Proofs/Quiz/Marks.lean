import Propositional.Proofs.Bindings.Lookup
import Propositional.Proofs.Quiz.Sheet

/-! What has been filled in and marked on a sheet.

Marks are read cell by cell: what answering, checking and revealing do to them is said by one
equation each. `Consistent` is what they have in common: only cells are answered, a status is that
of the answer that stands there now, and there is a status only once answers have been checked.
The last part is what lets an answer given before any check leave the statuses alone. -/
namespace Propositional.Quiz.Marks

/-- The cell has an answer. -/
def Answered (m : Marks) (c : Cell) : Prop := ∃ b, m.answers.get? c = some b

theorem contains_answers_iff {m : Marks} {c : Cell} :
    m.answers.contains c = true ↔ m.Answered c := by
  rw [Bindings.contains_iff, Option.isSome_iff_exists]
  rfl

theorem not_answered_iff {m : Marks} {c : Cell} : ¬m.Answered c ↔ m.answers.get? c = none := by
  rw [Answered, ← Option.isSome_iff_exists, Option.not_isSome_iff_eq_none]

theorem not_answered_blank (c : Cell) : ¬blank.Answered c := not_answered_iff.mpr rfl

/-! ### Answering -/

theorem get?_answers_answer (m : Marks) (c : Cell) (value : Option Bool) (d : Cell) :
    (m.answer c value).answers.get? d = if d = c then value else m.answers.get? d := by
  cases value with
  | none => exact Bindings.get?_erase _ _ _
  | some b => exact Bindings.get?_insert _ _ _ _

theorem get?_statuses_answer (m : Marks) (c : Cell) (value : Option Bool) (d : Cell) :
    (m.answer c value).statuses.get? d =
      if m.checked = true ∧ d = c then none else m.statuses.get? d := by
  show (if m.checked then m.statuses.erase c else m.statuses).get? d = _
  cases m.checked with
  | true => simp
  | false => simp

theorem answered_answer_iff {m : Marks} {c : Cell} {value : Option Bool} {d : Cell} :
    (m.answer c value).Answered d ↔ if d = c then value.isSome = true else m.Answered d := by
  rw [Answered, get?_answers_answer]
  split
  · exact Option.isSome_iff_exists.symm
  · rfl

/-! ### Checking -/

/-- Every answer is marked against the right one. -/
def checkedBy (expected : Cell → Bool) (m : Marks) : Marks :=
  { m with
    statuses := .ofList (m.answers.toList.map fun a => (a.1, .ofAnswer a.2 (expected a.1)))
    checked := true }

theorem get?_statuses_checkedBy (expected : Cell → Bool) (m : Marks) (c : Cell) :
    (m.checkedBy expected).statuses.get? c =
      (m.answers.get? c).map fun b => .ofAnswer b (expected c) :=
  Bindings.get?_ofList_map m.answers (fun c b => Status.ofAnswer b (expected c)) c

/-! ### Revealing -/

/-- The right answers to some cells are filled in. -/
def filledBy (expected : Cell → Bool) (cells : List Cell) (m : Marks) : Marks :=
  cells.foldl (fun m c => m.reveal c (expected c)) m

/-- The right answers to some cells are filled in, and count as checked. -/
def revealedBy (expected : Cell → Bool) (cells : List Cell) (m : Marks) : Marks :=
  { m.filledBy expected cells with checked := true }

theorem get?_answers_filledBy (expected : Cell → Bool) (cells : List Cell) (m : Marks)
    (c : Cell) :
    (m.filledBy expected cells).answers.get? c =
      if c ∈ cells then some (expected c) else m.answers.get? c := by
  have hanswers : (m.filledBy expected cells).answers =
      cells.foldl (fun b c => b.insert c (expected c)) m.answers :=
    (List.foldl_hom Marks.answers fun _ _ => rfl).symm
  rw [hanswers, Bindings.get?_foldl_insert_keys]

theorem get?_statuses_filledBy (expected : Cell → Bool) (cells : List Cell) (m : Marks)
    (c : Cell) :
    (m.filledBy expected cells).statuses.get? c =
      if c ∈ cells then some .correct else m.statuses.get? c := by
  have hstatuses : (m.filledBy expected cells).statuses =
      cells.foldl (fun b c => b.insert c .correct) m.statuses :=
    (List.foldl_hom Marks.statuses fun _ _ => rfl).symm
  rw [hstatuses, Bindings.get?_foldl_insert_keys (fun _ => Status.correct)]

/-! ### Consistent marks -/

/-- No answer outside the cells, and no status that is stale. -/
structure Consistent (sheet : Sheet) (m : Marks) : Prop where
  contains_of_answered : ∀ {c}, m.Answered c → sheet.contains c = true
  answer_of_status : ∀ {c st}, m.statuses.get? c = some st →
    ∃ b, m.answers.get? c = some b ∧ st = .ofAnswer b (sheet.expected c)
  checked_of_status : ∀ {c st}, m.statuses.get? c = some st → m.checked = true

namespace Consistent

variable {sheet : Sheet} {m : Marks}

theorem blank (sheet : Sheet) : Marks.blank.Consistent sheet where
  contains_of_answered := fun h => absurd h (not_answered_blank _)
  answer_of_status := nofun
  checked_of_status := nofun

theorem answer (h : m.Consistent sheet) {c : Cell} (hc : sheet.contains c = true)
    (value : Option Bool) : (m.answer c value).Consistent sheet where
  contains_of_answered := by
    intro d hd
    rw [answered_answer_iff] at hd
    split at hd
    next hdc => rw [hdc]; exact hc
    next => exact h.contains_of_answered hd
  answer_of_status := by
    intro d st hst
    rw [get?_statuses_answer] at hst
    split at hst
    · cases hst
    next hkept =>
      -- a cell with a status was checked, so the cell that is answered has lost its own
      have hne : d ≠ c := fun hdc => hkept ⟨h.checked_of_status hst, hdc⟩
      rw [get?_answers_answer, if_neg hne]
      exact h.answer_of_status hst
  checked_of_status := by
    intro d st hst
    rw [get?_statuses_answer] at hst
    split at hst
    · cases hst
    · exact h.checked_of_status hst

theorem checkedBy (h : m.Consistent sheet) : (m.checkedBy sheet.expected).Consistent sheet where
  contains_of_answered := h.contains_of_answered
  answer_of_status := by
    intro c st hst
    rw [get?_statuses_checkedBy, Option.map_eq_some_iff] at hst
    obtain ⟨b, hb, rfl⟩ := hst
    exact ⟨b, hb, rfl⟩
  checked_of_status := fun _ => rfl

theorem revealedBy (h : m.Consistent sheet) :
    (m.revealedBy sheet.expected sheet.cells).Consistent sheet where
  contains_of_answered := by
    intro c hc
    have hanswer := get?_answers_filledBy sheet.expected sheet.cells m c
    by_cases hmem : c ∈ sheet.cells
    · exact Sheet.mem_cells_iff.mp hmem
    · rw [if_neg hmem] at hanswer
      obtain ⟨b, hb⟩ := hc
      exact h.contains_of_answered ⟨b, hanswer.symm.trans hb⟩
  answer_of_status := by
    intro c st hst
    have hanswer := get?_answers_filledBy sheet.expected sheet.cells m c
    have hstatus := get?_statuses_filledBy sheet.expected sheet.cells m c
    rw [show (m.filledBy sheet.expected sheet.cells).statuses.get? c = some st from hst] at hstatus
    by_cases hmem : c ∈ sheet.cells
    · rw [if_pos hmem] at hanswer hstatus
      obtain rfl := Option.some.inj hstatus
      exact ⟨sheet.expected c, hanswer, by rw [Status.ofAnswer, if_pos rfl]⟩
    · -- a cell that is not listed never had a status
      rw [if_neg hmem] at hstatus
      obtain ⟨b, hb, _⟩ := h.answer_of_status hstatus.symm
      exact absurd (Sheet.mem_cells_iff.mpr (h.contains_of_answered ⟨b, hb⟩)) hmem
  checked_of_status := fun _ => rfl

end Consistent

end Propositional.Quiz.Marks
