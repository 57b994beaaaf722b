import Mathlib.Data.List.Induction
import Propositional.Proofs.Quiz.Marks

/-! A session as a transition system.

`Move` lists everything that an action can do to a session on a sheet whose cells can all be
answered: an answer is refused and changes nothing, or changes the marks of one cell; checking,
revealing, hiding and resetting always succeed. `move_perform` says that an action does nothing
else in a consistent session, `Move.consistent` that sessions stay consistent, and `Consistent.run`
carries both along a run. What is saved while the answers are revealed has to be consistent too,
since hiding brings it back. -/
namespace Propositional.Quiz.Session

/-- Everything that an action can do to a session, with what it returns. -/
inductive Move (s : Session) : Action → Session → Except Error Unit → Prop where
  | outside {c : Cell} (value : Option Bool) : s.sheet.contains c = false →
      Move s (.answer c value) s (.error (.notACell c))
  | locked {c d : Cell} (value : Option Bool) : s.sheet.contains c = true →
      d ∈ s.sheet.dependencies c → ¬s.marks.Answered d →
      Move s (.answer c value) s (.error (.locked c))
  | answered {c : Cell} (value : Option Bool) : s.sheet.contains c = true →
      (∀ d ∈ s.sheet.dependencies c, s.marks.Answered d) →
      Move s (.answer c value) { s with marks := s.marks.answer c value } (.ok ())
  | checked : Move s .check { s with marks := s.marks.checkedBy s.sheet.expected } (.ok ())
  | revealed : s.revealed = false →
      Move s .revealOrHide
        { s with
          marks := s.marks.revealedBy s.sheet.expected s.sheet.cells
          revealed := true
          saved := some s.marks }
        (.ok ())
  | hidden {m : Marks} : s.revealed = true → s.saved = some m →
      Move s .revealOrHide { s with marks := m, revealed := false, saved := none } (.ok ())
  | reset : Move s .reset { s with marks := .blank, revealed := false, saved := none } (.ok ())

/-- Nothing is inconsistent, neither on display nor in what is saved. -/
structure Consistent (s : Session) : Prop where
  marks : s.marks.Consistent s.sheet
  saved : ∀ {m}, s.saved = some m → m.Consistent s.sheet
  saved_iff : s.saved.isSome = true ↔ s.revealed = true

variable {s s' : Session} {a : Action} {r : Except Error Unit}

/-! ### What each action does -/

theorem isOpen_of_contains {c : Cell} (hc : s.sheet.contains c = true) :
    s.isOpen c = .ok ((s.sheet.dependencies c).all s.marks.answers.contains) := by
  rw [isOpen, if_pos hc]

theorem isOpen_eq_ok_true_iff {c : Cell} :
    s.isOpen c = .ok true ↔
      s.sheet.contains c = true ∧ ∀ d ∈ s.sheet.dependencies c, s.marks.Answered d := by
  by_cases hc : s.sheet.contains c = true
  · rw [isOpen_of_contains hc]
    simp [hc, Marks.contains_answers_iff]
  · simp [isOpen, hc]

theorem move_answer (s : Session) (c : Cell) (value : Option Bool) :
    s.Move (.answer c value) (s.perform (.answer c value)).1 (s.perform (.answer c value)).2 := by
  rw [perform, answer]
  by_cases hc : s.sheet.contains c = true
  · rw [isOpen_of_contains hc]
    cases hopen : (s.sheet.dependencies c).all s.marks.answers.contains with
    | true =>
      exact .answered value hc fun d hd =>
        Marks.contains_answers_iff.mp (List.all_eq_true.mp hopen d hd)
    | false =>
      obtain ⟨d, hd, hd'⟩ := List.all_eq_false.mp hopen
      exact .locked value hc hd fun h => hd' (Marks.contains_answers_iff.mpr h)
  · rw [isOpen, if_neg hc]
    exact .outside value (by simpa using hc)

theorem check_eq_ok (ha : s.sheet.Answerable) (hs : s.Consistent) :
    s.check = .ok { s with marks := s.marks.checkedBy s.sheet.expected } := by
  have hjudged : ∀ p ∈ s.marks.answers.toList,
      s.judged p = .ok (p.1, .ofAnswer p.2 (s.sheet.expected p.1)) := by
    intro p hp
    have hanswered : s.marks.Answered p.1 := ⟨p.2, Bindings.get?_of_mem hp⟩
    rw [judged, ha.solution_eq (hs.marks.contains_of_answered hanswered)]
    rfl
  rw [check, Table.mapM_eq_ok hjudged]
  rfl

theorem perform_check (ha : s.sheet.Answerable) (hs : s.Consistent) :
    s.perform .check = ({ s with marks := s.marks.checkedBy s.sheet.expected }, .ok ()) := by
  rw [perform, check_eq_ok ha hs]
  rfl

theorem revealCells_eq {cells : List Cell} (ha : s.sheet.Answerable)
    (hcells : ∀ c ∈ cells, s.sheet.contains c = true) :
    revealCells cells s =
      ({ s with marks := s.marks.filledBy s.sheet.expected cells }, .ok ()) := by
  induction cells generalizing s with
  | nil => rfl
  | cons c rest ih =>
    rw [revealCells, ha.solution_eq (hcells c List.mem_cons_self)]
    exact ih ha fun d hd => hcells d (List.mem_cons_of_mem _ hd)

theorem reveal_eq (ha : s.sheet.Answerable) :
    s.reveal = ({ s with
      marks := s.marks.revealedBy s.sheet.expected s.sheet.cells
      revealed := true
      saved := some s.marks }, .ok ()) := by
  have hcells : ∀ c ∈ s.sheet.cells, s.sheet.contains c = true := fun _ => Sheet.mem_cells_iff.mp
  rw [reveal, revealCells_eq (s := { s with saved := some s.marks }) ha hcells]
  rfl

/-- In a consistent session an action makes one of the moves. -/
theorem move_perform (ha : s.sheet.Answerable) (hs : s.Consistent) (a : Action) :
    s.Move a (s.perform a).1 (s.perform a).2 := by
  cases a with
  | answer c value => exact s.move_answer c value
  | check =>
    rw [perform_check ha hs]
    exact .checked
  | revealOrHide =>
    rw [perform, revealOrHide]
    cases hrevealed : s.revealed with
    | false =>
      rw [if_neg Bool.false_ne_true, reveal_eq ha]
      exact .revealed hrevealed
    | true =>
      obtain ⟨m, hm⟩ := Option.isSome_iff_exists.mp (hs.saved_iff.mpr hrevealed)
      rw [if_pos rfl, hide, hm]
      exact .hidden hrevealed hm
  | reset => exact .reset

/-! ### What every move keeps -/

theorem Move.sheet_eq (h : s.Move a s' r) : s'.sheet = s.sheet := by
  cases h <;> rfl

theorem Move.consistent (h : s.Move a s' r) (hs : s.Consistent) : s'.Consistent := by
  cases h with
  | outside => exact hs
  | locked => exact hs
  | answered value hc _ => exact { hs with marks := hs.marks.answer hc value }
  | checked => exact { hs with marks := hs.marks.checkedBy }
  | revealed =>
    refine ⟨hs.marks.revealedBy, fun hm => ?_, by simp⟩
    obtain rfl := Option.some.inj hm
    exact hs.marks
  | hidden _ hsaved => exact ⟨hs.saved hsaved, nofun, by simp⟩
  | reset => exact ⟨.blank _, nofun, by simp⟩

/-! ### Runs -/

theorem run_append (s : Session) (before after : List Action) :
    s.run (before ++ after) = (s.run before).run after :=
  List.foldl_append

theorem run_concat (s : Session) (actions : List Action) (a : Action) :
    s.run (actions ++ [a]) = ((s.run actions).perform a).1 :=
  s.run_append actions [a]

theorem consistent_start (t : Table) : (start t).Consistent where
  marks := .blank _
  saved := nofun
  saved_iff := by simp [start]

/-- A run keeps the sheet of a consistent session, and the session consistent. -/
theorem Consistent.run (hs : s.Consistent) (ha : s.sheet.Answerable) (actions : List Action) :
    (s.run actions).sheet = s.sheet ∧ (s.run actions).Consistent := by
  induction actions using List.reverseRecOn with
  | nil => exact ⟨rfl, hs⟩
  | append_singleton actions a ih =>
    obtain ⟨hsheet, hrun⟩ := ih
    have hmove := move_perform (by rwa [hsheet]) hrun a
    rw [run_concat]
    exact ⟨hmove.sheet_eq.trans hsheet, hmove.consistent hrun⟩

theorem run_consistent {t : Table} (ha : (Sheet.ofTable t).Answerable) (actions : List Action) :
    ((start t).run actions).sheet = Sheet.ofTable t ∧ ((start t).run actions).Consistent :=
  (consistent_start t).run ha actions

end Propositional.Quiz.Session
