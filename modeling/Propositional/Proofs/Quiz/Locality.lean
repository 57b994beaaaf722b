import Propositional.Proofs.Quiz.Accuracy
import Propositional.Proofs.Quiz.Failure
import Propositional.Proofs.Quiz.Progress

/-! How far an answer reaches.

Two things can go wrong in a session on a generated table: what is asked about is no cell, or a cell
is answered that is locked (`answer_error_iff`). Everything else succeeds in every state. A refused
answer leaves the session as it is, and an accepted one touches its own cell only: the answer, and
the mark, which is gone. Locks are read off the answers (`isOpen_congr`), so an answer can change
the locks of cells that depend on its cell, and there is one of these at most, since a point is an
operand of one other point (`dependent_unique`). `run_contained` states this for every state of a
session and every cell, on the table or not. -/
namespace Propositional.Quiz

/-- A cell of a table is in one of its rows and formulas, where a point stands whose sentence is not
atomic. -/
def IsCellOf (t : Table) (c : Cell) : Prop :=
  ∃ (row formula position : Nat) (f : Sentence) (p : Point), c = ⟨row, formula, position⟩ ∧
    row < t.rows.length ∧ t.formulas[formula]? = some f ∧ (position, p) ∈ f.layout.points ∧
    p.sentence.isAtomic = false

/-- The first cell is that of a point with an operand whose cell is the second one. -/
def DependsOn (t : Table) (c d : Cell) : Prop :=
  ∃ (formula i j : Nat) (f : Sentence) (p o : Point), t.formulas[formula]? = some f ∧
    c.formula = formula ∧ c.position = i ∧ d = ⟨c.row, formula, j⟩ ∧ (i, p) ∈ f.layout.points ∧
    (j, o) ∈ f.layout.points ∧ (j : Int) ∈ p.operands ∧ o.sentence.isAtomic = false

namespace Sheet

variable {t : Table} {c d : Cell}

theorem contains_ofTable_iff_isCellOf : (ofTable t).contains c = true ↔ IsCellOf t c := by
  rw [contains_ofTable_iff]
  simp only [row?, DependencyMap.isNode_ofSentence_iff, fromFront?_eq_some_iff]
  constructor
  · rintro ⟨r, f, ⟨row, hrow, hr⟩, ⟨formula, hformula, hf⟩, position, p, hposition, hp, hopen⟩
    obtain ⟨hlt, -⟩ := List.getElem?_eq_some_iff.mp hr
    refine ⟨row, formula, position, f, p, ?_, hlt, hf, hp, hopen⟩
    rw [← hrow, ← hformula, ← hposition]
  · rintro ⟨row, formula, position, f, p, rfl, hlt, hf, hp, hopen⟩
    exact ⟨_, f, ⟨row, rfl, List.getElem?_eq_getElem hlt⟩, ⟨formula, rfl, hf⟩, position, p, rfl, hp,
      hopen⟩

theorem mem_dependencies_iff_dependsOn : d ∈ (ofTable t).dependencies c ↔ DependsOn t c d := by
  rw [mem_dependencies_ofTable_iff]
  simp only [DependencyMap.isNode_ofSentence_iff, fromFront?_eq_some_iff]
  constructor
  · rintro ⟨f, i, j, ⟨formula, hformula, hf⟩, hi, rfl, ⟨p, hp, hj⟩, j', o, hsame, ho, hopen⟩
    obtain rfl := Int.ofNat.inj hsame
    exact ⟨formula, i, j, f, p, o, hf, hformula, hi, by rw [← hformula], hp, ho, hj, hopen⟩
  · rintro ⟨formula, i, j, f, p, o, hf, hformula, hi, rfl, hp, ho, hj, hopen⟩
    exact ⟨f, i, j, ⟨formula, hformula, hf⟩, hi, by rw [← hformula], ⟨p, hp, hj⟩, j, o, rfl, ho,
      hopen⟩

/-- What is known of the cells, and refused for whatever is none, fails in this one way. -/
theorem error_iff_of_contains {α : Type} {s : Sheet} {x : Except Error α} {a : α} {e : Error}
    (hcell : s.contains c = true → x = .ok a)
    (hnone : ¬s.contains c = true → x = .error (.notACell c)) :
    x = .error e ↔ s.contains c = false ∧ e = .notACell c := by
  by_cases hc : s.contains c = true
  · rw [hcell hc, hc]
    exact ⟨nofun, fun hfalse => (nomatch hfalse.1)⟩
  · rw [hnone hc, eq_false_of_ne_true hc, Except.error.injEq]
    exact ⟨fun he => ⟨rfl, he.symm⟩, fun he => he.2.symm⟩

theorem Answerable.solution_error_iff {s : Sheet} (h : s.Answerable) {e : Error} :
    s.solution c = .error e ↔ s.contains c = false ∧ e = .notACell c :=
  error_iff_of_contains h.solution_eq fun hc => by rw [solution, if_neg hc]

/-- No two cells depend on the same one. -/
theorem dependent_unique {e : Cell} (hd : e ∈ (ofTable t).dependencies c)
    (hd' : e ∈ (ofTable t).dependencies d) : c = d := by
  obtain ⟨f, i, j, hf, hi, rfl, hlink, -⟩ := mem_dependencies_ofTable_iff.mp hd
  obtain ⟨f', i', j', hf', hi', hsame, hlink', -⟩ := mem_dependencies_ofTable_iff.mp hd'
  simp only [Cell.mk.injEq] at hsame
  obtain ⟨hrow, hformula, hposition⟩ := hsame
  rw [← hformula] at hf'
  obtain rfl := Option.some.inj (hf.symm.trans hf')
  obtain rfl := Int.ofNat.inj hposition
  obtain rfl := DependencyMap.linked_unique f.placed_layout hlink hlink'
  cases c
  cases d
  simp_all

end Sheet

namespace Session

variable {s s' : Session} {c d : Cell} {value : Option Bool} {e : Error}

/-! ### Locks -/

theorem isOpen_error_iff :
    s.isOpen c = .error e ↔ s.sheet.contains c = false ∧ e = .notACell c :=
  Sheet.error_iff_of_contains isOpen_of_contains fun hc => by rw [isOpen, if_neg hc]

/-- A lock is the same where the same dependencies have answers. -/
theorem isOpen_congr (hsheet : s'.sheet = s.sheet)
    (h : ∀ e ∈ s.sheet.dependencies d, s'.answer? e = s.answer? e) : s'.isOpen d = s.isOpen d := by
  have hall : (s.sheet.dependencies d).all s'.marks.answers.contains =
      (s.sheet.dependencies d).all s.marks.answers.contains := by
    refine Bool.eq_iff_iff.mpr ?_
    rw [List.all_eq_true, List.all_eq_true]
    exact forall₂_congr fun e he => by rw [Bindings.contains_congr (h e he)]
  rw [isOpen, isOpen, hsheet, hall]

/-- An answer matters to the locks of the cells that depend on its cell. -/
theorem isOpen_answer (h : c ∉ s.sheet.dependencies d) :
    isOpen { s with marks := s.marks.answer c value } d = s.isOpen d := by
  refine isOpen_congr rfl fun e he => ?_
  have hne : e ≠ c := fun hsame => h (hsame ▸ he)
  show (s.marks.answer c value).answers.get? e = s.marks.answers.get? e
  rw [Marks.get?_answers_answer, if_neg hne]

/-! ### Refused answers -/

/-- An answer is refused outside the cells and in locked cells. -/
theorem answer_error_iff :
    (s.perform (.answer c value)).2 = .error e ↔
      (s.sheet.contains c = false ∧ e = .notACell c) ∨
      (s.sheet.contains c = true ∧ (∃ d ∈ s.sheet.dependencies c, s.answer? d = none) ∧
        e = .locked c) := by
  have hmove := s.move_answer c value
  generalize (s.perform (.answer c value)).1 = s', (s.perform (.answer c value)).2 = r at hmove ⊢
  cases hmove with
  | outside _ hc =>
    constructor
    · intro h
      exact .inl ⟨hc, (Except.error.inj h).symm⟩
    · rintro (⟨-, rfl⟩ | ⟨hc', -⟩)
      · rfl
      · cases hc.symm.trans hc'
  | locked _ hc hd hmissing =>
    constructor
    · intro h
      exact .inr ⟨hc, ⟨_, hd, Marks.not_answered_iff.mp hmissing⟩, (Except.error.inj h).symm⟩
    · rintro (⟨hc', -⟩ | ⟨-, -, rfl⟩)
      · cases hc.symm.trans hc'
      · rfl
  | answered _ hc hdeps =>
    constructor
    · nofun
    · rintro (⟨hc', -⟩ | ⟨-, ⟨d, hd, hnone⟩, -⟩)
      · cases hc.symm.trans hc'
      · exact absurd (hdeps d hd) (Marks.not_answered_iff.mpr hnone)

/-! ### Accepted answers -/

theorem isOpen_of_accepted (h : (s.perform (.answer c value)).2 = .ok ()) :
    s.isOpen c = .ok true := by
  have hmove := s.move_answer c value
  rw [h] at hmove
  generalize (s.perform (.answer c value)).1 = s' at hmove
  cases hmove with
  | answered _ hc hdeps => exact isOpen_eq_ok_true_iff.mpr ⟨hc, hdeps⟩

/-- An answer was set in one cell, or cleared there, and this is all that has changed. -/
structure AnsweredAt (s : Session) (c : Cell) (value : Option Bool) (s' : Session) : Prop where
  answer_eq : s'.answer? c = value
  /-- The answer has not been checked yet. -/
  status_eq : s'.status? c = none
  other_answer : ∀ d, d ≠ c → s'.answer? d = s.answer? d
  other_status : ∀ d, d ≠ c → s'.status? d = s.status? d
  sheet_eq : s'.sheet = s.sheet
  checked_eq : s'.marks.checked = s.marks.checked
  revealed_eq : s'.revealed = s.revealed
  saved_eq : s'.saved = s.saved
  /-- The lock of a cell that does not depend on this one is as it was. -/
  isOpen_eq : ∀ d, c ∉ s.sheet.dependencies d → s'.isOpen d = s.isOpen d

theorem answeredAt_of_accepted (hs : s.Consistent)
    (h : (s.perform (.answer c value)).2 = .ok ()) :
    s.AnsweredAt c value (s.perform (.answer c value)).1 := by
  rw [perform_answer_of_isOpen (isOpen_of_accepted h)]
  have hanswer := s.marks.get?_answers_answer c value
  have hstatus := s.marks.get?_statuses_answer c value
  constructor
  case answer_eq =>
    show (s.marks.answer c value).answers.get? c = value
    rw [hanswer, if_pos rfl]
  case status_eq =>
    show (s.marks.answer c value).statuses.get? c = none
    rw [hstatus]
    split
    next => rfl
    next hunchecked =>
      -- there are no statuses before a check
      refine Option.eq_none_iff_forall_ne_some.mpr fun st hst => ?_
      exact hunchecked ⟨hs.marks.checked_of_status hst, rfl⟩
  case other_answer =>
    intro d hd
    show (s.marks.answer c value).answers.get? d = s.marks.answers.get? d
    rw [hanswer, if_neg hd]
  case other_status =>
    intro d hd
    show (s.marks.answer c value).statuses.get? d = s.marks.statuses.get? d
    rw [hstatus, if_neg fun hsame => hd hsame.2]
  case sheet_eq => rfl
  case checked_eq => rfl
  case revealed_eq => rfl
  case saved_eq => rfl
  case isOpen_eq => exact fun d => isOpen_answer

/-! ### Every state of a run -/

/-- Nothing is refused but what names no cell or a locked one, and an answer reaches no further than
its cell. -/
structure Contained (t : Table) (s : Session) : Prop where
  /-- Checking, revealing or hiding, and resetting always succeed. -/
  perform_ok : ∀ a, (∀ c value, a ≠ .answer c value) → (s.perform a).2 = .ok ()
  /-- Just the cells of the table can be listed and counted. -/
  mem_cells_iff : ∀ c, c ∈ s.sheet.cells ↔ IsCellOf t c
  tally_le : s.tally.correct + s.tally.incorrect ≤ s.tally.filled ∧ s.tally.filled ≤ s.tally.total
  solution_error_iff : ∀ c e, s.sheet.solution c = .error e ↔ ¬IsCellOf t c ∧ e = .notACell c
  isOpen_error_iff : ∀ c e, s.isOpen c = .error e ↔ ¬IsCellOf t c ∧ e = .notACell c
  /-- An answer is refused if it is to no cell, or if an answer that it depends on is missing. -/
  answer_error_iff : ∀ c value e, (s.perform (.answer c value)).2 = .error e ↔
    (¬IsCellOf t c ∧ e = .notACell c) ∨
    (IsCellOf t c ∧ (∃ d ∈ s.sheet.dependencies c, s.answer? d = none) ∧ e = .locked c)
  /-- A cell depends on the cells of its row and formula that stand for its operands. -/
  mem_dependencies_iff : ∀ c d, d ∈ s.sheet.dependencies c ↔ DependsOn t c d
  refused_eq_self : ∀ c value e, (s.perform (.answer c value)).2 = .error e →
    (s.perform (.answer c value)).1 = s
  accepted : ∀ c value, (s.perform (.answer c value)).2 = .ok () →
    s.AnsweredAt c value (s.perform (.answer c value)).1
  /-- The cell whose lock an answer can change is the only one that depends on the answered one. -/
  dependent_unique : ∀ c d d', c ∈ s.sheet.dependencies d → c ∈ s.sheet.dependencies d' → d = d'

theorem contained_of_consistent {t : Table} (hsheet : s.sheet = Sheet.ofTable t)
    (ha : s.sheet.Answerable) (hs : s.Consistent) : s.Contained t := by
  have hcell : ∀ c, s.sheet.contains c = true ↔ IsCellOf t c := fun c => by
    rw [hsheet, Sheet.contains_ofTable_iff_isCellOf]
  have hnone : ∀ c, s.sheet.contains c = false ↔ ¬IsCellOf t c := fun c => by
    rw [← hcell, Bool.not_eq_true]
  constructor
  case perform_ok =>
    intro a hanswer
    have hmove := move_perform ha hs a
    generalize (s.perform a).1 = s', (s.perform a).2 = r at hmove ⊢
    cases hmove with
    | outside => exact absurd rfl (hanswer _ _)
    | locked => exact absurd rfl (hanswer _ _)
    | answered => rfl
    | checked => rfl
    | revealed => rfl
    | hidden => rfl
    | reset => rfl
  case mem_cells_iff => exact fun c => Sheet.mem_cells_iff.trans (hcell c)
  case tally_le => exact tally_le_of_consistent hs
  case solution_error_iff =>
    intro c e
    rw [ha.solution_error_iff, hnone]
  case isOpen_error_iff =>
    intro c e
    rw [Session.isOpen_error_iff, hnone]
  case answer_error_iff =>
    intro c value e
    rw [Session.answer_error_iff, hnone, hcell]
  case mem_dependencies_iff =>
    intro c d
    rw [hsheet, Sheet.mem_dependencies_iff_dependsOn]
  case refused_eq_self => exact fun c value e h => perform_eq_self_of_error h nofun
  case accepted => exact fun c value => answeredAt_of_accepted hs
  case dependent_unique =>
    intro c d d' hd hd'
    rw [hsheet] at hd hd'
    exact Sheet.dependent_unique hd hd'

/-- **An answer reaches no further than its cell.** Whatever has been done in a session on a
generated table, checking, revealing, hiding and resetting succeed; a cell can be asked about unless
it is none, and be answered unless it is locked; a refused answer changes nothing, and an accepted
one no more than its own cell and the lock of the one cell that depends on it. -/
theorem run_contained (formulas : List Sentence) :
    ∃ t, Table.generate formulas = .ok t ∧ ∀ actions, ((start t).run actions).Contained t := by
  refine ⟨Table.ofBatch formulas, Table.generate_eq_ofBatch formulas, fun actions => ?_⟩
  have ha := Sheet.answerable_ofBatch formulas
  obtain ⟨hsheet, hs⟩ := run_consistent ha actions
  exact contained_of_consistent hsheet (by rwa [hsheet]) hs

end Session

end Propositional.Quiz
