import Propositional.Proofs.Quiz.Locality
import Propositional.Proofs.Quiz.Reveal

/-! Answers that do not depend on each other.

An answer goes by the lock of its cell, and changes what is found in that cell only. So of two
answers to different cells, neither of which depends on the other, each fares alike whichever comes
first (`isOpen_perform_answer`), and both orders leave the same in every cell. What they do not
leave is the same state: answers are kept in the order in which they were given. `Alike` sessions
are those that differ in this order only, also in what is saved while the answers are revealed. An
action returns the same in both and leaves them alike (`Alike.perform`), and so does any sequence of
actions (`Alike.run`); what alike sessions show is the same (`Alike.showsSame`).
`run_answers_commute` puts this together for every state of a session. -/
namespace Propositional.Quiz

/-! ### Marks in another order -/

namespace Marks

/-- The same answers and statuses, given in whatever order. -/
structure Alike (m m' : Marks) : Prop where
  answers_eq : ∀ c, m.answers.get? c = m'.answers.get? c
  statuses_eq : ∀ c, m.statuses.get? c = m'.statuses.get? c
  checked_eq : m.checked = m'.checked

variable {m m' : Marks}

theorem Alike.refl (m : Marks) : m.Alike m := ⟨fun _ => rfl, fun _ => rfl, rfl⟩

theorem Alike.answer (h : m.Alike m') (c : Cell) (value : Option Bool) :
    (m.answer c value).Alike (m'.answer c value) where
  answers_eq := fun d => by rw [get?_answers_answer, get?_answers_answer, h.answers_eq]
  statuses_eq := fun d => by
    rw [get?_statuses_answer, get?_statuses_answer, h.checked_eq, h.statuses_eq]
  checked_eq := h.checked_eq

theorem Alike.checkedBy (h : m.Alike m') (expected : Cell → Bool) :
    (m.checkedBy expected).Alike (m'.checkedBy expected) where
  answers_eq := h.answers_eq
  statuses_eq := fun c => by rw [get?_statuses_checkedBy, get?_statuses_checkedBy, h.answers_eq]
  checked_eq := rfl

theorem Alike.revealedBy (h : m.Alike m') (expected : Cell → Bool) (cells : List Cell) :
    (m.revealedBy expected cells).Alike (m'.revealedBy expected cells) where
  answers_eq := fun c => by
    show (m.filledBy expected cells).answers.get? c = (m'.filledBy expected cells).answers.get? c
    rw [get?_answers_filledBy, get?_answers_filledBy, h.answers_eq]
  statuses_eq := fun c => by
    show (m.filledBy expected cells).statuses.get? c = (m'.filledBy expected cells).statuses.get? c
    rw [get?_statuses_filledBy, get?_statuses_filledBy, h.statuses_eq]
  checked_eq := rfl

/-- Answers to two cells, in either order. -/
theorem alike_answer_answer (m : Marks) {c d : Cell} (hne : c ≠ d) (value value' : Option Bool) :
    ((m.answer c value).answer d value').Alike ((m.answer d value').answer c value) where
  answers_eq := fun e => by
    simp only [get?_answers_answer]
    by_cases hec : e = c
    · have hed : e ≠ d := fun hed => hne (hec.symm.trans hed)
      rw [if_pos hec, if_neg hed, if_pos hec]
    · rw [if_neg hec, if_neg hec]
  statuses_eq := fun e => by
    have hchecked (c : Cell) (value : Option Bool) : (m.answer c value).checked = m.checked := rfl
    simp only [get?_statuses_answer, hchecked]
    split <;> split <;> rfl
  checked_eq := rfl

end Marks

namespace Session

variable {s s' : Session} {c d : Cell} {value : Option Bool}

/-! ### Two answers -/

/-- An answer goes by the lock of its cell. -/
theorem perform_answer_eq (s : Session) (c : Cell) (value : Option Bool) :
    s.perform (.answer c value) = match s.isOpen c with
      | .ok true => ({ s with marks := s.marks.answer c value }, .ok ())
      | .ok false => (s, .error (.locked c))
      | .error e => (s, .error e) := by
  rw [perform, answer]
  cases s.isOpen c with
  | error e => rfl
  | ok unlocked => cases unlocked <;> rfl

theorem snd_perform_answer_congr (h : s'.isOpen c = s.isOpen c) :
    (s'.perform (.answer c value)).2 = (s.perform (.answer c value)).2 := by
  rw [perform_answer_eq, perform_answer_eq, h]
  cases s.isOpen c with
  | error e => rfl
  | ok unlocked => cases unlocked <;> rfl

theorem fst_perform_answer_of_not_isOpen (h : s.isOpen c ≠ .ok true) :
    (s.perform (.answer c value)).1 = s := by
  rw [perform_answer_eq]
  cases hopen : s.isOpen c with
  | error e => rfl
  | ok unlocked =>
    cases unlocked with
    | false => rfl
    | true => exact absurd hopen h

/-- An answer, accepted or refused, leaves the lock of a cell that does not depend on its cell. -/
theorem isOpen_perform_answer (h : c ∉ s.sheet.dependencies d) :
    (s.perform (.answer c value)).1.isOpen d = s.isOpen d := by
  by_cases hopen : s.isOpen c = .ok true
  · rw [perform_answer_of_isOpen hopen]
    exact isOpen_answer h
  · rw [fst_perform_answer_of_not_isOpen hopen]

/-! ### Sessions in which the marks were made in another order -/

/-- The same in every cell, on display and in what is saved. -/
structure Alike (s s' : Session) : Prop where
  sheet_eq : s'.sheet = s.sheet
  marks : s.marks.Alike s'.marks
  revealed_eq : s'.revealed = s.revealed
  saved : Option.Rel Marks.Alike s.saved s'.saved

theorem Alike.of_marks {m m' : Marks} (h : m.Alike m') :
    Alike { s with marks := m } { s with marks := m' } := by
  refine ⟨rfl, h, rfl, ?_⟩
  show Option.Rel Marks.Alike s.saved s.saved
  cases s.saved with
  | none => exact .none
  | some m => exact .some (.refl m)

theorem alike_answers (hne : c ≠ d) (hc : c ∉ s.sheet.dependencies d)
    (hd : d ∉ s.sheet.dependencies c) (value value' : Option Bool) :
    (s.run [.answer c value, .answer d value']).Alike
      (s.run [.answer d value', .answer c value]) := by
  show ((s.perform (.answer c value)).1.perform (.answer d value')).1.Alike
    ((s.perform (.answer d value')).1.perform (.answer c value)).1
  have hopenc : (s.perform (.answer d value')).1.isOpen c = s.isOpen c := isOpen_perform_answer hd
  have hopend : (s.perform (.answer c value)).1.isOpen d = s.isOpen d := isOpen_perform_answer hc
  by_cases hoc : s.isOpen c = .ok true
  · by_cases hod : s.isOpen d = .ok true
    · rw [perform_answer_of_isOpen (hopend.trans hod), perform_answer_of_isOpen (hopenc.trans hoc),
        perform_answer_of_isOpen hoc, perform_answer_of_isOpen hod]
      exact .of_marks (s.marks.alike_answer_answer hne value value')
    · rw [fst_perform_answer_of_not_isOpen fun h => hod (hopend.symm.trans h),
        fst_perform_answer_of_not_isOpen hod]
      exact .of_marks (.refl _)
  · rw [fst_perform_answer_of_not_isOpen hoc,
      fst_perform_answer_of_not_isOpen fun h => hoc (hopenc.symm.trans h)]
    exact .of_marks (.refl _)

/-! ### Later actions -/

theorem Alike.isOpen_eq (h : s.Alike s') (c : Cell) : s'.isOpen c = s.isOpen c :=
  isOpen_congr h.sheet_eq fun d _ => (h.marks.answers_eq d).symm

theorem perform_hide (h : s.revealed = true) : s.perform .revealOrHide = (s.hide, .ok ()) := by
  rw [perform, revealOrHide, if_pos h]

/-- An action returns the same in alike sessions, and leaves them alike. -/
theorem Alike.perform (h : s.Alike s') (ha : s.sheet.Answerable) (hs : s.Consistent)
    (hs' : s'.Consistent) (a : Action) :
    (s.perform a).2 = (s'.perform a).2 ∧ (s.perform a).1.Alike (s'.perform a).1 := by
  have ha' : s'.sheet.Answerable := h.sheet_eq ▸ ha
  cases a with
  | answer c value =>
    rw [perform_answer_eq, perform_answer_eq, h.isOpen_eq]
    cases s.isOpen c with
    | error e => exact ⟨rfl, h⟩
    | ok unlocked =>
      cases unlocked with
      | false => exact ⟨rfl, h⟩
      | true => exact ⟨rfl, { h with marks := h.marks.answer c value }⟩
  | check =>
    rw [perform_check ha hs, perform_check ha' hs', h.sheet_eq]
    exact ⟨rfl, ⟨rfl, h.marks.checkedBy s.sheet.expected, h.revealed_eq, h.saved⟩⟩
  | revealOrHide =>
    cases hrevealed : s.revealed with
    | false =>
      rw [perform_reveal ha hrevealed, perform_reveal ha' (h.revealed_eq.trans hrevealed),
        h.sheet_eq]
      exact ⟨rfl, ⟨rfl, h.marks.revealedBy s.sheet.expected s.sheet.cells, rfl, .some h.marks⟩⟩
    | true =>
      rw [perform_hide hrevealed, perform_hide (h.revealed_eq.trans hrevealed)]
      refine ⟨rfl, h.sheet_eq, ?_, rfl, .none⟩
      show (s.saved.getD s.marks).Alike (s'.saved.getD s'.marks)
      have hsaved := h.saved
      generalize s.saved = saved, s'.saved = saved' at hsaved ⊢
      cases hsaved with
      | none => exact h.marks
      | some hsame => exact hsame
  | reset => exact ⟨rfl, h.sheet_eq, .refl _, rfl, .none⟩

/-- What each of a sequence of actions returns. -/
def results (s : Session) : List Action → List (Except Error Unit)
  | [] => []
  | a :: rest => (s.perform a).2 :: (s.perform a).1.results rest

theorem Alike.run (h : s.Alike s') (ha : s.sheet.Answerable) (hs : s.Consistent)
    (hs' : s'.Consistent) (actions : List Action) :
    s.results actions = s'.results actions ∧ (s.run actions).Alike (s'.run actions) := by
  induction actions generalizing s s' with
  | nil => exact ⟨rfl, h⟩
  | cons a rest ih =>
    have ha' : s'.sheet.Answerable := h.sheet_eq ▸ ha
    have hmove := move_perform ha hs a
    have hmove' := move_perform ha' hs' a
    obtain ⟨hresult, hafter⟩ := h.perform ha hs hs' a
    obtain ⟨hresults, hrun⟩ := ih hafter (hmove.sheet_eq ▸ ha) (hmove.consistent hs)
      (hmove'.consistent hs')
    exact ⟨by rw [results, results, hresult, hresults], hrun⟩

/-! ### What is shown -/

/-- Whatever can be read off two sessions is the same, and so is what the journal tells of an action
that led to them. -/
structure ShowsSame (s s' : Session) : Prop where
  sheet_eq : s'.sheet = s.sheet
  answer_eq : ∀ c, s'.answer? c = s.answer? c
  status_eq : ∀ c, s'.status? c = s.status? c
  checked_eq : s'.marks.checked = s.marks.checked
  revealed_eq : s'.revealed = s.revealed
  isOpen_eq : ∀ c, s'.isOpen c = s.isOpen c
  tally_eq : s'.tally = s.tally
  entry_eq : ∀ shown a, s'.actionEntry shown a = s.actionEntry shown a

theorem Alike.tally_eq (h : s.Alike s') : s'.tally = s.tally := by
  have hanswered : s'.marks.answers.contains = s.marks.answers.contains :=
    funext fun c => Bindings.contains_congr (h.marks.answers_eq c).symm
  have hstatus : s'.status? = s.status? := funext fun c => (h.marks.statuses_eq c).symm
  rw [tally, tally, h.sheet_eq, hanswered, hstatus]

theorem Alike.showsSame (h : s.Alike s') : s.ShowsSame s' where
  sheet_eq := h.sheet_eq
  answer_eq := fun c => (h.marks.answers_eq c).symm
  status_eq := fun c => (h.marks.statuses_eq c).symm
  checked_eq := h.marks.checked_eq.symm
  revealed_eq := h.revealed_eq
  isOpen_eq := h.isOpen_eq
  tally_eq := h.tally_eq
  entry_eq := by
    have hsize := Bindings.size_congr h.marks.answers_eq
    intro shown a
    cases a with
    | answer c value => rfl
    | check => rw [actionEntry, actionEntry, hsize]
    | revealOrHide => rw [actionEntry, actionEntry, hsize, h.revealed_eq]
    | reset => rfl

/-! ### Every state of a run -/

/-- Two cells neither of which depends on the other. -/
structure Independent (t : Table) (c d : Cell) : Prop where
  ne : c ≠ d
  not_dependsOn : ¬DependsOn t c d
  not_dependsOn_symm : ¬DependsOn t d c

theorem independent_of_place_ne {t : Table} (h : c.row ≠ d.row ∨ c.formula ≠ d.formula) :
    Independent t c d := by
  constructor
  case ne =>
    rintro rfl
    exact h.elim (absurd rfl) (absurd rfl)
  case not_dependsOn =>
    rintro ⟨formula, i, j, f, p, o, -, hformula, -, rfl, -⟩
    exact h.elim (absurd rfl) (absurd hformula)
  case not_dependsOn_symm =>
    rintro ⟨formula, i, j, f, p, o, -, hformula, -, rfl, -⟩
    exact h.elim (absurd rfl) (absurd hformula.symm)

/-- The order of two actions does not matter, now or later. -/
structure Commute (s : Session) (a b : Action) : Prop where
  /-- Each returns the same, whether the other has been done before it or not. -/
  first_eq : ((s.perform b).1.perform a).2 = (s.perform a).2
  second_eq : ((s.perform a).1.perform b).2 = (s.perform b).2
  later_eq : ∀ later, (s.run [a, b]).results later = (s.run [b, a]).results later
  later_showsSame : ∀ later, (s.run (a :: b :: later)).ShowsSame (s.run (b :: a :: later))

theorem commute_of_independent {t : Table} (hsheet : s.sheet = Sheet.ofTable t)
    (ha : s.sheet.Answerable) (hs : s.Consistent) (h : Independent t c d)
    (value value' : Option Bool) : s.Commute (.answer c value) (.answer d value') := by
  have hc : c ∉ s.sheet.dependencies d := by
    rw [hsheet, Sheet.mem_dependencies_iff_dependsOn]
    exact h.not_dependsOn_symm
  have hd : d ∉ s.sheet.dependencies c := by
    rw [hsheet, Sheet.mem_dependencies_iff_dependsOn]
    exact h.not_dependsOn
  obtain ⟨hsheet', hs'⟩ := hs.run ha [.answer c value, .answer d value']
  obtain ⟨-, hs''⟩ := hs.run ha [.answer d value', .answer c value]
  have hlater := (alike_answers h.ne hc hd value value').run (hsheet' ▸ ha) hs' hs''
  exact ⟨snd_perform_answer_congr (isOpen_perform_answer hd),
    snd_perform_answer_congr (isOpen_perform_answer hc), fun later => (hlater later).1,
    fun later => (hlater later).2.showsSame⟩

/-- **Independent answers commute.** Whatever has been done in a session on a generated table, two
answers to cells neither of which depends on the other can be given in either order, above all to
cells of different rows or formulas: each is accepted or refused in the same way, the same is shown
afterwards, and whatever is done then has the same effect. -/
theorem run_answers_commute (formulas : List Sentence) :
    ∃ t, Table.generate formulas = .ok t ∧
      (∀ c d : Cell, c.row ≠ d.row ∨ c.formula ≠ d.formula → Independent t c d) ∧
      ∀ actions c d, Independent t c d → ∀ value value',
        ((start t).run actions).Commute (.answer c value) (.answer d value') := by
  refine ⟨Table.ofBatch formulas, Table.generate_eq_ofBatch formulas,
    fun c d => independent_of_place_ne, fun actions c d h value value' => ?_⟩
  have ha := Sheet.answerable_ofBatch formulas
  obtain ⟨hsheet, hs⟩ := run_consistent ha actions
  exact commute_of_independent hsheet (by rwa [hsheet]) hs h value value'

/-- In the first row of `~P&~Q` the wrong answer to the negation of `P` has been checked. It can be
changed before or after one to the negation of `Q`. -/
theorem answers_commute_conjuncts :
    ∃ t s, Table.generate [.binary .conjunction (.negation Table.letterP)
        (.negation Table.letterQ)] = .ok t ∧
      s = (start t).run [.answer ⟨0, 0, 0⟩ (some true), .check] ∧
      Independent t ⟨0, 0, 0⟩ ⟨0, 0, 3⟩ ∧ s.status? ⟨0, 0, 0⟩ = some .incorrect ∧
      s.Commute (.answer ⟨0, 0, 0⟩ (some false)) (.answer ⟨0, 0, 3⟩ (some true)) := by
  obtain ⟨t, ht, -, hcommute⟩ := run_answers_commute
    [.binary .conjunction (.negation Table.letterP) (.negation Table.letterQ)]
  -- the letters occur in their order, so they are the columns as they are
  have hletters : Sentence.batchLetters [.binary .conjunction (.negation Table.letterP)
      (.negation Table.letterQ)] = [{ id := 'P', isUpper := rfl }, { id := 'Q', isUpper := rfl }] :=
    Letters.sorted_of_pairwise (by decide)
  have htable := Table.eq_of_generate ht hletters
  have hnone : ∀ q, q = 0 ∨ q = 3 → (Sheet.ofTable t).dependencies ⟨0, 0, q⟩ = [] := by
    rintro q (rfl | rfl) <;> rw [htable] <;> rfl
  have hindependent : Independent t ⟨0, 0, 0⟩ ⟨0, 0, 3⟩ := by
    constructor
    case ne => decide
    case not_dependsOn =>
      rw [← Sheet.mem_dependencies_iff_dependsOn, hnone 0 (.inl rfl)]
      exact List.not_mem_nil
    case not_dependsOn_symm =>
      rw [← Sheet.mem_dependencies_iff_dependsOn, hnone 3 (.inr rfl)]
      exact List.not_mem_nil
  exact ⟨t, _, ht, rfl, hindependent, by rw [htable]; rfl, hcommute _ _ _ hindependent _ _⟩

end Session

end Propositional.Quiz
