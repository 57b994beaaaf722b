import Propositional.Proofs.Layout.OpenParts
import Propositional.Proofs.Quiz.Moves

/-! A quiz can always be filled in.

A cell waits for smaller ones only: what it depends on stands for operands of its sentence
(`Sheet.sizeOf_sentence?_lt`). So whoever goes down from a cell without an answer, always
to a dependency without one, comes to a cell that is not locked (`exists_ready`). This asks nothing
of the answers that are there: cleared dependencies below answers, or answers to a revealed sheet
that were edited, leave no state in which all missing answers wait for each other. An answer to a
cell of that kind leaves one cell less to be answered, so accepted answers fill the sheet, whatever
they say (`exists_filling`). `run_unblocked` states both for every state of a session. -/
namespace Propositional.Quiz

/-! ### Cells wait for smaller ones -/

namespace Sheet

variable {t : Table} {c d : Cell}

/-- A cell depends on those that stand for operands of its point. -/
theorem mem_dependencies_ofTable_iff :
    d ∈ (ofTable t).dependencies c ↔ ∃ f i j, fromFront? t.formulas c.formula = some f ∧
      c.position = ((i : Nat) : Int) ∧ d = { c with position := ((j : Nat) : Int) } ∧
      Linked f.layout.points i j ∧ (DependencyMap.ofSentence f).isNode j = true := by
  rw [dependencies, graph?_ofTable]
  cases fromFront? t.formulas c.formula with
  | none => simp
  | some f =>
    show d ∈ ((DependencyMap.ofSentence f).dependencies c.position).map _ ↔ _
    rw [List.mem_map]
    constructor
    · rintro ⟨q, hq, rfl⟩
      obtain ⟨hnode, i, j, hi, rfl, hlink⟩ := DependencyMap.mem_dependencies_iff.mp hq
      exact ⟨f, i, j, rfl, hi, rfl, hlink, hnode⟩
    · rintro ⟨f', i, j, hf, hi, rfl, hlink, hnode⟩
      obtain rfl := Option.some.inj hf
      exact ⟨j, DependencyMap.mem_dependencies_iff.mpr ⟨hnode, i, j, hi, rfl, hlink⟩, rfl⟩

/-- The sentence at a cell is larger than those at the cells that it depends on. -/
theorem sizeOf_sentence?_lt (hd : d ∈ (ofTable t).dependencies c) :
    sizeOf ((ofTable t).sentence? d) < sizeOf ((ofTable t).sentence? c) := by
  obtain ⟨f, i, j, hf, hi, rfl, ⟨p, hp, hj⟩, -⟩ := mem_dependencies_ofTable_iff.mp hd
  obtain ⟨o, ho, hpart⟩ := Layout.exists_of_linked f.placed_layout hp hj
  have hlt := Sentence.sizeOf_operand_lt hpart
  have hpoint := point?_ofTable (c := { c with position := j }) hf rfl ho
  rw [sentence?_eq_map, hpoint, sentence?_eq_map, point?_ofTable hf hi hp]
  simpa using hlt

/-- A cell depends on cells of its own row and formula. -/
theorem place_of_mem_dependencies {s : Sheet} (hd : d ∈ s.dependencies c) :
    d.row = c.row ∧ d.formula = c.formula := by
  rw [dependencies] at hd
  split at hd
  · obtain ⟨q, -, rfl⟩ := List.mem_map.mp hd
    exact ⟨rfl, rfl⟩
  · exact absurd hd List.not_mem_nil

end Sheet

namespace Session

variable {s : Session} {t : Table} {c d : Cell}

/-! ### Going down to a cell that is not locked -/

/-- A cell that has no answer and can be given one. -/
structure Ready (s : Session) (c : Cell) : Prop where
  contains : s.sheet.contains c = true
  unanswered : s.answer? c = none
  isOpen : s.isOpen c = .ok true
  answer_ok : ∀ b, (s.perform (.answer c (some b))).2 = .ok ()

theorem perform_answer_of_isOpen (h : s.isOpen c = .ok true) (value : Option Bool) :
    s.perform (.answer c value) = ({ s with marks := s.marks.answer c value }, .ok ()) := by
  rw [perform, answer, h]
  rfl

theorem ready_of_answered (hc : s.sheet.contains c = true) (hnone : s.answer? c = none)
    (hdeps : ∀ d ∈ s.sheet.dependencies c, s.marks.Answered d) : s.Ready c := by
  have hopen := isOpen_eq_ok_true_iff.mpr ⟨hc, hdeps⟩
  exact ⟨hc, hnone, hopen, fun b => by rw [perform_answer_of_isOpen hopen]⟩

/-- Where a cell has no answer, it can be given one, or one below it can. -/
theorem exists_ready (hsheet : s.sheet = Sheet.ofTable t) (hc : s.sheet.contains c = true)
    (hnone : s.answer? c = none) :
    ∃ d, s.Ready d ∧ d.row = c.row ∧ d.formula = c.formula := by
  -- the cells on the way down get smaller
  induction hsize : sizeOf (s.sheet.sentence? c) using Nat.strongRecOn generalizing c with
  | ind n ih =>
    by_cases hdeps : ∀ d ∈ s.sheet.dependencies c, s.marks.Answered d
    · exact ⟨c, ready_of_answered hc hnone hdeps, rfl, rfl⟩
    · push Not at hdeps
      obtain ⟨d, hd, hmissing⟩ := hdeps
      obtain ⟨hrow, hformula⟩ := Sheet.place_of_mem_dependencies hd
      rw [hsheet] at hc hd hsize
      have hlt : sizeOf (s.sheet.sentence? d) < n := by
        rw [hsheet, ← hsize]
        exact Sheet.sizeOf_sentence?_lt hd
      have hcell : s.sheet.contains d = true := by
        rw [hsheet]
        exact Sheet.contains_of_mem_dependencies hc hd
      obtain ⟨e, he, herow, heformula⟩ :=
        ih _ hlt hcell (Marks.not_answered_iff.mp hmissing) rfl
      exact ⟨e, he, herow.trans hrow, heformula.trans hformula⟩

/-! ### Filling the sheet -/

/-- A sequence of actions each of which succeeds. -/
def Accepts : Session → List Action → Prop
  | _, [] => True
  | s, a :: rest => (s.perform a).2 = .ok () ∧ (s.perform a).1.Accepts rest

/-- Answers to some cells, one after the other. -/
def answersTo (value : Cell → Bool) (cells : List Cell) : List Action :=
  cells.map fun c => .answer c (some (value c))

/-- The cells without an answer. -/
def missing (s : Session) : List Cell := s.sheet.cells.filter fun c => (s.answer? c).isNone

theorem mem_missing_iff : c ∈ s.missing ↔ s.sheet.contains c = true ∧ s.answer? c = none := by
  rw [missing, List.mem_filter, Sheet.mem_cells_iff, Option.isNone_iff_eq_none]

/-- An answer to a cell without one leaves one cell less to be answered. -/
theorem Ready.perform_answer (h : s.Ready c) (b : Bool) :
    ∃ s', s.perform (.answer c (some b)) = (s', .ok ()) ∧ s'.sheet = s.sheet ∧
      (∀ d, s'.answer? d = if d = c then some b else s.answer? d) ∧
      s'.missing.length < s.missing.length := by
  have hanswer := s.marks.get?_answers_answer c (some b)
  refine ⟨_, perform_answer_of_isOpen h.isOpen _, rfl, hanswer, ?_⟩
  have hfilter : missing { s with marks := s.marks.answer c (some b) } =
      s.missing.filter fun d => d != c := by
    rw [missing, missing, List.filter_filter]
    refine List.filter_congr fun d _ => ?_
    rw [answer?, hanswer]
    by_cases hd : d = c <;> simp [hd, answer?]
  rw [hfilter, List.length_filter_lt_length_iff_exists]
  exact ⟨c, mem_missing_iff.mpr ⟨h.contains, h.unanswered⟩, by simp⟩

/-- Accepted answers fill the sheet. What they say may be chosen for each cell, and no answer that
was there is touched. -/
theorem exists_filling (hsheet : s.sheet = Sheet.ofTable t) (value : Cell → Bool) :
    ∃ cells, s.Accepts (answersTo value cells) ∧
      (s.run (answersTo value cells)).sheet = s.sheet ∧
      ∀ c, s.sheet.contains c = true →
        (s.run (answersTo value cells)).answer? c = (s.answer? c).or (some (value c)) := by
  induction hcount : s.missing.length using Nat.strongRecOn generalizing s with
  | ind n ih =>
    by_cases hfull : s.missing = []
    · refine ⟨[], trivial, rfl, fun c hc => ?_⟩
      cases hanswer : s.answer? c with
      | some b => exact hanswer
      | none =>
        have hmem := mem_missing_iff.mpr ⟨hc, hanswer⟩
        rw [hfull] at hmem
        exact absurd hmem List.not_mem_nil
    · obtain ⟨c, hc⟩ := List.exists_mem_of_ne_nil _ hfull
      obtain ⟨hcell, hnone⟩ := mem_missing_iff.mp hc
      obtain ⟨d, hd, -, -⟩ := exists_ready hsheet hcell hnone
      obtain ⟨s', hperform, hsame, hanswer, hlt⟩ := hd.perform_answer (value d)
      obtain ⟨cells, haccepts, hafter, hanswers⟩ :=
        ih _ (hcount ▸ hlt) (hsame.trans hsheet) rfl
      have hrun : s.run (answersTo value (d :: cells)) = s'.run (answersTo value cells) := by
        show (s.perform (.answer d (some (value d)))).1.run (answersTo value cells) = _
        rw [hperform]
      refine ⟨d :: cells, ⟨by rw [hperform], by rwa [hperform]⟩, ?_, fun e he => ?_⟩
      · rw [hrun, hafter, hsame]
      · rw [hrun, hanswers e (by rwa [hsame]), hanswer]
        split
        next hed => rw [hed, hd.unanswered]; rfl
        next => rfl

/-! ### Every state of a run -/

/-- Nothing stands in the way of filling the sheet. -/
structure Unblocked (s : Session) : Prop where
  /-- Where a row lacks an answer for a formula, one that it lacks can be given, whatever it is. -/
  exists_ready : ∀ {c}, s.sheet.contains c = true → s.answer? c = none →
    ∃ d, s.Ready d ∧ d.row = c.row ∧ d.formula = c.formula
  /-- Accepted answers fill all cells, with any values where there are none. -/
  exists_filling : ∀ value : Cell → Bool, ∃ cells, s.Accepts (answersTo value cells) ∧
    (∀ c ∈ s.sheet.cells,
      (s.run (answersTo value cells)).answer? c = (s.answer? c).or (some (value c))) ∧
    (s.run (answersTo value cells)).tally.filled = s.sheet.cells.length ∧
    (s.run (answersTo value cells)).tally.total = s.sheet.cells.length

theorem filled_eq_total (h : ∀ c ∈ s.sheet.cells, ∃ b, s.answer? c = some b) :
    s.tally.filled = s.tally.total :=
  List.countP_eq_length.mpr fun c hc => Marks.contains_answers_iff.mpr (h c hc)

theorem unblocked_of_ofTable (hsheet : s.sheet = Sheet.ofTable t) : s.Unblocked where
  exists_ready := Session.exists_ready hsheet
  exists_filling := by
    intro value
    obtain ⟨cells, haccepts, hafter, hanswers⟩ := Session.exists_filling hsheet value
    have hcells : ∀ c ∈ s.sheet.cells,
        (s.run (answersTo value cells)).answer? c = (s.answer? c).or (some (value c)) :=
      fun c hc => hanswers c (Sheet.mem_cells_iff.mp hc)
    have htotal : (s.run (answersTo value cells)).tally.total = s.sheet.cells.length := by
      show (s.run _).sheet.cells.length = _
      rw [hafter]
    refine ⟨cells, haccepts, hcells, ?_, htotal⟩
    rw [← htotal]
    refine filled_eq_total fun c hc => ?_
    rw [hafter] at hc
    rw [hcells c hc]
    cases s.answer? c <;> simp

/-- **A quiz can always be filled in.** Whatever has been done in a session on a generated table,
where an answer is missing there is one in the same row and formula that can be given, and accepted
answers fill all cells. -/
theorem run_unblocked (formulas : List Sentence) :
    ∃ t, Table.generate formulas = .ok t ∧ ∀ actions, ((start t).run actions).Unblocked := by
  refine ⟨Table.ofBatch formulas, Table.generate_eq_ofBatch formulas, fun actions => ?_⟩
  obtain ⟨hsheet, -⟩ := run_consistent (Sheet.answerable_ofBatch formulas) actions
  exact unblocked_of_ofTable hsheet

end Session

end Propositional.Quiz
