import Propositional.Proofs.Quiz.Moves

/-! Locks along a run.

A lock is tried only when its own cell is answered, so it says nothing of the answers that were
there before. An answer stands on a locked cell in one way only: an answer that it depends on was
cleared under it, and the gap has been there ever since, on display or in what is saved
(`Uncovered`). For no other action makes a gap: revealing leaves none on display, and hiding brings
back those that were saved. `Move.gap` says this of one move and `run_gap` of runs; `run_gated`
reads the locks off it. That clearing does leave such answers is `not_always_isOpen_of_answer`. -/
namespace Propositional.Quiz

/-! ### Gaps below answers -/

namespace Marks

/-- A cell with an answer depends on one without. -/
structure Gap (sheet : Sheet) (m : Marks) (c d : Cell) : Prop where
  dependency : d ∈ sheet.dependencies c
  answered : m.Answered c
  missing : ¬m.Answered d

variable {sheet : Sheet} {m : Marks} {c d : Cell}

theorem not_gap_blank : ¬blank.Gap sheet c d :=
  fun h => not_answered_blank c h.answered

/-- Answering an open cell makes no gap; clearing it makes one below each answer over it. -/
theorem Gap.of_answer {a : Cell} {value : Option Bool} (h : (m.answer a value).Gap sheet c d)
    (hopen : ∀ e ∈ sheet.dependencies a, m.Answered e) :
    m.Gap sheet c d ∨ d = a ∧ value = none ∧ m.Answered c ∧ m.Answered d := by
  obtain ⟨hdep, hc, hd⟩ := h
  rw [answered_answer_iff] at hc hd
  by_cases hca : c = a
  · -- what the cell itself depends on is answered, and stays so
    rw [if_pos hca] at hc
    have hda : d ≠ a := fun hda => hd (by rwa [if_pos hda])
    rw [if_neg hda] at hd
    exact absurd (hopen d (hca ▸ hdep)) hd
  · rw [if_neg hca] at hc
    by_cases hda : d = a
    · rw [if_pos hda, Option.not_isSome_iff_eq_none] at hd
      by_cases hanswered : m.Answered d
      · exact .inr ⟨hda, hd, hc, hanswered⟩
      · exact .inl ⟨hdep, hc, hanswered⟩
    · rw [if_neg hda] at hd
      exact .inl ⟨hdep, hc, hd⟩

theorem Gap.of_checkedBy {expected : Cell → Bool} (h : (m.checkedBy expected).Gap sheet c d) :
    m.Gap sheet c d :=
  ⟨h.dependency, h.answered, h.missing⟩

theorem not_gap_revealedBy (ha : sheet.Answerable) (hm : m.Consistent sheet) :
    ¬(m.revealedBy sheet.expected sheet.cells).Gap sheet c d := by
  rintro ⟨hdep, hc, hd⟩
  have hmem := Sheet.mem_cells_iff.mpr
    (ha.contains_dependency (hm.revealedBy.contains_of_answered hc) hdep)
  have hanswer := get?_answers_filledBy sheet.expected sheet.cells m d
  rw [if_pos hmem] at hanswer
  exact hd ⟨_, hanswer⟩

end Marks

namespace Session

/-- There is a gap on display, or in what is saved. -/
def Gap (s : Session) (c d : Cell) : Prop :=
  s.marks.Gap s.sheet c d ∨ ∃ m, s.saved = some m ∧ m.Gap s.sheet c d

/-- A cell that has an answer can be cleared below another one. -/
structure Uncovers (s : Session) (c d : Cell) : Prop where
  dependency : d ∈ s.sheet.dependencies c
  answered : ∃ b, s.answer? c = some b
  answered_dependency : ∃ b, s.answer? d = some b
  accepted : (s.perform (.answer d none)).2 = .ok ()

/-- A cell was cleared below an answer, and the gap has been there ever since. -/
def Uncovered (s : Session) (actions : List Action) (c d : Cell) : Prop :=
  ∃ before after, actions = before ++ .answer d none :: after ∧ (s.run before).Uncovers c d ∧
    ∀ middle, middle <+: after → (s.run (before ++ .answer d none :: middle)).Gap c d

variable {s s' : Session} {a : Action} {r : Except Error Unit} {c d : Cell}

theorem not_gap_reset : ¬s.reset.Gap c d := by
  rintro (hgap | ⟨m, hm, -⟩)
  · exact Marks.not_gap_blank hgap
  · cases hm

/-- A move makes a gap only by clearing an answer below another one. -/
theorem Move.gap (h : s.Move a s' r) (ha : s.sheet.Answerable) (hs : s.Consistent)
    (hgap : s'.Gap c d) :
    s.Gap c d ∨ a = .answer d none ∧ r = .ok () ∧ s.marks.Answered c ∧ s.marks.Answered d := by
  cases h with
  | outside => exact .inl hgap
  | locked => exact .inl hgap
  | answered value _ hopen =>
    rcases hgap with hgap | hsaved
    · rcases hgap.of_answer hopen with hgap | ⟨rfl, rfl, hc, hd⟩
      · exact .inl (.inl hgap)
      · exact .inr ⟨rfl, rfl, hc, hd⟩
    · exact .inl (.inr hsaved)
  | checked =>
    rcases hgap with hgap | hsaved
    · exact .inl (.inl hgap.of_checkedBy)
    · exact .inl (.inr hsaved)
  | revealed =>
    rcases hgap with hgap | ⟨m, hm, hgap⟩
    · exact absurd hgap (Marks.not_gap_revealedBy ha hs.marks)
    · obtain rfl := Option.some.inj hm
      exact .inl (.inl hgap)
  | hidden _ hsaved =>
    rcases hgap with hgap | ⟨m, hm, -⟩
    · exact .inl (.inr ⟨_, hsaved, hgap⟩)
    · cases hm
  | reset => exact absurd hgap not_gap_reset

/-! ### Gaps along a run -/

theorem Uncovered.concat {actions : List Action} (h : s.Uncovered actions c d)
    (hgap : (s.run (actions ++ [a])).Gap c d) : s.Uncovered (actions ++ [a]) c d := by
  obtain ⟨before, after, rfl, huncovers, hsince⟩ := h
  refine ⟨before, after ++ [a], by simp, huncovers, fun middle hmiddle => ?_⟩
  rcases List.prefix_concat_iff.mp hmiddle with rfl | hmiddle
  · simpa using hgap
  · exact hsince middle hmiddle

/-- A reset leaves no gap, so there was none since the cell was cleared. -/
theorem Uncovered.exists_uncovers {actions : List Action} (h : s.Uncovered actions c d) :
    ∃ before after, actions = before ++ .answer d none :: after ∧ .reset ∉ after ∧
      (s.run before).Uncovers c d := by
  obtain ⟨before, after, rfl, huncovers, hsince⟩ := h
  refine ⟨before, after, rfl, fun hreset => ?_, huncovers⟩
  obtain ⟨middle, rest, rfl⟩ := List.append_of_mem hreset
  have hgap := hsince (middle ++ [.reset]) ⟨rest, by simp⟩
  rw [← List.cons_append, ← List.append_assoc, run_concat] at hgap
  exact not_gap_reset hgap

/-- Every gap that a run leaves, on display or in what is saved, was uncovered in it. -/
theorem run_gap {t : Table} (ha : (Sheet.ofTable t).Answerable) (actions : List Action)
    (hgap : ((start t).run actions).Gap c d) : (start t).Uncovered actions c d := by
  induction actions using List.reverseRecOn with
  | nil => exact absurd hgap (not_gap_reset (s := start t))
  | append_singleton actions a ih =>
    obtain ⟨hsheet, hs⟩ := run_consistent ha actions
    have ha' : ((start t).run actions).sheet.Answerable := by rwa [hsheet]
    have hmove := move_perform ha' hs a
    have hafter := hgap
    rw [run_concat] at hafter
    rcases hmove.gap ha' hs hafter with hbefore | ⟨rfl, haccepted, hc, hd⟩
    · exact (ih hbefore).concat hgap
    · have hdep : d ∈ ((start t).run actions).sheet.dependencies c := by
        rw [← hmove.sheet_eq]
        rcases hafter with hshown | ⟨m, -, hsaved⟩
        · exact hshown.dependency
        · exact hsaved.dependency
      refine ⟨actions, [], rfl, ⟨hdep, hc, hd, haccepted⟩, fun middle hmiddle => ?_⟩
      rw [List.prefix_nil.mp hmiddle]
      exact hgap

/-! ### Locks -/

/-- No answer stands on a locked cell. -/
structure Gated (s : Session) : Prop where
  isOpen_of_answer : ∀ {c b}, s.answer? c = some b → s.isOpen c = .ok true
  answer_of_dependency : ∀ {c d b}, s.answer? c = some b → d ∈ s.sheet.dependencies c →
    ∃ b', s.answer? d = some b'
  /-- A given answer can be changed and cleared. -/
  answer_ok : ∀ {c b}, s.answer? c = some b → ∀ value, (s.perform (.answer c value)).2 = .ok ()
  /-- A locked cell is neither filled nor marked. -/
  blank_of_locked : ∀ {c}, s.isOpen c = .ok false → s.answer? c = none ∧ s.status? c = none

theorem gated_of_not_gap (hs : s.Consistent) (hnone : ∀ c d, ¬s.marks.Gap s.sheet c d) :
    s.Gated := by
  have hdeps : ∀ {c b}, s.answer? c = some b → ∀ d ∈ s.sheet.dependencies c, s.marks.Answered d :=
    fun {c b} hc d hd => not_not.mp fun hmissing => hnone c d ⟨hd, ⟨b, hc⟩, hmissing⟩
  have hopen : ∀ {c b}, s.answer? c = some b → s.isOpen c = .ok true := fun {c b} hc =>
    isOpen_eq_ok_true_iff.mpr ⟨hs.marks.contains_of_answered ⟨b, hc⟩, hdeps hc⟩
  constructor
  case isOpen_of_answer => exact hopen
  case answer_of_dependency => exact fun hc hd => hdeps hc _ hd
  case answer_ok =>
    intro c b hc value
    rw [perform, answer, hopen hc]
    rfl
  case blank_of_locked =>
    intro c hlocked
    have hanswer : s.answer? c = none := by
      cases hc : s.answer? c with
      | none => rfl
      | some b => rw [hopen hc] at hlocked; cases hlocked
    have hstatus : s.status? c = none := by
      cases hc : s.status? c with
      | none => rfl
      | some st =>
        obtain ⟨b, hb, -⟩ := hs.marks.answer_of_status hc
        cases hanswer.symm.trans hb
    exact ⟨hanswer, hstatus⟩

/-- **Locks along a run.** Whatever is done in a session on a generated table, a cell with an answer
depends on one without only if that one was cleared below it, and ever since; and if no cell was
cleared below an answer since the last reset, no answer stands on a locked cell. -/
theorem run_gated (formulas : List Sentence) :
    ∃ t, Table.generate formulas = .ok t ∧ ∀ actions,
      (∀ c d b, ((start t).run actions).answer? c = some b →
        d ∈ ((start t).run actions).sheet.dependencies c →
        ((start t).run actions).answer? d = none → (start t).Uncovered actions c d) ∧
      ((∀ before after c d, actions = before ++ .answer d none :: after → .reset ∉ after →
        ¬((start t).run before).Uncovers c d) → ((start t).run actions).Gated) := by
  refine ⟨Table.ofBatch formulas, Table.generate_eq_ofBatch formulas, fun actions => ?_⟩
  have ha := Sheet.answerable_ofBatch formulas
  obtain ⟨-, hs⟩ := run_consistent ha actions
  constructor
  · intro c d b hc hdep hd
    exact run_gap ha actions (.inl ⟨hdep, ⟨b, hc⟩, Marks.not_answered_iff.mpr hd⟩)
  · intro hnone
    refine gated_of_not_gap hs fun c d hgap => ?_
    obtain ⟨before, after, hsplit, hreset, huncovers⟩ :=
      (run_gap ha actions (.inl hgap)).exists_uncovers
    exact hnone before after c d hsplit hreset huncovers

/-- In the first row of `~~P` the inner negation is answered, then the outer one, and then the inner
one is cleared: the outer one keeps its answer and is locked. -/
theorem not_always_isOpen_of_answer :
    ¬∀ formulas t, Table.generate formulas = .ok t → ∀ actions c b,
      ((start t).run actions).answer? c = some b →
      ((start t).run actions).isOpen c = .ok true := by
  intro h
  have hgenerate := Table.generate_eq_ofBatch [.negation (.negation Table.letterP)]
  have hopen := h _ _ hgenerate
    [.answer ⟨0, 0, 1⟩ (some true), .answer ⟨0, 0, 0⟩ (some true), .answer ⟨0, 0, 1⟩ none]
    ⟨0, 0, 0⟩ true (by decide +kernel)
  have hlocked :
      ((start (Table.ofBatch [.negation (.negation Table.letterP)])).run
        [.answer ⟨0, 0, 1⟩ (some true), .answer ⟨0, 0, 0⟩ (some true),
          .answer ⟨0, 0, 1⟩ none]).isOpen ⟨0, 0, 0⟩ = .ok false := by decide +kernel
  cases hopen.symm.trans hlocked

end Session

end Propositional.Quiz
