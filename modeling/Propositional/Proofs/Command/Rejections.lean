import Propositional.Command.Run
import Propositional.Proofs.Command.Settings
import Propositional.Proofs.Submission.Judging
import Propositional.Proofs.Table.Display

/-! What rejected formulas change.

A run on a group of formulas, with settings of the display around it, judges the formulas one by
one. If there is a table to print, it is the table of the formulas that could be read, whatever
stands between them (`run_of_readable`), and printing it does not fail. So the rejected ones are
seen in the exit code and in the journal only, each with one message in its turn:
`run_isolates_rejections` compares the run with the one on the readable formulas alone, and states
what happens if no formula could be read. -/
namespace Propositional.Command

open Submission (isFaulty rejection?)

/-! ### Settings of the display -/

/-- The settings that bear on nothing but the display of a table. The format is also taken without
a value, from a double dash behind the equals sign. -/
def displaySettings : List Chosen :=
  [(.noQuasi, none), (.format, some "table".toList), (.format, some "compact".toList),
    (.format, none)]

/-- Options that say nothing but how a table is displayed. -/
def Options.ofDisplay (noQuasi compact : Bool) : Options :=
  { noQuasi := noQuasi, compact := compact }

variable {chosen chosen₁ chosen₂ : List Chosen} {before texts after : List Text}
  {noQuasi compact : Bool}

theorem applySetting_ofDisplay {c : Chosen} (h : c ∈ displaySettings) (noQuasi compact : Bool) :
    ∃ noQuasi' compact', applySetting (.ofDisplay noQuasi compact) c =
      .ok (.ofDisplay noQuasi' compact') := by
  simp only [displaySettings, List.mem_cons, List.not_mem_nil, or_false] at h
  rcases h with rfl | rfl | rfl | rfl
  · exact ⟨true, compact, rfl⟩
  · exact ⟨noQuasi, false, rfl⟩
  · exact ⟨noQuasi, true, rfl⟩
  · exact ⟨noQuasi, false, rfl⟩

theorem foldlM_ofDisplay (h : ∀ c ∈ chosen, c ∈ displaySettings) (noQuasi compact : Bool) :
    ∃ noQuasi' compact', chosen.foldlM applySetting (.ofDisplay noQuasi compact) =
      .ok (.ofDisplay noQuasi' compact') := by
  induction chosen generalizing noQuasi compact with
  | nil => exact ⟨noQuasi, compact, rfl⟩
  | cons c chosen ih =>
    rw [List.forall_mem_cons] at h
    obtain ⟨noQuasi', compact', hc⟩ := applySetting_ofDisplay h.1 noQuasi compact
    rw [List.foldlM_cons, hc]
    exact ih h.2 noQuasi' compact'

/-- A generated table can be displayed whatever the options are. -/
theorem displayed_ofBatch (o : Options) (formulas : List Sentence) :
    ∃ shown, o.displayed (Table.ofBatch formulas) = .ok shown := by
  rw [Options.displayed]
  split
  · obtain ⟨lines, hlines⟩ := Table.compactLines_ofBatch formulas
    exact ⟨Text.joinLines lines, by rw [hlines]; rfl⟩
  · exact Table.display_ofBatch _ formulas

/-! ### What is told -/

/-- The reports on texts that are judged. -/
def reports (texts : List Text) : List Journal.Entry := (Submission.ofTexts texts).flatMap report

theorem errors_report {t : Text} (h : Text.isBlank t = false) :
    Journal.errors (report (Submission.ofText t)) = (rejection? t).toList := by
  rw [Submission.ofText, rejection?, h]
  cases hparse : Sentence.parse t with
  | error e => rfl
  | ok s =>
    simp only [Bool.false_eq_true, if_false, report]
    split <;> rfl

/-- Every faulty text is reported as an error, in its turn, and no other text is. -/
theorem errors_reports (texts : List Text) :
    Journal.errors (reports texts) = texts.filterMap rejection? := by
  induction texts with
  | nil => rfl
  | cons t texts ih =>
    rw [reports, Submission.ofTexts_cons, List.filterMap_cons]
    cases hblank : Text.isBlank t with
    | true =>
      rw [rejection?, if_pos hblank]
      exact ih
    | false =>
      rw [if_neg Bool.false_ne_true, List.flatMap_cons, Journal.errors_append, errors_report hblank]
      show (rejection? t).toList ++ Journal.errors (reports texts) = _
      rw [ih]
      cases rejection? t <;> rfl

theorem errors_sizeWarning (t : Table) : Journal.errors (sizeWarning t) = [] := by
  rw [sizeWarning]
  split <;> rfl

theorem toldAll_append (a b : List Journal.Entry) : toldAll (a ++ b) = toldAll a ++ toldAll b :=
  List.map_append

/-! ### Judging a group of formulas -/

/-- The options do not bear on which table is made, only on how it is displayed. -/
theorem judge_eq (o : Options) (tree : FileTree) (texts : List Text) :
    o.judge tree texts =
      if Submission.ofTexts texts = [] then .refused .noFormulas
      else if texts.filterMap Sentence.read? = [] then
        (Outcome.failed 2 "No well-formed formulas to tabulate".toList).preceded
          (toldAll (reports texts))
      else
        let table := Table.ofBatch (texts.filterMap Sentence.read?)
        (o.tableOutcome tree (if texts.any isFaulty then 2 else 0) table).preceded
          (toldAll (reports texts) ++ toldAll table.generationEntries) := by
  have hexit : (if ((Submission.ofTexts texts).filter fun s => s.diagnostic.isSome).isEmpty then 0
      else 2) = if texts.any isFaulty then 2 else 0 := by
    rw [Submission.isEmpty_rejected_ofTexts]
    cases texts.any isFaulty <;> rfl
  have hofTexts : (texts.map Submission.ofText).filter (fun s => !s.isBlank) =
      Submission.ofTexts texts := rfl
  simp only [Options.judge, hofTexts, Submission.table?_ofTexts, hexit]
  simp only [List.isEmpty_iff]
  by_cases hnil : Submission.ofTexts texts = []
  · rw [if_pos hnil, if_pos hnil]
  · rw [if_neg hnil, if_neg hnil]
    by_cases hread : texts.filterMap Sentence.read? = []
    · rw [if_pos hread, if_pos hread]
      rfl
    · rw [if_neg hread, if_neg hread]
      rfl

theorem tableOutcome_ofDisplay {t : Table} {shown : Text} (tree : FileTree) (exit : Nat)
    (h : (Options.ofDisplay noQuasi compact).displayed t = .ok shown) :
    (Options.ofDisplay noQuasi compact).tableOutcome tree exit t =
      { exit := exit, output := toldAll (sizeWarning t) ++ [printedLine shown] } := by
  rw [Options.tableOutcome, h]
  show Outcome.preceded _ { exit := exit } = _
  rw [Outcome.preceded, List.append_nil]

/-! ### Running on a group of formulas -/

section Run

variable (tree : FileTree) (hbefore : TypedAll chosen₁ before) (hafter : TypedAll chosen₂ after)
  (hchosen : (chosen₁ ++ chosen₂).foldlM applySetting {} = .ok (.ofDisplay noQuasi compact))
  (htexts : ∀ t ∈ texts, t.head? ≠ some '-')

include hbefore hafter hchosen htexts

theorem run_group :
    run tree (before ++ texts ++ after) =
      (((Options.ofDisplay noQuasi compact).judge tree texts).preceded
        (toldAll (texts.flatMap Submission.entries)), .warning) := by
  rw [run, ofArguments_group hbefore htexts hafter, hchosen]
  show (Outcome.preceded (_ ++ []) (Options.judge _ tree (texts ++ [])), _) = _
  rw [List.append_nil, List.append_nil]
  rfl

/-- If a formula could be read, the table of those that could be is printed after all that is told
of them. -/
theorem run_of_readable {shown : Text} (hread : texts.filterMap Sentence.read? ≠ [])
    (hshown : (Options.ofDisplay noQuasi compact).displayed
      (Table.ofBatch (texts.filterMap Sentence.read?)) = .ok shown) :
    ∃ told, run tree (before ++ texts ++ after) =
        ({ exit := if texts.any isFaulty then 2 else 0,
           output := toldAll told ++ [printedLine shown] }, .warning) ∧
      Journal.errors told = texts.filterMap rejection? := by
  let table := Table.ofBatch (texts.filterMap Sentence.read?)
  refine ⟨texts.flatMap Submission.entries ++ (reports texts ++ table.generationEntries ++
    sizeWarning table), ?_, ?_⟩
  · have hsome : Submission.ofTexts texts ≠ [] := by
      intro hnil
      rw [← Submission.sentences_ofTexts, hnil] at hread
      exact hread rfl
    rw [run_group tree hbefore hafter hchosen htexts, judge_eq, if_neg hsome, if_neg hread]
    dsimp only
    rw [tableOutcome_ofDisplay tree _ hshown]
    simp only [Outcome.preceded, toldAll_append, List.append_assoc, table]
  · rw [Journal.errors_append, Journal.errors_append, Journal.errors_append,
      Submission.errors_entries, errors_reports, Table.errors_generationEntries,
      errors_sizeWarning, List.append_nil, List.append_nil, List.nil_append]

theorem run_of_unreadable (hblank : ∃ t ∈ texts, Text.isBlank t = false)
    (hread : texts.filterMap Sentence.read? = []) :
    ∃ told, run tree (before ++ texts ++ after) =
        ({ exit := 2, output := toldAll told }, .warning) ∧
      Journal.errors told = texts.filterMap rejection? ++
        [Journal.error "No well-formed formulas to tabulate".toList] := by
  refine ⟨texts.flatMap Submission.entries ++ (reports texts ++
    [Journal.error "No well-formed formulas to tabulate".toList]), ?_, ?_⟩
  · have hsome : Submission.ofTexts texts ≠ [] := by
      obtain ⟨t, ht, hsome⟩ := hblank
      intro hnil
      exact Bool.false_ne_true (hsome.symm.trans (Submission.ofTexts_eq_nil_iff.mp hnil t ht))
    rw [run_group tree hbefore hafter hchosen htexts, judge_eq, if_neg hsome, if_pos hread]
    simp only [Outcome.preceded, toldAll_append]
    rfl
  · rw [Journal.errors_append, Journal.errors_append, Submission.errors_entries, errors_reports]
    rfl

theorem run_of_isBlank (hblank : ∀ t ∈ texts, Text.isBlank t = true) :
    run tree (before ++ texts ++ after) = (.refused .noFormulas, .warning) := by
  have hentries : texts.flatMap Submission.entries = [] :=
    List.flatMap_eq_nil_iff.mpr fun t ht => if_pos (hblank t ht)
  rw [run_group tree hbefore hafter hchosen htexts, judge_eq,
    if_pos (Submission.ofTexts_eq_nil_iff.mpr hblank), hentries]
  rfl

end Run

/-- **Rejections are isolated.** A run on a group of formulas with any settings of the display
around it: if one of them can be read, what is told is followed by the table of those that can be,
in the format that was chosen, and so is what is told in the run on these alone; the exit code tells
whether one was faulty. If there are only faulty ones, nothing is printed. Every faulty one is
rejected once, in its turn. -/
theorem run_isolates_rejections (tree : FileTree) {chosen₁ chosen₂ : List Chosen}
    {before texts after : List Text} (hbefore : TypedAll chosen₁ before)
    (hafter : TypedAll chosen₂ after) (hdisplay : ∀ c ∈ chosen₁ ++ chosen₂, c ∈ displaySettings)
    (htexts : ∀ t ∈ texts, t.head? ≠ some '-') :
    ((∃ t ∈ texts, Sentence.isReadable t = true) →
      ∃ o table shown, (chosen₁ ++ chosen₂).foldlM applySetting {} = .ok o ∧
        Table.generate (texts.filterMap Sentence.read?) = .ok table ∧
        o.displayed table = .ok shown ∧
        (∃ told, run tree (before ++ texts ++ after) =
            ({ exit := if texts.any isFaulty then 2 else 0,
               output := toldAll told ++ [printedLine shown] }, .warning) ∧
          Journal.errors told = texts.filterMap rejection?) ∧
        ∃ told, run tree (before ++ texts.filter Sentence.isReadable ++ after) =
            ({ exit := 0, output := toldAll told ++ [printedLine shown] }, .warning) ∧
          Journal.errors told = []) ∧
    ((∃ t ∈ texts, Text.isBlank t = false) → (∀ t ∈ texts, Sentence.isReadable t = false) →
      ∃ told, run tree (before ++ texts ++ after) =
          ({ exit := 2, output := toldAll told }, .warning) ∧
        Journal.errors told = texts.filterMap rejection? ++
          [Journal.error "No well-formed formulas to tabulate".toList]) ∧
    ((∀ t ∈ texts, Text.isBlank t = true) →
      run tree (before ++ texts ++ after) =
        ({ exit := 2, usageError := some .noFormulas }, .warning)) := by
  obtain ⟨noQuasi, compact, hchosen⟩ := foldlM_ofDisplay hdisplay false false
  refine ⟨fun hsome => ?_, fun hblank hnone => ?_, fun hblank => ?_⟩
  · have hread : texts.filterMap Sentence.read? ≠ [] := by
      obtain ⟨t, ht, hsome⟩ := hsome
      intro hnil
      exact Bool.false_ne_true ((Sentence.filterMap_read?_eq_nil_iff.mp hnil t ht).symm.trans hsome)
    obtain ⟨shown, hshown⟩ := displayed_ofBatch (.ofDisplay noQuasi compact)
      (texts.filterMap Sentence.read?)
    have hsame := Sentence.filterMap_read?_filter texts
    refine ⟨.ofDisplay noQuasi compact, _, shown, hchosen, Table.generate_eq_ofBatch _, hshown,
      run_of_readable tree hbefore hafter hchosen htexts hread hshown, ?_⟩
    rw [← hsame] at hread hshown
    obtain ⟨told, hrun, herrors⟩ := run_of_readable tree hbefore hafter hchosen
      (fun t ht => htexts t (List.mem_filter.mp ht).1) hread hshown
    refine ⟨told, ?_, ?_⟩
    · rw [hrun, Submission.any_isFaulty_filter]
      rfl
    · rw [herrors, Submission.filterMap_rejection?_filter]
  · exact run_of_unreadable tree hbefore hafter hchosen htexts hblank
      (Sentence.filterMap_read?_eq_nil_iff.mpr hnone)
  · exact run_of_isBlank tree hbefore hafter hchosen htexts hblank

/-- Formulas with a blank text and two faulty ones among them. -/
def mixedTexts : List Text :=
  ["A v B".toList, "A &".toList, [' '], "(A)".toList, "~A".toList]

/-- The two faulty texts are rejected, and the table is that of the two formulas. -/
theorem mixed_texts_isolated :
    ∃ shown,
      (∃ told, run .empty (["--no-q".toList] ++ mixedTexts ++ ["--format=compact".toList]) =
          ({ exit := 2, output := toldAll told ++ [printedLine shown] }, .warning) ∧
        Journal.errors told =
          [Journal.error "❌ A &: Syntax error (not a wff): unexpected end of formula".toList,
            Journal.error ("❌ (A): Syntax error (not a wff): Parentheses only allowed around " ++
              "binary connectives").toList]) ∧
      ∃ told, run .empty ["--no-q".toList, "A v B".toList, "~A".toList, "--format=compact".toList] =
          ({ exit := 0, output := toldAll told ++ [printedLine shown] }, .warning) ∧
        Journal.errors told = [] := by
  have hquasi : Typed (.noQuasi, none) ["--no-q".toList] :=
    .flag (.inr ⟨"--no-quasi".toList, by decide, by decide, by decide, by decide⟩) rfl
  have hformat : Typed (.format, some "compact".toList) ["--format=compact".toList] :=
    @Typed.attached .format "--format".toList "compact".toList (.inl (by decide)) (by decide) rfl
  have htexts : ∀ t ∈ mixedTexts, t.head? ≠ some '-' := by decide
  have hread : mixedTexts.filter Sentence.isReadable = ["A v B".toList, "~A".toList] := by
    decide +kernel
  have hrejected : mixedTexts.filterMap rejection? =
      [Journal.error "❌ A &: Syntax error (not a wff): unexpected end of formula".toList,
        Journal.error ("❌ (A): Syntax error (not a wff): Parentheses only allowed around " ++
          "binary connectives").toList] := by
    decide +kernel
  obtain ⟨_, _, shown, -, -, -, hrun, halone⟩ :=
    (run_isolates_rejections .empty (.cons hquasi .nil) (.cons hformat .nil) (by decide)
      htexts).1 (by decide +kernel)
  rw [hrejected] at hrun
  rw [hread] at halone
  exact ⟨shown, hrun, halone⟩

end Propositional.Command
