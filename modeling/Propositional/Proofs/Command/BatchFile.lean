import Propositional.Command.Run
import Propositional.Proofs.Command.Settings
import Propositional.Proofs.Submission.Batch
import Propositional.Proofs.Submission.Judging
import Propositional.Proofs.Text.Utf8

/-! Formulas in a batch file.

The setting that names a batch file does not bear on the other settings, wherever it stands among
them (`foldlM_input`). A file that holds texts one to a line is read, with line feeds for its line
ends, as the texts that are not blank (`batchOrOutcome_of_file`, `batchTexts_withLineFeeds`,
`batchTexts_of_lined`), and blank texts bear neither on what is told (`flatMap_entries_filter`) nor
on what comes of the others (`ofTexts_filter`). So formulas may be moved from the arguments into
a batch file, all of them or the last ones, and nothing about the run changes: `run_batch_file`. -/
namespace Propositional.Command
open Submission (Lined batchTexts_of_lined)

/-! ### The setting of the batch file -/

/-- The same options with a batch file, or without one. -/
def Options.withInput (file : Option BatchFile) (o : Options) : Options := { o with input := file }

section Settings

variable {chosen before after : List Chosen}

/-- No other setting asks whether there is a batch file. -/
theorem applySetting_withInput {c : Chosen} (h : c.1 ≠ .input) (file : Option BatchFile)
    (o : Options) :
    applySetting (o.withInput file) c = (applySetting o c).map (Options.withInput file) := by
  obtain ⟨s, value⟩ := c
  cases s
  case input => exact absurd rfl h
  case format =>
    cases value with
    | none => rfl
    | some value =>
      simp only [applySetting]
      split
      · rfl
      · split <;> rfl
  all_goals cases value <;> rfl

theorem foldlM_withInput (h : ∀ c ∈ chosen, c.1 ≠ .input) (file : Option BatchFile) (o : Options) :
    chosen.foldlM applySetting (o.withInput file) =
      (chosen.foldlM applySetting o).map (Options.withInput file) :=
  foldlM_commutes (fun c hc o => applySetting_withInput (h c hc) file o) o

/-- The other settings name no batch file. -/
theorem input_of_foldlM (h : ∀ c ∈ chosen, c.1 ≠ .input) {o : Options}
    (hchosen : chosen.foldlM applySetting {} = .ok o) : o.input = none := by
  have hsame := foldlM_withInput h none {}
  show o.input = (o.withInput none).input
  rw [show Options.withInput none {} = {} from rfl, hchosen] at hsame
  exact congrArg Options.input (Except.ok.inj hsame)

/-- The setting of the batch file may stand anywhere among the others. -/
theorem foldlM_input (h : ∀ c ∈ after, c.1 ≠ .input) (path : Text) (o : Options) :
    (before ++ (.input, some path) :: after).foldlM applySetting o =
      ((before ++ after).foldlM applySetting o).map (Options.withInput (some (.named path))) := by
  rw [List.foldlM_append, List.foldlM_append]
  cases before.foldlM applySetting o with
  | error e => rfl
  | ok o => exact foldlM_withInput h (some (.named path)) o

end Settings

/-! ### Reading the file -/

/-- What comes of texts is settled by judging each of them. -/
theorem judge_congr {a b : List Text} (h : Submission.ofTexts a = Submission.ofTexts b)
    (o : Options) (tree : FileTree) : o.judge tree a = o.judge tree b := by
  have hsame : (a.map Submission.ofText).filter (fun s => !s.isBlank) =
    (b.map Submission.ofText).filter fun s => !s.isBlank := h
  simp only [Options.judge, hsame]

variable {tree : FileTree} {path content : Text} {texts group : List Text} {o : Options}

theorem batchOrOutcome_of_file
    (hfile : tree.read (Path.normalized path) = .ok (Utf8.encode content)) :
    batchOrOutcome tree (some (.named path)) = .ok (some (Text.withLineFeeds content)) := by
  simp only [batchOrOutcome, batchText, hfile, Utf8.decode_encode]
  rfl

/-- Texts in a batch file come to the same as these texts behind the formulas of the arguments. -/
theorem execute_withInput (hnone : o.input = none)
    (hfile : tree.read (Path.normalized path) = .ok (Utf8.encode content))
    (hlined : Lined texts content) (hbreak : ∀ t ∈ texts, ∀ c ∈ t, Text.isLineBreak c = false) :
    ({ o with formulas := group ++ texts } : Options).execute tree =
      ({ o.withInput (some (.named path)) with formulas := group } : Options).execute tree := by
  have hbatch := batchTexts_of_lined hlined hbreak
  rw [← Submission.batchTexts_withLineFeeds] at hbatch
  have hentries : Submission.batchEntries (Text.withLineFeeds content) =
      texts.flatMap Submission.entries := by
    rw [Submission.batchEntries, hbatch, Submission.flatMap_entries_filter]
  have hjudge : o.judge tree (group ++ Submission.batchTexts (Text.withLineFeeds content)) =
      o.judge tree (group ++ texts) := by
    refine judge_congr ?_ o tree
    rw [Submission.ofTexts_append, Submission.ofTexts_append, hbatch, Submission.ofTexts_filter]
  simp only [Options.execute, Options.withInput, hnone, batchOrOutcome_of_file hfile]
  split
  · rfl
  · show Outcome.preceded (toldAll ((group ++ texts).flatMap Submission.entries) ++ [])
        (o.judge tree (group ++ texts ++ [])) =
      Outcome.preceded (toldAll (group.flatMap Submission.entries) ++
          toldAll (Submission.batchEntries (Text.withLineFeeds content)))
        (o.judge tree (group ++ Submission.batchTexts (Text.withLineFeeds content)))
    rw [hjudge, hentries, List.append_nil, List.append_nil, List.flatMap_append, toldAll, toldAll,
      toldAll, List.map_append]

/-- **A batch file is as good as arguments.** Two runs with the same settings, but for the batch
file that the second one names among them: if the file holds texts one to a line, and the first run
has these texts as arguments, behind the group of formulas that both have, then the runs come to the
same, in all that is printed and told, in the exit code and in the files that are written. -/
theorem run_batch_file (tree : FileTree) {chosen₁ chosen₂ chosen₁' chosen₂' xs ys : List Chosen}
    {before after before' after' group texts : List Text} {path content : Text}
    (hbefore : TypedAll chosen₁ before) (hafter : TypedAll chosen₂ after)
    (hbefore' : TypedAll chosen₁' before') (hafter' : TypedAll chosen₂' after')
    (hinput : chosen₁' ++ chosen₂' = xs ++ (.input, some path) :: ys)
    (hothers : ∀ c ∈ xs ++ ys, c.1 ≠ .input)
    (hsame : (chosen₁ ++ chosen₂).foldlM applySetting {} = (xs ++ ys).foldlM applySetting {})
    (htexts : ∀ t ∈ group ++ texts, t.head? ≠ some '-')
    (hbreak : ∀ t ∈ texts, ∀ c ∈ t, Text.isLineBreak c = false)
    (hfile : tree.read (Path.normalized path) = .ok (Utf8.encode content))
    (hlined : Lined texts content) :
    run tree (before ++ (group ++ texts) ++ after) = run tree (before' ++ group ++ after') := by
  have hgroup : ∀ t ∈ group, t.head? ≠ some '-' :=
    fun t ht => htexts t (List.mem_append_left texts ht)
  rw [run, run, ofArguments_group hbefore htexts hafter, ofArguments_group hbefore' hgroup hafter',
    hinput, foldlM_input (fun c hc => hothers c (List.mem_append_right xs hc)), hsame]
  cases hchosen : (xs ++ ys).foldlM applySetting {} with
  | error e => rfl
  | ok o =>
    exact congrArg (·, Severity.ofFlags o.verbose o.debug)
      (execute_withInput (input_of_foldlM hothers hchosen) hfile hlined hbreak)

/-- Four lines that end in different ways. -/
def batchContent : Text := "A &\r\n[A v (B → C)]\n \x0b~~B".toList

def batchLines : List Text := ["A &".toList, "[A v (B → C)]".toList, [' '], "~~B".toList]

theorem lined_batchLines : Lined batchLines batchContent :=
  .ended .pair (.ended (.single (c := '\n') rfl) (.ended (.single (c := '\x0b') rfl) (.last _)))

/-- The four lines may follow a formula among the arguments or stand in a file. -/
theorem batch_lines_as_arguments :
    let tree := FileTree.empty.add "batch".toList (Utf8.encode batchContent)
    run tree (["--no-q".toList] ++ (["A + B".toList] ++ batchLines) ++ ["--debug".toList]) =
      run tree (["-i".toList, "./batch".toList] ++ ["A + B".toList] ++
        ["--debug".toList, "--no-quasi".toList]) := by
  intro tree
  have hquasi : Typed (.noQuasi, none) ["--no-q".toList] :=
    .flag (.inr ⟨"--no-quasi".toList, by decide, by decide, by decide, by decide⟩) rfl
  have hquasi' : Typed (.noQuasi, none) ["--no-quasi".toList] := .flag (.inl (by decide)) rfl
  have hdebug : Typed (.debug, none) ["--debug".toList] := .flag (.inl (by decide)) rfl
  have hinput : Typed (.input, some "./batch".toList) ["-i".toList, "./batch".toList] :=
    .apart (.inl (by decide)) rfl (by decide)
  have hsettings : [(.input, some "./batch".toList)] ++ [(.debug, none), (.noQuasi, none)] =
      [] ++ (Setting.input, some "./batch".toList) :: [(.debug, none), (.noQuasi, none)] := rfl
  have hfile : tree.read (Path.normalized "./batch".toList) = .ok (Utf8.encode batchContent) := by
    decide +kernel
  have hbreak : ∀ t ∈ batchLines, ∀ c ∈ t, Text.isLineBreak c = false := by
    have hall : batchLines.all (fun t => t.all fun c => !Text.isLineBreak c) = true := by decide
    simpa using hall
  exact run_batch_file tree (.cons hquasi .nil) (.cons hdebug .nil) (.cons hinput .nil)
    (.cons hdebug (.cons hquasi' .nil)) hsettings (by decide) rfl (by decide) hbreak hfile
    lined_batchLines

end Propositional.Command
