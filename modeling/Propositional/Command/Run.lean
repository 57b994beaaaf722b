import Propositional.Command.Arguments
import Propositional.Diagram
import Propositional.FileTree
import Propositional.Submission
import Propositional.Table.PlainText
import Propositional.Text.Utf8

/-! What the command does. It judges the formulas it is given and those of a batch file, one to a
line, reports on each, and prints the table of all that could be read; a rejected formula changes
nothing but the report and the exit code. On request it prints the tables that define the
connectives instead, or leaves a diagram of every formula in a directory. -/
namespace Propositional.Command

/-! ### Output -/

/-- A piece of output: text that is printed, or an entry of the journal. -/
inductive Output where
  | printed (t : Text)
  | told (e : Journal.Entry)

def Output.written (threshold : Severity) : Output → Text
  | printed t => t
  | told e => e.written threshold

/-- Text that is printed with a line feed behind it. -/
def printedLine (t : Text) : Output := .printed (t ++ ['\n'])

def toldAll (entries : List Journal.Entry) : List Output := entries.map .told

/-- How a run ended. -/
structure Outcome where
  exit : Nat
  output : List Output := []
  usageError : Option UsageError := none
  /-- The files that were written: their names, and their text. -/
  files : List (List Text × Text) := []

/-- Puts output in front of an outcome. -/
def Outcome.preceded (before : List Output) (o : Outcome) : Outcome :=
  { o with output := before ++ o.output }

/-- The outcome of refusing to start. -/
def Outcome.refused (e : UsageError) : Outcome := { exit := 2, usageError := some e }

def Outcome.failed (exit : Nat) (message : Text) : Outcome :=
  { exit := exit, output := [.told (Journal.error message)] }

/-- The outcome of a failure in the midst of the work. -/
def Outcome.unexpected (message : Text) : Outcome :=
  .failed 5 ("Unexpected error: ".toList ++ message)

/-- The outcome of a batch file that cannot be used. -/
def Outcome.unusableBatch (message : Text) : Outcome :=
  .failed 3 ("Batch file error: ".toList ++ message)

/-! ### The tables of the connectives -/

def definitionOutput (d : Text × Table) : Except Table.DisplayError (List Output) := do
  let shown ← d.2.display false d.2.layouts
  return [printedLine d.1, printedLine shown, printedLine []]

def definitionsOutcome : Outcome :=
  let tables := Table.definitionTables
  let told := toldAll (tables.flatMap fun d => d.2.generationEntries)
  match tables.mapM definitionOutput with
  | .ok outputs => { exit := 0, output := told ++ outputs.flatten }
  | .error e => (Outcome.unexpected e.message).preceded told

/-! ### Collecting formulas -/

/-- The text of a batch file. However its lines end, they are read as ended by line feeds. -/
def batchText (tree : FileTree) (path : Text) : Except Text Text :=
  let shown := Path.normalized path
  match tree.read shown with
  | .ok bytes => ((Utf8.decode bytes).map Text.withLineFeeds).mapError Utf8.Error.message
  | .error (.missing _) => .error ("Batch file not found: ".toList ++ shown)
  | .error .nullCharacter => .error FileError.nullCharacter.message
  | .error e => .error ("Error reading batch file: ".toList ++ e.message)

/-- What comes of a batch file that was given without a name. -/
def namelessMessage : Text :=
  "expected str, bytes or os.PathLike object, not list".toList

/-- The text of the batch file, if one was asked for, or the outcome of not having it. -/
def batchOrOutcome (tree : FileTree) : Option BatchFile → Except Outcome (Option Text)
  | none => .ok none
  | some (.named path) =>
    ((batchText tree path).map some).mapError Outcome.unusableBatch
  | some .nameless => .error (.unexpected namelessMessage)

/-- The texts to be judged, of the arguments and of the batch file. -/
def Options.texts (o : Options) (batch : Option Text) : List Text :=
  o.formulas ++ (batch.map Submission.batchTexts).getD []

/-- What is told of a judged formula. -/
def report (s : Submission) : List Journal.Entry :=
  match s.diagnostic with
  | some reason => [Journal.rejected s.text reason]
  | none =>
    let rendered := (s.parsed.map Sentence.spaced).getD "None".toList
    Journal.accepted s.text rendered ::
      (s.warning.map (Journal.remarked s.text)).toList

/-! ### Printing the table -/

/-- The number of letters above which the size of the table is worth a warning. -/
def manyLetters : Nat := 10

def sizeWarning (t : Table) : List Journal.Entry :=
  if t.letters.length > manyLetters then
    [Journal.warning ("⚠️  ".toList ++ Text.ofNat t.letters.length ++
      " letters: the table has ".toList ++ Text.ofNat t.rows.length ++ " rows".toList)]
  else []

/-- The table in the format that was asked for. -/
def Options.displayed (o : Options) (t : Table) : Except Table.DisplayError Text :=
  if o.compact then t.compactLines.map Text.joinLines else t.display (!o.noQuasi) t.layouts

/-! ### Leaving diagrams -/

/-- Why no picture is drawn of a diagram: the drawing program is not there to be run. -/
def drawingFailure : Text :=
  ("failed to execute PosixPath(\x27dot\x27), make sure the Graphviz executables are on your " ++
    "systems\x27 PATH").toList

/-- Writes the text of a diagram at a path, with the directories that are missing. -/
def saveDiagram (tree : FileTree) (directory path text : Text) :
    Except FileError (FileTree × List Text) := do
  let directory :=
    (directory.reverse.dropWhile (· = '/')).reverse
  let tree ← if directory.isEmpty then pure tree else tree.ensureDirectories directory
  tree.write path (Utf8.encode text)

/-- The warning that a picture could not be drawn. -/
def pictureWarning (path reason : Text) : Journal.Entry :=
  Journal.warning ("Failed to render dependency graph to ".toList ++ path ++ ".png: ".toList ++
    reason ++ ". Ensure Graphviz executables (dot) are in your system\x27s PATH.".toList)

/-- Makes the directory of the diagrams, unless it is there. -/
def openDirectory (tree : FileTree) (directory : Text) :
    Except FileError (FileTree × List Output) :=
  if tree.isThere directory then .ok (tree, [])
  else
    let told := Journal.info ("Created directory for dependency graphs: ".toList ++ directory)
    (tree.makeDirectories directory).map fun tree => (tree, [.told told])

/-- The outcome of a directory that cannot be made. -/
def directoryOutcome : FileError → Outcome
  | .missing path => .unusableBatch (FileError.missing path).message
  | .nullCharacter => .unusableBatch FileError.nullCharacter.message
  | e => .unexpected e.message

/-- Leaves the diagrams of layouts in a directory, the number of the first one given. -/
def leaveDiagrams (directory : Text) (done : Outcome) (number : Nat) (tree : FileTree) :
    List Layout → Outcome
  | [] => done
  | l :: rest =>
    match openDirectory tree directory, Diagram.ofLayout l with
    | .error e, _ => directoryOutcome e
    | _, .error e => .unexpected e.message
    | .ok (tree, told), .ok diagram =>
      let path := Path.join directory ("formula_".toList ++ Text.ofNat number)
      let text := diagram.render
      match saveDiagram tree directory path text with
      | .ok (tree, names) =>
        let later := leaveDiagrams directory done (number + 1) tree rest
        { later with
          output := told ++ .told (pictureWarning path drawingFailure) :: later.output
          files := (names, text) :: later.files }
      | .error e =>
        (leaveDiagrams directory done (number + 1) tree rest).preceded
          (told ++ [.told (pictureWarning path e.message)])

/-! ### The whole run -/

/-- Prints a table, and leaves diagrams if they were asked for. -/
def Options.tableOutcome (o : Options) (tree : FileTree) (exit : Nat) (t : Table) : Outcome :=
  let done : Outcome := { exit := exit }
  match o.displayed t with
  | .error e => (Outcome.unexpected e.message).preceded (toldAll (sizeWarning t))
  | .ok shown =>
    let after :=
      match o.visualize with
      | some (c :: rest) => leaveDiagrams (c :: rest) done 1 tree t.layouts
      | _ => done
    after.preceded (toldAll (sizeWarning t) ++ [printedLine shown])

/-- Judges texts, reports on them, and prints the table of those that could be read. -/
def Options.judge (o : Options) (tree : FileTree) (texts : List Text) : Outcome :=
  let submissions := (texts.map Submission.ofText).filter fun s => !s.isBlank
  if submissions.isEmpty then .refused .noFormulas
  else
    let rejected := submissions.filter fun s => s.diagnostic.isSome
    let reports := toldAll (submissions.flatMap report)
    match Submission.table? submissions with
    | none => (Outcome.failed 2 "No well-formed formulas to tabulate".toList).preceded reports
    | some t =>
      (o.tableOutcome tree (if rejected.isEmpty then 0 else 2) t).preceded
        (reports ++ toldAll t.generationEntries)

/-- Does what the options ask for, in a tree of files. -/
def Options.execute (o : Options) (tree : FileTree) : Outcome :=
  if o.connectives then definitionsOutcome
  else
    let first := toldAll (o.formulas.flatMap Submission.entries)
    match batchOrOutcome tree o.input with
    | .error outcome => outcome.preceded first
    | .ok batch =>
      let second := toldAll ((batch.map Submission.batchEntries).getD [])
      (o.judge tree (o.texts batch)).preceded (first ++ second)

/-- What is printed on request instead of doing anything. -/
def helpText : Text :=
  ("usage: tabula [-h] [-i INPUT] [--no-quasi] [--format table|compact] [--connectives]\n" ++
    "              [--visualize DIR] [-v] [--debug] [formulas ...]\n").toList

/-- Runs the command on its arguments: the outcome, and the lowest severity that is written. -/
def run (tree : FileTree) (arguments : List Text) : Outcome × Severity :=
  match Options.ofArguments arguments with
  | .error .help => ({ exit := 0, output := [.printed helpText] }, .warning)
  | .error (.usage e) => (.refused e, .warning)
  | .ok o => (o.execute tree, .ofFlags o.verbose o.debug)

/-- All the text of an outcome. -/
def Outcome.text (o : Outcome) (threshold : Severity) : Text :=
  o.output.flatMap (Output.written threshold)

end Propositional.Command
