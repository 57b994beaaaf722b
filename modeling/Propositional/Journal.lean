import Propositional.Bindings
import Propositional.Text.Blank

/-! The journal: what is told about the work while it goes on. An entry has a level, and a reader
chooses the lowest level that is written. Entries of the level of information and above are
written as they are; lower ones carry the name of their level in front. -/
namespace Propositional

/-- The named levels. -/
inductive Severity where
  | debug
  | info
  | warning
  | error
deriving DecidableEq

namespace Severity

def level : Severity → Int
  | debug => 10
  | info => 20
  | warning => 30
  | error => 40

/-- The severity that the command line asks for: the first that applies of debug and verbose. -/
def ofFlags (verbose debug : Bool) : Severity :=
  if debug then .debug else if verbose then .info else .warning

end Severity

namespace Journal

/-- A message and its level. -/
structure Entry where
  level : Int
  message : Text
deriving DecidableEq

namespace Entry

/-- The line that is written for an entry. -/
def line (e : Entry) : Text :=
  let mark :=
    if Severity.info.level ≤ e.level then []
    else if e.level = Severity.debug.level then "[DEBUG] ".toList
    else "[Level ".toList ++ Text.ofInt e.level ++ "] ".toList
  mark ++ e.message ++ ['\n']

/-- What a reader who starts at a severity sees of an entry. -/
def written (threshold : Severity) (e : Entry) : Text :=
  if threshold.level ≤ e.level then e.line else []

end Entry

def debug (message : Text) : Entry := ⟨Severity.debug.level, message⟩

def info (message : Text) : Entry := ⟨Severity.info.level, message⟩

def warning (message : Text) : Entry := ⟨Severity.warning.level, message⟩

def error (message : Text) : Entry := ⟨Severity.error.level, message⟩

/-- All that a reader sees of a journal. -/
def written (threshold : Severity) (entries : List Entry) : Text :=
  entries.flatMap (Entry.written threshold)

/-! ### Formulas -/

/-- A formula was accepted and is shown the way it was understood. -/
def accepted (text rendered : Text) : Entry :=
  info ("✅ ".toList ++ Text.trim text ++ "  ⟹  ".toList ++ rendered)

def rejected (text reason : Text) : Entry :=
  error ("❌ ".toList ++ Text.trim text ++ ": ".toList ++ reason)

/-- A formula was accepted with a remark. -/
def remarked (text remark : Text) : Entry :=
  warning ("⚠️  ".toList ++ Text.trim text ++ ": ".toList ++ remark)

/-! ### Truth tables -/

def tableBegun (letters : List Text) (formulas rows : Int) : Entry :=
  let shown := if letters.isEmpty then "none".toList else Text.joinWith [',', ' '] letters
  debug ("Truth table: ".toList ++ Text.ofInt formulas ++ " formula(s), letters [".toList ++
    shown ++ "], ".toList ++ Text.ofInt rows ++ " row(s)".toList)

/-- The number of a row, its bits, and the values of the formulas. -/
def rowDone (state : Int) (bits : Text) (values : List Bool) : Entry :=
  let shownBits := if bits.isEmpty then ['-'] else bits
  debug ("    row ".toList ++ Text.ofInt state ++ " [".toList ++ shownBits ++ "] → ".toList ++
    Text.joinWith [' '] (values.map fun v => if v then ['T'] else ['F']))

/-! ### Quizzes -/

/-- Something happened in a quiz; the details are names with values. -/
def quizMoved (action : Text) (details : Bindings Text Text) : Entry :=
  let shown := Text.joinWith [',', ' '] (details.toList.map fun d => d.1 ++ '=' :: d.2)
  debug ("🧩 quiz ".toList ++ action ++ if shown.isEmpty then [] else ':' :: ' ' :: shown)

end Journal

end Propositional
