import Propositional.Text.Digit
import Propositional.Text.Quoted

/-! The arguments of the command. An argument that starts with a dash speaks of settings, unless
it is a single dash, looks like a negative number, or holds a space; behind a double dash no
argument does. A setting is named by a dash and one character or by two dashes and a word, of which
any beginning will do that fits no other setting. A value follows in the next argument, behind
an equals sign or, where one character is the name, right behind it; a double dash in these two
places stands for no value. Flags of one character may share a dash. The formulas are the first
group of neighbouring arguments that belong to no setting; whatever else is left over is an
error. -/
namespace Propositional.Command

inductive Setting where
  | help
  | input
  | noQuasi
  | format
  | connectives
  | visualize
  | verbose
  | debug
deriving DecidableEq

namespace Setting

/-- Whether a value belongs to a setting; the others are flags. -/
def takesValue : Setting → Bool
  | input | format | visualize => true
  | _ => false

/-- The names of the settings. -/
def names : List (Text × Setting) :=
  [("-h".toList, help), ("--help".toList, help), ("-i".toList, input), ("--input".toList, input),
    ("--no-quasi".toList, noQuasi), ("--format".toList, format),
    ("--connectives".toList, connectives), ("--visualize".toList, visualize),
    ("-v".toList, verbose), ("--verbose".toList, verbose), ("--debug".toList, debug)]

def named? (name : Text) : Option Setting := (names.find? fun n => n.1 == name).map Prod.snd

/-- All names of a setting. -/
def shown (s : Setting) : Text :=
  Text.joinWith ['/'] ((names.filter fun n => n.2 == s).map Prod.fst)

end Setting

/-- Why arguments are refused. -/
inductive UsageError where
  | ambiguous (argument : Text) (names : List Text)
  | valueExpected (s : Setting)
  | valueIgnored (s : Setting) (value : Text)
  | invalidFormat (value : Text)
  | unrecognized (arguments : List Text)
  | noFormulas
deriving DecidableEq

namespace UsageError

def ofSetting (s : Setting) (remark : Text) : Text :=
  "argument ".toList ++ s.shown ++ ':' :: ' ' :: remark

def description : UsageError → Text
  | ambiguous argument names =>
    "ambiguous option: ".toList ++ argument ++ " could match ".toList ++
      Text.joinWith [',', ' '] names
  | valueExpected s => ofSetting s "expected one argument".toList
  | valueIgnored s value =>
    ofSetting s ("ignored explicit argument ".toList ++ Text.quoted value)
  | invalidFormat value =>
    ofSetting .format ("invalid choice: ".toList ++ Text.quoted value ++
      " (choose from \x27table\x27, \x27compact\x27)".toList)
  | unrecognized arguments => "unrecognized arguments: ".toList ++ Text.joinWith [' '] arguments
  | noFormulas => "no formulas given".toList

def message (e : UsageError) : Text := "tabula: error: ".toList ++ e.description

end UsageError

/-! ### Settings within one argument -/

/-- A setting with its value, if it has one. -/
abbrev Chosen := Setting × Option Text

/-- The settings of one argument with their values, and a setting whose value is still to come. -/
structure Named where
  settings : List Chosen
  waiting : Option Setting

/-- A setting without anything behind its name. -/
def Named.single (s : Setting) : Named :=
  if s.takesValue then ⟨[], some s⟩ else ⟨[(s, none)], none⟩

def Named.after (s : Setting) (n : Named) : Named := { n with settings := (s, none) :: n.settings }

/-- A setting with a value in the same argument. -/
def Named.withValue (s : Setting) (value : Text) : Named :=
  ⟨[(s, if value = ['-', '-'] then none else some value)], none⟩

/-- A setting named by one character, with what stands behind it: its value or further flags. -/
def namedByCharacter (s : Setting) : Text → Except UsageError Named
  | [] => .ok (.single s)
  | c :: rest =>
    if s.takesValue then .ok (.withValue s (c :: rest))
    else match Setting.named? ['-', c] with
      | some next => (Named.after s) <$> namedByCharacter next rest
      | none => .error (.valueIgnored s (c :: rest))

/-- A setting with the value behind an equals sign, if there is one. -/
def namedByWord (s : Setting) : Option Text → Except UsageError Named
  | none => .ok (.single s)
  | some value =>
    if s.takesValue then .ok (.withValue s value) else .error (.valueIgnored s value)

/-- A setting named right behind the dash. An equals sign behind its name is left out; if it is the
last character, the value is empty. -/
def namedByFirst (s : Setting) : Text → Except UsageError Named
  | ['='] => namedByWord s (some [])
  | '=' :: behind => namedByCharacter s behind
  | behind => namedByCharacter s behind

/-! ### Single arguments -/

/-- What an argument is. Settings that are named in a wrong way are an error only when it is their
turn to be put to use. -/
inductive Argument where
  | plain (t : Text)
  | doubleDash
  | naming (settings : Except UsageError Named)
  | unknown (t : Text)

/-- A dash and digits, with at most one point that has a digit behind it; a line feed may follow. -/
def isNegativeNumber : Text → Bool
  | '-' :: rest =>
    let t := if rest.getLast? = some '\n' then rest.dropLast else rest
    match Text.cutAt '.' t with
    | (whole, none) => !whole.isEmpty && whole.all Text.isDigitChar
    | (whole, some fraction) =>
      !fraction.isEmpty && whole.all Text.isDigitChar && fraction.all Text.isDigitChar
  | _ => false

/-- An argument with a dash that names no setting. -/
def unnamed (t : Text) : Argument :=
  if isNegativeNumber t || t.contains ' ' then .plain t else .unknown t

/-- An argument with two dashes. A word that is no name stands for the one name it begins. -/
def classifyWord (t : Text) : Except UsageError Argument :=
  let (word, value) := Text.cutAt '=' t
  match Setting.named? word with
  | some s => .ok (.naming (namedByWord s value))
  | none =>
    match Setting.names.filter fun n => word.isPrefixOf n.1 with
    | [] => .ok (unnamed t)
    | [n] => .ok (.naming (namedByWord n.2 value))
    | several => .error (.ambiguous t (several.map Prod.fst))

/-- What an argument is, if no double dash stands before it. -/
def classify (t : Text) : Except UsageError Argument :=
  match t with
  | '-' :: '-' :: _ => classifyWord t
  | '-' :: c :: behind =>
    match Setting.named? ['-', c] with
    | some s => .ok (.naming (namedByFirst s behind))
    | none => .ok (unnamed t)
  | _ => .ok (.plain t)

def classifyAll : List Text → Except UsageError (List Argument)
  | [] => .ok []
  | t :: rest =>
    if t = ['-', '-'] then .ok (.doubleDash :: rest.map .plain)
    else do
      let first ← classify t
      let others ← classifyAll rest
      return first :: others

/-! ### All arguments -/

/-- Where further formulas are read from. -/
inductive BatchFile where
  | named (path : Text)
  | nameless
deriving DecidableEq

/-- What the command is asked to do. -/
structure Options where
  formulas : List Text := []
  input : Option BatchFile := none
  noQuasi : Bool := false
  compact : Bool := false
  connectives : Bool := false
  visualize : Option Text := none
  verbose : Bool := false
  debug : Bool := false
deriving DecidableEq

/-- What ends the reading of arguments early. -/
inductive Stop where
  | help
  | usage (e : UsageError)
deriving DecidableEq

/-- How far the group of formulas has got. -/
inductive Group where
  | ahead
  | running
  | over
deriving DecidableEq

structure Gathered where
  options : Options
  group : Group
  leftOver : List Text

namespace Gathered

def start : Gathered := ⟨{}, .ahead, []⟩

/-- A setting ends the group of formulas, if it has begun. -/
def endGroup (g : Gathered) : Gathered :=
  if g.group = .running then { g with group := .over } else g

def leave (t : List Text) (g : Gathered) : Gathered := { g with leftOver := g.leftOver ++ t }

def addPlain (t : Text) (g : Gathered) : Gathered :=
  if g.group = .over then g.leave [t]
  else { g with
    options := { g.options with formulas := g.options.formulas ++ [t] }, group := .running }

def addDoubleDash (g : Gathered) : Gathered :=
  if g.group = .over then g.leave [['-', '-']] else { g with group := .running }

end Gathered

/-- The effect of a setting with its value. -/
def applySetting (o : Options) : Chosen → Except Stop Options
  | (.help, _) => .error .help
  | (.input, some path) => .ok { o with input := some (.named path) }
  | (.input, none) => .ok { o with input := some .nameless }
  | (.noQuasi, _) => .ok { o with noQuasi := true }
  | (.format, none) => .ok { o with compact := false }
  | (.format, some value) =>
    if value = "table".toList then .ok { o with compact := false }
    else if value = "compact".toList then .ok { o with compact := true }
    else .error (.usage (.invalidFormat value))
  | (.connectives, _) => .ok { o with connectives := true }
  | (.visualize, directory) => .ok { o with visualize := directory }
  | (.verbose, _) => .ok { o with verbose := true }
  | (.debug, _) => .ok { o with debug := true }

def Gathered.apply (g : Gathered) (settings : List Chosen) : Except Stop Gathered :=
  (settings.foldlM applySetting g.options).map fun o => { g with options := o }

/-- Gathers the arguments from the left. A setting that waits for its value takes it from the next
argument, which has to be a plain one. -/
def gather : List Argument → Gathered → Except Stop Gathered
  | [], g => .ok g
  | .plain t :: rest, g => gather rest (g.addPlain t)
  | .doubleDash :: rest, g => gather rest g.addDoubleDash
  | .unknown t :: rest, g => gather rest (g.endGroup.leave [t])
  | .naming (.error e) :: _, _ => .error (.usage e)
  | .naming (.ok ⟨settings, none⟩) :: rest, g => g.endGroup.apply settings >>= gather rest
  | .naming (.ok ⟨settings, some s⟩) :: .plain value :: rest, g =>
    g.endGroup.apply (settings ++ [(s, some value)]) >>= gather rest
  | .naming (.ok ⟨_, some s⟩) :: _, _ => .error (.usage (.valueExpected s))

/-- Reads the arguments. -/
def Options.ofArguments (arguments : List Text) : Except Stop Options :=
  match classifyAll arguments with
  | .error e => .error (.usage e)
  | .ok classified =>
    gather classified .start >>= fun g =>
      if g.leftOver.isEmpty then .ok g.options else .error (.usage (.unrecognized g.leftOver))

end Propositional.Command
