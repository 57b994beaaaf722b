import Propositional.Bindings
import Propositional.Text.Quoted

/-! A tree of files around a working directory. A path is read step by step from the working
directory, or from the root if it begins with a slash: an empty step and a single dot stay, two
dots go up, and any other step goes down into the entry of that name. A path that ends in a slash
has to be a directory. Names and paths have at most so many bytes. -/
namespace Propositional

/-- What is found at the end of a path. -/
inductive FileNode where
  | directory
  | file (content : List UInt8)
deriving DecidableEq

/-- Why a path cannot be used. -/
inductive FileError where
  | missing (path : Text)
  | alreadyThere (path : Text)
  | notADirectory (path : Text)
  | isADirectory (path : Text)
  | nameTooLong (path : Text)
  | nullCharacter
deriving DecidableEq

namespace FileError

def numbered (number : Nat) (description : String) (path : Text) : Text :=
  "[Errno ".toList ++ Text.ofNat number ++ ']' :: ' ' :: description.toList ++ ':' :: ' ' ::
    Text.quoted path

def message : FileError → Text
  | missing path => numbered 2 "No such file or directory" path
  | alreadyThere path => numbered 17 "File exists" path
  | notADirectory path => numbered 20 "Not a directory" path
  | isADirectory path => numbered 21 "Is a directory" path
  | nameTooLong path => numbered 36 "File name too long" path
  | nullCharacter => "embedded null byte".toList

end FileError

/-! ### Paths -/

namespace Path

/-- The parts of a path between slashes. -/
def segments : Text → List Text
  | [] => [[]]
  | c :: rest =>
    if c = '/' then [] :: segments rest
    else match segments rest with
      | first :: others => (c :: first) :: others
      | [] => [[c]]

/-- The bytes that a text takes on disk. -/
def byteCount (t : Text) : Nat := t.foldr (fun c n => c.utf8Size + n) 0

/-- The most bytes of a name in a directory. -/
def nameLimit : Nat := 255

/-- The most bytes of a path. -/
def pathLimit : Nat := 4095

/-- The steps of a path, with a dot for a slash at the end. -/
def steps (path : Text) : List Text :=
  let parts := segments path
  let steps := parts.filter fun s => !s.isEmpty
  if parts.getLast? = some [] then steps ++ [['.']] else steps

/-- A path without needless steps and slashes. The empty path becomes a dot. -/
def normalized (path : Text) : Text :=
  let root := path.takeWhile (· = '/')
  let shownRoot := if root.length = 2 then root else root.take 1
  let names := (segments path).filter fun s => !s.isEmpty && s != ['.']
  match shownRoot ++ Text.joinWith ['/'] names with
  | [] => ['.']
  | shown => shown

/-- The entry of a name in a directory. -/
def join (directory name : Text) : Text :=
  if directory.getLast? = some '/' then directory ++ name else directory ++ '/' :: name

/-- The leading parts of a path that end before a slash, given the path read so far backwards. -/
def leadingParts (seen : Text) : Text → List Text
  | [] => []
  | c :: rest =>
    let later := leadingParts (c :: seen) rest
    if c = '/' && !seen.isEmpty && seen.head? != some '/' && rest.any (· != '/') then
      seen.reverse :: later
    else later

/-- The directories that a path goes through, the outermost first. -/
def ancestors (path : Text) : List Text := leadingParts [] path

/-- Whether the last step of a path stays where it is, slashes at the end aside. -/
def endsInDot (path : Text) : Bool :=
  ((segments path).filter fun s => !s.isEmpty).getLast? = some ['.']

end Path

/-- Files and directories by their names from the working directory on. The names of a place
outside it begin with steps up or with the root. -/
structure FileTree where
  nodes : Bindings (List Text) FileNode

namespace FileTree

def empty : FileTree := ⟨.empty⟩

def up : Text := ['.', '.']

def root : Text := ['/']

/-- The working directory, those above it and the root, which are always there. -/
def isGiven (names : List Text) : Bool := names = [root] || names.all (· = up)

def node? (t : FileTree) (names : List Text) : Option FileNode :=
  if isGiven names then some .directory else t.nodes.get? names

/-- Whether a place lies in the working directory. -/
def isInside (names : List Text) : Bool := names.head? != some up && names.head? != some root

/-- The names of the directory that a directory lies in. The root lies in itself. -/
def above (names : List Text) : List Text :=
  if names = [root] then names
  else if isGiven names then names ++ [up]
  else names.dropLast

/-- Where a path begins. -/
def origin (path : Text) : List Text := if path.head? = some '/' then [root] else []

/-- Refuses a path that cannot stand for anything, wherever it leads. -/
def checkPath (path : Text) : Except FileError Unit :=
  if path.contains (Char.ofNat 0) then .error .nullCharacter
  else if Path.pathLimit < Path.byteCount path then .error (.nameTooLong path)
  else .ok ()

/-- The names of an entry of a directory. -/
def below (path : Text) (names : List Text) (name : Text) : Except FileError (List Text) :=
  if Path.nameLimit < Path.byteCount name then .error (.nameTooLong path)
  else .ok (names ++ [name])

/-- Follows steps from a directory, given by its names; the names of what is reached. -/
def follow (t : FileTree) (path : Text) (names : List Text) :
    List Text → Except FileError (List Text × FileNode)
  | [] =>
    match t.node? names with
    | some node => .ok (names, node)
    | none => .error (.missing path)
  | step :: rest =>
    match t.node? names with
    | some .directory =>
      if step = ['.'] then follow t path names rest
      else if step = up then follow t path (above names) rest
      else below path names step >>= fun names => follow t path names rest
    | some (.file _) => .error (.notADirectory path)
    | none => .error (.missing path)

/-- What a path leads to. -/
def find (t : FileTree) (path : Text) : Except FileError (List Text × FileNode) :=
  checkPath path >>= fun _ => t.follow path (origin path) (Path.steps path)

def isThere (t : FileTree) (path : Text) : Bool := (t.find path).isOk

def isDirectory (t : FileTree) (path : Text) : Bool :=
  match t.find path with
  | .ok (_, .directory) => true
  | _ => false

/-- The bytes of a file. -/
def read (t : FileTree) (path : Text) : Except FileError (List UInt8) :=
  t.find path >>= fun
    | (_, .file content) => .ok content
    | (_, .directory) => .error (.isADirectory path)

/-- The names of a directory entry that a path speaks of, which need not be there. -/
def entryNames (t : FileTree) (path : Text) : Except FileError (List Text × Option FileNode) := do
  checkPath path
  let steps := (Path.segments path).filter fun s => !s.isEmpty
  let (parent, node) ← t.follow path (origin path) steps.dropLast
  match node, steps.getLast? with
  | .file _, _ => throw (.notADirectory path)
  | .directory, none => return (parent, some .directory)
  | .directory, some name =>
    if name = ['.'] then return (parent, some .directory)
    else if name = up then return (above parent, some .directory)
    else
      let names ← below path parent name
      return (names, t.node? names)

/-- Makes one directory in a directory that is there. -/
def makeDirectory (t : FileTree) (path : Text) : Except FileError FileTree := do
  match ← t.entryNames path with
  | (_, some _) => throw (.alreadyThere path)
  | (names, none) => return ⟨t.nodes.insert names .directory⟩

/-- Makes a directory that a path goes through, unless it is there by now. -/
def makeAncestor (t : FileTree) (path : Text) : Except FileError FileTree :=
  match t.makeDirectory path with
  | .error (.alreadyThere _) => .ok t
  | result => result

/-- Makes a directory and those above it that are missing. A path that ends in a dot is made by
making the directory before the dot, unless that one was there. -/
def makeDirectories (t : FileTree) (path : Text) : Except FileError FileTree := do
  match (Path.ancestors path).filter fun p => !t.isThere p with
  | [] => t.makeDirectory path
  | first :: rest =>
    let made ← (first :: rest.filter fun p => !Path.endsInDot p).foldlM makeAncestor t
    if Path.endsInDot path then return made else made.makeDirectory path

/-- Makes a directory and those above it, all of which may be there. -/
def ensureDirectories (t : FileTree) (path : Text) : Except FileError FileTree :=
  match t.makeDirectories path with
  | .ok made => .ok made
  | .error e => if t.isDirectory path then .ok t else .error e

/-- Writes a file, new or not; its names come with the tree. -/
def write (t : FileTree) (path : Text) (content : List UInt8) :
    Except FileError (FileTree × List Text) := do
  match ← t.entryNames path with
  | (_, some .directory) => throw (.isADirectory path)
  | (names, _) => return (⟨t.nodes.insert names (.file content)⟩, names)

/-- Adds a file at a path that is known to be good, with the directories it lies in. -/
def add (t : FileTree) (path : Text) (content : List UInt8) : FileTree :=
  let withDirectories := (Path.ancestors path).foldl
    (fun t p => (t.makeAncestor p).toOption.getD t) t
  match withDirectories.write path content with
  | .ok (t, _) => t
  | .error _ => t

end FileTree

end Propositional
