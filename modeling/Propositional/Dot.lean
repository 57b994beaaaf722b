import Propositional.Text

/-! Documents in the DOT language for drawing graphs. A document has a comment line, attributes of
the graph, and statements for nodes and edges, one to a line. An identifier stands bare if it
is a name or a number and no keyword; any other is quoted, with a backslash before each quotation
mark that has none yet. -/
namespace Propositional.Dot

/-! ### Identifiers -/

def isNameStart (c : Char) : Bool := c.isAlpha || c == '_'

/-- A letter or underscore, and then letters, digits and underscores. -/
def isName : Text → Bool
  | [] => false
  | c :: rest => isNameStart c && rest.all fun d => isNameStart d || d.isDigit

/-- Digits with at most one point among them or around them, and at least one digit. -/
def isUnsignedNumber (t : Text) : Bool :=
  match Text.cutAt '.' t with
  | (whole, none) => !whole.isEmpty && whole.all Char.isDigit
  | (whole, some fraction) =>
    !(whole.isEmpty && fraction.isEmpty) && whole.all Char.isDigit && fraction.all Char.isDigit

def isNumber : Text → Bool
  | '-' :: rest => isUnsignedNumber rest
  | t => isUnsignedNumber t

def keywords : List Text :=
  ["node", "edge", "graph", "digraph", "subgraph", "strict"].map String.toList

def isKeyword (t : Text) : Bool := keywords.contains (t.map Char.toLower)

/-- Puts a backslash before each quotation mark that does not stand after an odd number of them. -/
def escapeQuotes (afterBackslash : Bool) : Text → Text
  | [] => []
  | c :: rest =>
    if c = '\x22' && !afterBackslash then '\x5c' :: c :: escapeQuotes false rest
    else c :: escapeQuotes (c = '\x5c' && !afterBackslash) rest

/-- A text as an identifier. -/
def identifier (t : Text) : Text :=
  if (isName t || isNumber t) && !isKeyword t then t
  else '\x22' :: escapeQuotes false t ++ ['\x22']

/-! ### Statements -/

/-- An attribute and its value. -/
structure Attribute where
  name : Text
  value : Text

def Attribute.render (a : Attribute) : Text := identifier a.name ++ '=' :: identifier a.value

def renderAttributes (attributes : List Attribute) : Text :=
  Text.joinWith [' '] (attributes.map Attribute.render)

structure Node where
  name : Text
  attributes : List Attribute

structure Edge where
  source : Text
  target : Text
  attributes : List Attribute

structure Document where
  comment : Text
  attributes : List Attribute
  nodes : List Node
  edges : List Edge

def attributeList (attributes : List Attribute) : Text :=
  if attributes.isEmpty then []
  else ' ' :: '[' :: renderAttributes attributes ++ [']']

def Node.render (n : Node) : Text := identifier n.name ++ attributeList n.attributes

def Edge.render (e : Edge) : Text :=
  identifier e.source ++ " -> ".toList ++ identifier e.target ++ attributeList e.attributes

/-- A document as text; the statements are indented by a tab. -/
def Document.render (d : Document) : Text :=
  let statements :=
    renderAttributes d.attributes :: d.nodes.map Node.render ++ d.edges.map Edge.render
  "// ".toList ++ d.comment ++ "\ndigraph \x7b\n".toList ++
    statements.flatMap (fun s => '\t' :: s ++ ['\n']) ++ "\x7d\n".toList

end Propositional.Dot
