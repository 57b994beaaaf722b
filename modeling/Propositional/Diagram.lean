import Propositional.Dependencies
import Propositional.Dot
import Propositional.Text.Blank

/-! Diagrams of the points of a layout. Every point is a box and every operand an edge from its
point. The main point is green, letters and constants are grey, and the edges that are no
dependencies are dashed. -/
namespace Propositional.Diagram

/-- The name of the node at a position. -/
def nodeName (position : Int) : Text := 't' :: Text.ofInt position

def setting (name value : String) : Dot.Attribute := ⟨name.toList, value.toList⟩

def fillColor (p : Point) : String :=
  if p.isMain then "palegreen" else if p.sentence.isAtomic then "lightgrey" else "lightskyblue"

/-- The sign of a point over the compact form of its sentence; of an atomic one the sentence
alone. -/
def label (p : Point) : Text :=
  if p.sentence.isAtomic then p.sentence.spaced
  else Text.trim p.text ++ '\n' :: p.sentence.compact

def pointNode (p : Nat × Point) : Dot.Node where
  name := nodeName p.1
  attributes :=
    [⟨"label".toList, label p.2⟩, setting "fillcolor" (fillColor p.2), setting "shape" "box",
      setting "style" "filled"]

/-- The edge from a node to an operand of its point. -/
def operandEdge (graph : DependencyMap) (position operand : Int) : Dot.Edge where
  source := nodeName position
  target := nodeName operand
  attributes :=
    if (graph.dependencies position).contains operand then []
    else [setting "color" "grey", setting "style" "dashed"]

def nodeEdges (l : Layout) (graph : DependencyMap) (position : Int) :
    Except LayoutError (List Dot.Edge) := do
  let p ← l.pointAt position
  return p.operands.map (operandEdge graph position)

/-- The diagram of a layout with a given graph, each node of which has to be a point. -/
def ofGraph (l : Layout) (graph : DependencyMap) : Except LayoutError Dot.Document := do
  let edges ← graph.nodes.mapM (nodeEdges l graph)
  return {
    comment := "Dependencies of ".toList ++ l.sentence.spaced
    attributes :=
      [setting "nodesep" "0.4", setting "rankdir" "TB", setting "ranksep" "0.5"]
    nodes := l.points.map pointNode
    edges := edges.flatten }

/-- The diagram of a layout with its own graph. -/
def ofLayout (l : Layout) : Except LayoutError Dot.Document := do
  let graph ← DependencyMap.ofLayout l
  ofGraph l graph

end Propositional.Diagram
