import Propositional.Layout

/-! Dependencies between the points of a layout. A point whose sentence is not atomic depends on
the points of its operands that are not atomic either; letters and constants are known from the
start and nothing waits for them. The graph is kept by position, so two occurrences of one
sentence are two nodes. -/
namespace Propositional

/-- For every node the positions it depends on. -/
structure DependencyMap where
  edges : Bindings Int (List Int)

namespace DependencyMap

def empty : DependencyMap := ⟨.empty⟩

/-- Those operand positions of a point whose sentences have to be worked out. -/
def openOperands (l : Layout) (p : Point) : Except LayoutError (List Int) := do
  let points ← p.operands.mapM l.pointAt
  return ((p.operands.zip points).filter fun o => !o.2.sentence.isAtomic).map Prod.fst

/-- A point as a node, with what it depends on. -/
def node (l : Layout) (p : Nat × Point) : Except LayoutError (Int × List Int) := do
  let targets ← openOperands l p.2
  return (p.1, targets)

/-- The graph of a layout. It fails if an operand position does not hold a point. -/
def ofLayout (l : Layout) : Except LayoutError DependencyMap := do
  let edges ← (l.points.filter fun p => !p.2.sentence.isAtomic).mapM (node l)
  return ⟨.ofList edges⟩

/-- The graph of a sentence's own layout, whose operand positions all hold points. -/
def ofSentence (s : Sentence) : DependencyMap :=
  match ofLayout s.layout with
  | .ok graph => graph
  | .error _ => empty

/-- What a position depends on; nothing, if it is no node. -/
def dependencies (g : DependencyMap) (position : Int) : List Int :=
  (g.edges.get? position).getD []

/-- The nodes in ascending order. -/
def nodes (g : DependencyMap) : List Int := g.edges.keys.mergeSort fun a b => decide (a ≤ b)

def isNode (g : DependencyMap) (position : Int) : Bool := g.edges.contains position

/-- Two graphs are the same if each node has the same dependencies in both. -/
def sameAs (g h : DependencyMap) : Bool := g.edges.sameAs h.edges

end DependencyMap

end Propositional
