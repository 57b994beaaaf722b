import Propositional.Diagram
import Propositional.Proofs.Layout.OpenParts

/-! The diagram of a layout draws the tree of its sentence.

The nodes of a diagram come from the row of pieces, its edges from the nodes of the dependency graph
and the operands of their points, and the style of an edge from what the graph has a node depend on.
The three agree: an atomic point has no operands, so no edge is missed by going through the nodes of
the graph only (`flatMap_edgesFrom`), and a node depends on those of its operands that are not
atomic (`operandEdge_eq`). The main node and the targets of the edges are then the nodes, each once
(`perm_targets`), and from this edges are counted. `layout_drawn` puts the facts together: what the
document has drawn (`DrawsTree`), and, apart from that, how it is written (`WritesTree`). -/
namespace Propositional

/-! ### Names -/

/-- The names of nodes are written as they are. -/
theorem Dot.identifier_of_t {digits : Text} (h : ∀ c ∈ digits, c.isDigit = true) :
    identifier ('t' :: digits) = 't' :: digits := by
  have hname : isName ('t' :: digits) = true := by
    have hall : digits.all (fun c => isNameStart c || c.isDigit) = true :=
      List.all_eq_true.mpr fun c hc => by rw [h c hc, Bool.or_true]
    rw [isName, hall]
    rfl
  -- No keyword starts with the letter.
  have hkeyword : isKeyword ('t' :: digits) = false := by
    have hhead : ∀ k ∈ keywords, k.head? ≠ some 't' := by decide
    rw [isKeyword, List.contains_eq_mem, decide_eq_false_iff_not]
    exact fun hk => hhead _ hk rfl
  rw [identifier, hname, hkeyword]
  rfl

theorem Dot.attributeList_four (a b c d : Attribute) :
    attributeList [a, b, c, d] =
      [' ', '['] ++ a.render ++ ' ' :: b.render ++ ' ' :: c.render ++ ' ' :: d.render ++ [']'] := by
  simp [attributeList, renderAttributes, Text.joinWith, List.intercalate]

namespace Diagram

variable {s : Sentence} {i j : Nat}

theorem nodeName_injective : Function.Injective fun i : Nat => nodeName i :=
  fun _ _ h => Text.ofNat_inj (List.cons.inj h).2

theorem identifier_nodeName (i : Nat) : Dot.identifier (nodeName i) = nodeName i :=
  Dot.identifier_of_t fun _ => Nat.isDigit_of_mem_toDigits (by decide) (by decide)

/-! ### Statements -/

/-- The statement for a node. -/
def nodeStatement (p : Nat × Point) : Text :=
  nodeName p.1 ++ " [label=".toList ++ Dot.identifier (label p.2) ++ " fillcolor=".toList ++
    (fillColor p.2).toList ++ " shape=box style=filled]".toList

theorem identifier_fillColor (p : Point) :
    Dot.identifier (fillColor p).toList = (fillColor p).toList := by
  unfold fillColor
  split
  · decide
  · split <;> decide

theorem render_pointNode (p : Nat × Point) : (pointNode p).render = nodeStatement p := by
  have hfill : (setting "fillcolor" (fillColor p.2)).render =
      "fillcolor=".toList ++ (fillColor p.2).toList := by
    rw [Dot.Attribute.render, setting, identifier_fillColor]
    rfl
  rw [Dot.Node.render, pointNode, Dot.attributeList_four, identifier_nodeName, hfill,
    nodeStatement]
  simp only [List.append_assoc]
  rfl

/-- The edge from a point to one of its operands. -/
def linkEdge (l : Layout) (position operand : Int) : Dot.Edge where
  source := nodeName position
  target := nodeName operand
  attributes :=
    if DependencyMap.isOpenAt l operand then []
    else [setting "color" "grey", setting "style" "dashed"]

@[simp] theorem source_linkEdge (l : Layout) (position operand : Int) :
    (linkEdge l position operand).source = nodeName position := rfl

@[simp] theorem target_linkEdge (l : Layout) (position operand : Int) :
    (linkEdge l position operand).target = nodeName operand := rfl

theorem attributes_linkEdge {l : Layout} {o : Point} (ho : (j, o) ∈ l.points) :
    (linkEdge l i j).attributes =
      if o.sentence.isAtomic then [setting "color" "grey", setting "style" "dashed"] else [] := by
  rw [linkEdge, DependencyMap.isOpenAt_of_mem ho]
  cases o.sentence.isAtomic with
  | true => rfl
  | false => rfl

theorem render_linkEdge {l : Layout} {o : Point} (ho : (j, o) ∈ l.points) :
    (linkEdge l i j).render = nodeName i ++ " -> ".toList ++ nodeName j ++
      if o.sentence.isAtomic then " [color=grey style=dashed]".toList else [] := by
  have hstyle : Dot.attributeList (linkEdge l i j).attributes =
      if o.sentence.isAtomic then " [color=grey style=dashed]".toList else [] := by
    rw [attributes_linkEdge ho]
    cases o.sentence.isAtomic with
    | true => rfl
    | false => rfl
  rw [Dot.Edge.render, hstyle, source_linkEdge, target_linkEdge, identifier_nodeName,
    identifier_nodeName]

/-! ### Edges -/

theorem operandEdge_eq {p : Point} (hp : (i, p) ∈ s.layout.points) {q : Int}
    (hq : q ∈ p.operands) :
    operandEdge (.ofSentence s) i q = linkEdge s.layout i q := by
  have h := s.placed_layout
  have hdependency : ((DependencyMap.ofSentence s).dependencies i).contains q =
      DependencyMap.isOpenAt s.layout q := by
    rw [DependencyMap.dependencies_of_mem hp (DependencyMap.not_isAtomic_of_operand h hp hq),
      DependencyMap.targets_eq_filter h hp, Bool.eq_iff_iff, List.contains_iff_mem,
      List.mem_filter, and_iff_right hq]
  rw [operandEdge, hdependency, linkEdge]

/-- The edges to the operands of a point. -/
def edgesFrom (l : Layout) (p : Nat × Point) : List Dot.Edge :=
  p.2.operands.map (linkEdge l p.1)

theorem nodeEdges_eq {p : Nat × Point} (hp : p ∈ s.layout.points) :
    nodeEdges s.layout (.ofSentence s) p.1 = .ok (edgesFrom s.layout p) := by
  rw [nodeEdges, Layout.pointAt_natCast.mpr hp, edgesFrom]
  show Except.ok (p.2.operands.map _) = _
  rw [List.map_congr_left fun q hq => operandEdge_eq hp hq]

/-- What is drawn of a sentence. -/
def drawing (s : Sentence) : Dot.Document where
  comment := "Dependencies of ".toList ++ s.spaced
  attributes := [setting "nodesep" "0.4", setting "rankdir" "TB", setting "ranksep" "0.5"]
  nodes := s.layout.points.map pointNode
  edges := s.layout.points.flatMap (edgesFrom s.layout)

theorem nodes_drawing (s : Sentence) : (drawing s).nodes = s.layout.points.map pointNode := rfl

theorem edges_drawing (s : Sentence) :
    (drawing s).edges = s.layout.points.flatMap (edgesFrom s.layout) := rfl

theorem edgesFrom_of_isAtomic {p : Nat × Point} (hp : p ∈ s.layout.points)
    (hatomic : p.2.sentence.isAtomic = true) : edgesFrom s.layout p = [] := by
  rw [edgesFrom, List.map_eq_nil_iff, List.eq_nil_iff_forall_not_mem]
  intro q hq
  rw [DependencyMap.not_isAtomic_of_operand s.placed_layout hp hq] at hatomic
  cases hatomic

theorem flatMap_filter_of_nil {α β : Type} {f : α → List β} {keep : α → Bool} {l : List α}
    (h : ∀ a ∈ l, keep a = false → f a = []) : (l.filter keep).flatMap f = l.flatMap f := by
  induction l with
  | nil => rfl
  | cons a rest ih =>
    have hrest := ih fun b hb => h b (List.mem_cons_of_mem a hb)
    cases hkeep : keep a with
    | true => rw [List.filter_cons_of_pos hkeep, List.flatMap_cons, List.flatMap_cons, hrest]
    | false =>
      rw [List.filter_cons_of_neg (by simp [hkeep]), List.flatMap_cons,
        h a List.mem_cons_self hkeep, List.nil_append, hrest]

theorem mapM_nodeEdges (s : Sentence) :
    (DependencyMap.ofSentence s).nodes.mapM (nodeEdges s.layout (.ofSentence s)) =
      .ok ((s.layout.points.filter fun p => !p.2.sentence.isAtomic).map (edgesFrom s.layout)) := by
  rw [DependencyMap.nodes_ofSentence, List.mapM_map]
  refine Table.mapM_eq_ok fun p hp => ?_
  exact nodeEdges_eq (List.mem_filter.mp hp).1

theorem flatMap_edgesFrom (s : Sentence) :
    (s.layout.points.filter fun p => !p.2.sentence.isAtomic).flatMap (edgesFrom s.layout) =
      s.layout.points.flatMap (edgesFrom s.layout) := by
  refine flatMap_filter_of_nil fun p hp hatomic => ?_
  exact edgesFrom_of_isAtomic hp (by simpa using hatomic)

theorem ofGraph_eq {l : Layout} {g : DependencyMap} {edges : List (List Dot.Edge)}
    (h : g.nodes.mapM (nodeEdges l g) = .ok edges) :
    ofGraph l g = .ok {
      comment := "Dependencies of ".toList ++ l.sentence.spaced
      attributes := [setting "nodesep" "0.4", setting "rankdir" "TB", setting "ranksep" "0.5"]
      nodes := l.points.map pointNode
      edges := edges.flatten } := by
  rw [ofGraph, h]
  rfl

/-- A diagram is always drawn. -/
theorem ofLayout_layout (s : Sentence) : ofLayout s.layout = .ok (drawing s) := by
  rw [ofLayout, DependencyMap.ofLayout_layout]
  show ofGraph s.layout (.ofSentence s) = _
  rw [ofGraph_eq (mapM_nodeEdges s), ← List.flatMap_def, flatMap_edgesFrom]
  rfl

/-! ### Counting edges -/

theorem names_drawing (s : Sentence) :
    (drawing s).nodes.map Dot.Node.name =
      s.layout.pointPositions.map fun i : Nat => nodeName i := by
  rw [nodes_drawing, Layout.pointPositions, List.map_map, List.map_map]
  rfl

theorem map_edgesFrom {β : Type} (f : Dot.Edge → β) (l : Layout) (p : Nat × Point) :
    (edgesFrom l p).map f = p.2.operands.map fun q => f (linkEdge l p.1 q) := by
  rw [edgesFrom, List.map_map]
  rfl

theorem ends_drawing (s : Sentence) :
    (drawing s).edges.map (fun e => (e.source, e.target)) =
      s.layout.points.flatMap fun p => p.2.operands.map fun q => (nodeName p.1, nodeName q) := by
  simp only [edges_drawing, List.map_flatMap, map_edgesFrom, source_linkEdge, target_linkEdge]

theorem targets_drawing (s : Sentence) :
    (drawing s).edges.map Dot.Edge.target =
      (s.layout.points.flatMap fun p => p.2.operands).map nodeName := by
  simp only [edges_drawing, List.map_flatMap, map_edgesFrom, target_linkEdge]

theorem nodup_names (s : Sentence) : ((drawing s).nodes.map Dot.Node.name).Nodup := by
  rw [names_drawing]
  exact s.layout.nodup_positions.map nodeName_injective

theorem mem_names_iff :
    nodeName i ∈ (drawing s).nodes.map Dot.Node.name ↔ i ∈ s.layout.pointPositions := by
  rw [names_drawing]
  exact List.mem_map_of_injective nodeName_injective

/-- The main node and the targets of the edges are the nodes, each once. -/
theorem perm_targets (s : Sentence) :
    (nodeName s.mainPosition :: (drawing s).edges.map Dot.Edge.target).Perm
      ((drawing s).nodes.map Dot.Node.name) := by
  have hnames : (drawing s).nodes.map Dot.Node.name =
      (s.layout.points.map fun p => (p.1 : Int)).map nodeName := by
    rw [names_drawing, Layout.pointPositions, List.map_map, List.map_map]
    rfl
  rw [targets_drawing, hnames]
  exact s.placed_layout.perm_operands.map nodeName

theorem length_filter_eq {α : Type} {f : α → Text} {l : List α} (h : (l.map f).Nodup) (t : Text) :
    (l.filter fun a => f a = t).length = if t ∈ l.map f then 1 else 0 := by
  rw [← h.count, List.count, List.countP_map, ← List.countP_eq_length_filter]
  exact List.countP_congr fun a _ => by simp

/-- The value of an attribute of a node. -/
def valueOf? (n : Dot.Node) (name : String) : Option Text :=
  (n.attributes.find? fun a => a.name = name.toList).map Dot.Attribute.value

theorem isGreen_pointNode (p : Nat × Point) :
    valueOf? (pointNode p) "fillcolor" = some "palegreen".toList ↔ p.2.isMain = true := by
  have hvalue : valueOf? (pointNode p) "fillcolor" = some (fillColor p.2).toList := rfl
  rw [hvalue, Option.some_inj, String.toList_inj, fillColor]
  split
  case isTrue hmain => simp [hmain]
  case isFalse hmain => split <;> simp [hmain]

theorem filter_isGreen (s : Sentence) :
    ((drawing s).nodes.filter fun n => valueOf? n "fillcolor" = some "palegreen".toList).map
      Dot.Node.name = [nodeName s.mainPosition] := by
  obtain ⟨p, hmain, -⟩ := s.placed_layout.filter_isMain
  have hfilter : (s.layout.points.filter fun p =>
      valueOf? (pointNode p) "fillcolor" = some "palegreen".toList) = [(s.mainPosition, p)] := by
    rw [← hmain]
    exact List.filter_congr fun q _ => by simp only [isGreen_pointNode, Bool.decide_eq_true]
  rw [nodes_drawing, List.filter_map]
  exact congrArg (List.map Dot.Node.name ∘ List.map pointNode) hfilter

/-- An edge leads to a point. -/
theorem exists_target {e : Dot.Edge} (he : e ∈ (drawing s).edges) :
    ∃ (i j : Nat) (o : Point), (j, o) ∈ s.layout.points ∧ e = linkEdge s.layout i j := by
  obtain ⟨p, hp, hedge⟩ := List.mem_flatMap.mp (edges_drawing s ▸ he)
  obtain ⟨q, hq, rfl⟩ := List.mem_map.mp hedge
  obtain ⟨_, _, j, o, rfl, ho, _⟩ := exists_of_forall₂ (s.placed_layout.operands_placed p hp) hq
  exact ⟨p.1, j, o, ho, rfl⟩

/-- The source of the diagram, with the settings of the graph on their line. -/
theorem render_drawing (s : Sentence) :
    (drawing s).render =
      "// Dependencies of ".toList ++ s.spaced ++
        "\ndigraph \x7b\n\tnodesep=0.4 rankdir=TB ranksep=0.5\n".toList ++
        ((drawing s).nodes.map Dot.Node.render ++ (drawing s).edges.map Dot.Edge.render).flatMap
          (fun statement => '\t' :: statement ++ ['\n']) ++ "\x7d\n".toList := by
  have hcomment : "// ".toList ++ (drawing s).comment =
      "// Dependencies of ".toList ++ s.spaced := rfl
  have hsettings : "\ndigraph \x7b\n".toList ++
      '\t' :: Dot.renderAttributes (drawing s).attributes ++ ['\n'] =
      "\ndigraph \x7b\n\tnodesep=0.4 rankdir=TB ranksep=0.5\n".toList := rfl
  rw [Dot.Document.render, hcomment, ← hsettings]
  simp only [List.cons_append, List.flatMap_cons, List.append_assoc, List.nil_append]

/-- The nodes and edges of a document draw a sentence, with the main position of its layout
marked. -/
structure DrawsTree (d : Dot.Document) (s : Sentence) (main : Nat) : Prop where
  /-- There is one node for a position with a point, and none for a bracket. -/
  nodes_named : ∀ i : Nat, (d.nodes.filter fun n => n.name = nodeName i).length =
    if i ∈ s.layout.pointPositions then 1 else 0
  green_eq : (d.nodes.filter fun n => valueOf? n "fillcolor" = some "palegreen".toList).map
    Dot.Node.name = [nodeName main]
  /-- There is an edge for each operand position of each point. -/
  ends_eq : d.edges.map (fun e => (e.source, e.target)) =
    s.layout.points.flatMap fun p => p.2.operands.map fun q => (nodeName p.1, nodeName q)
  ends_nodup : (d.edges.map fun e => (e.source, e.target)).Nodup
  /-- An edge is dashed and grey if and only if it leads to a letter or a constant. -/
  edge_styled : ∀ e ∈ d.edges, ∃ (j : Nat) (o : Point), e.target = nodeName j ∧
    (j, o) ∈ s.layout.points ∧ e.attributes =
      if o.sentence.isAtomic then [setting "color" "grey", setting "style" "dashed"] else []
  nodes_length : d.nodes.length = s.inorder.length
  edges_length : d.edges.length + 1 = s.inorder.length
  /-- One edge leads to every node but the main one, and none to that. -/
  incoming_length : ∀ n ∈ d.nodes, (d.edges.filter fun e => e.target = n.name).length =
    if n.name = nodeName main then 0 else 1

/-- What a document that draws a sentence looks like when it is written. -/
structure WritesTree (d : Dot.Document) (s : Sentence) : Prop where
  /-- Behind the settings of the graph come the statements, those of the nodes first. -/
  source_eq : d.render =
    "// Dependencies of ".toList ++ s.spaced ++
      "\ndigraph \x7b\n\tnodesep=0.4 rankdir=TB ranksep=0.5\n".toList ++
      (d.nodes.map Dot.Node.render ++ d.edges.map Dot.Edge.render).flatMap
        (fun statement => '\t' :: statement ++ ['\n']) ++ "\x7d\n".toList
  statements_eq : d.nodes.map Dot.Node.render = s.layout.points.map nodeStatement
  edge_written : ∀ e ∈ d.edges, ∃ (j : Nat) (o : Point), e.target = nodeName j ∧
    (j, o) ∈ s.layout.points ∧ e.render = e.source ++ " -> ".toList ++ e.target ++
      if o.sentence.isAtomic then " [color=grey style=dashed]".toList else []

theorem writesTree_drawing (s : Sentence) : WritesTree (drawing s) s := by
  constructor
  case source_eq => exact render_drawing s
  case statements_eq =>
    rw [nodes_drawing, List.map_map]
    exact List.map_congr_left fun p _ => render_pointNode p
  case edge_written =>
    intro e he
    obtain ⟨i, j, o, ho, rfl⟩ := exists_target he
    exact ⟨j, o, rfl, ho, render_linkEdge ho⟩

end Diagram

/-- **A diagram draws the tree of its sentence.** The diagram of a layout is always drawn. It has a
node for each point, the main one of them green, and an edge from each point to each of its
operands, a dashed one to letters and constants; so there is one edge fewer than there are nodes,
and every node but the main one is the target of exactly one. Written out, each of them is
a statement of its own. -/
theorem Sentence.layout_drawn (s : Sentence) :
    ∃ d main, Diagram.ofLayout s.layout = .ok d ∧ s.layout.positionOfMain = .ok main ∧
      Diagram.DrawsTree d s main ∧ Diagram.WritesTree d s := by
  have h := s.placed_layout
  have hperm := Diagram.perm_targets s
  obtain ⟨hmain, htargets⟩ := List.nodup_cons.mp (hperm.nodup_iff.mpr (Diagram.nodup_names s))
  have hlength : s.layout.points.length = s.inorder.length := by
    rw [← h.sentences_eq, List.length_map]
  refine ⟨Diagram.drawing s, s.mainPosition, Diagram.ofLayout_layout s,
    s.positionOfMain_layout, ?_, Diagram.writesTree_drawing s⟩
  constructor
  case nodes_named =>
    intro i
    rw [Diagram.length_filter_eq (Diagram.nodup_names s)]
    exact if_congr Diagram.mem_names_iff rfl rfl
  case green_eq => exact Diagram.filter_isGreen s
  case ends_eq => exact Diagram.ends_drawing s
  case ends_nodup =>
    refine List.Nodup.of_map Prod.snd ?_
    rw [List.map_map]
    exact htargets
  case edge_styled =>
    intro e he
    obtain ⟨i, j, o, ho, rfl⟩ := Diagram.exists_target he
    exact ⟨j, o, rfl, ho, Diagram.attributes_linkEdge ho⟩
  case nodes_length => rw [Diagram.nodes_drawing, List.length_map, hlength]
  case edges_length =>
    have hcount := hperm.length_eq
    rwa [List.length_cons, List.length_map, List.length_map, Diagram.nodes_drawing,
      List.length_map, hlength] at hcount
  case incoming_length =>
    intro n hn
    have hn : n.name ∈ (Diagram.drawing s).nodes.map Dot.Node.name := List.mem_map_of_mem hn
    rw [← hperm.mem_iff, List.mem_cons] at hn
    rw [Diagram.length_filter_eq htargets]
    split
    case isTrue htarget =>
      have hne : n.name ≠ Diagram.nodeName s.mainPosition := fun he => hmain (he ▸ htarget)
      rw [if_neg hne]
    case isFalse htarget => rw [if_pos (hn.resolve_right htarget)]

end Propositional
