import Propositional.Proofs.Layout.DependencyGraph

/-! The dependency graph of a sentence is the tree of its open parts, those that are not atomic.

A node depends on its operand positions, less those that hold a letter or a constant
(`targets_eq_filter`). So a dependency is a link of the layout that ends in a node
(`mem_dependencies_iff`), and what is known of links (`Placed.perm_operands`, `Placed.reaches`,
`Layout.exists_of_path`) holds of dependencies: a node other than the main one has one parent, since
what has an operand is itself open, paths from the main point to nodes pass through nodes only, and
there are no cycles. `layout_dependencies` puts the facts together. -/
namespace Propositional

namespace DependencyMap

open Layout

variable {l : Layout} {isMain : Bool} {main : Nat} {s : Sentence}

/-! ### Nodes -/

theorem isNode_eq_isOpenAt (s : Sentence) {i : Nat} {o : Point} (ho : (i, o) ∈ s.layout.points) :
    (ofSentence s).isNode i = isOpenAt s.layout i := by
  rw [isOpenAt_of_mem ho]
  apply Bool.eq_iff_iff.mpr
  rw [isNode_ofSentence_iff, Bool.not_eq_true']
  constructor
  · rintro ⟨j, o', hij, ho', hatomic⟩
    obtain rfl := Int.ofNat.inj hij
    rwa [point_unique ho ho']
  · intro hatomic
    exact ⟨i, o, rfl, ho, hatomic⟩

theorem pairwise_openPositions (l : Layout) :
    ((l.points.filter fun p => !p.2.sentence.isAtomic).map fun p => (p.1 : Int)).Pairwise
      (· < ·) := by
  have hall : (l.points.map Prod.fst).Pairwise (· < ·) := pairwise_pointsFrom 0 l.pieces
  rw [List.pairwise_map] at hall ⊢
  exact (hall.filter _).imp Int.ofNat_lt.mpr

/-- The nodes come in the order of display. -/
theorem nodes_ofSentence (s : Sentence) :
    (ofSentence s).nodes =
      (s.layout.points.filter fun p => !p.2.sentence.isAtomic).map fun p => (p.1 : Int) := by
  rw [nodes, Bindings.keys, toList_edges, edgesOf, List.map_map]
  apply List.mergeSort_of_pairwise
  exact (pairwise_openPositions s.layout).imp fun h => decide_eq_true (Int.le_of_lt h)

theorem forall₂_holdsAt {points found : List (Nat × Point)} (h : found ⊆ points) :
    List.Forall₂ (HoldsAt points) (found.map fun p => (p.1 : Int))
      (found.map fun p => p.2.sentence) := by
  rw [List.forall₂_map_left_iff, List.forall₂_map_right_iff, List.forall₂_same]
  exact fun p hp => ⟨p.1, p.2, rfl, h hp, rfl⟩

/-- At the nodes stand the open parts of the sentence. -/
theorem nodes_hold (s : Sentence) :
    List.Forall₂ (HoldsAt s.layout.points) (ofSentence s).nodes
      (s.inorder.filter fun u => !u.isAtomic) := by
  rw [nodes_ofSentence, ← s.placed_layout.sentences_eq, List.filter_map]
  exact forall₂_holdsAt (List.filter_subset_self _)

/-! ### Dependencies -/

/-- The first position waits for the second one. -/
def Awaits (g : DependencyMap) (q d : Int) : Prop := d ∈ g.dependencies q

theorem dependencies_of_mem {i : Nat} {p : Point} (hp : (i, p) ∈ s.layout.points)
    (hopen : p.sentence.isAtomic = false) :
    (ofSentence s).dependencies i = targets s.layout p := by
  rw [dependencies, get?_edges_iff.mpr ⟨i, p, rfl, hp, hopen, rfl⟩]
  rfl

theorem dependencies_of_not_mem_nodes {g : DependencyMap} {q : Int} (hq : q ∉ g.nodes) :
    g.dependencies q = [] := by
  rw [mem_nodes_iff, isNode, Bindings.contains_iff, Option.not_isSome_iff_eq_none] at hq
  rw [dependencies, hq]
  rfl

/-- A point with an operand is not atomic. -/
theorem not_isAtomic_of_operand (h : Placed isMain main s l.points) {i : Nat} {p : Point}
    (hp : (i, p) ∈ l.points) {q : Int} (hq : q ∈ p.operands) : p.sentence.isAtomic = false := by
  obtain ⟨u, hu, -⟩ := exists_of_forall₂ (h.operands_placed _ hp) hq
  revert hu
  cases p.sentence <;> simp [Sentence.operands, Sentence.isAtomic]

/-- A dependency is a link that ends in a node. -/
theorem mem_dependencies_iff {q d : Int} :
    d ∈ (ofSentence s).dependencies q ↔
      (ofSentence s).isNode d = true ∧ ∃ i j, q = ((i : Nat) : Int) ∧ d = ((j : Nat) : Int) ∧
        Linked s.layout.points i j := by
  have h := s.placed_layout
  constructor
  · intro hd
    refine ⟨isNode_of_mem_dependencies hd, ?_⟩
    cases hget : (ofSentence s).edges.get? q with
    | none =>
      rw [dependencies, hget] at hd
      exact absurd hd List.not_mem_nil
    | some ds =>
      rw [dependencies, hget] at hd
      obtain ⟨i, p, rfl, hp, -, rfl⟩ := get?_edges_iff.mp hget
      have hoperand := targets_eq_filter h hp ▸ hd
      obtain ⟨hmem, -⟩ := List.mem_filter.mp hoperand
      obtain ⟨-, -, j, -, rfl, -, -⟩ := exists_of_forall₂ (h.operands_placed _ hp) hmem
      exact ⟨i, j, rfl, rfl, p, hp, hmem⟩
  · rintro ⟨hnode, i, j, rfl, rfl, p, hp, hmem⟩
    obtain ⟨o, ho, -⟩ := exists_of_linked h hp hmem
    rw [isNode_eq_isOpenAt s ho] at hnode
    rw [dependencies_of_mem hp (not_isAtomic_of_operand h hp hmem), targets_eq_filter h hp]
    exact List.mem_filter.mpr ⟨hmem, hnode⟩

theorem nodup_dependencies (s : Sentence) (q : Int) : ((ofSentence s).dependencies q).Nodup := by
  cases hget : (ofSentence s).edges.get? q with
  | none =>
    rw [dependencies, hget]
    exact List.nodup_nil
  | some ds =>
    obtain ⟨i, p, -, hp, -, rfl⟩ := get?_edges_iff.mp hget
    have hoperands := (List.nodup_cons.mp (nodup_operands s.placed_layout)).2
    rw [dependencies, hget, Option.getD_some, targets_eq_filter s.placed_layout hp]
    exact ((List.nodup_flatMap.mp hoperands).1 _ hp).filter _

/-! ### The tree of nodes -/

/-- Every point but the main one is an operand. -/
theorem exists_linked (h : Placed isMain main s l.points) {j : Nat} {o : Point}
    (ho : (j, o) ∈ l.points) (hne : j ≠ main) : ∃ i, Linked l.points i j := by
  have hmem : (j : Int) ∈ l.points.map fun p => (p.1 : Int) := List.mem_map_of_mem ho
  rw [← h.perm_operands.mem_iff, List.mem_cons, List.mem_flatMap] at hmem
  obtain ⟨p, hp, hj⟩ := hmem.resolve_left fun he => hne (Int.ofNat.inj he)
  exact ⟨p.1, p.2, hp, hj⟩

/-- No point is an operand of two. -/
theorem linked_unique (h : Placed isMain main s l.points) {i i' j : Nat}
    (hi : Linked l.points i j) (hi' : Linked l.points i' j) : i = i' := by
  obtain ⟨p, hp, hj⟩ := hi
  obtain ⟨p', hp', hj'⟩ := hi'
  have hnodup := (List.nodup_cons.mp (nodup_operands h)).2
  exact congrArg Prod.fst (eq_of_mem_flatMap_of_nodup hnodup hp hp' hj hj')

theorem awaits_of_linked {i j : Nat} (hlink : Linked s.layout.points i j)
    (hnode : (ofSentence s).isNode j = true) : (ofSentence s).Awaits i j :=
  mem_dependencies_iff.mpr ⟨hnode, i, j, rfl, rfl, hlink⟩

theorem isNode_of_linked {i j : Nat} (hlink : Linked s.layout.points i j) :
    (ofSentence s).isNode i = true := by
  obtain ⟨p, hp, hj⟩ := hlink
  exact isNode_ofSentence_iff.mpr
    ⟨i, p, rfl, hp, not_isAtomic_of_operand s.placed_layout hp hj⟩

/-- A path of links that ends in a node is one of dependencies. -/
theorem awaits_of_reachable {i j : Nat}
    (hpath : Relation.ReflTransGen (Linked s.layout.points) i j)
    (hnode : (ofSentence s).isNode j = true) :
    Relation.ReflTransGen (ofSentence s).Awaits i j := by
  induction hpath with
  | refl => exact .refl
  | tail _ hlink ih => exact (ih (isNode_of_linked hlink)).tail (awaits_of_linked hlink hnode)

theorem linked_of_awaits {q d : Int} (h : (ofSentence s).Awaits q d) :
    Linked s.layout.points q.toNat d.toNat := by
  obtain ⟨-, i, j, rfl, rfl, hlink⟩ := mem_dependencies_iff.mp h
  exact hlink

/-- Nothing waits for the main point. -/
theorem not_awaits_main (s : Sentence) (q : Int) : ¬(ofSentence s).Awaits q s.mainPosition := by
  intro hq
  obtain ⟨-, i, j, -, hj, p, hp, hmem⟩ := mem_dependencies_iff.mp hq
  have hmain := (List.nodup_cons.mp (nodup_operands s.placed_layout)).1
  exact hmain (List.mem_flatMap.mpr ⟨(i, p), hp, hj ▸ hmem⟩)

theorem existsUnique_awaits {d : Int} (hd : d ∈ (ofSentence s).nodes) (hne : d ≠ s.mainPosition) :
    ∃! q, q ∈ (ofSentence s).nodes ∧ (ofSentence s).Awaits q d := by
  have h := s.placed_layout
  have hnode := mem_nodes_iff.mp hd
  obtain ⟨j, o, rfl, ho, -⟩ := isNode_ofSentence_iff.mp hnode
  obtain ⟨i, hlink⟩ := exists_linked h ho (fun hj => hne (congrArg _ hj))
  refine ⟨i, ⟨mem_nodes_iff.mpr (isNode_of_linked hlink), awaits_of_linked hlink hnode⟩,
    fun q hq => ?_⟩
  obtain ⟨-, i', j', rfl, hj, hlink'⟩ := mem_dependencies_iff.mp hq.2
  obtain rfl := Int.ofNat.inj hj
  exact congrArg _ (linked_unique h hlink' hlink)

theorem reaches_of_mem_nodes {q : Int} (hq : q ∈ (ofSentence s).nodes) :
    Relation.ReflTransGen (ofSentence s).Awaits s.mainPosition q := by
  have hnode := mem_nodes_iff.mp hq
  obtain ⟨i, p, rfl, hp, -⟩ := isNode_ofSentence_iff.mp hnode
  exact awaits_of_reachable (s.placed_layout.reaches _ hp) hnode

/-- No node waits for itself: along a path of links the sentences get smaller. -/
theorem not_awaits_self (s : Sentence) (q : Int) :
    ¬Relation.TransGen (ofSentence s).Awaits q q := by
  intro hpath
  have hlinks := Relation.TransGen.lift Int.toNat (fun _ _ => linked_of_awaits) _ _ hpath
  obtain ⟨p, o, hp, ho, hlt⟩ := exists_of_path s.placed_layout hlinks
  obtain rfl := point_unique hp ho
  exact Nat.lt_irrefl _ hlt

/-- A graph is the tree of the open parts of a sentence, each at its place in the layout. -/
structure IsOpenTree (g : DependencyMap) (s : Sentence) (main : Nat) : Prop where
  nodes_eq : g.nodes =
    (s.layout.points.filter fun p => !p.2.sentence.isAtomic).map fun p => (p.1 : Int)
  nodes_ascend : g.nodes.Pairwise (· < ·)
  /-- There is a node for each place where an open part stands, in the order of display. -/
  sentences_eq : ∃ found, g.nodes.mapM s.layout.pointAt = .ok found ∧
    found.map Point.sentence = s.inorder.filter fun u => !u.isAtomic
  /-- A node depends on the open operands of its sentence, in their order. -/
  dependencies_eq : ∀ q ∈ g.nodes, ∃ p found, s.layout.pointAt q = .ok p ∧
    (g.dependencies q).mapM s.layout.pointAt = .ok found ∧
    found.map Point.sentence = p.sentence.dependencies
  /-- Letters, constants and brackets depend on nothing. -/
  dependencies_eq_nil : ∀ q ∉ g.nodes, g.dependencies q = []
  main_mem_nodes : s.isAtomic = false → (main : Int) ∈ g.nodes
  main_not_awaited : ∀ q, ¬g.Awaits q main
  /-- Every other node is a dependency of exactly one node. -/
  awaited_by_one : ∀ d ∈ g.nodes, d ≠ main → ∃! q, q ∈ g.nodes ∧ g.Awaits q d
  awaited_once : ∀ q, (g.dependencies q).Nodup
  reaches : ∀ q ∈ g.nodes, Relation.ReflTransGen g.Awaits main q
  acyclic : ∀ q, ¬Relation.TransGen g.Awaits q q

end DependencyMap

/-- **The dependencies of a sentence are the tree of its open parts.** The graph of a layout is
always built. Its nodes are the places of the parts that are not atomic, a node depends on the open
ones among its operands, and from the main point down every node is met on exactly one path. -/
theorem Sentence.layout_dependencies (s : Sentence) :
    ∃ g main, DependencyMap.ofLayout s.layout = .ok g ∧ s.layout.positionOfMain = .ok main ∧
      g.IsOpenTree s main := by
  have h := s.placed_layout
  refine ⟨DependencyMap.ofSentence s, s.mainPosition, DependencyMap.ofLayout_layout s,
    s.positionOfMain_layout, ?_⟩
  constructor
  case nodes_eq => exact DependencyMap.nodes_ofSentence s
  case nodes_ascend =>
    rw [DependencyMap.nodes_ofSentence]
    exact DependencyMap.pairwise_openPositions s.layout
  case sentences_eq =>
    obtain ⟨found, hfound, hsentences, -⟩ := Layout.mapM_pointAt (DependencyMap.nodes_hold s)
    exact ⟨found, hfound, hsentences⟩
  case dependencies_eq =>
    intro q hq
    obtain ⟨i, p, rfl, hp, hopen⟩ :=
      DependencyMap.isNode_ofSentence_iff.mp (DependencyMap.mem_nodes_iff.mp hq)
    obtain ⟨found, hfound, hsentences, -⟩ :=
      Layout.mapM_pointAt (DependencyMap.targets_of_placed h hp)
    rw [DependencyMap.dependencies_of_mem hp hopen]
    exact ⟨p, found, Layout.pointAt_natCast.mpr hp, hfound, hsentences⟩
  case dependencies_eq_nil => exact fun q => DependencyMap.dependencies_of_not_mem_nodes
  case main_mem_nodes =>
    intro hs
    obtain ⟨p, hp, hsentence⟩ := h.root_mem
    exact DependencyMap.mem_nodes_iff.mpr
      (DependencyMap.isNode_ofSentence_iff.mpr ⟨_, p, rfl, hp, hsentence ▸ hs⟩)
  case main_not_awaited => exact DependencyMap.not_awaits_main s
  case awaited_by_one => exact fun d => DependencyMap.existsUnique_awaits
  case awaited_once => exact DependencyMap.nodup_dependencies s
  case reaches => exact fun q => DependencyMap.reaches_of_mem_nodes
  case acyclic => exact DependencyMap.not_awaits_self s

end Propositional
