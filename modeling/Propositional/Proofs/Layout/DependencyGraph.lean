import Propositional.Dependencies
import Propositional.Proofs.Bindings.Lookup
import Propositional.Proofs.Layout.Linearization
import Propositional.Table

/-! The dependency graph of a layout.

Every operand position of a layout holds a point, so the graph is always built
(`ofLayout_layout`). Its nodes are the positions of the points whose sentences are not atomic
(`isNode_ofSentence_iff`). A node depends on its operand positions, less those that hold a letter or
a constant (`targets_eq_filter`), so on nodes only (`isNode_of_mem_dependencies`). -/
namespace Propositional.DependencyMap

open Layout

variable {l : Layout} {isMain : Bool} {main : Nat} {s : Sentence}

/-! ### What one point depends on -/

/-- At the position stands a point that has to be worked out. -/
def isOpenAt (l : Layout) (q : Int) : Bool :=
  match l.pointAt q with
  | .ok o => !o.sentence.isAtomic
  | .error _ => false

theorem isOpenAt_of_mem {i : Nat} {o : Point} (ho : (i, o) ∈ l.points) :
    isOpenAt l i = !o.sentence.isAtomic := by
  rw [isOpenAt, pointAt_natCast.mpr ho]

theorem filter_zip_eq {positions : List Int} {found : List Point}
    (h : List.Forall₂ (fun q o => ∃ i, q = ((i : Nat) : Int) ∧ (i, o) ∈ l.points)
      positions found) :
    ((positions.zip found).filter fun o => !o.2.sentence.isAtomic).map Prod.fst =
      positions.filter (isOpenAt l) := by
  induction h with
  | nil => rfl
  | @cons q o _ _ hq _ ih =>
    obtain ⟨i, rfl, ho⟩ := hq
    have hopen := isOpenAt_of_mem ho
    rw [List.zip_cons_cons]
    cases hatomic : o.sentence.isAtomic with
    | true =>
      rw [List.filter_cons_of_neg (by simp [hatomic]),
        List.filter_cons_of_neg (by simp [hopen, hatomic]), ih]
    | false =>
      rw [List.filter_cons_of_pos (by simp [hatomic]),
        List.filter_cons_of_pos (by simp [hopen, hatomic]), List.map_cons, ih]

/-- A point depends on the positions of its operands that have to be worked out, in order. -/
theorem openOperands_of_placed (h : Placed isMain main s l.points) {p : Nat × Point}
    (hp : p ∈ l.points) : openOperands l p.2 = .ok (p.2.operands.filter (isOpenAt l)) := by
  obtain ⟨found, hfound, -, hpoints⟩ := mapM_pointAt (h.operands_placed p hp)
  rw [openOperands, hfound, ← filter_zip_eq hpoints]
  rfl

/-- What a point depends on, as a list. -/
def targets (l : Layout) (p : Point) : List Int := ((openOperands l p).toOption).getD []

theorem targets_eq_filter (h : Placed isMain main s l.points) {p : Nat × Point}
    (hp : p ∈ l.points) : targets l p.2 = p.2.operands.filter (isOpenAt l) := by
  rw [targets, openOperands_of_placed h hp]
  rfl

theorem openOperands_eq_targets (h : Placed isMain main s l.points) {p : Nat × Point}
    (hp : p ∈ l.points) : openOperands l p.2 = .ok (targets l p.2) := by
  rw [openOperands_of_placed h hp, targets_eq_filter h hp]

theorem targets_of_placed (h : Placed isMain main s l.points) {p : Nat × Point}
    (hp : p ∈ l.points) :
    List.Forall₂ (HoldsAt l.points) (targets l p.2) p.2.sentence.dependencies := by
  rw [targets_eq_filter h hp, Sentence.dependencies]
  refine List.rel_filter (fun q u hq => ?_) (h.operands_placed p hp)
  obtain ⟨i, o, rfl, ho, rfl⟩ := hq
  exact Bool.eq_iff_iff.mp (isOpenAt_of_mem ho)

/-! ### The graph of a sentence -/

/-- The nodes of a layout with what they depend on. -/
def edgesOf (l : Layout) : List (Int × List Int) :=
  (l.points.filter fun p => !p.2.sentence.isAtomic).map fun p => ((p.1 : Int), targets l p.2)

theorem ofLayout_of_placed (h : Placed isMain main s l.points) :
    ofLayout l = .ok ⟨.ofList (edgesOf l)⟩ := by
  have hnode : ∀ p ∈ l.points.filter fun p => !p.2.sentence.isAtomic,
      node l p = .ok ((p.1 : Int), targets l p.2) := by
    intro p hp
    rw [node, openOperands_eq_targets h (List.mem_filter.mp hp).1]
    rfl
  rw [ofLayout, Table.mapM_eq_ok hnode]
  rfl

theorem nodup_edgesOf (l : Layout) : ((edgesOf l).map Prod.fst).Nodup := by
  rw [edgesOf, List.map_map]
  exact l.nodup_pointPositions.sublist (List.filter_sublist.map _)

/-- The graph of a layout is always built. -/
theorem ofLayout_layout (s : Sentence) : ofLayout s.layout = .ok (ofSentence s) := by
  have hbuilt := ofLayout_of_placed s.placed_layout
  rw [ofSentence, hbuilt]

theorem toList_edges (s : Sentence) : (ofSentence s).edges.toList = edgesOf s.layout := by
  rw [ofSentence, ofLayout_of_placed s.placed_layout]
  exact Bindings.toList_ofList (nodup_edgesOf s.layout)

theorem get?_edges_iff {s : Sentence} {q : Int} {ds : List Int} :
    (ofSentence s).edges.get? q = some ds ↔
      ∃ i p, q = ((i : Nat) : Int) ∧ (i, p) ∈ s.layout.points ∧ p.sentence.isAtomic = false ∧
        ds = targets s.layout p := by
  rw [Bindings.get?_eq_some_iff, toList_edges, edgesOf, List.mem_map]
  constructor
  · rintro ⟨⟨i, p⟩, hp, hpair⟩
    obtain ⟨rfl, rfl⟩ := Prod.mk.inj hpair
    obtain ⟨hmem, hatomic⟩ := List.mem_filter.mp hp
    exact ⟨i, p, rfl, hmem, by simpa using hatomic, rfl⟩
  · rintro ⟨i, p, rfl, hmem, hatomic, rfl⟩
    exact ⟨(i, p), List.mem_filter.mpr ⟨hmem, by simp [hatomic]⟩, rfl⟩

/-- The nodes are the points that have to be worked out. -/
theorem isNode_ofSentence_iff {s : Sentence} {q : Int} :
    (ofSentence s).isNode q = true ↔
      ∃ i p, q = ((i : Nat) : Int) ∧ (i, p) ∈ s.layout.points ∧ p.sentence.isAtomic = false := by
  rw [isNode, Bindings.contains_iff, Option.isSome_iff_exists]
  constructor
  · rintro ⟨ds, hds⟩
    obtain ⟨i, p, hi, hp, hatomic, _⟩ := get?_edges_iff.mp hds
    exact ⟨i, p, hi, hp, hatomic⟩
  · rintro ⟨i, p, hi, hp, hatomic⟩
    exact ⟨_, get?_edges_iff.mpr ⟨i, p, hi, hp, hatomic, rfl⟩⟩

theorem mem_nodes_iff {g : DependencyMap} {q : Int} : q ∈ g.nodes ↔ g.isNode q = true := by
  rw [nodes, List.mem_mergeSort, Bindings.mem_keys_iff, isNode]

/-- The nodes ascend. -/
theorem pairwise_nodes (g : DependencyMap) : g.nodes.Pairwise (· < ·) := by
  have hle : g.nodes.Pairwise fun a b => decide (a ≤ b) = true := by
    refine List.pairwise_mergeSort (fun a b c hab hbc => ?_) (fun a b => ?_) g.edges.keys
    · exact decide_eq_true (Int.le_trans (of_decide_eq_true hab) (of_decide_eq_true hbc))
    · rw [Bool.or_eq_true, decide_eq_true_eq, decide_eq_true_eq]
      exact Int.le_total a b
  have hnodup : g.nodes.Nodup := (List.mergeSort_perm _ _).nodup_iff.mpr g.edges.nodup
  exact (hle.and hnodup).imp fun ⟨hab, hne⟩ =>
    Int.lt_iff_le_and_ne.mpr ⟨of_decide_eq_true hab, hne⟩

/-- Dependencies are nodes. -/
theorem isNode_of_mem_dependencies {s : Sentence} {q d : Int}
    (hd : d ∈ (ofSentence s).dependencies q) : (ofSentence s).isNode d = true := by
  rw [dependencies] at hd
  cases hget : (ofSentence s).edges.get? q with
  | none =>
    rw [hget] at hd
    exact absurd hd List.not_mem_nil
  | some ds =>
    rw [hget] at hd
    obtain ⟨i, p, -, hp, -, rfl⟩ := get?_edges_iff.mp hget
    have hheld := targets_of_placed s.placed_layout hp
    obtain ⟨u, hu, j, o, rfl, ho, rfl⟩ := exists_of_forall₂ hheld hd
    have hatomic := (List.mem_filter.mp hu).2
    exact isNode_ofSentence_iff.mpr ⟨j, o, rfl, ho, by simpa using hatomic⟩

end Propositional.DependencyMap
