import Mathlib.Data.List.Nodup
import Mathlib.Data.List.Pairwise
import Mathlib.Logic.ExistsUnique
import Mathlib.Logic.Relation
import Propositional.Layout

/-! The points of a layout are the nodes of its sentence.

`Placed` says when a row of points holds a sentence: each node has one point, a connective stands
between the points of its operands and a negation before those of its operand, and a point names
the positions of its operands' points. Where the row starts and which brackets stand between the
points does not matter for it. The pieces of an operand hold the operand wherever they start
(`placed_operandPieces`), and what is wanted of a layout are facts about `Placed`, each by
induction on it. The main one is `Placed.perm_operands`: the operand positions together with the
root are the positions of all points, each once, so every other point has one parent.
`layout_linearizes` puts the facts together. -/
namespace Propositional

/-- The nodes of a tree in the order of display: a connective between its operands, a negation
before its operand. -/
def Sentence.inorder : Sentence → List Sentence
  | const b => [const b]
  | letter l => [letter l]
  | negation s => negation s :: s.inorder
  | binary c l r => l.inorder ++ binary c l r :: r.inorder

/-! ### Points with their positions -/

/-- The point at the first position names the second one as an operand. -/
def Linked (points : List (Nat × Point)) (i j : Nat) : Prop :=
  ∃ p, (i, p) ∈ points ∧ (j : Int) ∈ p.operands

/-- At the position stands a point of the sentence. -/
def HoldsAt (points : List (Nat × Point)) (q : Int) (u : Sentence) : Prop :=
  ∃ i o, q = ((i : Nat) : Int) ∧ (i, o) ∈ points ∧ o.sentence = u

theorem HoldsAt.mono {points more : List (Nat × Point)} (h : points ⊆ more) {q : Int}
    {u : Sentence} (hq : HoldsAt points q u) : HoldsAt more q u := by
  obtain ⟨i, o, hi, ho, hu⟩ := hq
  exact ⟨i, o, hi, h ho, hu⟩

theorem Linked.mono {points more : List (Nat × Point)} (h : points ⊆ more) {i j : Nat}
    (hlink : Linked points i j) : Linked more i j := by
  obtain ⟨p, hp, hj⟩ := hlink
  exact ⟨p, h hp, hj⟩

theorem reachable_mono {points more : List (Nat × Point)} (h : points ⊆ more) {i j : Nat}
    (hpath : Relation.ReflTransGen (Linked points) i j) :
    Relation.ReflTransGen (Linked more) i j :=
  Relation.ReflTransGen.mono (fun _ _ hlink => hlink.mono h) _ _ hpath

namespace Layout

/-- The points of a row of pieces, the first piece at a given position. -/
def pointsFrom (start : Nat) (pieces : List Piece) : List (Nat × Point) :=
  (pieces.zipIdx start).filterMap fun (piece, i) => piece.point?.map (i, ·)

@[simp] theorem pointsFrom_nil (start : Nat) : pointsFrom start [] = [] := rfl

@[simp] theorem pointsFrom_literal (start : Nat) (t : Text) (rest : List Piece) :
    pointsFrom start (.literal t :: rest) = pointsFrom (start + 1) rest := rfl

@[simp] theorem pointsFrom_point (start : Nat) (p : Point) (rest : List Piece) :
    pointsFrom start (.point p :: rest) = (start, p) :: pointsFrom (start + 1) rest := rfl

theorem pointsFrom_append (start : Nat) (pieces more : List Piece) :
    pointsFrom start (pieces ++ more) =
      pointsFrom start pieces ++ pointsFrom (start + pieces.length) more := by
  simp only [pointsFrom, List.zipIdx_append, List.filterMap_append]

theorem mem_pointsFrom {start : Nat} {pieces : List Piece} {i : Nat} {p : Point} :
    (i, p) ∈ pointsFrom start pieces ↔ start ≤ i ∧ pieces[i - start]? = some (.point p) := by
  constructor
  · intro h
    obtain ⟨⟨piece, j⟩, hmem, hpoint⟩ := List.mem_filterMap.mp h
    obtain ⟨q, hq, hpair⟩ := Option.map_eq_some_iff.mp hpoint
    obtain ⟨rfl, rfl⟩ := Prod.mk.inj hpair
    obtain ⟨hle, hget⟩ := List.mk_mem_zipIdx_iff_le_and_getElem?_sub.mp hmem
    cases piece with
    | literal t => cases hq
    | point q' =>
      obtain rfl := Option.some.inj hq
      exact ⟨hle, hget⟩
  · intro h
    exact List.mem_filterMap.mpr
      ⟨(.point p, i), List.mk_mem_zipIdx_iff_le_and_getElem?_sub.mpr h, rfl⟩

/-- The points are the pieces with a value. -/
theorem mem_points {l : Layout} {i : Nat} {p : Point} :
    (i, p) ∈ l.points ↔ l.pieces[i]? = some (.point p) := by
  show (i, p) ∈ pointsFrom 0 l.pieces ↔ _
  rw [mem_pointsFrom, Nat.sub_zero, and_iff_right (Nat.zero_le i)]

theorem pointAt_natCast {l : Layout} {i : Nat} {p : Point} :
    l.pointAt i = .ok p ↔ (i, p) ∈ l.points := by
  rw [mem_points, pointAt, Position.get?_ofNat]
  rcases l.pieces[i]? with _ | _ | q <;> simp

theorem pairwise_pointsFrom (start : Nat) (pieces : List Piece) :
    ((pointsFrom start pieces).map Prod.fst).Pairwise (· < ·) := by
  induction pieces generalizing start with
  | nil => exact .nil
  | cons piece rest ih =>
    cases piece with
    | literal t => exact ih (start + 1)
    | point p =>
      rw [pointsFrom_point, List.map_cons, List.pairwise_cons]
      refine ⟨fun i hi => ?_, ih (start + 1)⟩
      obtain ⟨⟨i, q⟩, hq, rfl⟩ := List.mem_map.mp hi
      exact (mem_pointsFrom.mp hq).1

end Layout

/-! ### Rows of points that hold a sentence -/

/-- The points hold a sentence whose own point stands at `root`; only that one may be marked as
the main one. -/
inductive Placed : Bool → Nat → Sentence → List (Nat × Point) → Prop where
  | const (isMain : Bool) (i : Nat) (t : Text) (b : Bool) :
      Placed isMain i (.const b) [(i, ⟨t, .const b, isMain, []⟩)]
  | letter (isMain : Bool) (i : Nat) (t : Text) (l : Letter) :
      Placed isMain i (.letter l) [(i, ⟨t, .letter l, isMain, []⟩)]
  | negation {j : Nat} {s : Sentence} {points : List (Nat × Point)} (isMain : Bool) (i : Nat)
      (t : Text) :
      Placed false j s points →
      Placed isMain i (.negation s) ((i, ⟨t, .negation s, isMain, [(j : Int)]⟩) :: points)
  | binary {j k : Nat} {l r : Sentence} {left right : List (Nat × Point)} (isMain : Bool) (i : Nat)
      (t : Text) (c : Connective) :
      Placed false j l left → Placed false k r right →
      Placed isMain i (.binary c l r)
        (left ++ (i, ⟨t, .binary c l r, isMain, [(j : Int), (k : Int)]⟩) :: right)

namespace Placed

variable {isMain : Bool} {root : Nat} {s : Sentence} {points : List (Nat × Point)}

theorem sentences_eq (h : Placed isMain root s points) :
    points.map (fun p => p.2.sentence) = s.inorder := by
  induction h with
  | const => rfl
  | letter => rfl
  | negation _ _ _ _ ih => rw [List.map_cons, ih]; rfl
  | binary _ _ _ _ _ _ ihl ihr => rw [List.map_append, List.map_cons, ihl, ihr]; rfl

theorem root_mem (h : Placed isMain root s points) : ∃ p, (root, p) ∈ points ∧ p.sentence = s := by
  cases h with
  | const => exact ⟨_, List.mem_singleton_self _, rfl⟩
  | letter => exact ⟨_, List.mem_singleton_self _, rfl⟩
  | negation => exact ⟨_, List.mem_cons_self, rfl⟩
  | binary => exact ⟨_, List.mem_append_right _ List.mem_cons_self, rfl⟩

theorem filter_isMain_of_false (h : Placed isMain root s points) (hmain : isMain = false) :
    points.filter (fun p => p.2.isMain) = [] := by
  induction h with
  | const => simp [hmain]
  | letter => simp [hmain]
  | negation _ _ _ _ ih => simp [hmain, ih]
  | binary _ _ _ _ _ _ ihl ihr => simp [hmain, ihl, ihr]

/-- The root is marked, and nothing below it. -/
theorem filter_isMain (h : Placed true root s points) :
    ∃ p, points.filter (fun p => p.2.isMain) = [(root, p)] ∧ p.sentence = s := by
  cases h with
  | const => exact ⟨_, rfl, rfl⟩
  | letter => exact ⟨_, rfl, rfl⟩
  | negation _ _ _ hs =>
    rw [List.filter_cons_of_pos rfl, hs.filter_isMain_of_false rfl]
    exact ⟨_, rfl, rfl⟩
  | binary _ _ _ _ hl hr =>
    rw [List.filter_append, hl.filter_isMain_of_false rfl, List.filter_cons_of_pos rfl,
      hr.filter_isMain_of_false rfl]
    exact ⟨_, rfl, rfl⟩

/-- The root and the operand positions are the positions of the points, each once. -/
theorem perm_operands (h : Placed isMain root s points) :
    ((root : Int) :: points.flatMap fun p => p.2.operands).Perm
      (points.map fun p => (p.1 : Int)) := by
  induction h with
  | const => exact .refl _
  | letter => exact .refl _
  | negation _ i _ _ ih => simpa using ih
  | @binary j k l r left right _ i t c _ _ ihl ihr =>
    have hmiddle : ((i : Int) :: ((left.flatMap fun p => p.2.operands) ++
        ([(j : Int), (k : Int)] ++ right.flatMap fun p => p.2.operands))).Perm
        ((i : Int) :: (((j : Int) :: left.flatMap fun p => p.2.operands) ++
          ((k : Int) :: right.flatMap fun p => p.2.operands))) := by
      refine .cons _ ?_
      exact List.perm_middle
    rw [List.flatMap_append, List.flatMap_cons, List.map_append, List.map_cons]
    calc _ = (i : Int) :: ((left.flatMap fun p => p.2.operands) ++
          ([(j : Int), (k : Int)] ++ right.flatMap fun p => p.2.operands)) := rfl
      List.Perm _ _ := hmiddle
      List.Perm _ ((i : Int) :: ((left.map fun p => (p.1 : Int)) ++
          right.map fun p => (p.1 : Int))) := .cons _ (ihl.append ihr)
      List.Perm _ _ := List.perm_middle.symm

/-- The operand positions of a point hold its operands, in order. -/
theorem operands_placed (h : Placed isMain root s points) :
    ∀ p ∈ points, List.Forall₂ (HoldsAt points) p.2.operands p.2.sentence.operands := by
  induction h with
  | const => simp [Sentence.operands]
  | letter => simp [Sentence.operands]
  | @negation j s points _ i t hs ih =>
    intro p hp
    obtain ⟨o, ho, hos⟩ := hs.root_mem
    rcases List.mem_cons.mp hp with rfl | hp
    · exact .cons ⟨j, o, rfl, List.mem_cons_of_mem _ ho, hos⟩ .nil
    · exact (ih p hp).imp fun q u => HoldsAt.mono (List.subset_cons_self _ _)
  | @binary j k l r left right _ i t c hl hr ihl ihr =>
    intro p hp
    obtain ⟨o, ho, hos⟩ := hl.root_mem
    obtain ⟨o', ho', hos'⟩ := hr.root_mem
    rcases List.mem_append.mp hp with hp | hp
    · exact (ihl p hp).imp fun q u => HoldsAt.mono (List.subset_append_left _ _)
    · rcases List.mem_cons.mp hp with rfl | hp
      · exact .cons ⟨j, o, rfl, by simp [ho], hos⟩ (.cons ⟨k, o', rfl, by simp [ho'], hos'⟩ .nil)
      · exact (ihr p hp).imp fun q u => HoldsAt.mono fun x hx => by simp [hx]

theorem operand_of_negation (h : Placed isMain root s points) {i : Nat} {p : Point} {u : Sentence}
    (hp : (i, p) ∈ points) (hu : p.sentence = .negation u) :
    ∃ j o, p.operands = [((j : Nat) : Int)] ∧ (j, o) ∈ points ∧ o.sentence = u := by
  have hoperands := h.operands_placed _ hp
  rw [hu] at hoperands
  generalize p.operands = positions at hoperands
  cases hoperands with
  | cons hq hrest =>
    cases hrest
    obtain ⟨j, o, rfl, ho⟩ := hq
    exact ⟨j, o, rfl, ho⟩

theorem operands_of_binary (h : Placed isMain root s points) {i : Nat} {p : Point}
    {c : Connective} {u w : Sentence} (hp : (i, p) ∈ points) (hu : p.sentence = .binary c u w) :
    ∃ j k o o', p.operands = [((j : Nat) : Int), ((k : Nat) : Int)] ∧
      ((j, o) ∈ points ∧ o.sentence = u) ∧ (k, o') ∈ points ∧ o'.sentence = w := by
  have hoperands := h.operands_placed _ hp
  rw [hu] at hoperands
  generalize p.operands = positions at hoperands
  cases hoperands with
  | cons hq hrest =>
    cases hrest with
    | cons hq' hrest =>
      cases hrest
      obtain ⟨j, o, rfl, ho⟩ := hq
      obtain ⟨k, o', rfl, ho'⟩ := hq'
      exact ⟨j, k, o, o', rfl, ho, ho'⟩

/-- The letters of a point's sentence are letters of the whole. -/
theorem occurrences_subset (h : Placed isMain root s points) :
    ∀ p ∈ points, p.2.sentence.occurrences ⊆ s.occurrences := by
  induction h with
  | const => simp
  | letter => simp
  | negation _ _ _ _ ih =>
    intro p hp
    rcases List.mem_cons.mp hp with rfl | hp
    · exact List.Subset.refl _
    · exact ih p hp
  | binary _ _ _ _ _ _ ihl ihr =>
    intro p hp
    rcases List.mem_append.mp hp with hp | hp
    · exact List.subset_append_of_subset_left _ (ihl p hp)
    · rcases List.mem_cons.mp hp with rfl | hp
      · exact List.Subset.refl _
      · exact List.subset_append_of_subset_right _ (ihr p hp)

/-- Every point is reached from the root. -/
theorem reaches (h : Placed isMain root s points) :
    ∀ p ∈ points, Relation.ReflTransGen (Linked points) root p.1 := by
  induction h with
  | const => simp [Relation.ReflTransGen.refl]
  | letter => simp [Relation.ReflTransGen.refl]
  | @negation j s points m i t hs ih =>
    intro p hp
    have hlink : Linked ((i, ⟨t, .negation s, m, [(j : Int)]⟩) :: points) i j :=
      ⟨_, List.mem_cons_self, List.mem_singleton_self _⟩
    rcases List.mem_cons.mp hp with rfl | hp
    · exact .refl
    · exact .head hlink (reachable_mono (List.subset_cons_self _ _) (ih p hp))
  | @binary j k l r left right m i t c hl hr ihl ihr =>
    intro p hp
    let own : Point := ⟨t, .binary c l r, m, [(j : Int), (k : Int)]⟩
    have hown : (i, own) ∈ left ++ (i, own) :: right := by simp
    have hleft : Linked (left ++ (i, own) :: right) i j := ⟨own, hown, by simp [own]⟩
    have hright : Linked (left ++ (i, own) :: right) i k := ⟨own, hown, by simp [own]⟩
    rcases List.mem_append.mp hp with hp | hp
    · exact .head hleft (reachable_mono (List.subset_append_left _ _) (ihl p hp))
    · rcases List.mem_cons.mp hp with rfl | hp
      · exact .refl
      · exact .head hright (reachable_mono (fun x hx => by simp [hx]) (ihr p hp))

end Placed

/-! ### Pieces that hold a sentence -/

namespace Sentence

open Layout

theorem placed_joinedPieces {start : Nat} {l r : Sentence} {left right : List Piece}
    (isMain : Bool) (c : Connective) (hlength : left.length = l.width)
    (hleft : Placed false (start + l.pointOffset) l (pointsFrom start left))
    (hright : Placed false (start + l.width + 1 + r.pointOffset) r
      (pointsFrom (start + l.width + 1) right)) :
    Placed isMain (start + l.width) (.binary c l r)
      (pointsFrom start (joinedPieces start isMain c l r left right)) := by
  rw [joinedPieces, pointsFrom_append, pointsFrom_point, hlength]
  exact .binary isMain (start + l.width) c.pointText c hleft hright

/-- Wherever the pieces of an operand start, they hold it. -/
theorem placed_operandPieces (s : Sentence) (start : Nat) :
    Placed false (start + s.pointOffset) s (pointsFrom start (s.operandPieces start)) := by
  induction s generalizing start with
  | const b => exact .const false start _ b
  | letter l => exact .letter false start _ l
  | negation s ih => exact .negation false start _ (ih (start + 1))
  | binary c l r ihl ihr =>
    have hjoined := placed_joinedPieces false c (length_operandPieces (start + 1) l)
      (ihl (start + 1)) (ihr (start + 1 + l.width + 1))
    have hroot : start + (binary c l r).pointOffset = start + 1 + l.width := by
      rw [pointOffset]
      omega
    -- the brackets around the operand carry no value
    rw [operandPieces, List.cons_append, pointsFrom_literal, pointsFrom_append,
      pointsFrom_literal, pointsFrom_nil, List.append_nil, hroot]
    exact hjoined

/-- The position of the main point of a layout. -/
def mainPosition : Sentence → Nat
  | const _ | letter _ | negation _ => 0
  | binary _ l _ => l.width

theorem placed_layout (s : Sentence) : Placed true s.mainPosition s s.layout.points := by
  show Placed true s.mainPosition s (pointsFrom 0 s.layout.pieces)
  rw [pieces_layout]
  cases s with
  | const b => exact .const true 0 _ b
  | letter l => exact .letter true 0 _ l
  | negation s =>
    have hoperand := placed_operandPieces s 1
    exact .negation true 0 _ hoperand
  | binary c l r =>
    have hleft := placed_operandPieces l 0
    have hright := placed_operandPieces r (l.width + 1)
    rw [← Nat.zero_add l.width] at hright
    have hjoined := placed_joinedPieces true c (length_operandPieces 0 l) hleft hright
    rw [Nat.zero_add] at hjoined
    exact hjoined

theorem positionOfMain_layout (s : Sentence) : s.layout.positionOfMain = .ok s.mainPosition := by
  obtain ⟨p, hfilter, -⟩ := s.placed_layout.filter_isMain
  have hfind : s.layout.points.find? (fun p => p.2.isMain) = some (s.mainPosition, p) := by
    rw [← List.head?_filter, hfilter]
    rfl
  rw [Layout.positionOfMain, hfind]

/-- The main point stands for the whole sentence. -/
theorem exists_main (s : Sentence) :
    ∃ p, (s.mainPosition, p) ∈ s.layout.points ∧ p.isMain = true ∧ p.sentence = s := by
  obtain ⟨p, hfilter, hp⟩ := s.placed_layout.filter_isMain
  have hmem := List.mem_filter.mp (hfilter ▸ List.mem_singleton_self (s.mainPosition, p))
  exact ⟨p, hmem.1, hmem.2, hp⟩

theorem eq_of_isMain {s : Sentence} {i : Nat} {p : Point} (hp : (i, p) ∈ s.layout.points)
    (hmain : p.isMain = true) : i = s.mainPosition ∧ p.sentence = s := by
  obtain ⟨q, hfilter, hq⟩ := s.placed_layout.filter_isMain
  have hmem : (i, p) ∈ s.layout.points.filter fun p => p.2.isMain := List.mem_filter.mpr ⟨hp, hmain⟩
  rw [hfilter] at hmem
  obtain ⟨rfl, rfl⟩ := Prod.mk.inj (List.mem_singleton.mp hmem)
  exact ⟨rfl, hq⟩

/-! ### The links between points -/

theorem sizeOf_operand_lt {s u : Sentence} (h : u ∈ s.operands) : sizeOf u < sizeOf s := by
  cases s with
  | const b => exact absurd h List.not_mem_nil
  | letter l => exact absurd h List.not_mem_nil
  | negation s =>
    obtain rfl := List.mem_singleton.mp h
    simp
  | binary c l r =>
    simp only [operands, List.mem_cons, List.not_mem_nil, or_false] at h
    rw [binary.sizeOf_spec]
    rcases h with rfl | rfl
    · omega
    · omega

end Sentence

theorem eq_of_mem_flatMap_of_nodup {α β : Type} {f : α → List β} {l : List α}
    (h : (l.flatMap f).Nodup) {a b : α} (ha : a ∈ l) (hb : b ∈ l) {x : β} (hxa : x ∈ f a)
    (hxb : x ∈ f b) : a = b := by
  have hsymm : Std.Symm (Function.onFun List.Disjoint f) := ⟨fun _ _ => List.disjoint_symm⟩
  by_contra hne
  exact (List.nodup_flatMap.mp h).2.forall ha hb hne hxa hxb

theorem exists_of_forall₂ {α β : Type} {R : α → β → Prop} {l : List α} {m : List β}
    (h : List.Forall₂ R l m) {a : α} (ha : a ∈ l) : ∃ b ∈ m, R a b := by
  induction h with
  | nil => exact absurd ha List.not_mem_nil
  | @cons a' b _ _ hab _ ih =>
    rcases List.mem_cons.mp ha with rfl | ha
    · exact ⟨b, List.mem_cons_self, hab⟩
    · obtain ⟨b', hb', hab'⟩ := ih ha
      exact ⟨b', List.mem_cons_of_mem _ hb', hab'⟩

namespace Layout

variable {l : Layout} {isMain : Bool} {main : Nat} {s : Sentence}

theorem point_unique {i : Nat} {p q : Point} (hp : (i, p) ∈ l.points) (hq : (i, q) ∈ l.points) :
    p = q := by
  rw [mem_points] at hp hq
  rw [hp] at hq
  exact Piece.point.inj (Option.some.inj hq)

theorem nodup_positions (l : Layout) : l.pointPositions.Nodup :=
  (pairwise_pointsFrom 0 l.pieces).imp fun h => Nat.ne_of_lt h

theorem nodup_pointPositions (l : Layout) : (l.points.map fun p => (p.1 : Int)).Nodup := by
  have hcast : (l.points.map fun p => (p.1 : Int)) = l.pointPositions.map Nat.cast := by
    rw [pointPositions, List.map_map]
    rfl
  rw [hcast]
  exact l.nodup_positions.map fun _ _ h => Int.ofNat.inj h

theorem nodup_operands (h : Placed isMain main s l.points) :
    ((main : Int) :: l.points.flatMap fun p => p.2.operands).Nodup :=
  h.perm_operands.nodup_iff.mpr l.nodup_pointPositions

theorem mapM_pointAt {positions : List Int} {sentences : List Sentence}
    (h : List.Forall₂ (HoldsAt l.points) positions sentences) :
    ∃ found, positions.mapM l.pointAt = .ok found ∧ found.map Point.sentence = sentences ∧
      List.Forall₂ (fun q o => ∃ i, q = ((i : Nat) : Int) ∧ (i, o) ∈ l.points) positions found := by
  induction h with
  | nil => exact ⟨[], rfl, rfl, .nil⟩
  | cons hq _ ih =>
    obtain ⟨i, o, rfl, ho, rfl⟩ := hq
    obtain ⟨found, hfound, rfl, hpoints⟩ := ih
    refine ⟨o :: found, ?_, rfl, .cons ⟨i, rfl, ho⟩ hpoints⟩
    rw [List.mapM_cons, pointAt_natCast.mpr ho, hfound]
    rfl

/-- An operand of a point is a part of its sentence. -/
theorem exists_of_linked (h : Placed isMain main s l.points) {i j : Nat} {p : Point}
    (hp : (i, p) ∈ l.points) (hj : (j : Int) ∈ p.operands) :
    ∃ o, (j, o) ∈ l.points ∧ o.sentence ∈ p.sentence.operands := by
  obtain ⟨u, hu, i', o, hi', ho, rfl⟩ := exists_of_forall₂ (h.operands_placed _ hp) hj
  obtain rfl := Int.ofNat.inj hi'
  exact ⟨o, ho, hu⟩

theorem exists_of_path (h : Placed isMain main s l.points) {i j : Nat}
    (hpath : Relation.TransGen (Linked l.points) i j) :
    ∃ p o, (i, p) ∈ l.points ∧ (j, o) ∈ l.points ∧ sizeOf o.sentence < sizeOf p.sentence := by
  induction hpath with
  | single hlink =>
    obtain ⟨p, hp, hj⟩ := hlink
    obtain ⟨o, ho, hpart⟩ := exists_of_linked h hp hj
    exact ⟨p, o, hp, ho, Sentence.sizeOf_operand_lt hpart⟩
  | tail _ hlink ih =>
    obtain ⟨p, q, hp, hq, hlt⟩ := ih
    obtain ⟨q', hq', hj⟩ := hlink
    obtain rfl := point_unique hq hq'
    obtain ⟨o, ho, hpart⟩ := exists_of_linked h hq hj
    exact ⟨p, o, hp, ho, Nat.lt_trans (Sentence.sizeOf_operand_lt hpart) hlt⟩

/-! ### The layout as a tree -/

/-- The layout shows a tree in the order of its nodes, and the links from its main point are that
tree. -/
structure Linearizes (l : Layout) (s : Sentence) (main : Nat) : Prop where
  /-- The links follow the order: operands on the left are linked from their right, and so on. -/
  placed : Placed true main s l.points
  /-- There is one point for each node, in the order of display. -/
  sentences_eq : l.points.map (fun p => p.2.sentence) = s.inorder
  positions_ascend : l.pointPositions.Pairwise (· < ·)
  operands_inRange : ∀ p ∈ l.points, ∀ q ∈ p.2.operands, 0 ≤ q ∧ q < l.pieces.length
  /-- At the operand positions stand points, those of the operands in their order. -/
  operands_eq : ∀ p ∈ l.points, ∃ found, p.2.operands.mapM l.pointAt = .ok found ∧
    found.map Point.sentence = p.2.sentence.operands
  main_unique : ∃ p, l.points.filter (fun p => p.2.isMain) = [(main, p)] ∧ p.sentence = s
  main_not_operand : ∀ p ∈ l.points, (main : Int) ∉ p.2.operands
  /-- Every other point is an operand of exactly one point. -/
  operand_of_one : ∀ i ∈ l.pointPositions, i ≠ main →
    ∃! p, p ∈ l.points ∧ (i : Int) ∈ p.2.operands
  operand_once : ∀ p ∈ l.points, p.2.operands.Nodup
  reaches : ∀ i ∈ l.pointPositions, Relation.ReflTransGen (Linked l.points) main i
  acyclic : ∀ i, ¬Relation.TransGen (Linked l.points) i i

end Layout

/-- **A layout is its sentence, read in the order of display.** The main position is always found,
there is a point for each node, and the operand positions tie the points into the tree of the
sentence, with the main point as its root. -/
theorem Sentence.layout_linearizes (s : Sentence) :
    ∃ main, s.layout.positionOfMain = .ok main ∧ s.layout.Linearizes s main := by
  have h := s.placed_layout
  have hnodup := List.nodup_cons.mp (Layout.nodup_operands h)
  refine ⟨s.mainPosition, s.positionOfMain_layout, ?_⟩
  constructor
  case placed => exact h
  case sentences_eq => exact h.sentences_eq
  case positions_ascend => exact Layout.pairwise_pointsFrom 0 s.layout.pieces
  case operands_inRange =>
    intro p hp q hq
    obtain ⟨_, _, i, o, rfl, ho, _⟩ := exists_of_forall₂ (h.operands_placed p hp) hq
    have hi := (List.getElem?_eq_some_iff.mp (Layout.mem_points.mp ho)).1
    exact ⟨Int.natCast_nonneg i, Int.ofNat_lt.mpr hi⟩
  case operands_eq =>
    intro p hp
    obtain ⟨found, hfound, hsentences, _⟩ := Layout.mapM_pointAt (h.operands_placed p hp)
    exact ⟨found, hfound, hsentences⟩
  case main_unique => exact h.filter_isMain
  case main_not_operand =>
    exact fun p hp hmain => hnodup.1 (List.mem_flatMap.mpr ⟨p, hp, hmain⟩)
  case operand_of_one =>
    intro i hi hne
    obtain ⟨q, hq, rfl⟩ := List.mem_map.mp hi
    have hmem : (q.1 : Int) ∈ s.layout.points.map fun p => (p.1 : Int) := List.mem_map_of_mem hq
    rw [← h.perm_operands.mem_iff, List.mem_cons, List.mem_flatMap] at hmem
    obtain ⟨p, hp, hqp⟩ := hmem.resolve_left (fun he => hne (Int.ofNat.inj he))
    exact ⟨p, ⟨hp, hqp⟩, fun p' h' => eq_of_mem_flatMap_of_nodup hnodup.2 h'.1 hp h'.2 hqp⟩
  case operand_once => exact (List.nodup_flatMap.mp hnodup.2).1
  case reaches =>
    intro i hi
    obtain ⟨q, hq, rfl⟩ := List.mem_map.mp hi
    exact h.reaches q hq
  case acyclic =>
    intro i hpath
    obtain ⟨p, o, hp, ho, hlt⟩ := Layout.exists_of_path h hpath
    obtain rfl := Layout.point_unique hp ho
    exact Nat.lt_irrefl _ hlt

end Propositional
