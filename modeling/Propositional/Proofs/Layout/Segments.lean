import Propositional.Proofs.Layout.Linearization
import Propositional.Proofs.Sentence.Renderings

/-! A layout is put together from the layouts of its parts.

The pieces of an operand are those of its own layout, moved to where the operand stands and with
brackets around them if it has a connective (`operandPieces_eq`): moving the start moves the operand
positions and nothing else (`operandPieces_add`). `StandsAt` says that an operand stands somewhere
in a layout; then so do its own operands, and going down from the main point every piece is met as
the point of an operand or as one of its two brackets (`StandsAt.owned`). `layout_composes` reads
this from the points: around each of them stands the layout of its sentence. -/
namespace Propositional

/-- A piece of a layout as it is shown inside another one, from a position on. Its operands are
counted from the start of that one, and it is the main piece only if both show the same sentence. -/
def Piece.placedAt (start : Nat) (isWhole : Bool) : Piece → Piece
  | literal text => literal text
  | point p => point { p with
      isMain := p.isMain && isWhole
      operands := p.operands.map fun q => q + (start : Int) }

def Piece.isLiteral : Piece → Bool
  | literal _ => true
  | point _ => false

@[simp] theorem Piece.placedAt_literal (start : Nat) (isWhole : Bool) (text : Text) :
    (literal text).placedAt start isWhole = literal text := rfl

theorem Piece.placedAt_zero (piece : Piece) : piece.placedAt 0 true = piece := by
  cases piece <;> simp [placedAt]

namespace Sentence

/-! ### Moving the start -/

theorem joinedPieces_add (start k : Nat) (isMain isWhole : Bool) (c : Connective) (l r : Sentence)
    (left right : List Piece) :
    joinedPieces (start + k) (isMain && isWhole) c l r (left.map (Piece.placedAt k isWhole))
        (right.map (Piece.placedAt k isWhole)) =
      (joinedPieces start isMain c l r left right).map (Piece.placedAt k isWhole) := by
  have hleft : ((start + k + l.pointOffset : Nat) : Int) = (start + l.pointOffset : Nat) + k := by
    omega
  have hright : ((start + k + l.width + 1 + r.pointOffset : Nat) : Int) =
      (start + l.width + 1 + r.pointOffset : Nat) + k := by
    omega
  simp only [joinedPieces, List.map_append, List.map_cons, Piece.placedAt, List.map_nil, hleft,
    hright]

/-- An operand that starts later has the same pieces with later operand positions. -/
theorem operandPieces_add (s : Sentence) (start k : Nat) (isWhole : Bool) :
    s.operandPieces (start + k) = (s.operandPieces start).map (Piece.placedAt k isWhole) := by
  induction s generalizing start with
  | const b => rfl
  | letter l => rfl
  | negation s ih =>
    have hoperand : ((start + k + 1 + s.pointOffset : Nat) : Int) =
        (start + 1 + s.pointOffset : Nat) + k := by
      omega
    rw [operandPieces, operandPieces, Nat.add_right_comm start k 1, ih (start + 1),
      ← Nat.add_right_comm start k 1, hoperand]
    rfl
  | binary c l r ihl ihr =>
    have hjoined := joinedPieces_add (start + 1) k false isWhole c l r
      (l.operandPieces (start + 1)) (r.operandPieces (start + 1 + l.width + 1))
    have hright : start + 1 + l.width + 1 + k = start + k + 1 + l.width + 1 := by omega
    rw [← ihl, ← ihr, hright, Nat.add_right_comm start 1 k] at hjoined
    simp only [operandPieces, List.map_cons, List.map_append, List.cons_append,
      Piece.placedAt_literal, List.map_nil, ← hjoined, Bool.false_and]

/-- An operand is shown as by itself, in brackets if it has a connective. -/
theorem operandPieces_eq (s : Sentence) (start : Nat) :
    s.operandPieces start =
      if s.isBinary then
        .literal ['('] :: s.layout.pieces.map (Piece.placedAt (start + 1) false) ++ [.literal [')']]
      else s.layout.pieces.map (Piece.placedAt start false) := by
  rw [pieces_layout]
  cases s with
  | const b => rfl
  | letter l => rfl
  | negation s =>
    have hoperand : ((start + 1 + s.pointOffset : Nat) : Int) =
        (1 + s.pointOffset : Nat) + start := by omega
    rw [operandPieces, Nat.add_comm start 1, operandPieces_add s 1 start false,
      Nat.add_comm 1 start, hoperand]
    rfl
  | binary c l r =>
    have hjoined := joinedPieces_add 0 (start + 1) true false c l r (l.operandPieces 0)
      (r.operandPieces (l.width + 1))
    have hright : l.width + 1 + (start + 1) = start + 1 + l.width + 1 := by omega
    rw [← operandPieces_add, ← operandPieces_add, hright, Nat.zero_add] at hjoined
    rw [pieces, ← hjoined]
    rfl

theorem operandPieces_binary (start : Nat) (c : Connective) (u w : Sentence) :
    ∃ own, (binary c u w).operandPieces start =
      .literal ['('] :: (u.operandPieces (start + 1) ++
        own :: (w.operandPieces (start + 1 + u.width + 1) ++ [.literal [')']])) := by
  obtain ⟨own, hown⟩ : ∃ own, (binary c u w).operandPieces start =
      .literal ['('] :: (u.operandPieces (start + 1) ++
        own :: w.operandPieces (start + 1 + u.width + 1)) ++ [.literal [')']] := ⟨_, rfl⟩
  refine ⟨own, hown.trans ?_⟩
  rw [List.cons_append, List.append_assoc, List.cons_append]

theorem pointOffset_of_isBinary {u : Sentence} (h : u.isBinary = true) :
    u.pointOffset = u.mainPosition + 1 := by
  cases u with
  | binary c l r => rfl
  | _ => cases h

theorem pointOffset_of_not_isBinary {u : Sentence} (h : u.isBinary = false) :
    u.pointOffset = u.mainPosition := by
  cases u with
  | binary c l r => cases h
  | _ => rfl

theorem width_of_isBinary {u : Sentence} (h : u.isBinary = true) :
    u.width = u.layout.pieces.length + 2 := by
  rw [← length_operandPieces 0 u, operandPieces_eq, if_pos h]
  simp

/-! ### Brackets -/

theorem countP_isLiteral_operandPieces (s : Sentence) (start : Nat) :
    (s.operandPieces start).countP Piece.isLiteral = 2 * (s.parts.filter isBinary).length := by
  induction s generalizing start with
  | const b => rfl
  | letter l => rfl
  | negation s ih =>
    rw [operandPieces, List.countP_cons_of_neg (by simp [Piece.isLiteral]), ih, parts,
      List.filter_cons_of_neg (by simp [isBinary])]
  | binary c l r ihl ihr =>
    have hfilter : (binary c l r).parts.filter isBinary =
        binary c l r :: (l.parts.filter isBinary ++ r.parts.filter isBinary) := by
      rw [parts, List.filter_cons_of_pos rfl, List.filter_append]
    have hclosing : [Piece.literal [')']].countP Piece.isLiteral = 1 := rfl
    rw [operandPieces, joinedPieces, List.cons_append, List.countP_cons_of_pos rfl,
      List.countP_append, List.countP_append, List.countP_cons_of_neg (by simp [Piece.isLiteral]),
      ihl, ihr, hclosing, hfilter, List.length_cons, List.length_append]
    omega

/-- There are two brackets for each operand with a connective. -/
theorem countP_isLiteral_layout (s : Sentence) :
    s.layout.pieces.countP Piece.isLiteral = 2 * s.bracketedParts.length := by
  rw [bracketedParts, pieces_layout]
  cases s with
  | const b => rfl
  | letter l => rfl
  | negation s =>
    have hoperand := countP_isLiteral_operandPieces s 1
    rw [pieces, List.countP_cons_of_neg (by simp [Piece.isLiteral]), hoperand]
    rfl
  | binary c l r =>
    have hleft := countP_isLiteral_operandPieces l 0
    have hright := countP_isLiteral_operandPieces r (l.width + 1)
    rw [pieces, joinedPieces, List.countP_append,
      List.countP_cons_of_neg (by simp [Piece.isLiteral]), hleft, hright, parts, List.tail_cons,
      List.filter_append, List.length_append]
    omega

end Sentence

/-! ### Where the operands stand -/

namespace Layout

open Sentence

variable {l : Layout} {start : Nat}

/-- From a position on stand the pieces of an operand. -/
def StandsAt (l : Layout) (start : Nat) (u : Sentence) : Prop :=
  ∃ before after, before.length = start ∧ l.pieces = before ++ u.operandPieces start ++ after

theorem StandsAt.operand {u : Sentence} (h : l.StandsAt start (.negation u)) :
    l.StandsAt (start + 1) u := by
  obtain ⟨before, after, hlength, hpieces⟩ := h
  obtain ⟨own, hown⟩ : ∃ own, (negation u).operandPieces start =
      own :: u.operandPieces (start + 1) := ⟨_, rfl⟩
  refine ⟨before ++ [own], after, by simp [hlength], ?_⟩
  rw [hpieces, hown]
  simp

theorem StandsAt.left {c : Connective} {u w : Sentence} (h : l.StandsAt start (.binary c u w)) :
    l.StandsAt (start + 1) u := by
  obtain ⟨before, after, hlength, hpieces⟩ := h
  obtain ⟨own, hown⟩ := operandPieces_binary start c u w
  refine ⟨before ++ [.literal ['(']],
    own :: (w.operandPieces (start + 1 + u.width + 1) ++ .literal [')'] :: after), ?_, ?_⟩
  · rw [List.length_append, hlength]
    rfl
  · rw [hpieces, hown]
    simp

theorem StandsAt.right {c : Connective} {u w : Sentence} (h : l.StandsAt start (.binary c u w)) :
    l.StandsAt (start + 1 + u.width + 1) w := by
  obtain ⟨before, after, hlength, hpieces⟩ := h
  obtain ⟨own, hown⟩ := operandPieces_binary start c u w
  refine ⟨before ++ .literal ['('] :: (u.operandPieces (start + 1) ++ [own]),
    .literal [')'] :: after, ?_, ?_⟩
  · simp only [List.length_append, List.length_cons, length_operandPieces, List.length_nil, hlength]
    omega
  · rw [hpieces, hown]
    simp

/-- The pieces of an operand that are not those of its own operands: its point and its brackets. -/
inductive Owns (start : Nat) (u : Sentence) : Nat → Piece → Prop where
  | point {k : Nat} {p : Point} :
      p.sentence = u → k = start + u.pointOffset → Owns start u k (.point p)
  | opening {k : Nat} : u.isBinary = true → k = start → Owns start u k (.literal ['('])
  | closing {k : Nat} :
      u.isBinary = true → k + 1 = start + u.width → Owns start u k (.literal [')'])

/-- Each piece of an operand is one of its own or of an operand below it. -/
theorem StandsAt.owned {u : Sentence} (h : l.StandsAt start u) {piece : Piece} {k : Nat}
    (hpiece : (piece, k) ∈ (u.operandPieces start).zipIdx start) :
    ∃ m v, l.StandsAt m v ∧ Owns m v k piece := by
  induction u generalizing start with
  | const b =>
    obtain ⟨rfl, rfl⟩ := Prod.mk.inj (List.mem_singleton.mp hpiece)
    exact ⟨_, _, h, .point rfl rfl⟩
  | letter x =>
    obtain ⟨rfl, rfl⟩ := Prod.mk.inj (List.mem_singleton.mp hpiece)
    exact ⟨_, _, h, .point rfl rfl⟩
  | negation u ih =>
    rw [operandPieces, List.zipIdx_cons, List.mem_cons] at hpiece
    rcases hpiece with hroot | hoperand
    · obtain ⟨rfl, rfl⟩ := Prod.mk.inj hroot
      exact ⟨_, _, h, .point rfl rfl⟩
    · exact ih h.operand hoperand
  | binary c u w ihu ihw =>
    simp only [operandPieces, joinedPieces, List.cons_append, List.append_assoc, List.zipIdx_cons,
      List.zipIdx_append, List.zipIdx_nil, length_operandPieces, List.mem_cons, List.mem_append,
      List.not_mem_nil, or_false, Prod.mk.injEq] at hpiece
    rcases hpiece with ⟨rfl, rfl⟩ | hleft | ⟨rfl, hk⟩ | hright | ⟨rfl, hk⟩
    · exact ⟨_, _, h, .opening rfl rfl⟩
    · exact ihu h.left hleft
    · refine ⟨_, _, h, .point rfl ?_⟩
      rw [pointOffset]
      omega
    · exact ihw h.right hright
    · refine ⟨_, _, h, .closing rfl ?_⟩
      rw [width]
      omega

/-- Each piece of a layout but the main one is one of an operand's own. -/
theorem owned_layout {s : Sentence} {piece : Piece} {k : Nat}
    (h : s.layout.pieces[k]? = some piece) :
    (k = s.mainPosition ∧ ∃ p, piece = .point p) ∨
      ∃ m v, s.layout.StandsAt m v ∧ Owns m v k piece := by
  rw [pieces_layout] at h
  have hpiece : (piece, k) ∈ s.pieces.zipIdx := List.mem_zipIdx_iff_getElem?.mpr h
  cases s with
  | const b =>
    obtain ⟨rfl, rfl⟩ := Prod.mk.inj (List.mem_singleton.mp hpiece)
    exact .inl ⟨rfl, _, rfl⟩
  | letter x =>
    obtain ⟨rfl, rfl⟩ := Prod.mk.inj (List.mem_singleton.mp hpiece)
    exact .inl ⟨rfl, _, rfl⟩
  | negation u =>
    rw [Sentence.pieces, List.zipIdx_cons, List.mem_cons] at hpiece
    rcases hpiece with hroot | hoperand
    · obtain ⟨rfl, rfl⟩ := Prod.mk.inj hroot
      exact .inl ⟨rfl, _, rfl⟩
    · have hstands : (negation u).layout.StandsAt 1 u :=
        ⟨[_], [], rfl, (pieces_layout _).trans (List.append_nil _).symm⟩
      exact .inr (hstands.owned hoperand)
  | binary c u w =>
    rw [Sentence.pieces, joinedPieces, List.zipIdx_append, List.zipIdx_cons,
      length_operandPieces] at hpiece
    simp only [List.mem_append, List.mem_cons, Prod.mk.injEq, Nat.zero_add] at hpiece
    rcases hpiece with hleft | ⟨rfl, rfl⟩ | hright
    · have hstands : (binary c u w).layout.StandsAt 0 u := ⟨[], _, rfl, pieces_layout _⟩
      exact .inr (hstands.owned hleft)
    · exact .inl ⟨rfl, _, rfl⟩
    · obtain ⟨own, hown⟩ : ∃ own, (binary c u w).layout.pieces =
          u.operandPieces 0 ++ own :: w.operandPieces (u.width + 1) := ⟨_, pieces_layout _⟩
      have hstands : (binary c u w).layout.StandsAt (u.width + 1) w := by
        refine ⟨u.operandPieces 0 ++ [own], [], by simp [length_operandPieces], ?_⟩
        rw [hown]
        simp
      exact .inr (hstands.owned hright)

/-! ### What stands around a point -/

/-- Where an operand stands, its own point is not the main one. -/
theorem StandsAt.exists_point {u : Sentence} (h : l.StandsAt start u) :
    ∃ p, (start + u.pointOffset, p) ∈ l.points ∧ p.sentence = u ∧ p.isMain = false := by
  obtain ⟨before, after, rfl, hpieces⟩ := h
  have hplaced := placed_operandPieces u before.length
  obtain ⟨p, hp, hsentence⟩ := hplaced.root_mem
  have hmain : p.isMain = false := by
    have hnone := List.filter_eq_nil_iff.mp (hplaced.filter_isMain_of_false rfl) _ hp
    simpa using hnone
  refine ⟨p, ?_, hsentence, hmain⟩
  show _ ∈ pointsFrom 0 l.pieces
  rw [hpieces, pointsFrom_append, pointsFrom_append, Nat.zero_add]
  exact List.mem_append_left _ (List.mem_append_right _ hp)

/-- Only the main point stands for the whole sentence. -/
theorem eq_main_of_sentence_eq {isMain : Bool} {main i : Nat} {s : Sentence} {p : Point}
    (h : Placed isMain main s l.points) (hp : (i, p) ∈ l.points) (hs : p.sentence = s) :
    i = main := by
  rcases Relation.reflTransGen_iff_eq_or_transGen.mp (h.reaches _ hp) with hmain | hpath
  · exact hmain
  · obtain ⟨root, o, hroot, ho, hlt⟩ := exists_of_path h hpath
    obtain ⟨root', hroot', hsentence⟩ := h.root_mem
    rw [point_unique hroot hroot', point_unique ho hp, hsentence, hs] at hlt
    exact absurd hlt (Nat.lt_irrefl _)

/-- An operand is not the whole sentence. -/
theorem StandsAt.ne {s u : Sentence} (h : s.layout.StandsAt start u) : u ≠ s := by
  obtain ⟨p, hp, hsentence, hmain⟩ := h.exists_point
  rintro rfl
  obtain ⟨q, hq, hqmain, -⟩ := u.exists_main
  rw [eq_main_of_sentence_eq u.placed_layout hp hsentence] at hp
  rw [point_unique hp hq, hqmain] at hmain
  cases hmain

/-- From a position on a layout shows the layout of a sentence. If that is a part with a connective,
brackets stand right around it. -/
def ShowsFrom (l : Layout) (start : Nat) (u : Sentence) : Prop :=
  ∃ before after, before.length = start ∧
    l.pieces = before ++ u.layout.pieces.map (Piece.placedAt start (u = l.sentence)) ++ after ∧
    (u.isBinary = true → u ≠ l.sentence →
      before.getLast? = some (.literal ['(']) ∧ after.head? = some (.literal [')']))

theorem showsFrom_whole (s : Sentence) : s.layout.ShowsFrom 0 s := by
  refine ⟨[], [], rfl, ?_, fun _ hne => absurd rfl hne⟩
  have hsame : (s.layout.pieces.map (Piece.placedAt 0 true)) = s.layout.pieces :=
    (List.map_congr_left fun piece _ => piece.placedAt_zero).trans (List.map_id _)
  rw [decide_eq_true (show s = s.layout.sentence from rfl), hsame]
  simp

theorem StandsAt.showsFrom_of_isBinary {u : Sentence} (h : l.StandsAt start u)
    (hne : u ≠ l.sentence) (hbinary : u.isBinary = true) : l.ShowsFrom (start + 1) u := by
  obtain ⟨before, after, hlength, hpieces⟩ := h
  rw [operandPieces_eq, if_pos hbinary] at hpieces
  refine ⟨before ++ [.literal ['(']], .literal [')'] :: after, by simp [hlength], ?_,
    fun _ _ => ⟨List.getLast?_concat, rfl⟩⟩
  rw [hpieces, decide_eq_false hne]
  simp

theorem StandsAt.showsFrom_of_not_isBinary {u : Sentence} (h : l.StandsAt start u)
    (hne : u ≠ l.sentence) (hbinary : u.isBinary = false) : l.ShowsFrom start u := by
  obtain ⟨before, after, hlength, hpieces⟩ := h
  rw [operandPieces_eq, if_neg (by simp [hbinary])] at hpieces
  refine ⟨before, after, hlength, ?_, fun h _ => absurd (hbinary.symm.trans h) nofun⟩
  rw [hpieces, decide_eq_false hne]

theorem Owns.of_point {u : Sentence} {k : Nat} {p : Point} (h : Owns start u k (.point p)) :
    p.sentence = u ∧ k = start + u.pointOffset := by
  cases h with
  | point hsentence hk => exact ⟨hsentence, hk⟩

/-- The brackets stand next to the pieces that the operand has by itself. -/
theorem Owns.of_literal {u : Sentence} {k : Nat} {text : Text}
    (h : Owns start u k (.literal text)) :
    u.isBinary = true ∧ (text = ['('] ∧ k + 1 = start + 1 ∨
      text = [')'] ∧ k = start + 1 + u.layout.pieces.length) := by
  cases h with
  | opening hbinary hk => exact ⟨hbinary, .inl ⟨rfl, congrArg (· + 1) hk⟩⟩
  | closing hbinary hk =>
    rw [width_of_isBinary hbinary] at hk
    exact ⟨hbinary, .inr ⟨rfl, by omega⟩⟩

/-- Around the point of an operand its layout is shown. -/
theorem StandsAt.exists_showsFrom {u : Sentence} (h : l.StandsAt start u) (hne : u ≠ l.sentence) :
    ∃ first, start + u.pointOffset = first + u.mainPosition ∧ l.ShowsFrom first u := by
  cases hbinary : u.isBinary with
  | true =>
    refine ⟨start + 1, ?_, h.showsFrom_of_isBinary hne hbinary⟩
    rw [pointOffset_of_isBinary hbinary]
    omega
  | false =>
    refine ⟨start, ?_, h.showsFrom_of_not_isBinary hne hbinary⟩
    rw [pointOffset_of_not_isBinary hbinary]

/-- A layout is put together from the layouts of the parts of its sentence. -/
structure Composed (l : Layout) : Prop where
  /-- Around a point the layout of its sentence is shown, with the point as its main one. -/
  shown_around : ∀ {i p}, (i, p) ∈ l.points → ∃ start main,
    p.sentence.layout.positionOfMain = .ok main ∧ i = start + main ∧ l.ShowsFrom start p.sentence
  whole_iff : ∀ {i p}, (i, p) ∈ l.points → (p.sentence = l.sentence ↔ l.positionOfMain = .ok i)
  /-- What carries no value is a bracket right before or after a part with a connective. -/
  around_part : ∀ {k text}, l.pieces[k]? = some (.literal text) → ∃ i p start main,
    (i, p) ∈ l.points ∧ p.sentence.isBinary = true ∧ p.sentence ≠ l.sentence ∧
    p.sentence.layout.positionOfMain = .ok main ∧ i = start + main ∧
    l.ShowsFrom start p.sentence ∧
    (text = ['('] ∧ k + 1 = start ∨
      text = [')'] ∧ k = start + p.sentence.layout.pieces.length)
  two_each : l.pieces.countP Piece.isLiteral = 2 * l.sentence.bracketedParts.length

end Layout

/-- **A layout is composed of the layouts of the parts of its sentence.** Around each point stands
the layout of its sentence in one piece, its operand positions moved to where it starts and without
a main point of its own. A part with a connective stands between brackets, and there are no others:
two for each connective below the root. -/
theorem Sentence.layout_composes (s : Sentence) : s.layout.Composed := by
  constructor
  case shown_around =>
    intro i p hp
    rcases Layout.owned_layout (Layout.mem_points.mp hp) with ⟨rfl, -⟩ | ⟨m, v, hstands, howns⟩
    · obtain ⟨q, hq, -, hsentence⟩ := s.exists_main
      rw [Layout.point_unique hp hq, hsentence]
      exact ⟨0, s.mainPosition, s.positionOfMain_layout, (Nat.zero_add _).symm,
        Layout.showsFrom_whole s⟩
    · obtain ⟨hsentence, rfl⟩ := howns.of_point
      obtain ⟨start, hstart, hshows⟩ := hstands.exists_showsFrom hstands.ne
      rw [hsentence]
      exact ⟨start, v.mainPosition, v.positionOfMain_layout, hstart, hshows⟩
  case whole_iff =>
    intro i p hp
    rw [s.positionOfMain_layout, Except.ok.injEq]
    constructor
    · exact fun hs => (Layout.eq_main_of_sentence_eq s.placed_layout hp hs).symm
    · rintro rfl
      obtain ⟨q, hq, -, hsentence⟩ := s.exists_main
      rw [Layout.point_unique hp hq, hsentence]
      rfl
  case around_part =>
    intro k text hk
    rcases Layout.owned_layout hk with ⟨-, p, hliteral⟩ | ⟨m, v, hstands, howns⟩
    · cases hliteral
    · obtain ⟨p, hp, hsentence, -⟩ := hstands.exists_point
      have hne : v ≠ s := hstands.ne
      obtain ⟨hbinary, hbracket⟩ := howns.of_literal
      have hoffset := pointOffset_of_isBinary hbinary
      refine ⟨m + v.pointOffset, p, m + 1, v.mainPosition, hp, ?_⟩
      rw [hsentence]
      exact ⟨hbinary, hne, v.positionOfMain_layout, by omega,
        hstands.showsFrom_of_isBinary hne hbinary, hbracket⟩
  case two_each => exact s.countP_isLiteral_layout

end Propositional
