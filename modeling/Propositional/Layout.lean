import Propositional.Evaluation
import Propositional.Position
import Propositional.Sentence.Rendering

/-! Layouts: a sentence as the row of pieces it is displayed with. The whole sentence is not
bracketed, every connective below it is, and a negation stands right before its operand. Each
node of the tree has exactly one point, the piece that carries its truth value: the letter, the
constant or the sign itself. Brackets are literal pieces without a value. A point records where
the points of its operands stand, so two equal sentences at different places stay apart.

The pieces are put down one behind the other. When the sign of a negation or a connective is put
down, an operand behind it is still to come, so its point holds its place without operands and is
replaced as soon as the operand has its own. `pieces_layout` says what is left in the end: the
pieces of a sentence are those of its parts, moved to where these stand. -/
namespace Propositional

/-- The piece that carries the value of a sentence. -/
structure Point where
  text : Text
  sentence : Sentence
  isMain : Bool
  operands : List Int
deriving DecidableEq

inductive Piece where
  | literal (text : Text)
  | point (p : Point)
deriving DecidableEq

namespace Piece

def text : Piece → Text
  | literal t => t
  | point p => p.text

def point? : Piece → Option Point
  | literal _ => none
  | point p => some p

end Piece

/-- A sentence and the pieces it is displayed with. -/
structure Layout where
  sentence : Sentence
  pieces : List Piece
deriving DecidableEq

/-- Why a layout does not give what was asked for. -/
inductive LayoutError where
  | outOfRange
  | noValue (position : Int) (text : Text)
  | noMain
deriving DecidableEq

def LayoutError.message : LayoutError → Text
  | outOfRange => Position.outOfRangeMessage
  | noValue position text =>
    "Token ".toList ++ Text.ofInt position ++ [' ', '('] ++ Text.quoted text ++
      ") carries no value".toList
  | noMain => "Layout has no main connective".toList

/-! ### Laying a sentence out -/

namespace Connective

/-- The text of a connective's point; the arrows are set off by spaces. -/
def pointText : Connective → Text
  | conditional => [' ', conditional.sign, ' ']
  | biconditional => [' ', biconditional.sign, ' ']
  | c => [c.sign]

end Connective

/-- Work on the pieces that have been put down. -/
abbrev Draft := StateM (Array Piece)

namespace Draft

/-- Puts a piece down behind the others and tells where it stands. -/
def emit (piece : Piece) : Draft Nat := modifyGet fun pieces => (pieces.size, pieces.push piece)

/-- Puts a piece in the place of the one at a position. -/
def replace (position : Nat) (piece : Piece) : Draft Unit :=
  modify fun pieces => pieces.setIfInBounds position piece

end Draft

namespace Sentence
open Draft

/-- Puts two operands down with the point of their connective between them. -/
def draftJoined (isMain : Bool) (c : Connective) (l r : Sentence) (left right : Draft Nat) :
    Draft Nat := do
  let i ← left
  let position ← emit (.point ⟨c.pointText, .binary c l r, isMain, []⟩)
  let j ← right
  replace position (.point ⟨c.pointText, .binary c l r, isMain, [(i : Int), (j : Int)]⟩)
  return position

/-- Puts a sentence down and tells where its point stands. Only at the top level a connective has
no brackets around it. -/
def draft (isMain topLevel : Bool) : Sentence → Draft Nat
  | const b => emit (.point ⟨[constantSign b], .const b, isMain, []⟩)
  | letter l => emit (.point ⟨l.name, .letter l, isMain, []⟩)
  | negation s => do
    let position ← emit (.point ⟨['~'], .negation s, isMain, []⟩)
    let operand ← s.draft false false
    replace position (.point ⟨['~'], .negation s, isMain, [(operand : Int)]⟩)
    return position
  | binary c l r =>
    let joined := draftJoined isMain c l r (l.draft false false) (r.draft false false)
    if topLevel then joined
    else do
      let _ ← emit (.literal ['('])
      let position ← joined
      let _ ← emit (.literal [')'])
      return position

def layout (s : Sentence) : Layout := ⟨s, ((s.draft true true).run #[]).2.toList⟩

/-! ### The pieces of the parts of a sentence -/

/-- The number of pieces of a sentence as an operand. -/
def width : Sentence → Nat
  | const _ | letter _ => 1
  | negation s => s.width + 1
  | binary _ l r => l.width + r.width + 3

/-- How far the point of an operand stands from its first piece. -/
def pointOffset : Sentence → Nat
  | const _ | letter _ | negation _ => 0
  | binary _ l _ => l.width + 1

/-- The pieces of two operands, the first of them at a given position, around their connective. -/
def joinedPieces (start : Nat) (isMain : Bool) (c : Connective) (l r : Sentence)
    (left right : List Piece) : List Piece :=
  let position := start + l.width
  left ++ .point ⟨c.pointText, .binary c l r, isMain,
    [(start + l.pointOffset : Nat), (position + 1 + r.pointOffset : Nat)]⟩ :: right

/-- The pieces of an operand whose first piece is at a given position. -/
def operandPieces (start : Nat) : Sentence → List Piece
  | const b => [.point ⟨[constantSign b], .const b, false, []⟩]
  | letter l => [.point ⟨l.name, .letter l, false, []⟩]
  | negation s =>
    .point ⟨['~'], .negation s, false, [(start + 1 + s.pointOffset : Nat)]⟩ ::
      s.operandPieces (start + 1)
  | binary c l r =>
    .literal ['('] ::
      joinedPieces (start + 1) false c l r (l.operandPieces (start + 1))
        (r.operandPieces (start + 1 + l.width + 1)) ++ [.literal [')']]

/-- The pieces of a whole sentence. -/
def pieces : Sentence → List Piece
  | const b => [.point ⟨[constantSign b], .const b, true, []⟩]
  | letter l => [.point ⟨l.name, .letter l, true, []⟩]
  | negation s =>
    .point ⟨['~'], .negation s, true, [(1 + s.pointOffset : Nat)]⟩ :: s.operandPieces 1
  | binary c l r =>
    joinedPieces 0 true c l r (l.operandPieces 0) (r.operandPieces (l.width + 1))

theorem length_operandPieces (start : Nat) (s : Sentence) :
    (s.operandPieces start).length = s.width := by
  induction s generalizing start with
  | const b => rfl
  | letter l => rfl
  | negation s ih => simp [operandPieces, width, ih]
  | binary c l r ihl ihr =>
    simp only [operandPieces, joinedPieces, width, List.length_cons, List.length_append, ihl, ihr,
      List.length_nil]
    omega

end Sentence

/-! ### What a draft leaves -/

namespace Draft

/-- What is done next goes on from what a draft has left. -/
theorem run_bind_of_run {α β : Type} {m : Draft α} {next : α → Draft β} {a : α}
    {pieces pieces' : Array Piece} (h : m.run pieces = pure (a, pieces')) :
    (m >>= next).run pieces = (next a).run pieces' := by
  rw [StateT.run_bind, h, pure_bind]

theorem run_emit (before : List Piece) (piece : Piece) :
    (emit piece).run before.toArray = pure (before.length, (before ++ [piece]).toArray) := by
  simp [emit]

theorem run_replace (before after : List Piece) (held piece : Piece) :
    (replace before.length piece).run (before ++ [held] ++ after).toArray =
      pure ((), (before ++ [piece] ++ after).toArray) := by
  simp [replace]

variable {α : Type} {before after : List Piece} {held piece : Piece}

theorem run_emit_bind {next : Nat → Draft α} : (emit piece >>= next).run before.toArray =
    (next before.length).run (before ++ [piece]).toArray :=
  run_bind_of_run (run_emit before piece)

theorem run_replace_bind {next : Unit → Draft α} :
    (replace before.length piece >>= next).run (before ++ [held] ++ after).toArray =
      (next ()).run (before ++ [piece] ++ after).toArray :=
  run_bind_of_run (run_replace before after held piece)

/-- A draft puts a sentence down as an operand, behind whatever is there. -/
def PutsDown (m : Draft Nat) (s : Sentence) : Prop :=
  ∀ before : List Piece, m.run before.toArray =
    pure (before.length + s.pointOffset, (before ++ s.operandPieces before.length).toArray)

end Draft

namespace Sentence
open Draft

theorem run_draftJoined {l r : Sentence} {left right : Draft Nat} (hl : left.PutsDown l)
    (hr : right.PutsDown r) (isMain : Bool) (c : Connective) (before : List Piece) :
    (draftJoined isMain c l r left right).run before.toArray =
      pure (before.length + l.width, (before ++ joinedPieces before.length isMain c l r
        (l.operandPieces before.length)
        (r.operandPieces (before.length + l.width + 1))).toArray) := by
  rw [draftJoined, run_bind_of_run (hl before), run_emit_bind, run_bind_of_run (hr _),
    run_replace_bind, StateT.run_pure]
  simp [joinedPieces, length_operandPieces, Nat.add_assoc]

theorem draft_putsDown (s : Sentence) : (s.draft false false).PutsDown s := by
  induction s with
  | const b => exact fun before => run_emit before _
  | letter l => exact fun before => run_emit before _
  | negation s ih =>
    intro before
    rw [draft, run_emit_bind, run_bind_of_run (ih _), run_replace_bind, StateT.run_pure]
    simp [operandPieces, pointOffset]
  | binary c l r ihl ihr =>
    intro before
    rw [draft, if_neg Bool.false_ne_true, run_emit_bind,
      run_bind_of_run (run_draftJoined ihl ihr false c _), run_emit_bind, StateT.run_pure]
    simp [operandPieces, pointOffset, Nat.add_assoc, Nat.add_comm 1]

/-- A layout has the pieces of the whole sentence. -/
theorem pieces_layout (s : Sentence) : s.layout.pieces = s.pieces := by
  suffices ∃ position, (s.draft true true).run #[] = pure (position, s.pieces.toArray) by
    obtain ⟨position, hrun⟩ := this
    rw [layout, hrun]
    rfl
  cases s with
  | const b => exact ⟨0, run_emit [] _⟩
  | letter l => exact ⟨0, run_emit [] _⟩
  | negation s =>
    have hpoint := run_emit [] (.point ⟨['~'], .negation s, true, []⟩)
    refine ⟨0, ?_⟩
    rw [draft, run_bind_of_run hpoint, run_bind_of_run (s.draft_putsDown _), run_replace_bind,
      StateT.run_pure]
    rfl
  | binary c l r =>
    refine ⟨0 + l.width, ?_⟩
    rw [draft, if_pos rfl, run_draftJoined l.draft_putsDown r.draft_putsDown true c []]
    simp [pieces]

end Sentence

/-! ### Reading a layout -/

namespace Layout

/-- The text of a layout, which is that of its pieces. -/
def text (l : Layout) : Text := l.pieces.flatMap Piece.text

/-- The points with their positions, left to right. -/
def points (l : Layout) : List (Nat × Point) :=
  l.pieces.zipIdx.filterMap fun (piece, i) => piece.point?.map (i, ·)

def pointPositions (l : Layout) : List Nat := l.points.map Prod.fst

/-- The position of the first point that is marked as the main one. -/
def positionOfMain (l : Layout) : Except LayoutError Nat :=
  match l.points.find? fun p => p.2.isMain with
  | some p => .ok p.1
  | none => .error .noMain

/-- The point at a position. -/
def pointAt (l : Layout) (position : Int) : Except LayoutError Point :=
  match Position.get? l.pieces position with
  | some (.point p) => .ok p
  | some (.literal text) => .error (.noValue position text)
  | none => .error .outOfRange

/-- Numbers the points of a row of pieces from a given number on. -/
def numberFrom (next : Nat) : List Piece → List (Option Nat)
  | [] => []
  | .literal _ :: rest => none :: numberFrom next rest
  | .point _ :: rest => some next :: numberFrom (next + 1) rest

/-- For every piece its number among the points, from 1; a literal piece has none. -/
def pieceNumbers (l : Layout) : List (Option Nat) := numberFrom 1 l.pieces

/-- The positions of each sentence of a layout. -/
def sentencePositions (l : Layout) : Bindings Sentence (List Nat) :=
  l.points.foldl
    (fun found p => found.insert p.2.sentence (((found.get? p.2.sentence).getD []) ++ [p.1]))
    .empty

/-- The value of a point under an assignment. -/
structure PointValue where
  position : Nat
  text : Text
  value : Bool
  isMain : Bool
deriving DecidableEq

def evaluatePoint (a : Assignment) (p : Nat × Point) : Evaluation PointValue :=
  (p.2.sentence.evaluation a).andThen fun value =>
    .value ⟨p.1, p.2.text, value, p.2.isMain⟩

/-- The values of all points, left to right. -/
def evaluate (a : Assignment) (l : Layout) : Evaluation (List PointValue) :=
  l.points.mapM (evaluatePoint a)

end Layout

end Propositional
