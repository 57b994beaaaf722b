import Propositional.Proofs.Sentence.CompactForm
import Propositional.Proofs.Sentence.DisplayedForms

/-! The renderings of a sentence differ in gaps and in the signs of the constants only.

Of the gaps in the spaced form a layout keeps those next to an arrow (`withoutGaps`), and the
compact form keeps none and has letters for the constants (`condensed`). Brackets are the same in
all three: what stands between a bracket and the one that closes it (`bracketContents`) is the
rendering of an operand with a connective, and every such operand stands between brackets.
`renderings_agree` puts this together. -/
namespace Propositional.Sentence

/-! ### Gaps -/

def isArrow (c : Char) : Bool := c == '→' || c == '↔'

theorem isArrow_eq_false_iff {c : Char} : isArrow c = false ↔ c ≠ '→' ∧ c ≠ '↔' := by
  simp [isArrow]

theorem isArrow_of_mem_name {l : Letter} {c : Char} (hc : c ∈ l.name) : isArrow c = false :=
  isArrow_eq_false_iff.mpr
    ⟨ne_of_mem_name hc (by decide) (by decide), ne_of_mem_name hc (by decide) (by decide)⟩

/-- A text without the spaces that have no arrow next to them; before its first character there
may be an arrow. -/
def dropGaps (afterArrow : Bool) : Text → Text
  | [] => []
  | c :: rest =>
    if c == ' ' && !afterArrow && !rest.head?.any isArrow then dropGaps (isArrow c) rest
    else c :: dropGaps (isArrow c) rest

def withoutGaps (t : Text) : Text := dropGaps false t

theorem dropGaps_cons {c : Char} (hc : c ≠ ' ') (afterArrow : Bool) (t : Text) :
    dropGaps afterArrow (c :: t) = c :: dropGaps (isArrow c) t := by
  simp [dropGaps, hc]

/-- Only the last character of a text without gaps matters for what follows it. -/
theorem dropGaps_of_solid {w : Text} (hne : w ≠ []) (h : ∀ c ∈ w, c ≠ ' ' ∧ isArrow c = false)
    (afterArrow : Bool) (t : Text) : dropGaps afterArrow (w ++ t) = w ++ dropGaps false t := by
  induction w generalizing afterArrow with
  | nil => exact absurd rfl hne
  | cons c rest ih =>
    obtain ⟨hc, harrow⟩ := h c List.mem_cons_self
    rw [List.cons_append, dropGaps_cons hc, harrow]
    cases rest with
    | nil => rfl
    | cons d rest =>
      rw [ih (List.cons_ne_nil d rest) fun x hx => h x (List.mem_cons_of_mem c hx)]
      rfl

theorem dropGaps_name (l : Letter) (afterArrow : Bool) (t : Text) :
    dropGaps afterArrow (l.name ++ t) = l.name ++ dropGaps false t := by
  refine dropGaps_of_solid (List.cons_ne_nil _ _) (fun c hc => ?_) afterArrow t
  exact ⟨ne_of_mem_name hc (by decide) (by decide), isArrow_of_mem_name hc⟩

theorem isArrow_firstChar (s : Sentence) : isArrow s.firstChar = false := by
  cases s with
  | const b => cases b <;> rfl
  | letter l => exact isArrow_of_mem_name (l := l) List.mem_cons_self
  | negation s => rfl
  | binary c l r => rfl

/-- Around an arrow the gaps stay, as what stands next to them is an arrow and no operand begins
with one. -/
theorem dropGaps_gappedSign (c : Connective) (r : Sentence) (t : Text) :
    dropGaps false (gappedSign c ++ (r.operandWith gappedSign ++ t)) =
      c.pointText ++ dropGaps false (r.operandWith gappedSign ++ t) := by
  obtain ⟨rest, hr⟩ := operandWith_eq_cons gappedSign r
  obtain ⟨hone, hother⟩ := isArrow_eq_false_iff.mp (isArrow_firstChar r)
  rw [hr, List.cons_append]
  cases c <;>
    simp [gappedSign, Connective.sign, Connective.pointText, dropGaps, isArrow, hone, hother]

theorem dropGaps_operandWith (s : Sentence) (afterArrow : Bool) (t : Text) :
    dropGaps afterArrow (s.operandWith gappedSign ++ t) =
      s.operandWith Connective.pointText ++ dropGaps false t := by
  induction s generalizing afterArrow t with
  | const b => cases b <;> exact dropGaps_cons (by decide) afterArrow t
  | letter l => exact dropGaps_name l afterArrow t
  | negation s ih =>
    rw [operandWith, List.cons_append, dropGaps_cons (by decide), ih]
    rfl
  | binary c l r ihl ihr =>
    have hclosing : dropGaps false (')' :: t) = ')' :: dropGaps false t :=
      dropGaps_cons (by decide) false t
    simp only [operandWith, bracketed, List.cons_append, List.append_assoc, List.nil_append]
    rw [dropGaps_cons (by decide), ihl, dropGaps_gappedSign, ihr, hclosing]

theorem withoutGaps_spaced (s : Sentence) : withoutGaps s.spaced = s.layout.text := by
  have hwhole (s : Sentence) :
      dropGaps false (s.operandWith gappedSign) = s.operandWith Connective.pointText := by
    simpa [dropGaps] using dropGaps_operandWith s false []
  rw [spaced_eq, text_layout]
  cases s with
  | binary c l r =>
    have hright := dropGaps_gappedSign c r []
    rw [List.append_nil, hwhole] at hright
    simp only [withoutGaps, formWith, List.append_assoc]
    rw [dropGaps_operandWith, hright]
  | _ => exact hwhole _

/-! ### Constants -/

/-- The sign of a constant as a letter; any other character as it is. -/
def plainSign (c : Char) : Char := if c = '⊤' then 'T' else if c = '⊥' then 'F' else c

/-- A text without spaces and with letters for the constants. -/
def condensed (t : Text) : Text := (t.filter (· != ' ')).map plainSign

theorem condensed_append (t t' : Text) : condensed (t ++ t') = condensed t ++ condensed t' := by
  rw [condensed, List.filter_append, List.map_append]
  rfl

theorem condensed_name (l : Letter) : condensed l.name = l.name := by
  have hfilter : l.name.filter (· != ' ') = l.name :=
    List.filter_eq_self.mpr fun c hc => bne_iff_ne.mpr (ne_of_mem_name hc (by decide) (by decide))
  have hmap : ∀ c ∈ l.name, plainSign c = c := fun c hc => by
    rw [plainSign, if_neg (ne_of_mem_name hc (by decide) (by decide)),
      if_neg (ne_of_mem_name hc (by decide) (by decide))]
  rw [condensed, hfilter, List.map_congr_left hmap, List.map_id']

theorem condensed_gappedSign (c : Connective) : condensed (gappedSign c) = [c.sign] := by
  cases c <;> decide

theorem condensed_operandWith (s : Sentence) :
    condensed (s.operandWith gappedSign) = s.lettered.operandWith fun c => [c.sign] := by
  induction s with
  | const b => cases b <;> rfl
  | letter l => exact condensed_name l
  | negation s ih => exact congrArg ('~' :: ·) ih
  | binary c l r ihl ihr =>
    have hbracketed (t : Text) : condensed (bracketed t) = bracketed (condensed t) := by
      show '(' :: condensed (t ++ [')']) = _
      rw [condensed_append]
      rfl
    simp only [operandWith, lettered, hbracketed, condensed_append, condensed_gappedSign, ihl, ihr]

theorem condensed_spaced (s : Sentence) : condensed s.spaced = s.compact := by
  rw [spaced_eq, compact_eq]
  cases s with
  | binary c l r =>
    simp only [formWith, lettered, condensed_append, condensed_gappedSign, condensed_operandWith]
  | _ => exact condensed_operandWith _

/-! ### Brackets -/

/-- A text up to the bracket that closes the one in front of it, with some more open inside that
one. -/
def upToClosing (opened : Nat) : Text → Text
  | [] => []
  | c :: rest =>
    if c = '(' then c :: upToClosing (opened + 1) rest
    else if c = ')' then if opened = 0 then [] else c :: upToClosing (opened - 1) rest
    else c :: upToClosing opened rest

/-- What stands between each opening bracket of a text and the one that closes it, in the order of
the opening brackets. -/
def bracketContents : Text → List Text
  | [] => []
  | c :: rest =>
    if c = '(' then upToClosing 0 rest :: bracketContents rest else bracketContents rest

/-- The parts of a sentence, each before its own parts and the left one before the right one. -/
def parts : Sentence → List Sentence
  | const b => [const b]
  | letter l => [letter l]
  | negation s => negation s :: s.parts
  | binary c l r => binary c l r :: (l.parts ++ r.parts)

/-- The operands with a connective, wherever they stand in a sentence. -/
def bracketedParts (s : Sentence) : List Sentence := s.parts.tail.filter isBinary

def Bracketless (t : Text) : Prop := ∀ c ∈ t, c ≠ '(' ∧ c ≠ ')'

theorem bracketless_constantSign (b : Bool) : Bracketless [constantSign b] := by
  cases b <;> simp [Bracketless, constantSign]

theorem bracketless_sign (c : Connective) : Bracketless [c.sign] := by
  cases c <;> simp [Bracketless, Connective.sign]

theorem bracketless_gappedSign (c : Connective) : Bracketless (gappedSign c) := by
  cases c <;> simp [Bracketless, gappedSign, Connective.sign]

theorem bracketless_pointText (c : Connective) : Bracketless c.pointText := by
  cases c <;> simp [Bracketless, Connective.pointText, Connective.sign]

theorem bracketless_name (l : Letter) : Bracketless l.name := fun _ hc =>
  ⟨ne_of_mem_name hc (by decide) (by decide), ne_of_mem_name hc (by decide) (by decide)⟩

theorem upToClosing_of_bracketless {w : Text} (hw : Bracketless w) (opened : Nat) (t : Text) :
    upToClosing opened (w ++ t) = w ++ upToClosing opened t := by
  induction w with
  | nil => rfl
  | cons c rest ih =>
    obtain ⟨hopening, hclosing⟩ := hw c List.mem_cons_self
    rw [List.cons_append, upToClosing, if_neg hopening, if_neg hclosing,
      ih fun x hx => hw x (List.mem_cons_of_mem c hx)]
    rfl

theorem bracketContents_of_bracketless {w : Text} (hw : Bracketless w) (t : Text) :
    bracketContents (w ++ t) = bracketContents t := by
  induction w with
  | nil => rfl
  | cons c rest ih =>
    rw [List.cons_append, bracketContents, if_neg (hw c List.mem_cons_self).1,
      ih fun x hx => hw x (List.mem_cons_of_mem c hx)]

section
variable {joint : Connective → Text} (hjoint : ∀ c, Bracketless (joint c))
include hjoint

/-- An operand closes every bracket that it opens. -/
theorem upToClosing_operandWith (s : Sentence) (opened : Nat) (t : Text) :
    upToClosing opened (s.operandWith joint ++ t) =
      s.operandWith joint ++ upToClosing opened t := by
  induction s generalizing opened t with
  | const b =>
    exact upToClosing_of_bracketless (bracketless_constantSign b) opened t
  | letter l => exact upToClosing_of_bracketless (bracketless_name l) opened t
  | negation s ih =>
    show '~' :: upToClosing opened (s.operandWith joint ++ t) = _
    rw [ih]
    rfl
  | binary c l r ihl ihr =>
    simp only [operandWith, bracketed, List.cons_append, List.append_assoc, List.nil_append]
    show '(' :: upToClosing (opened + 1)
      (l.operandWith joint ++ (joint c ++ (r.operandWith joint ++ ')' :: t))) = _
    rw [ihl, upToClosing_of_bracketless (hjoint c), ihr]
    rfl

theorem upToClosing_joined (c : Connective) (l r : Sentence) (t : Text) :
    upToClosing 0 ((binary c l r).formWith joint ++ ')' :: t) = (binary c l r).formWith joint := by
  simp only [formWith, List.append_assoc]
  rw [upToClosing_operandWith hjoint, upToClosing_of_bracketless (hjoint c),
    upToClosing_operandWith hjoint]
  simp [upToClosing]

theorem bracketContents_operandWith (s : Sentence) (t : Text) :
    bracketContents (s.operandWith joint ++ t) =
      (s.parts.filter isBinary).map (formWith joint) ++ bracketContents t := by
  induction s generalizing t with
  | const b =>
    exact bracketContents_of_bracketless (bracketless_constantSign b) t
  | letter l => exact bracketContents_of_bracketless (bracketless_name l) t
  | negation s ih => exact ih t
  | binary c l r ihl ihr =>
    have hinner : bracketContents ((binary c l r).formWith joint ++ ')' :: t) =
        ((l.parts ++ r.parts).filter isBinary).map (formWith joint) ++ bracketContents t := by
      simp only [formWith, List.append_assoc]
      rw [ihl, bracketContents_of_bracketless (hjoint c), ihr]
      simp [bracketContents]
    have hopened : (binary c l r).operandWith joint ++ t =
        '(' :: ((binary c l r).formWith joint ++ ')' :: t) := by
      simp [operandWith, formWith, bracketed]
    rw [hopened, bracketContents, if_pos rfl, upToClosing_joined hjoint, hinner]
    rfl

theorem bracketContents_formWith (s : Sentence) :
    bracketContents (s.formWith joint) = s.bracketedParts.map (formWith joint) := by
  have hwhole (s : Sentence) : bracketContents (s.operandWith joint) =
      (s.parts.filter isBinary).map (formWith joint) := by
    simpa [bracketContents] using bracketContents_operandWith hjoint s []
  cases s with
  | binary c l r =>
    simp only [formWith, bracketedParts, parts, List.tail_cons, List.append_assoc]
    rw [bracketContents_operandWith hjoint, bracketContents_of_bracketless (hjoint c), hwhole,
      List.filter_append, List.map_append]
  | _ => exact hwhole _

end

/-! ### Letters for constants change no part -/

theorem isBinary_lettered (s : Sentence) : s.lettered.isBinary = s.isBinary := by
  cases s <;> rfl

theorem parts_lettered (s : Sentence) : s.lettered.parts = s.parts.map lettered := by
  induction s with
  | const b => rfl
  | letter l => rfl
  | negation s ih =>
    rw [lettered, parts, ih]
    rfl
  | binary c l r ihl ihr =>
    rw [lettered, parts, ihl, ihr, ← List.map_append]
    rfl

theorem bracketedParts_lettered (s : Sentence) :
    s.lettered.bracketedParts = s.bracketedParts.map lettered := by
  rw [bracketedParts, parts_lettered, ← List.map_tail, List.filter_map]
  simp only [Function.comp_def, isBinary_lettered]
  rfl

/-- **The renderings of a sentence agree.** The text of the layout is the spaced form without the
gaps that have no arrow next to them; the compact form is the spaced form without any gaps and with
letters for the constants. The brackets of each stand around the operands with a connective, one
pair around each, and around nothing else. -/
theorem renderings_agree (s : Sentence) :
    withoutGaps s.spaced = s.layout.text ∧ condensed s.spaced = s.compact ∧
      bracketContents s.spaced = s.bracketedParts.map spaced ∧
      bracketContents s.layout.text = s.bracketedParts.map (fun u => u.layout.text) ∧
      bracketContents s.compact = s.bracketedParts.map compact := by
  refine ⟨withoutGaps_spaced s, condensed_spaced s, ?_, ?_, ?_⟩
  · have hspaced : spaced = formWith gappedSign := funext spaced_eq
    rw [hspaced]
    exact bracketContents_formWith bracketless_gappedSign s
  · simp only [text_layout]
    exact bracketContents_formWith bracketless_pointText s
  · rw [compact_eq, bracketContents_formWith bracketless_sign, bracketedParts_lettered,
      List.map_map]
    exact List.map_congr_left fun u _ => (compact_eq u).symm

end Propositional.Sentence
