import Propositional.Proofs.Formula.Derivation

/-! What may still become a formula of the full grammar.

Symbols are viable if more symbols make them a sentence of the full grammar. Whatever has been read
is viable (`viable_of_read`). The converse goes through the outline of a reading, which forgets
everything but the open brackets and whether an operand is wanted: no phrase of the full grammar
stops it, rejected shapes included, and each move of the reading is one of its outline. So where no
mistake hides, a symbol makes a move exactly when it leaves what has been read viable
(`exists_move_iff_viable`). -/
namespace Propositional.Reading
open Grammar Propositional.Symbol

/-- Symbols that more symbols make a sentence of the full grammar. -/
def Viable (w : List Symbol) : Prop := ∃ v, Full .sentence (w ++ v)

/-! ### Outlines -/

/-- The open brackets, the innermost first, and whether an operand is wanted or held. -/
inductive Outline where
  | wanting (brackets : List Bracket)
  | holding (brackets : List Bracket)

def Outline.move : Symbol → Outline → Option Outline
  | .letter _, .wanting bs => some (.holding bs)
  | .negation, .wanting bs => some (.wanting bs)
  | .opening b, .wanting bs => some (.wanting (b :: bs))
  | .connective _, .holding bs => some (.wanting bs)
  | .closing b, .holding (b' :: bs) => if b = b' then some (.holding bs) else none
  | _, _ => none

def Outline.run : List Symbol → Outline → Option Outline
  | [], o => some o
  | x :: w, o => (o.move x).bind (run w)

theorem Outline.run_append (u v : List Symbol) (o : Outline) :
    run (u ++ v) o = (run u o).bind (run v) := by
  induction u generalizing o with
  | nil => rfl
  | cons x u ih =>
    show (o.move x).bind (run (u ++ v)) = ((o.move x).bind (run u)).bind (run v)
    rw [Option.bind_assoc]
    exact congrArg _ (funext ih)

theorem Outline.run_of_append {u v : List Symbol} {o o' : Outline} (h : run u o = some o') :
    run (u ++ v) o = run v o' := by
  rw [run_append, h]
  rfl

theorem Outline.run_enclose {b : Bracket} {w : List Symbol} {bs : List Bracket}
    (h : run w (.wanting (b :: bs)) = some (.holding (b :: bs))) :
    run (enclose b w) (.wanting bs) = some (.holding bs) := by
  show run (w ++ [.closing b]) (.wanting (b :: bs)) = _
  rw [run_of_append h]
  simp [run, move]

/-- A phrase of the full grammar fills the place of an operand, inside any brackets. -/
theorem Outline.run_of_full {k : Category} {w : List Symbol} (h : Full k w) (bs : List Bracket) :
    run w (.wanting bs) = some (.holding bs) := by
  induction h generalizing bs with
  | ofBinary _ ih => exact ih bs
  | ofFactor _ ih => exact ih bs
  | joined c _ _ ihu ihv =>
    rw [run_of_append (ihu bs)]
    exact ihv bs
  | chained c _ _ ihu ihv =>
    rw [run_of_append (ihu bs)]
    exact ihv bs
  | ofBare _ ih => exact ih bs
  | ofBracketed _ ih => exact ih bs
  | letter l => rfl
  | negation _ ih => exact ih bs
  | around b _ ih => exact run_enclose (ih (b :: bs))
  | again b _ ih => exact run_enclose (ih (b :: bs))
  | needless b _ ih => exact run_enclose (ih (b :: bs))

theorem Outline.run_of_viable {w : List Symbol} (h : Viable w) :
    ∃ o, run w (.wanting []) = some o := by
  obtain ⟨v, hv⟩ := h
  have hrun := run_of_full hv []
  rw [run_append] at hrun
  obtain ⟨o, ho, -⟩ := Option.bind_eq_some_iff.mp hrun
  exact ⟨o, ho⟩

/-! ### The outline of a reading -/

def bracket? : Obligation → Option Bracket
  | .partner b => some b
  | .operand | .right .. => none

/-- The brackets that wait for their partner. -/
def brackets (stack : List Obligation) : List Bracket := stack.filterMap bracket?

def State.outline : State → Outline
  | .wanting stack => .wanting (brackets stack)
  | .holding stack _ => .holding (brackets stack)

theorem brackets_settle {s : Sentence} {stack rest : List Obligation} {phrase : Phrase}
    (h : settle s stack = .ok (phrase, rest)) : brackets stack = brackets rest := by
  induction stack generalizing s with
  | nil => cases h; rfl
  | cons obligation stack ih =>
    cases obligation with
    | operand => exact ih h
    | partner b => cases h; rfl
    | right left c chained =>
      cases chained with
      | false => cases h; rfl
      | true => cases h

theorem brackets_settleOperand {o : Operand} {stack rest : List Obligation} {phrase : Phrase}
    (h : settleOperand stack o = .ok (phrase, rest)) : brackets stack = brackets rest := by
  cases o with
  | sentence s => exact brackets_settle h
  | needless => cases h

theorem outline_move {x : Symbol} {state next : State} (h : Move x state next) :
    state.outline.move x = some next.outline := by
  cases h with
  | letter l stack => rfl
  | negation stack => rfl
  | opening b stack => rfl
  | connective c hset =>
    simp only [State.outline, brackets_settleOperand hset]
    rfl
  | @closing b stack rest o phrase hset =>
    have hb : brackets stack = b :: brackets rest := brackets_settleOperand hset
    simp [State.outline, hb, Outline.move]

theorem outline_moves {w : List Symbol} {state next : State} (h : Moves state w next) :
    Outline.run w state.outline = some next.outline := by
  induction h with
  | nil state => rfl
  | cons hx _ ih =>
    rw [Outline.run, outline_move hx]
    exact ih

/-! ### What has been read is viable -/

/-- Where an operand is wanted, some ending makes a sentence with any operand, and, where a phrase
starts, with any two operands that are joined as well. -/
theorem completes_of_pending {w : List Symbol} {stack : List Obligation} (h : Pending w stack) :
    ∃ v, (∀ u, Full .factor u → Full .sentence (w ++ u ++ v)) ∧
      (AtStart stack → ∀ u, Full .binary u → Full .sentence (w ++ u ++ v)) := by
  induction h with
  | start =>
    refine ⟨[], fun u hu => ?_, fun _ u hu => ?_⟩
    · simpa using Full.ofFactor hu
    · simpa using Full.ofBinary hu
  | operand _ ih =>
    obtain ⟨v, hv, -⟩ := ih
    refine ⟨v, fun u hu => ?_, fun hstart => absurd hstart id⟩
    have := hv _ (.ofBare (.negation hu))
    simpa using this
  | @partner w stack b _ ih =>
    obtain ⟨v, hv, -⟩ := ih
    have hclose (u : List Symbol) :
        w ++ [.opening b] ++ u ++ (.closing b :: v) = w ++ enclose b u ++ v := by
      simp [enclose]
    refine ⟨.closing b :: v, fun u hu => ?_, fun _ u hu => ?_⟩
    · rw [hclose]
      cases hu with
      | ofBare hu => exact hv _ (.ofBracketed (.needless b hu))
      | ofBracketed hu => exact hv _ (.ofBracketed (.again b hu))
    · rw [hclose]
      exact hv _ (.ofBracketed (.around b hu))
  | right c _ hstart hleft ih =>
    obtain ⟨v, -, hv⟩ := ih
    refine ⟨v, fun u hu => ?_, fun hstart => absurd hstart id⟩
    have := hv hstart _ (.joined c hleft.full hu)
    simpa using this
  | chained c _ hstart hleft ih =>
    obtain ⟨v, -, hv⟩ := ih
    refine ⟨v, fun u hu => ?_, fun hstart => absurd hstart id⟩
    have := hv hstart _ (.chained c hleft.full hu)
    simpa using this

theorem viable_of_read {w : List Symbol} {state : State} (h : Read w state) : Viable w := by
  cases h with
  | wanting hp =>
    obtain ⟨v, hv, -⟩ := completes_of_pending hp
    have hletter := hv _ (.ofBare (.letter { id := 'A', isUpper := rfl }))
    exact ⟨_, by simpa using hletter⟩
  | sentence hp hu =>
    obtain ⟨v, hv, -⟩ := completes_of_pending hp
    exact ⟨v, hv _ hu.full⟩
  | needless b hp hu =>
    obtain ⟨v, hv, -⟩ := completes_of_pending hp
    exact ⟨v, hv _ (.ofBracketed (.needless b hu.full))⟩

/-! ### Where no mistake hides -/

/-- A reading without a mistake has settled down to a bracket or to the very beginning. -/
theorem settled_of_mistake_eq_none {w : List Symbol} {stack : List Obligation} {o : Operand}
    (hr : Read w (.holding stack o)) (hm : mistake (.holding stack o) = none) :
    ∃ phrase rest, settleOperand stack o = .ok (phrase, rest) ∧ AtStart rest ∧
      brackets stack = brackets rest := by
  obtain ⟨⟨phrase, rest⟩, hset⟩ := mistake_holding_eq_none.mp hm
  obtain ⟨_, _, _, _, hstart, _⟩ := settleOperand_read hr hset
  exact ⟨phrase, rest, hset, hstart, brackets_settleOperand hset⟩

/-- Without a mistake that comes to light, the outline moves only where the reading does. -/
theorem exists_move_of_outline {w : List Symbol} {x : Symbol} {state : State} (hr : Read w state)
    (hm : ¬(x.followsOperand = true ∧ (mistake state).isSome = true)) {o : Outline}
    (ho : state.outline.move x = some o) : ∃ next, Move x state next := by
  cases state with
  | wanting stack =>
    cases x with
    | letter l => exact ⟨_, .letter l stack⟩
    | negation => exact ⟨_, .negation stack⟩
    | opening b => exact ⟨_, .opening b stack⟩
    | connective c => cases ho
    | closing b => cases ho
  | holding stack operand =>
    have hnone (hx : x.followsOperand = true) : mistake (.holding stack operand) = none := by
      cases hmis : mistake (.holding stack operand) with
      | none => rfl
      | some e => exact absurd ⟨hx, by rw [hmis]; rfl⟩ hm
    cases x with
    | letter l => cases ho
    | negation => cases ho
    | opening b => cases ho
    | connective c =>
      obtain ⟨phrase, rest, hset, -, -⟩ := settled_of_mistake_eq_none hr (hnone rfl)
      exact ⟨_, .connective c hset⟩
    | closing b =>
      obtain ⟨phrase, rest, hset, hstart, hbrackets⟩ := settled_of_mistake_eq_none hr (hnone rfl)
      rw [State.outline, hbrackets] at ho
      obtain rfl | ⟨b', rest', rfl⟩ := hstart.eq_nil_or_cons
      · cases ho
      · by_cases hb : b = b'
        · exact ⟨_, .closing (hb ▸ hset)⟩
        · simp [brackets, bracket?, Outline.move, hb] at ho

/-- Without a mistake that comes to light, the symbols that make a move are those that leave what
has been read viable. -/
theorem exists_move_iff_viable {w : List Symbol} {x : Symbol} {state : State}
    (hm : Moves (.wanting []) w state) (hw : Typed w) (hx : Typed [x])
    (hmis : ¬(x.followsOperand = true ∧ (mistake state).isSome = true)) :
    (∃ next, Move x state next) ↔ Viable (w ++ [x]) := by
  have hr := read_of_moves hw hm
  constructor
  · intro ⟨next, hnext⟩
    exact viable_of_read (hr.move hx hnext)
  · intro hv
    obtain ⟨o, ho⟩ := Outline.run_of_viable hv
    have hrun : Outline.run [x] state.outline = some o := by
      rw [← ho]
      exact (Outline.run_of_append (outline_moves hm)).symm
    apply exists_move_of_outline hr hmis (o := o)
    simpa [Outline.run, Option.bind_eq_some_iff] using hrun

/-- Where no mistake hides, a reading may end exactly where a sentence of the full grammar does. -/
theorem exists_finish_iff_full {w : List Symbol} {state : State}
    (hm : Moves (.wanting []) w state) (hw : Typed w) (hmis : mistake state = none) :
    (∃ s, finish state = .ok s) ↔ Full .sentence w := by
  constructor
  · intro ⟨s, hs⟩
    exact ((moves_finish_iff_derives hw).mp ⟨state, hm, hs⟩).full
  · intro hfull
    have hrun := Outline.run_of_full hfull []
    rw [show Outline.wanting [] = (State.wanting []).outline from rfl, outline_moves hm] at hrun
    have houtline := Option.some.inj hrun
    cases state with
    | wanting stack => cases houtline
    | holding stack o =>
      obtain ⟨phrase, rest, hset, hstart, hbrackets⟩ :=
        settled_of_mistake_eq_none (read_of_moves hw hm) hmis
      have hnil : brackets rest = [] := hbrackets ▸ Outline.holding.inj houtline
      obtain rfl | ⟨b, rest', rfl⟩ := hstart.eq_nil_or_cons
      · exact ⟨_, finish_eq_ok_iff.mpr ⟨stack, o, phrase, rfl, hset, rfl⟩⟩
      · cases hnil

end Propositional.Reading
