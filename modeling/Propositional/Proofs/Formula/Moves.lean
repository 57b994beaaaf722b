import Propositional.Formula.Reading

/-! The reading of a formula as a transition system over symbols.

`Move` lists everything that one symbol can do to a state: `step_eq_ok_iff` says that a step
succeeds exactly along these moves, and how a token is spelled or where it stands does not matter
for them. A state that holds an operand may hide a grouping mistake (`mistake`), which comes to
light at the next token that may follow an operand; a token that makes no move and reveals no
mistake is unexpected (`step_eq_error_iff`). `Moves` is the reading of several symbols, and
`run_eq_ok_iff` ties it to the reading of a token list. -/
namespace Propositional.Reading

/-- The innermost open obligation is a bracket, or there is none. -/
def AtStart : List Obligation → Prop
  | [] | .partner _ :: _ => True
  | _ => False

def Phrase.isJoined : Phrase → Bool
  | .operand _ => false
  | .joined _ => true

/-- Everything that one symbol can do to a state. -/
inductive Move : Symbol → State → State → Prop where
  | letter (l : Letter) (stack : List Obligation) :
      Move (.letter l) (.wanting stack) (.holding stack (.sentence (.letter l)))
  | negation (stack : List Obligation) :
      Move .negation (.wanting stack) (.wanting (.operand :: stack))
  | opening (b : Bracket) (stack : List Obligation) :
      Move (.opening b) (.wanting stack) (.wanting (.partner b :: stack))
  | connective {stack rest : List Obligation} {o : Operand} {phrase : Phrase} (c : Connective) :
      settleOperand stack o = .ok (phrase, rest) →
      Move (.connective c) (.holding stack o)
        (.wanting (.right phrase.sentence c phrase.isJoined :: rest))
  | closing {b : Bracket} {stack rest : List Obligation} {o : Operand} {phrase : Phrase} :
      settleOperand stack o = .ok (phrase, .partner b :: rest) →
      Move (.closing b) (.holding stack o) (.holding rest phrase.bracketed)

/-- The grouping mistake that the operand just completed reveals when it is put to use. -/
def mistake : State → Option FormulaError
  | .wanting _ => none
  | .holding stack o =>
    match settleOperand stack o with
    | .ok _ => none
    | .error e => some e

/-! ### One token -/

theorem continueWith_eq_ok_iff {t : Token} {phrase : Phrase} {rest : List Obligation}
    {next : State} :
    continueWith t (phrase, rest) = .ok next ↔
      (∃ c, t.symbol = .connective c ∧
        next = .wanting (.right phrase.sentence c phrase.isJoined :: rest)) ∨
      ∃ b rest', t.symbol = .closing b ∧ rest = .partner b :: rest' ∧
        next = .holding rest' phrase.bracketed := by
  cases hs : t.symbol with
  | connective c =>
    cases phrase <;> simp [continueWith, hs, Phrase.sentence, Phrase.isJoined, eq_comm]
  | closing b =>
    rcases rest with _ | ⟨_ | b' | _, rest'⟩
    case cons.partner =>
      by_cases hb : b = b'
      · simp [continueWith, hs, hb, eq_comm]
      · simp [continueWith, hs, hb, Ne.symm hb]
    all_goals simp [continueWith, hs]
  | _ => simp [continueWith, hs]

theorem continueWith_error {t : Token} {p : Phrase × List Obligation} {e : FormulaError}
    (h : continueWith t p = .error e) : e = .unexpected t := by
  obtain ⟨phrase, rest⟩ := p
  simp only [continueWith] at h
  split at h
  · cases h
  · cases h
  · split at h
    · cases h
    · exact (Except.error.inj h).symm
  · exact (Except.error.inj h).symm

theorem mistake_holding_eq_some {stack : List Obligation} {o : Operand} {e : FormulaError} :
    mistake (.holding stack o) = some e ↔ settleOperand stack o = .error e := by
  cases h : settleOperand stack o <;> simp [mistake, h]

theorem mistake_holding_eq_none {stack : List Obligation} {o : Operand} :
    mistake (.holding stack o) = none ↔ ∃ settled, settleOperand stack o = .ok settled := by
  cases h : settleOperand stack o <;> simp [mistake, h]

/-- A step succeeds along the moves and in no other way. -/
theorem step_eq_ok_iff {t : Token} {state next : State} :
    step t state = .ok next ↔ Move t.symbol state next := by
  constructor
  · intro h
    cases state with
    | wanting stack =>
      simp only [step] at h
      split at h
      next l hs => cases h; rw [hs]; exact .letter l stack
      next hs => cases h; rw [hs]; exact .negation stack
      next b hs => cases h; rw [hs]; exact .opening b stack
      next => cases h
    | holding stack o =>
      simp only [step] at h
      split at h
      · cases hset : settleOperand stack o with
        | error e => rw [hset] at h; cases h
        | ok settled =>
          obtain ⟨phrase, rest⟩ := settled
          rw [hset] at h
          obtain ⟨c, hs, rfl⟩ | ⟨b, rest', hs, rfl, rfl⟩ := continueWith_eq_ok_iff.mp h
          · rw [hs]; exact .connective c hset
          · rw [hs]; exact .closing hset
      · cases h
  · intro h
    generalize hx : t.symbol = x at h
    cases h with
    | letter l stack => simp [step, hx]
    | negation stack => simp [step, hx]
    | opening b stack => simp [step, hx]
    | connective c hset =>
      simp only [step, hx, Symbol.followsOperand, if_true, hset]
      exact continueWith_eq_ok_iff.mpr (.inl ⟨c, hx, rfl⟩)
    | closing hset =>
      simp only [step, hx, Symbol.followsOperand, if_true, hset]
      exact continueWith_eq_ok_iff.mpr (.inr ⟨_, _, hx, rfl, rfl⟩)

/-- A mistake comes to light at a token that may follow an operand. -/
theorem step_of_mistake {t : Token} {state : State} {e : FormulaError}
    (ht : t.symbol.followsOperand = true) (hm : mistake state = some e) :
    step t state = .error e := by
  cases state with
  | wanting stack => cases hm
  | holding stack o => simp [step, ht, mistake_holding_eq_some.mp hm]; rfl

/-- Without a mistake that comes to light, a token that is refused is unexpected. -/
theorem step_unexpected {t : Token} {state : State} {e : FormulaError}
    (hm : ¬(t.symbol.followsOperand = true ∧ (mistake state).isSome = true))
    (h : step t state = .error e) : e = .unexpected t := by
  cases state with
  | wanting stack =>
    simp only [step] at h
    split at h
    · cases h
    · cases h
    · cases h
    · exact (Except.error.inj h).symm
  | holding stack o =>
    simp only [step] at h
    split at h
    next ht =>
      cases hset : settleOperand stack o with
      | error e' =>
        have : mistake (.holding stack o) = some e' := mistake_holding_eq_some.mpr hset
        exact absurd ⟨ht, by rw [this]; rfl⟩ hm
      | ok settled =>
        rw [hset] at h
        exact continueWith_error h
    next => exact (Except.error.inj h).symm

theorem step_eq_error_iff {t : Token} {state : State} {e : FormulaError} :
    step t state = .error e ↔
      (t.symbol.followsOperand = true ∧ mistake state = some e) ∨
      e = .unexpected t ∧ ¬(t.symbol.followsOperand = true ∧ (mistake state).isSome = true) ∧
        ∀ next, ¬Move t.symbol state next := by
  constructor
  · intro h
    by_cases hm : t.symbol.followsOperand = true ∧ (mistake state).isSome = true
    · obtain ⟨e', he'⟩ := Option.isSome_iff_exists.mp hm.2
      have := step_of_mistake hm.1 he'
      rw [h] at this
      obtain rfl := Except.error.inj this
      exact .inl ⟨hm.1, he'⟩
    · refine .inr ⟨step_unexpected hm h, hm, fun next hnext => ?_⟩
      rw [step_eq_ok_iff.mpr hnext] at h
      cases h
  · intro h
    rcases h with ⟨ht, hm⟩ | ⟨rfl, hm, hstuck⟩
    · exact step_of_mistake ht hm
    · cases hstep : step t state with
      | error e => rw [step_unexpected hm hstep]
      | ok next => exact absurd (step_eq_ok_iff.mp hstep) (hstuck next)

/-! ### The end of the tokens -/

theorem finish_of_settled {stack rest : List Obligation} {o : Operand} {phrase : Phrase}
    (h : settleOperand stack o = .ok (phrase, rest)) :
    finish (.holding stack o) =
      if rest = [] then .ok phrase.sentence else .error .unexpectedEnd := by
  simp only [finish, h]
  cases rest with
  | nil => rfl
  | cons _ _ => rfl

theorem finish_eq_ok_iff {state : State} {s : Sentence} :
    finish state = .ok s ↔
      ∃ stack o phrase, state = .holding stack o ∧
        settleOperand stack o = .ok (phrase, []) ∧ phrase.sentence = s := by
  constructor
  · intro h
    cases state with
    | wanting stack => cases h
    | holding stack o =>
      cases hset : settleOperand stack o with
      | error e => simp only [finish, hset] at h; cases h
      | ok settled =>
        obtain ⟨phrase, rest⟩ := settled
        rw [finish_of_settled hset] at h
        split at h
        next hrest =>
          subst hrest
          exact ⟨stack, o, phrase, rfl, hset, Except.ok.inj h⟩
        next => cases h
  · intro ⟨stack, o, phrase, hstate, hset, hs⟩
    rw [hstate, finish_of_settled hset, if_pos rfl, hs]

theorem finish_of_mistake {state : State} {e : FormulaError} (hm : mistake state = some e) :
    finish state = .error e := by
  cases state with
  | wanting stack => cases hm
  | holding stack o => simp only [finish, mistake_holding_eq_some.mp hm]; rfl

/-- The end fails by a mistake that comes to light, or else because it comes too early. -/
theorem finish_eq_error_iff {state : State} {e : FormulaError} :
    finish state = .error e ↔
      mistake state = some e ∨
      e = .unexpectedEnd ∧ mistake state = none ∧ ∀ s, finish state ≠ .ok s := by
  constructor
  · intro h
    cases hm : mistake state with
    | some e' =>
      rw [finish_of_mistake hm] at h
      exact .inl (congrArg some (Except.error.inj h))
    | none =>
      refine .inr ⟨?_, rfl, fun s hs => by rw [hs] at h; cases h⟩
      cases state with
      | wanting stack => exact (Except.error.inj h).symm
      | holding stack o =>
        obtain ⟨⟨phrase, rest⟩, hset⟩ := mistake_holding_eq_none.mp hm
        rw [finish_of_settled hset] at h
        split at h
        · cases h
        · exact (Except.error.inj h).symm
  · intro h
    rcases h with hm | ⟨rfl, hm, hnot⟩
    · exact finish_of_mistake hm
    · cases state with
      | wanting stack => rfl
      | holding stack o =>
        obtain ⟨⟨phrase, rest⟩, hset⟩ := mistake_holding_eq_none.mp hm
        have hne := hnot phrase.sentence
        rw [finish_of_settled hset] at hne ⊢
        split
        next hrest => rw [if_pos hrest] at hne; exact absurd rfl hne
        next => rfl

/-! ### Several symbols -/

/-- Reading symbols one after the other. -/
inductive Moves : State → List Symbol → State → Prop where
  | nil (state : State) : Moves state [] state
  | cons {x : Symbol} {w : List Symbol} {state mid next : State} :
      Move x state mid → Moves mid w next → Moves state (x :: w) next

theorem moves_nil {state next : State} : Moves state [] next ↔ state = next :=
  ⟨fun h => by cases h; rfl, fun h => h ▸ .nil state⟩

theorem moves_cons {x : Symbol} {w : List Symbol} {state next : State} :
    Moves state (x :: w) next ↔ ∃ mid, Move x state mid ∧ Moves mid w next :=
  ⟨fun h => by cases h with | cons hx hw => exact ⟨_, hx, hw⟩, fun ⟨_, hx, hw⟩ => .cons hx hw⟩

theorem moves_append {u v : List Symbol} {state next : State} :
    Moves state (u ++ v) next ↔ ∃ mid, Moves state u mid ∧ Moves mid v next := by
  induction u generalizing state with
  | nil => simp [moves_nil]
  | cons x u ih =>
    simp only [List.cons_append, moves_cons, ih]
    constructor
    · intro ⟨a, hx, b, hu, hv⟩
      exact ⟨b, ⟨a, hx, hu⟩, hv⟩
    · intro ⟨b, ⟨a, hx, hu⟩, hv⟩
      exact ⟨a, hx, b, hu, hv⟩

theorem moves_singleton {x : Symbol} {state next : State} :
    Moves state [x] next ↔ Move x state next := by
  simp [moves_cons, moves_nil]

/-- A symbol leads to at most one state. -/
theorem Move.unique {x : Symbol} {state a b : State} (ha : Move x state a) (hb : Move x state b) :
    a = b := by
  have ha := step_eq_ok_iff (t := ⟨x, [], 0⟩).mpr ha
  rw [step_eq_ok_iff.mpr hb] at ha
  exact (Except.ok.inj ha).symm

theorem Moves.unique {w : List Symbol} {state a b : State} (ha : Moves state w a)
    (hb : Moves state w b) : a = b := by
  induction ha with
  | nil state => exact moves_nil.mp hb
  | cons hx _ ih =>
    obtain ⟨mid, hx', hw⟩ := moves_cons.mp hb
    exact ih (hx.unique hx' ▸ hw)

theorem run_cons_of_error {failure : Option IllegalCharacter} {t : Token} {rest : List Token}
    {state : State} {e : FormulaError} (h : step t state = .error e) :
    run failure (t :: rest) state = .error e := by
  simp only [run, h]
  rfl

theorem run_cons_of_move {failure : Option IllegalCharacter} {t : Token} {rest : List Token}
    {state mid : State} (h : Move t.symbol state mid) :
    run failure (t :: rest) state = run failure rest mid := by
  simp only [run, step_eq_ok_iff.mpr h]
  rfl

/-- The reading of tokens succeeds when their symbols lead to a state at which it may end. -/
theorem run_eq_ok_iff {failure : Option IllegalCharacter} {tokens : List Token} {state : State}
    {s : Sentence} :
    run failure tokens state = .ok s ↔ failure = none ∧
      ∃ next, Moves state (tokens.map Token.symbol) next ∧ finish next = .ok s := by
  induction tokens generalizing state with
  | nil => cases failure <;> simp [run, moves_nil]
  | cons t rest ih =>
    cases hstep : step t state with
    | error e =>
      rw [run_cons_of_error hstep]
      constructor
      · intro h
        cases h
      · intro ⟨_, next, hmoves, _⟩
        obtain ⟨mid, hmove, -⟩ := moves_cons.mp hmoves
        rw [step_eq_ok_iff.mpr hmove] at hstep
        cases hstep
    | ok mid =>
      have hmove := step_eq_ok_iff.mp hstep
      rw [run_cons_of_move hmove, ih]
      constructor
      · intro ⟨hf, next, hw, hfin⟩
        exact ⟨hf, next, .cons hmove hw, hfin⟩
      · intro ⟨hf, next, hmoves, hfin⟩
        obtain ⟨mid', hmove', hw⟩ := moves_cons.mp hmoves
        exact ⟨hf, next, hmove.unique hmove' ▸ hw, hfin⟩

end Propositional.Reading
