import Propositional.Proofs.Formula.Viable

/-! Which mistake of a text is reported.

A text may be wrong in several ways at once: a character that is no token, a token that cannot
stand where it does, a grouping that is rejected. `Fault` says what is wrong with the next thing to
be read, seen from the symbols before it and from the full grammar alone, without any parsing
state. `parse_error_iff_first_fault` says that a text is rejected for the first fault it has, and
what the error says of it (`Reported`).

Two facts carry the proof. Symbols end with a rejected shape exactly when the reading of them hides
the corresponding mistake (`mistake_needless_iff`, `mistake_chained_iff`); and where no mistake
comes to light, what can be read on is what stays viable (`exists_move_iff_viable`). -/
namespace Propositional

namespace Reading
open Grammar Propositional.Symbol

/-- The symbols end with brackets around a letter or a negation. -/
def EndsNeedless (w : List Symbol) : Prop := ∃ u b x, Full .bare x ∧ w = u ++ enclose b x

/-- The symbols end with a factor joined to two that are joined already, all of it from the
beginning or from an opening bracket on. -/
def EndsChained (w : List Symbol) : Prop :=
  ∃ u x c y, (u = [] ∨ ∃ u' b, u = u' ++ [.opening b]) ∧ Full .binary x ∧ Full .factor y ∧
    w = u ++ (x ++ .connective c :: y)

/-! ### Reading the phrases of the full grammar -/

def negations : Nat → Sentence → Sentence
  | 0, s => s
  | n + 1, s => .negation (negations n s)

theorem settle_replicate (n : Nat) (s : Sentence) (stack : List Obligation) :
    settle s (List.replicate n .operand ++ stack) = settle (negations n s) stack := by
  induction n generalizing stack with
  | zero => rfl
  | succ n ih =>
    rw [List.replicate_succ', List.append_assoc, ih]
    rfl

/-- How a phrase of the full grammar leaves the stack, if it can be read at all: a factor with the
negations in front of its last operand, two joined factors with their connective below that. -/
def Leaves : Category → List Symbol → Prop
  | .sentence, _ => True
  | .binary, w => ∀ stack next, AtStart stack → Moves (.wanting stack) w next →
      ∃ n o left c chained,
        next = .holding (List.replicate n .operand ++ .right left c chained :: stack) o
  | _, w => ∀ stack next, Moves (.wanting stack) w next →
      ∃ n o, next = .holding (List.replicate n .operand ++ stack) o

theorem settleOperand_factor {n : Nat} {o : Operand} {stack rest : List Obligation}
    {phrase : Phrase} (hstart : AtStart stack)
    (h : settleOperand (List.replicate n .operand ++ stack) o = .ok (phrase, rest)) :
    ∃ s, o = .sentence s ∧ phrase = .operand (negations n s) ∧ rest = stack := by
  cases o with
  | needless => cases h
  | sentence s =>
    rw [settleOperand, settle_replicate, settle_atStart hstart] at h
    obtain ⟨rfl, rfl⟩ := Prod.mk.inj (Except.ok.inj h)
    exact ⟨s, rfl, rfl, rfl⟩

theorem settleOperand_right {n : Nat} {o : Operand} {left : Sentence} {c : Connective}
    {chained : Bool} {stack rest : List Obligation} {phrase : Phrase}
    (h : settleOperand (List.replicate n .operand ++ .right left c chained :: stack) o =
      .ok (phrase, rest)) :
    phrase.isJoined = true ∧ rest = stack := by
  cases o with
  | needless => cases h
  | sentence s =>
    rw [settleOperand, settle_replicate] at h
    cases chained with
    | true => cases h
    | false =>
      obtain ⟨rfl, rfl⟩ := Prod.mk.inj (Except.ok.inj h)
      exact ⟨rfl, rfl⟩

/-- Brackets around anything are read from an opening to a closing bracket. -/
theorem moves_enclose_inv {b : Bracket} {w : List Symbol} {stack : List Obligation} {next : State}
    (h : Moves (.wanting stack) (enclose b w) next) :
    ∃ mid, Moves (.wanting (.partner b :: stack)) w mid ∧ Move (.closing b) mid next := by
  obtain ⟨_, hopen, h⟩ := moves_cons.mp h
  cases hopen
  obtain ⟨mid, hw, hclose⟩ := moves_append.mp h
  exact ⟨mid, hw, moves_singleton.mp hclose⟩

/-- A connective after a factor waits for the right one of two operands. -/
theorem move_connective_factor {n : Nat} {o : Operand} {c : Connective}
    {stack : List Obligation} {next : State} (hstart : AtStart stack)
    (h : Move (.connective c) (.holding (List.replicate n .operand ++ stack) o) next) :
    ∃ left, next = .wanting (.right left c false :: stack) := by
  cases h with
  | connective c hset =>
    obtain ⟨s, rfl, rfl, rfl⟩ := settleOperand_factor hstart hset
    exact ⟨_, rfl⟩

/-- A connective after two joined factors waits for a third. -/
theorem move_connective_right {n : Nat} {o : Operand} {c c' : Connective} {left : Sentence}
    {chained : Bool} {stack : List Obligation} {next : State}
    (h : Move (.connective c)
      (.holding (List.replicate n .operand ++ .right left c' chained :: stack) o) next) :
    ∃ left', next = .wanting (.right left' c true :: stack) := by
  cases h with
  | connective c hset =>
    obtain ⟨hjoined, rfl⟩ := settleOperand_right hset
    rw [hjoined]
    exact ⟨_, rfl⟩

/-- Brackets around a factor complete an operand, needless or not. -/
theorem leaves_enclose {b : Bracket} {w : List Symbol} (hw : Leaves .factor w) :
    Leaves .bracketed (enclose b w) := by
  intro stack next hm
  obtain ⟨mid, hw', hclose⟩ := moves_enclose_inv hm
  obtain ⟨n, o, rfl⟩ := hw _ mid hw'
  have hstart : AtStart (.partner b :: stack) := trivial
  cases hclose with
  | closing hset =>
    obtain ⟨s, -, -, hrest⟩ := settleOperand_factor hstart hset
    obtain ⟨-, rfl⟩ := List.cons.inj hrest
    exact ⟨0, _, rfl⟩

theorem leaves_of_full {k : Category} {w : List Symbol} (h : Full k w) : Leaves k w := by
  induction h with
  | ofBinary _ _ => trivial
  | ofFactor _ _ => trivial
  | joined c _ _ ihu ihv =>
    intro stack next hstart hm
    obtain ⟨mid, hu, hm⟩ := moves_append.mp hm
    obtain ⟨mid', hc, hv⟩ := moves_cons.mp hm
    obtain ⟨n, o, rfl⟩ := ihu stack mid hu
    obtain ⟨left, rfl⟩ := move_connective_factor hstart hc
    obtain ⟨n', o', rfl⟩ := ihv _ next hv
    exact ⟨n', o', left, c, false, rfl⟩
  | chained c _ _ ihu ihv =>
    intro stack next hstart hm
    obtain ⟨mid, hu, hm⟩ := moves_append.mp hm
    obtain ⟨mid', hc, hv⟩ := moves_cons.mp hm
    obtain ⟨n, o, left, c', chained, rfl⟩ := ihu stack mid hstart hu
    obtain ⟨left', rfl⟩ := move_connective_right hc
    obtain ⟨n', o', rfl⟩ := ihv _ next hv
    exact ⟨n', o', left', c, true, rfl⟩
  | ofBare _ ih => exact ih
  | ofBracketed _ ih => exact ih
  | letter l =>
    intro stack next hm
    cases moves_singleton.mp hm
    exact ⟨0, _, rfl⟩
  | negation _ ih =>
    intro stack next hm
    obtain ⟨mid, hneg, hm⟩ := moves_cons.mp hm
    cases hneg
    obtain ⟨n, o, rfl⟩ := ih _ next hm
    refine ⟨n + 1, o, ?_⟩
    rw [List.replicate_succ', List.append_assoc]
    rfl
  | around b _ ih =>
    intro stack next hm
    obtain ⟨mid, hw, hclose⟩ := moves_enclose_inv hm
    obtain ⟨n, o, left, c, chained, rfl⟩ := ih (.partner b :: stack) mid trivial hw
    cases hclose with
    | closing hset =>
      obtain ⟨-, hrest⟩ := settleOperand_right hset
      obtain ⟨-, rfl⟩ := List.cons.inj hrest
      exact ⟨0, _, rfl⟩
  | again b _ ih => exact leaves_enclose ih
  | needless b _ ih => exact leaves_enclose ih

/-- Brackets around a letter or a negation complete a needless operand. -/
theorem moves_needless {b : Bracket} {x : List Symbol} {stack : List Obligation} {next : State}
    (hx : Full .bare x) (h : Moves (.wanting stack) (enclose b x) next) :
    next = .holding stack .needless := by
  obtain ⟨mid, hw, hclose⟩ := moves_enclose_inv h
  cases hx with
  | letter l =>
    cases moves_singleton.mp hw
    cases hclose with
    | closing hset =>
      cases hset
      rfl
  | negation hx =>
    obtain ⟨mid', hneg, hw⟩ := moves_cons.mp hw
    cases hneg
    obtain ⟨n, o, rfl⟩ := leaves_of_full hx _ mid hw
    have hstack : List.replicate n .operand ++ .operand :: .partner b :: stack =
        List.replicate (n + 1) .operand ++ .partner b :: stack := by
      rw [List.replicate_succ', List.append_assoc]
      rfl
    rw [hstack] at hclose
    have hstart : AtStart (.partner b :: stack) := trivial
    cases hclose with
    | closing hset =>
      obtain ⟨s, -, rfl, hrest⟩ := settleOperand_factor hstart hset
      obtain ⟨-, rfl⟩ := List.cons.inj hrest
      rfl

/-! ### The mistakes that a reading hides -/

/-- Putting a sentence to use fails at the third of three factors and nowhere else. -/
theorem settle_error {w u : List Symbol} {s : Sentence} {stack : List Obligation}
    {e : FormulaError} (hp : Pending w stack) (hu : Full .factor u)
    (h : settle s stack = .error e) : e = .chained ∧ EndsChained (w ++ u) := by
  induction hp generalizing u s with
  | start => cases h
  | operand _ ih =>
    rw [List.append_assoc]
    exact ih (.ofBare (.negation hu)) h
  | partner b _ _ => cases h
  | right c _ _ _ _ => cases h
  | @chained w x stack left c hp hstart hx _ =>
    refine ⟨(Except.error.inj h).symm, w, x, c, u, ?_, hx.full, hu, by simp⟩
    obtain rfl | ⟨b, rest, rfl⟩ := hstart.eq_nil_or_cons
    · cases hp
      exact .inl rfl
    · cases hp with
      | partner b hp => exact .inr ⟨_, b, rfl⟩

/-- The mistake that a reading hides shows at the end of what has been read. -/
theorem ends_of_mistake {w : List Symbol} {state : State} {e : FormulaError} (hr : Read w state)
    (h : mistake state = some e) :
    e = .needlessBrackets ∧ EndsNeedless w ∨ e = .chained ∧ EndsChained w := by
  cases hr with
  | wanting hp => cases h
  | sentence hp hu => exact .inr (settle_error hp hu.full (mistake_holding_eq_some.mp h))
  | needless b hp hu => exact .inl ⟨(Option.some.inj h).symm, _, b, _, hu.full, rfl⟩

theorem mistake_needless_iff {w : List Symbol} {state : State} (hw : Typed w)
    (hm : Moves (.wanting []) w state) :
    mistake state = some .needlessBrackets ↔ EndsNeedless w := by
  constructor
  · intro hmis
    obtain ⟨-, h⟩ | ⟨he, -⟩ := ends_of_mistake (read_of_moves hw hm) hmis
    · exact h
    · cases he
  · intro ⟨u, b, x, hx, hwx⟩
    rw [hwx] at hm
    obtain ⟨mid, -, hm⟩ := moves_append.mp hm
    cases mid with
    | wanting stack =>
      rw [moves_needless hx hm]
      rfl
    | holding stack o =>
      obtain ⟨_, hopen, -⟩ := moves_cons.mp hm
      cases hopen

/-- At the beginning and after an opening bracket a phrase may start. -/
theorem atStart_of_moves {u : List Symbol} {state : State}
    (hu : u = [] ∨ ∃ u' b, u = u' ++ [.opening b]) (hm : Moves (.wanting []) u state) :
    ∃ stack, state = .wanting stack ∧ AtStart stack := by
  obtain rfl | ⟨u', b, rfl⟩ := hu
  · exact ⟨[], (moves_nil.mp hm).symm, trivial⟩
  · obtain ⟨mid, -, hopen⟩ := moves_append.mp hm
    cases moves_singleton.mp hopen with
    | opening b stack => exact ⟨_, rfl, trivial⟩

/-- Three factors in a row, if they can be read at all, are waiting to be put together. -/
theorem moves_chained {x y : List Symbol} {c : Connective} {stack : List Obligation} {next : State}
    (hstart : AtStart stack) (hx : Full .binary x) (hy : Full .factor y)
    (hm : Moves (.wanting stack) (x ++ .connective c :: y) next) :
    ∃ n o left, next = .holding (List.replicate n .operand ++ .right left c true :: stack) o := by
  obtain ⟨mid, hmx, hm⟩ := moves_append.mp hm
  obtain ⟨mid', hc, hmy⟩ := moves_cons.mp hm
  obtain ⟨n, o, left, c', chained, rfl⟩ := leaves_of_full hx stack mid hstart hmx
  obtain ⟨left', rfl⟩ := move_connective_right hc
  obtain ⟨n', o', rfl⟩ := leaves_of_full hy _ next hmy
  exact ⟨n', o', left', rfl⟩

theorem mistake_chained_iff {w : List Symbol} {state : State} (hw : Typed w)
    (hm : Moves (.wanting []) w state) :
    mistake state = some .chained ↔ EndsChained w ∧ ¬EndsNeedless w := by
  constructor
  · intro hmis
    refine ⟨?_, fun hneedless => ?_⟩
    · obtain ⟨he, -⟩ | ⟨-, h⟩ := ends_of_mistake (read_of_moves hw hm) hmis
      · cases he
      · exact h
    · rw [(mistake_needless_iff hw hm).mpr hneedless] at hmis
      cases hmis
  · intro ⟨⟨u, x, c, y, hu, hx, hy, hwxy⟩, hneedless⟩
    have hsplit := hm
    rw [hwxy] at hsplit
    obtain ⟨mid, hmu, hmxy⟩ := moves_append.mp hsplit
    obtain ⟨stack, rfl, hstart⟩ := atStart_of_moves hu hmu
    obtain ⟨n, o, left, rfl⟩ := moves_chained hstart hx hy hmxy
    cases o with
    | needless => exact absurd ((mistake_needless_iff hw hm).mp rfl) hneedless
    | sentence s =>
      rw [mistake_holding_eq_some, settleOperand, settle_replicate]
      rfl

/-- The symbols end with one of the rejected shapes. -/
def EndsRejected (w : List Symbol) : Prop := EndsNeedless w ∨ EndsChained w

theorem mistake_isSome_iff {w : List Symbol} {state : State} (hw : Typed w)
    (hm : Moves (.wanting []) w state) : (mistake state).isSome = true ↔ EndsRejected w := by
  constructor
  · intro h
    obtain ⟨e, he⟩ := Option.isSome_iff_exists.mp h
    obtain ⟨-, h⟩ | ⟨-, h⟩ := ends_of_mistake (read_of_moves hw hm) he
    · exact .inl h
    · exact .inr h
  · intro h
    by_cases hneedless : EndsNeedless w
    · rw [(mistake_needless_iff hw hm).mpr hneedless]
      rfl
    · rw [(mistake_chained_iff hw hm).mpr ⟨h.resolve_left hneedless, hneedless⟩]
      rfl

/-! ### Faults -/

/-- What is met on reading on: a token, the end, or a character that is no token. -/
inductive Upcoming where
  | token (t : Token)
  | stop
  | illegal (e : IllegalCharacter)

/-- Whether a completed operand may stand before it. -/
def Upcoming.followsOperand : Upcoming → Bool
  | token t => t.symbol.followsOperand
  | stop => true
  | illegal _ => false

/-- What is wrong with what is met after some symbols. A character that is no token comes first;
then a rejected shape before anything that may follow an operand, where brackets count before
a chain; then a token or an end that nothing of the full grammar goes on with. -/
inductive Fault (w : List Symbol) : Upcoming → FormulaError → Prop where
  | illegal (e : IllegalCharacter) : Fault w (.illegal e) (.illegal e)
  | needless {next} : next.followsOperand = true → EndsNeedless w →
      Fault w next .needlessBrackets
  | chained {next} : next.followsOperand = true → EndsChained w → ¬EndsNeedless w →
      Fault w next .chained
  | unexpected {t : Token} : ¬(t.symbol.followsOperand = true ∧ EndsRejected w) →
      ¬Viable (w ++ [t.symbol]) → Fault w (.token t) (.unexpected t)
  | unexpectedEnd : ¬EndsRejected w → ¬Full .sentence w → Fault w .stop .unexpectedEnd

theorem fault_of_mistake {w : List Symbol} {state : State} {next : Upcoming} {e : FormulaError}
    (hw : Typed w) (hm : Moves (.wanting []) w state) (hnext : next.followsOperand = true)
    (h : mistake state = some e) : Fault w next e := by
  obtain ⟨rfl, -⟩ | ⟨rfl, -⟩ := ends_of_mistake (read_of_moves hw hm) h
  · exact .needless hnext ((mistake_needless_iff hw hm).mp h)
  · obtain ⟨hchained, hneedless⟩ := (mistake_chained_iff hw hm).mp h
    exact .chained hnext hchained hneedless

theorem step_error_iff_fault {w : List Symbol} {state : State} {t : Token} {e : FormulaError}
    (hw : Typed (w ++ [t.symbol])) (hm : Moves (.wanting []) w state) :
    step t state = .error e ↔ Fault w (.token t) e := by
  have hw' : Typed w := fun l hl => hw l (List.mem_append_left _ hl)
  have hx : Typed [t.symbol] := fun l hl => hw l (List.mem_append_right _ hl)
  rw [step_eq_error_iff]
  constructor
  · intro h
    rcases h with ⟨ht, hmis⟩ | ⟨rfl, hmis, hstuck⟩
    · exact fault_of_mistake hw' hm ht hmis
    · have hends := hmis
      rw [mistake_isSome_iff hw' hm] at hends
      apply Fault.unexpected hends
      intro hv
      obtain ⟨next, hnext⟩ := (exists_move_iff_viable hm hw' hx hmis).mpr hv
      exact hstuck next hnext
  · intro h
    cases h with
    | needless ht hends => exact .inl ⟨ht, (mistake_needless_iff hw' hm).mpr hends⟩
    | chained ht hends hneedless =>
      exact .inl ⟨ht, (mistake_chained_iff hw' hm).mpr ⟨hends, hneedless⟩⟩
    | unexpected hends hv =>
      rw [← mistake_isSome_iff hw' hm] at hends
      refine .inr ⟨rfl, hends, fun next hnext => hv ?_⟩
      exact (exists_move_iff_viable hm hw' hx hends).mp ⟨next, hnext⟩

theorem finish_error_iff_fault {w : List Symbol} {state : State} {e : FormulaError}
    (hw : Typed w) (hm : Moves (.wanting []) w state) :
    finish state = .error e ↔ Fault w .stop e := by
  rw [finish_eq_error_iff]
  constructor
  · intro h
    rcases h with hmis | ⟨rfl, hmis, hnot⟩
    · exact fault_of_mistake hw hm rfl hmis
    · apply Fault.unexpectedEnd
      · intro hends
        rw [← mistake_isSome_iff hw hm, hmis] at hends
        cases hends
      · intro hfull
        obtain ⟨s, hs⟩ := (exists_finish_iff_full hm hw hmis).mpr hfull
        exact hnot s hs
  · intro h
    cases h with
    | needless _ hends => exact .inl ((mistake_needless_iff hw hm).mpr hends)
    | chained _ hends hneedless => exact .inl ((mistake_chained_iff hw hm).mpr ⟨hends, hneedless⟩)
    | unexpectedEnd hends hfull =>
      have hmis : mistake state = none := by
        rw [← mistake_isSome_iff hw hm] at hends
        simpa using hends
      exact .inr ⟨rfl, hmis, fun s hs => hfull ((exists_finish_iff_full hm hw hmis).mp ⟨s, hs⟩)⟩

/-! ### The first fault -/

/-- All that is met in reading tokens: each of them, and then the end or what stopped the scan. -/
def met (failure : Option IllegalCharacter) : List Token → List Upcoming
  | [] => [match failure with
    | some e => .illegal e
    | none => .stop]
  | t :: rest => .token t :: met failure rest

/-- What is wrong at an index of what is met, after symbols that were read before. -/
def FaultAt (w : List Symbol) (failure : Option IllegalCharacter) (tokens : List Token) (k : Nat)
    (e : FormulaError) : Prop :=
  ∃ next, (met failure tokens)[k]? = some next ∧
    Fault (w ++ (tokens.take k).map Token.symbol) next e

/-- Something is wrong at an index, and nothing before it. -/
def FirstFault (w : List Symbol) (failure : Option IllegalCharacter) (tokens : List Token)
    (e : FormulaError) : Prop :=
  ∃ k, FaultAt w failure tokens k e ∧ ∀ j < k, ∀ e', ¬FaultAt w failure tokens j e'

section
variable {w : List Symbol} {failure : Option IllegalCharacter} {t : Token} {rest : List Token}
  {e : FormulaError}

theorem faultAt_zero {tokens : List Token} {next : Upcoming}
    (h : (met failure tokens).head? = some next) :
    FaultAt w failure tokens 0 e ↔ Fault w next e := by
  simp only [FaultAt, ← List.head?_eq_getElem?, h, Option.some.injEq, List.take_zero, List.map_nil,
    List.append_nil]
  constructor
  · intro ⟨_, hn, hf⟩
    exact hn ▸ hf
  · intro hf
    exact ⟨next, rfl, hf⟩

theorem faultAt_cons_succ {k : Nat} :
    FaultAt w failure (t :: rest) (k + 1) e ↔ FaultAt (w ++ [t.symbol]) failure rest k e := by
  simp [FaultAt, met]

theorem not_faultAt_nil_succ {k : Nat} : ¬FaultAt w failure [] (k + 1) e := by
  intro ⟨next, hnext, _⟩
  simp [met] at hnext

theorem faultAt_token_zero : FaultAt w failure (t :: rest) 0 e ↔ Fault w (.token t) e :=
  faultAt_zero rfl

/-- With no token left, only what ends the reading can be at fault. -/
theorem firstFault_nil : FirstFault w failure [] e ↔ FaultAt w failure [] 0 e := by
  constructor
  · intro ⟨k, hk, _⟩
    cases k with
    | zero => exact hk
    | succ k => exact absurd hk not_faultAt_nil_succ
  · intro h
    exact ⟨0, h, fun j hj => absurd hj (Nat.not_lt_zero j)⟩

/-- A fault at the next token is the first one, and the only one there. -/
theorem firstFault_cons_of_fault {e₀ : FormulaError}
    (h : ∀ e, Fault w (.token t) e ↔ e₀ = e) : FirstFault w failure (t :: rest) e ↔ e₀ = e := by
  rw [← h e]
  constructor
  · intro ⟨k, hk, hfirst⟩
    cases k with
    | zero => exact faultAt_token_zero.mp hk
    | succ k =>
      exact absurd (faultAt_token_zero.mpr ((h e₀).mpr rfl)) (hfirst 0 (Nat.succ_pos k) e₀)
  · intro hf
    exact ⟨0, faultAt_token_zero.mpr hf, fun j hj => absurd hj (Nat.not_lt_zero j)⟩

/-- Without a fault at the next token, the first fault is the first one after it. -/
theorem firstFault_cons (h : ∀ e, ¬Fault w (.token t) e) :
    FirstFault w failure (t :: rest) e ↔ FirstFault (w ++ [t.symbol]) failure rest e := by
  constructor
  · intro ⟨k, hk, hfirst⟩
    cases k with
    | zero => exact absurd (faultAt_token_zero.mp hk) (h e)
    | succ k =>
      refine ⟨k, faultAt_cons_succ.mp hk, fun j hj e' hj' => ?_⟩
      exact hfirst (j + 1) (Nat.succ_lt_succ hj) e' (faultAt_cons_succ.mpr hj')
  · intro ⟨k, hk, hfirst⟩
    refine ⟨k + 1, faultAt_cons_succ.mpr hk, fun j hj e' hj' => ?_⟩
    cases j with
    | zero => exact h e' (faultAt_token_zero.mp hj')
    | succ j => exact hfirst j (Nat.lt_of_succ_lt_succ hj) e' (faultAt_cons_succ.mp hj')

end

theorem fault_illegal_iff {w : List Symbol} {c : IllegalCharacter} {e : FormulaError} :
    Fault w (.illegal c) e ↔ .illegal c = e := by
  constructor
  · intro h
    cases h with
    | illegal e => rfl
    | needless hf _ => cases hf
    | chained hf _ _ => cases hf
  · intro h
    exact h ▸ .illegal c

/-- A reading of tokens fails for the first fault that it meets. -/
theorem run_error_iff_firstFault {w : List Symbol} {failure : Option IllegalCharacter}
    {tokens : List Token} {state : State} {e : FormulaError}
    (hw : Typed (w ++ tokens.map Token.symbol)) (hm : Moves (.wanting []) w state) :
    run failure tokens state = .error e ↔ FirstFault w failure tokens e := by
  induction tokens generalizing w state with
  | nil =>
    have hw : Typed w := by simpa using hw
    rw [firstFault_nil]
    cases failure with
    | some c =>
      rw [faultAt_zero rfl, fault_illegal_iff]
      exact ⟨Except.error.inj, congrArg _⟩
    | none =>
      rw [faultAt_zero rfl, ← finish_error_iff_fault hw hm]
      rfl
  | cons t rest ih =>
    have hw' : Typed ((w ++ [t.symbol]) ++ rest.map Token.symbol) := by simpa using hw
    have ht : Typed (w ++ [t.symbol]) := fun l hl => hw' l (List.mem_append_left _ hl)
    cases hstep : step t state with
    | error e₀ =>
      rw [run_cons_of_error hstep, firstFault_cons_of_fault fun e => ?_]
      · exact ⟨Except.error.inj, congrArg _⟩
      · rw [← step_error_iff_fault ht hm, hstep]
        exact ⟨Except.error.inj, congrArg _⟩
    | ok mid =>
      have hmove := step_eq_ok_iff.mp hstep
      have hm' := moves_append.mpr ⟨state, hm, moves_singleton.mpr hmove⟩
      rw [run_cons_of_move hmove, ih hw' hm', firstFault_cons fun e hf => ?_]
      rw [← step_error_iff_fault ht hm, hstep] at hf
      cases hf

/-! ### What is said of a fault -/

/-- What is reported for an error about a text: whether the error is one of grouping, and what it
says. A token and a character that is no token are quoted with their position, where the text has
them. -/
inductive Reported (text : Text) : FormulaError → Bool → Text → Prop where
  | blank : text = [] → Reported text .blank false "Input formula is empty.".toList
  | illegal {c : IllegalCharacter} : text[c.position]? = some c.char →
      Reported text (.illegal c) false ("Illegal character \x27".toList ++ c.char ::
        "\x27 encountered at position ".toList ++ Nat.toDigits 10 c.position)
  | unexpected {t : Token} : t.spelling <+: text.drop t.start →
      Reported text (.unexpected t) false ("unexpected \x27".toList ++ t.spelling ++
        "\x27 at position ".toList ++ Nat.toDigits 10 t.start)
  | unexpectedEnd : Reported text .unexpectedEnd false "unexpected end of formula".toList
  | chained : Reported text .chained true "Explicit grouping required (use parentheses)".toList
  | needlessBrackets : Reported text .needlessBrackets true
      "Parentheses only allowed around binary connectives".toList

/-- What is met stands in the text where it says it does. -/
def Upcoming.StandsIn (text : Text) : Upcoming → Prop
  | token t => Tokens.SpelledIn 0 text t
  | stop => True
  | illegal c => Tokens.FoundIn 0 text c

theorem standsIn_of_met {text : Text} {failure : Option IllegalCharacter} {tokens : List Token}
    {next : Upcoming} (h : Tokens.Located 0 text ⟨tokens, failure⟩)
    (hnext : next ∈ met failure tokens) : next.StandsIn text := by
  induction tokens with
  | nil =>
    obtain rfl := List.mem_singleton.mp hnext
    cases failure with
    | none => trivial
    | some c => exact h.2 c rfl
  | cons t rest ih =>
    rcases List.mem_cons.mp hnext with rfl | hnext
    · exact h.1 t List.mem_cons_self
    · exact ih ⟨fun u hu => h.1 u (List.mem_cons_of_mem t hu), h.2⟩ hnext

theorem Fault.reported {text : Text} {w : List Symbol} {next : Upcoming} {e : FormulaError}
    (h : Fault w next e) (hnext : next.StandsIn text) :
    Reported text e e.isGrouping e.detail := by
  cases h with
  | illegal c => exact .illegal hnext.2
  | needless _ _ => exact .needlessBrackets
  | chained _ _ _ => exact .chained
  | unexpected _ _ => exact .unexpected hnext.2
  | unexpectedEnd _ _ => exact .unexpectedEnd

theorem FirstFault.reported {text : Text} {w : List Symbol} {ts : Tokens} {e : FormulaError}
    (h : FirstFault w ts.failure ts.tokens e) (hlocated : Tokens.Located 0 text ts) :
    Reported text e e.isGrouping e.detail := by
  obtain ⟨k, ⟨next, hnext, hfault⟩, -⟩ := h
  exact hfault.reported (standsIn_of_met hlocated (List.mem_of_getElem? hnext))

end Reading

namespace Sentence
open Reading

theorem parse_eq_error_iff {text : Text} {e : FormulaError} :
    parse text = .error e ↔
      Text.trim text = [] ∧ e = .blank ∨
      Text.trim text ≠ [] ∧ FirstFault [] (Tokens.scan (Text.trim text)).failure
        (Tokens.scan (Text.trim text)).tokens e := by
  by_cases h : Text.trim text = []
  · rw [parse_of_trim_eq_nil h]
    constructor
    · intro he
      exact .inl ⟨h, (Except.error.inj he).symm⟩
    · intro he
      rcases he with ⟨-, rfl⟩ | ⟨hne, -⟩
      · rfl
      · exact absurd h hne
  · rw [parse_of_trim_ne_nil h, run_error_iff_firstFault (Tokens.typed_scan _) (.nil _)]
    constructor
    · intro hf
      exact .inr ⟨h, hf⟩
    · intro he
      rcases he with ⟨hnil, -⟩ | ⟨-, hf⟩
      · exact absurd hnil h
      · exact hf

/-- **A text is rejected for the first fault it has.** A blank text is rejected as such. Any other
text is trimmed and scanned, and rejected with an error exactly when this is the fault at some index
of what is met in reading its tokens and nothing is wrong at an earlier index. The error says so in
its message, with the character or the token and the position where the trimmed text has it, and
two errors are about grouping: a chain and brackets that are not needed. All tokens, and what ends
the scan, stand in the trimmed text where they are said to. -/
theorem parse_error_iff_first_fault (text : Text) :
    (∀ e, parse text = .error e ↔
      Text.trim text = [] ∧ e = .blank ∨
      Text.trim text ≠ [] ∧ FirstFault [] (Tokens.scan (Text.trim text)).failure
        (Tokens.scan (Text.trim text)).tokens e) ∧
      (∀ e, parse text = .error e →
        Reported (Text.trim text) e e.isGrouping e.detail ∧
          e.message = "Syntax error (not a wff): ".toList ++ e.detail) ∧
      Tokens.Located 0 (Text.trim text) (Tokens.scan (Text.trim text)) := by
  have hlocated := Tokens.located_scan (Text.trim text)
  refine ⟨fun e => parse_eq_error_iff, fun e he => ⟨?_, e.message_eq⟩, hlocated⟩
  rcases parse_eq_error_iff.mp he with ⟨hnil, rfl⟩ | ⟨-, hfault⟩
  · exact .blank hnil
  · exact hfault.reported hlocated

end Sentence

end Propositional
