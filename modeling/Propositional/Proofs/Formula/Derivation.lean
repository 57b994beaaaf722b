import Propositional.Proofs.Formula.Grammar
import Propositional.Proofs.Formula.Moves
import Propositional.Proofs.Formula.Scan

/-! The reading of symbols and the strict grammar.

What the grammar derives is read as such (`reads_of_derives`), wherever it stands. Conversely `Read`
says what has been read whenever a state is reached: the open obligations spell out the unfinished
phrases, and a completed operand is a factor of the grammar. Every move keeps this (`Read.move`),
so a reading that may end has read a sentence of the grammar (`moves_finish_iff_derives`).
`Sentence.parse_decides_grammar` says this of texts. -/
namespace Propositional

namespace Reading
open Grammar Propositional.Symbol

/-! ### Putting an operand to use -/

theorem AtStart.eq_nil_or_cons {stack : List Obligation} (h : AtStart stack) :
    stack = [] ∨ ∃ b rest, stack = .partner b :: rest := by
  rcases stack with _ | ⟨_ | b | _, rest⟩
  · exact .inl rfl
  · exact absurd h id
  · exact .inr ⟨b, rest, rfl⟩
  · exact absurd h id

theorem settle_atStart {stack : List Obligation} (h : AtStart stack) (s : Sentence) :
    settle s stack = .ok (.operand s, stack) := by
  obtain rfl | ⟨b, rest, rfl⟩ := h.eq_nil_or_cons
  · rfl
  · rfl

/-! ### What is derived is read -/

/-- How the symbols of a phrase are read: they complete an operand that amounts to its sentence. -/
def Reads : Category → List Symbol → Sentence → Prop
  | .sentence, w, s => ∃ next, Moves (.wanting []) w next ∧ finish next = .ok s
  | .binary, w, s => ∀ stack, AtStart stack → ∃ stack' o,
      Moves (.wanting stack) w (.holding stack' o) ∧
        settleOperand stack' o = .ok (.joined s, stack)
  | _, w, s => ∀ stack, ∃ stack' o,
      Moves (.wanting stack) w (.holding stack' o) ∧ settleOperand stack' o = settle s stack

/-- Brackets around what has been read up to them complete an operand. -/
theorem moves_enclose {b : Bracket} {w : List Symbol} {stack stack' : List Obligation} {o : Operand}
    {phrase : Phrase} (hw : Moves (.wanting (.partner b :: stack)) w (.holding stack' o))
    (hset : settleOperand stack' o = .ok (phrase, .partner b :: stack)) :
    Moves (.wanting stack) (enclose b w) (.holding stack phrase.bracketed) :=
  .cons (.opening b stack) (moves_append.mpr ⟨_, hw, moves_singleton.mpr (.closing hset)⟩)

theorem reads_of_derives {k : Category} {w : List Symbol} {s : Sentence} (h : Derives k w s) :
    Reads k w s := by
  induction h with
  | ofBinary _ ih =>
    obtain ⟨stack, o, hw, hset⟩ := ih [] trivial
    exact ⟨_, hw, finish_eq_ok_iff.mpr ⟨stack, o, _, rfl, hset, rfl⟩⟩
  | ofFactor _ ih =>
    obtain ⟨stack, o, hw, hset⟩ := ih []
    exact ⟨_, hw, finish_eq_ok_iff.mpr ⟨stack, o, _, rfl, hset, rfl⟩⟩
  | @joined u v a b c _ _ ihu ihv =>
    intro stack hstart
    obtain ⟨stack₁, o₁, hu, hset₁⟩ := ihu stack
    rw [settle_atStart hstart] at hset₁
    obtain ⟨stack₂, o₂, hv, hset₂⟩ := ihv (.right a c false :: stack)
    exact ⟨stack₂, o₂, moves_append.mpr ⟨_, hu, .cons (.connective c hset₁) hv⟩, hset₂⟩
  | ofBare _ ih => exact ih
  | ofBracketed _ ih => exact ih
  | letter _ => exact fun stack => ⟨stack, _, moves_singleton.mpr (.letter _ stack), rfl⟩
  | negation _ ih =>
    intro stack
    obtain ⟨stack', o, hw, hset⟩ := ih (.operand :: stack)
    exact ⟨stack', o, .cons (.negation stack) hw, hset⟩
  | around b _ ih =>
    intro stack
    obtain ⟨stack', o, hw, hset⟩ := ih (.partner b :: stack) trivial
    exact ⟨stack, _, moves_enclose hw hset, rfl⟩
  | again b h ih =>
    intro stack
    obtain ⟨stack', o, hw, hset⟩ := ih (.partner b :: stack)
    refine ⟨stack, _, moves_enclose hw hset, ?_⟩
    simp only [Phrase.bracketed, h.bracketed_isBinary, if_true]
    rfl

/-! ### What is read is derived -/

/-- What has been read when an operand is wanted: every open obligation stands for an unfinished
phrase, and a connective for the operands that it joins to the next one. -/
inductive Pending : List Symbol → List Obligation → Prop where
  | start : Pending [] []
  | operand {w stack} : Pending w stack → Pending (w ++ [.negation]) (.operand :: stack)
  | partner {w stack} (b : Bracket) : Pending w stack →
      Pending (w ++ [.opening b]) (.partner b :: stack)
  | right {w u stack left} (c : Connective) : Pending w stack → AtStart stack →
      Derives .factor u left → Pending (w ++ u ++ [.connective c]) (.right left c false :: stack)
  | chained {w u stack left} (c : Connective) : Pending w stack → AtStart stack →
      Derives .binary u left → Pending (w ++ u ++ [.connective c]) (.right left c true :: stack)

/-- What has been read when a state is reached. -/
inductive Read : List Symbol → State → Prop where
  | wanting {w stack} : Pending w stack → Read w (.wanting stack)
  | sentence {w u stack s} : Pending w stack → Derives .factor u s →
      Read (w ++ u) (.holding stack (.sentence s))
  | needless {w u stack s} (b : Bracket) : Pending w stack → Derives .bare u s →
      Read (w ++ enclose b u) (.holding stack .needless)

/-- The symbols of a phrase as the grammar has them. -/
def PhraseDerives (w : List Symbol) : Phrase → Prop
  | .operand s => Derives .factor w s
  | .joined s => Derives .binary w s

/-- A settled operand has become a phrase that starts at a bracket or at the very beginning. -/
theorem settle_derives {w u : List Symbol} {s : Sentence} {stack rest : List Obligation}
    {phrase : Phrase} (hp : Pending w stack) (hu : Derives .factor u s)
    (h : settle s stack = .ok (phrase, rest)) :
    ∃ w' v, w ++ u = w' ++ v ∧ Pending w' rest ∧ AtStart rest ∧ PhraseDerives v phrase := by
  induction hp generalizing u s with
  | start =>
    cases h
    exact ⟨[], u, rfl, .start, trivial, hu⟩
  | operand _ ih =>
    rw [List.append_assoc]
    exact ih (.ofBare (.negation hu)) h
  | @partner w' stack' b hp _ =>
    cases h
    exact ⟨_, u, rfl, .partner b hp, trivial, hu⟩
  | @right w₁ v₁ stack' left c hp hstart hleft _ =>
    cases h
    exact ⟨w₁, v₁ ++ .connective c :: u, by simp, hp, hstart, .joined c hleft hu⟩
  | chained c _ _ _ _ => cases h

theorem settleOperand_read {w : List Symbol} {stack rest : List Obligation} {o : Operand}
    {phrase : Phrase} (hr : Read w (.holding stack o))
    (h : settleOperand stack o = .ok (phrase, rest)) :
    ∃ w' v, w = w' ++ v ∧ Pending w' rest ∧ AtStart rest ∧ PhraseDerives v phrase := by
  cases hr with
  | sentence hp hu => exact settle_derives hp hu h
  | needless b hp hu => cases h

theorem Read.move {w : List Symbol} {x : Symbol} {state next : State} (hr : Read w state)
    (hx : Typed [x]) (hm : Move x state next) : Read (w ++ [x]) next := by
  cases hm with
  | letter l stack =>
    cases hr with
    | wanting hp => exact .sentence hp (.ofBare (.letter (hx l List.mem_cons_self)))
  | negation stack =>
    cases hr with
    | wanting hp => exact .wanting hp.operand
  | opening b stack =>
    cases hr with
    | wanting hp => exact .wanting (hp.partner b)
  | @connective stack rest o phrase c hset =>
    obtain ⟨w', v, rfl, hp, hstart, hv⟩ := settleOperand_read hr hset
    cases phrase with
    | operand s => exact .wanting (.right c hp hstart hv)
    | joined s => exact .wanting (.chained c hp hstart hv)
  | @closing b stack rest o phrase hset =>
    obtain ⟨w', v, rfl, hp, hstart, hv⟩ := settleOperand_read hr hset
    generalize hrest : Obligation.partner b :: rest = stack' at hp
    cases hp with
    | @partner w₁ stack₁ b' hp =>
      obtain ⟨hb, rfl⟩ := List.cons.inj hrest
      obtain rfl := Obligation.partner.inj hb
      have hw : w₁ ++ [.opening b] ++ v ++ [.closing b] = w₁ ++ enclose b v := by simp [enclose]
      rw [hw]
      cases phrase with
      | joined s => exact .sentence hp (.ofBracketed (.around b hv))
      | operand s =>
        by_cases hs : s.isBinary = true
        · simp only [Phrase.bracketed, hs, if_true]
          exact .sentence hp (.ofBracketed (.again b (hv.bracketed_of_isBinary hs)))
        · simp only [Phrase.bracketed, hs]
          exact .needless b hp (hv.bare_of_not_isBinary (by simpa using hs))
    | _ => cases hrest

/-- Whatever state is reached, it says what has been read. -/
theorem Read.moves {u w : List Symbol} {state next : State} (hr : Read u state) (hw : Typed w)
    (hm : Moves state w next) : Read (u ++ w) next := by
  induction hm generalizing u with
  | nil state => simpa using hr
  | @cons x w state mid next hx _ ih =>
    have := ih (hr.move (fun l hl => hw l (by simp_all)) hx) fun l hl => hw l (by simp [hl])
    simpa using this

theorem read_of_moves {w : List Symbol} {state : State} (hw : Typed w)
    (hm : Moves (.wanting []) w state) : Read w state :=
  Read.moves (.wanting .start) hw hm

/-- A reading may end exactly where the grammar derives a sentence. -/
theorem moves_finish_iff_derives {w : List Symbol} (hw : Typed w) {s : Sentence} :
    (∃ next, Moves (.wanting []) w next ∧ finish next = .ok s) ↔ Derives .sentence w s := by
  constructor
  · intro ⟨next, hm, hfin⟩
    obtain ⟨stack, o, phrase, rfl, hset, rfl⟩ := finish_eq_ok_iff.mp hfin
    obtain ⟨w', v, rfl, hp, -, hv⟩ := settleOperand_read (read_of_moves hw hm) hset
    cases hp
    cases phrase with
    | operand s => exact .ofFactor hv
    | joined s => exact .ofBinary hv
  · exact reads_of_derives

/-- No symbols are those of two sentences. -/
theorem derives_unique {w : List Symbol} {a b : Sentence} (ha : Derives .sentence w a)
    (hb : Derives .sentence w b) : a = b := by
  obtain ⟨next, hm, hfin⟩ := reads_of_derives ha
  obtain ⟨next', hm', hfin'⟩ := reads_of_derives hb
  obtain rfl := hm.unique hm'
  rw [hfin] at hfin'
  exact Except.ok.inj hfin'

end Reading

namespace Sentence
open Grammar Reading

/-! ### Which texts are formulas -/

/-- A text that is scanned to its end, and the symbols of its tokens. -/
def Spells (text : Text) (w : List Symbol) : Prop :=
  (Tokens.scan text).failure = none ∧ (Tokens.scan text).tokens.map Token.symbol = w

theorem parse_of_trim_eq_nil {text : Text} (h : Text.trim text = []) :
    parse text = .error .blank := by
  unfold parse
  rw [h]

theorem parse_of_trim_ne_nil {text : Text} (h : Text.trim text ≠ []) :
    parse text = run (Tokens.scan (Text.trim text)).failure (Tokens.scan (Text.trim text)).tokens
      (.wanting []) := by
  unfold parse
  split
  next hnil => exact absurd hnil h
  next => rfl

/-- A text is a formula of a sentence when the strict grammar derives it from the symbols that the
trimmed text spells. -/
theorem parse_eq_ok_iff {text : Text} {s : Sentence} :
    parse text = .ok s ↔ ∃ w, Spells (Text.trim text) w ∧ Derives .sentence w s := by
  by_cases h : Text.trim text = []
  · rw [parse_of_trim_eq_nil h, h]
    constructor
    · intro he
      cases he
    · intro ⟨w, ⟨_, hnil⟩, hd⟩
      subst hnil
      obtain ⟨next, hm, hfin⟩ := reads_of_derives hd
      obtain rfl := moves_nil.mp hm
      cases hfin
  · rw [parse_of_trim_ne_nil h, run_eq_ok_iff, moves_finish_iff_derives (Tokens.typed_scan _)]
    constructor
    · intro ⟨hfailure, hd⟩
      exact ⟨_, ⟨hfailure, rfl⟩, hd⟩
    · intro ⟨w, ⟨hfailure, hsymbols⟩, hd⟩
      rw [← hsymbols] at hd
      exact ⟨hfailure, hd⟩

/-- **Reading a text decides the strict grammar.** A text is read as a sentence exactly when the
trimmed text is scanned to its end into symbols that the grammar derives with this sentence; every
other text is rejected; and no symbols are derived with two sentences. -/
theorem parse_decides_grammar (text : Text) :
    (∀ s, parse text = .ok s ↔ ∃ w, Spells (Text.trim text) w ∧ Derives .sentence w s) ∧
      ((∃ e, parse text = .error e) ↔ ¬∃ w s, Spells (Text.trim text) w ∧ Derives .sentence w s) ∧
      ∀ w a b, Derives .sentence w a → Derives .sentence w b → a = b := by
  refine ⟨fun s => parse_eq_ok_iff, ?_, fun w a b => derives_unique⟩
  constructor
  · intro ⟨e, he⟩ ⟨w, s, hw, hd⟩
    rw [parse_eq_ok_iff.mpr ⟨w, hw, hd⟩] at he
    cases he
  · intro hnone
    cases hp : parse text with
    | error e => exact ⟨e, rfl⟩
    | ok s =>
      obtain ⟨w, hw, hd⟩ := parse_eq_ok_iff.mp hp
      exact absurd ⟨w, s, hw, hd⟩ hnone

end Sentence

end Propositional
