import Propositional.Formula.Token
import Propositional.Text.Blank

/-! Reading a formula. There is no precedence: a connective joins exactly two operands, an operand
is a letter, a negated operand or a bracketed formula, and only a formula with a connective of its
own may stand in brackets, once or more often.

A formula is read one token at a time. The open obligations, the innermost first, form a stack:
negations that wait for their operand, brackets that wait for their partner, connectives that wait
for their right operand. A completed operand is put to use only when the next token has been seen,
so a character that is no token and a token that may not follow an operand are reported before
a grouping mistake that the completed operand would reveal. -/
namespace Propositional

/-- Why a text is not a well-formed formula. -/
inductive FormulaError where
  | blank
  | illegal (e : IllegalCharacter)
  | unexpected (t : Token)
  | unexpectedEnd
  /-- Three operands in a row without brackets. -/
  | chained
  /-- Brackets around a letter or a negation. -/
  | needlessBrackets
deriving DecidableEq

namespace FormulaError

/-- The remark that every rejection begins with. -/
def diagnostic (detail : Text) : Text :=
  "Syntax error (not a wff)".toList ++
    if detail.isEmpty then ['.'] else ':' :: ' ' :: detail

def detail : FormulaError → Text
  | blank => "Input formula is empty.".toList
  | illegal e => e.message
  | unexpected t =>
    "unexpected \x27".toList ++ t.spelling ++ "\x27 at position ".toList ++ Text.ofNat t.start
  | unexpectedEnd => "unexpected end of formula".toList
  | chained => "Explicit grouping required (use parentheses)".toList
  | needlessBrackets => "Parentheses only allowed around binary connectives".toList

def message (e : FormulaError) : Text := diagnostic e.detail

theorem detail_ne_nil (e : FormulaError) : e.detail ≠ [] := by
  unfold detail
  cases e with
  | illegal c =>
    unfold IllegalCharacter.message
    simp
  | _ => simp

/-- What is wrong is said behind the remark. -/
theorem message_eq (e : FormulaError) :
    e.message = "Syntax error (not a wff): ".toList ++ e.detail := by
  have hremark : "Syntax error (not a wff): " = "Syntax error (not a wff)" ++ ": " := rfl
  have hdetail : ¬e.detail.isEmpty = true := by simpa using e.detail_ne_nil
  rw [message, hremark, String.toList_append, List.append_assoc]
  exact congrArg ("Syntax error (not a wff)".toList ++ ·) (if_neg hdetail)

/-- The mistakes of a formula that would be fine with other brackets. -/
def isGrouping : FormulaError → Bool
  | chained | needlessBrackets => true
  | _ => false

end FormulaError

namespace Reading

/-- What is waited for. -/
inductive Obligation where
  | operand
  | partner (b : Bracket)
  | right (left : Sentence) (c : Connective) (chained : Bool)
deriving DecidableEq

/-- The operand just completed: a sentence, or brackets around a letter or a negation. -/
inductive Operand where
  | sentence (s : Sentence)
  | needless
deriving DecidableEq

/-- Either an operand is wanted, or one is complete and waits for the next token. -/
inductive State where
  | wanting (stack : List Obligation)
  | holding (stack : List Obligation) (operand : Operand)
deriving DecidableEq

/-- What stands between the innermost open bracket and the next token: a single operand, or two
joined by a connective. -/
inductive Phrase where
  | operand (s : Sentence)
  | joined (s : Sentence)
deriving DecidableEq

def Phrase.sentence : Phrase → Sentence
  | .operand s | .joined s => s

/-- Puts an operand to use, down to the innermost open bracket. -/
def settle (s : Sentence) : List Obligation → Except FormulaError (Phrase × List Obligation)
  | .operand :: stack => settle (.negation s) stack
  | .right left c chained :: stack =>
    if chained then .error .chained else .ok (.joined (.binary c left s), stack)
  | stack => .ok (.operand s, stack)

def settleOperand (stack : List Obligation) :
    Operand → Except FormulaError (Phrase × List Obligation)
  | .sentence s => settle s stack
  | .needless => .error .needlessBrackets

/-- What a pair of brackets makes of its content. -/
def Phrase.bracketed : Phrase → Operand
  | .joined s => .sentence s
  | .operand s => if s.isBinary then .sentence s else .needless

/-- The effect of a token that may follow an operand. -/
def continueWith (t : Token) : Phrase × List Obligation → Except FormulaError State
  | (phrase, stack) =>
    match t.symbol, phrase, stack with
    | .connective c, .operand s, stack => .ok (.wanting (.right s c false :: stack))
    | .connective c, .joined s, stack => .ok (.wanting (.right s c true :: stack))
    | .closing b, phrase, .partner b' :: stack =>
      if b = b' then .ok (.holding stack phrase.bracketed) else .error (.unexpected t)
    | _, _, _ => .error (.unexpected t)

/-- The effect of one token. -/
def step (t : Token) : State → Except FormulaError State
  | .wanting stack =>
    match t.symbol with
    | .letter l => .ok (.holding stack (.sentence (.letter l)))
    | .negation => .ok (.wanting (.operand :: stack))
    | .opening b => .ok (.wanting (.partner b :: stack))
    | _ => .error (.unexpected t)
  | .holding stack operand =>
    if t.symbol.followsOperand then settleOperand stack operand >>= continueWith t
    else .error (.unexpected t)

/-- The sentence at the end of the tokens. -/
def finish : State → Except FormulaError Sentence
  | .wanting _ => .error .unexpectedEnd
  | .holding stack operand =>
    settleOperand stack operand >>= fun
      | (phrase, []) => .ok phrase.sentence
      | _ => .error .unexpectedEnd

/-- Reads tokens from a state on; a failure to find a token counts once all tokens are read. -/
def run (failure : Option IllegalCharacter) : List Token → State → Except FormulaError Sentence
  | [], state =>
    match failure with
    | some e => .error (.illegal e)
    | none => finish state
  | t :: rest, state => step t state >>= run failure rest

end Reading

/-- The sentence that a text is a formula of. Blanks around the formula do not count, not even
for the positions in a message. -/
def Sentence.parse (text : Text) : Except FormulaError Sentence :=
  match Text.trim text with
  | [] => .error .blank
  | trimmed =>
    let ts := Tokens.scan trimmed
    Reading.run ts.failure ts.tokens (.wanting [])

end Propositional
