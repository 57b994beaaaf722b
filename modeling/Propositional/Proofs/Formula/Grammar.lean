import Propositional.Formula.Token

/-! The grammar of formulas.

`Derives` is the strict grammar: a sentence is two factors joined by a connective, or one factor; a
factor is bare (a letter, or a negated factor) or bracketed, and brackets stand around two joined
factors or around something already bracketed. It relates the symbols of a phrase to its sentence.
`Full` adds the two shapes that are recognized only to be rejected: a third factor joined without
brackets, and brackets around a bare factor. Every phrase of the strict grammar is one of the full
grammar (`Derives.full`). -/
namespace Propositional.Grammar

/-- A pair of brackets around symbols. -/
def enclose (b : Bracket) (w : List Symbol) : List Symbol := .opening b :: (w ++ [.closing b])

/-- The kinds of phrases. -/
inductive Category where
  | sentence
  | binary
  | factor
  | bare
  | bracketed

/-- The strict grammar, with the sentence of each phrase. -/
inductive Derives : Category → List Symbol → Sentence → Prop where
  | ofBinary {w s} : Derives .binary w s → Derives .sentence w s
  | ofFactor {w s} : Derives .factor w s → Derives .sentence w s
  | joined {u v a b} (c : Connective) : Derives .factor u a → Derives .factor v b →
      Derives .binary (u ++ .connective c :: v) (.binary c a b)
  | ofBare {w s} : Derives .bare w s → Derives .factor w s
  | ofBracketed {w s} : Derives .bracketed w s → Derives .factor w s
  | letter {l : Letter} : l.index = 0 → Derives .bare [.letter l] (.letter l)
  | negation {w s} : Derives .factor w s → Derives .bare (.negation :: w) (.negation s)
  | around {w s} (b : Bracket) : Derives .binary w s → Derives .bracketed (enclose b w) s
  | again {w s} (b : Bracket) : Derives .bracketed w s → Derives .bracketed (enclose b w) s

/-- The grammar with the shapes that are only there to be rejected. -/
inductive Full : Category → List Symbol → Prop where
  | ofBinary {w} : Full .binary w → Full .sentence w
  | ofFactor {w} : Full .factor w → Full .sentence w
  | joined {u v} (c : Connective) : Full .factor u → Full .factor v →
      Full .binary (u ++ .connective c :: v)
  /-- Rejected: a factor joined to two that are joined already. -/
  | chained {u v} (c : Connective) : Full .binary u → Full .factor v →
      Full .binary (u ++ .connective c :: v)
  | ofBare {w} : Full .bare w → Full .factor w
  | ofBracketed {w} : Full .bracketed w → Full .factor w
  | letter (l : Letter) : Full .bare [.letter l]
  | negation {w} : Full .factor w → Full .bare (.negation :: w)
  | around {w} (b : Bracket) : Full .binary w → Full .bracketed (enclose b w)
  | again {w} (b : Bracket) : Full .bracketed w → Full .bracketed (enclose b w)
  /-- Rejected: brackets around a letter or a negation. -/
  | needless {w} (b : Bracket) : Full .bare w → Full .bracketed (enclose b w)

theorem Derives.full {k : Category} {w : List Symbol} {s : Sentence} (h : Derives k w s) :
    Full k w := by
  induction h with
  | ofBinary _ ih => exact .ofBinary ih
  | ofFactor _ ih => exact .ofFactor ih
  | joined c _ _ ihu ihv => exact .joined c ihu ihv
  | ofBare _ ih => exact .ofBare ih
  | ofBracketed _ ih => exact .ofBracketed ih
  | letter _ => exact .letter _
  | negation _ ih => exact .negation ih
  | around b _ ih => exact .around b ih
  | again b _ ih => exact .again b ih

/-! ### The sentence tells how a factor is written -/

theorem Derives.binary_isBinary {w : List Symbol} {s : Sentence} (h : Derives .binary w s) :
    s.isBinary = true := by
  cases h with
  | joined c _ _ => rfl

theorem Derives.bare_not_isBinary {w : List Symbol} {s : Sentence} (h : Derives .bare w s) :
    s.isBinary = false := by
  cases h with
  | letter _ => rfl
  | negation _ => rfl

/-- A factor with a connective of its own is bracketed. -/
theorem Derives.bracketed_of_isBinary {w : List Symbol} {s : Sentence} (h : Derives .factor w s)
    (hs : s.isBinary = true) : Derives .bracketed w s := by
  cases h with
  | ofBare hb => rw [hb.bare_not_isBinary] at hs; contradiction
  | ofBracketed hb => exact hb

theorem Derives.bracketed_isBinary {w : List Symbol} {s : Sentence} (h : Derives .bracketed w s) :
    s.isBinary = true := by
  generalize hk : Category.bracketed = k at h
  induction h with
  | around b h _ => exact h.binary_isBinary
  | again b _ ih => exact ih hk
  | _ => contradiction

/-- Any other factor is bare. -/
theorem Derives.bare_of_not_isBinary {w : List Symbol} {s : Sentence} (h : Derives .factor w s)
    (hs : s.isBinary = false) : Derives .bare w s := by
  cases h with
  | ofBare hb => exact hb
  | ofBracketed hb => rw [hb.bracketed_isBinary] at hs; contradiction

end Propositional.Grammar
