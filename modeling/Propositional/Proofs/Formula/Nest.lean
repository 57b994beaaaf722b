import Propositional.Proofs.Formula.Grammar

/-! Symbols with matching brackets, as a tree.

A nest is a row of symbols other than brackets and of matching pairs of brackets around nests. Its
symbols determine it (`symbols_inj`), so whatever has the symbols of a nest has its pairs of
brackets. `Nested` is the strict grammar over nests: it derives nothing that the grammar over
symbols does not (`Nested.derives`), and that one derives the symbols of nests only
(`Derives.exists_nested`). -/
namespace Propositional

/-- Whether a symbol is a bracket. -/
def Symbol.isBracket : Symbol → Bool
  | opening _ | closing _ => true
  | letter _ | negation | connective _ => false

@[simp] theorem Symbol.isBracket_letter (l : Letter) : (letter l).isBracket = false := rfl

@[simp] theorem Symbol.isBracket_negation : negation.isBracket = false := rfl

@[simp] theorem Symbol.isBracket_connective (c : Connective) :
    (connective c).isBracket = false := rfl

namespace Grammar
open Propositional.Symbol

/-- Symbols with matching brackets. -/
inductive Nest where
  | nil
  | plain (x : Symbol) (h : x.isBracket = false) (rest : Nest)
  | pair (b : Bracket) (inside rest : Nest)
deriving DecidableEq

namespace Nest

def symbols : Nest → List Symbol
  | nil => []
  | plain x _ rest => x :: rest.symbols
  | pair b inside rest => .opening b :: (inside.symbols ++ .closing b :: rest.symbols)

def append : Nest → Nest → Nest
  | nil, n => n
  | plain x h rest, n => plain x h (rest.append n)
  | pair b inside rest, n => pair b inside (rest.append n)

instance : Append Nest := ⟨append⟩

/-- Whether a nest is a single pair of brackets with its content. -/
def isPair : Nest → Bool
  | pair _ _ nil => true
  | _ => false

variable {m n : Nest} {u v : List Symbol}

@[simp] theorem nil_append (n : Nest) : nil ++ n = n := rfl

@[simp] theorem plain_append (x : Symbol) (h : x.isBracket = false) (m n : Nest) :
    plain x h m ++ n = plain x h (m ++ n) := rfl

@[simp] theorem pair_append (b : Bracket) (inside m n : Nest) :
    pair b inside m ++ n = pair b inside (m ++ n) := rfl

@[simp] theorem append_nil (n : Nest) : n ++ nil = n := by
  induction n with
  | nil => rfl
  | plain x h rest ih => rw [plain_append, ih]
  | pair b inside rest _ ih => rw [pair_append, ih]

@[simp] theorem symbols_append (m n : Nest) : (m ++ n).symbols = m.symbols ++ n.symbols := by
  induction m with
  | nil => rfl
  | plain x h rest ih => simp [symbols, ih]
  | pair b inside rest _ ih => simp [symbols, ih]

theorem symbols_pair_nil (b : Bracket) (inside : Nest) :
    (pair b inside nil).symbols = enclose b inside.symbols := rfl

theorem isPair_append_plain (m n : Nest) (x : Symbol) (h : x.isBracket = false) :
    (m ++ plain x h n).isPair = false := by
  cases m with
  | nil => rfl
  | plain y hy rest => rfl
  | pair b inside rest => cases rest <;> rfl

/-! ### The symbols determine the nest -/

/-- What may stand behind the content of a pair: the end, or a closing bracket. -/
def Closes : List Symbol → Prop
  | [] => True
  | x :: _ => ∃ b, x = .closing b

theorem closes_closing (b : Bracket) (w : List Symbol) : Closes (.closing b :: w) := ⟨b, rfl⟩

theorem not_closes_opening (b : Bracket) (w : List Symbol) : ¬Closes (.opening b :: w) := by
  intro ⟨b', hb⟩
  cases hb

theorem not_closes_plain {x : Symbol} (h : x.isBracket = false) (w : List Symbol) :
    ¬Closes (x :: w) := by
  rintro ⟨b, rfl⟩
  cases h

/-- Where the content of a pair ends does not depend on how it is read. -/
theorem symbols_append_inj (hu : Closes u) (hv : Closes v)
    (h : m.symbols ++ u = n.symbols ++ v) : m = n ∧ u = v := by
  induction m generalizing n u v with
  | nil =>
    cases n with
    | nil => exact ⟨rfl, h⟩
    | plain x hx rest =>
      obtain rfl : u = x :: (rest.symbols ++ v) := h
      exact absurd hu (not_closes_plain hx _)
    | pair b inside rest =>
      obtain rfl : u = .opening b :: (inside.symbols ++ .closing b :: rest.symbols ++ v) := h
      exact absurd hu (not_closes_opening b _)
  | plain x hx rest ih =>
    cases n with
    | nil =>
      obtain rfl : x :: (rest.symbols ++ u) = v := h
      exact absurd hv (not_closes_plain hx _)
    | plain y hy rest' =>
      obtain ⟨rfl, hrest⟩ := List.cons.inj h
      obtain ⟨rfl, rfl⟩ := ih hu hv hrest
      exact ⟨rfl, rfl⟩
    | pair b inside rest' =>
      obtain ⟨rfl, -⟩ := List.cons.inj h
      cases hx
  | pair b inside rest ihi ihr =>
    cases n with
    | nil =>
      obtain rfl : .opening b :: (inside.symbols ++ .closing b :: rest.symbols ++ u) = v := h
      exact absurd hv (not_closes_opening b _)
    | plain y hy rest' =>
      obtain ⟨rfl, -⟩ := List.cons.inj h
      cases hy
    | pair b' inside' rest' =>
      simp only [symbols, List.cons_append, List.append_assoc, List.cons.injEq,
        Symbol.opening.injEq] at h
      -- behind both contents stands a closing bracket, so they are one, and so are the rests
      obtain ⟨rfl, hcontent⟩ := h
      obtain ⟨rfl, hclosing⟩ := ihi (closes_closing b _) (closes_closing b _) hcontent
      obtain ⟨rfl, rfl⟩ := ihr hu hv (List.cons.inj hclosing).2
      exact ⟨rfl, rfl⟩

theorem symbols_inj (h : m.symbols = n.symbols) : m = n :=
  (symbols_append_inj (u := []) (v := []) trivial trivial (by simpa using h)).1

end Nest

/-! ### The grammar over nests -/

/-- The strict grammar, with brackets as pairs. -/
inductive Nested : Category → Nest → Sentence → Prop where
  | ofBinary {n s} : Nested .binary n s → Nested .sentence n s
  | ofFactor {n s} : Nested .factor n s → Nested .sentence n s
  | joined {m n a b} (c : Connective) : Nested .factor m a → Nested .factor n b →
      Nested .binary (m ++ .plain (.connective c) (isBracket_connective c) n) (.binary c a b)
  | ofBare {n s} : Nested .bare n s → Nested .factor n s
  | ofBracketed {n s} : Nested .bracketed n s → Nested .factor n s
  | letter {l : Letter} : l.index = 0 →
      Nested .bare (.plain (.letter l) (isBracket_letter l) .nil) (.letter l)
  | negation {n s} : Nested .factor n s →
      Nested .bare (.plain .negation isBracket_negation n) (.negation s)
  | around {n s} (b : Bracket) : Nested .binary n s → Nested .bracketed (.pair b n .nil) s
  | again {n s} (b : Bracket) : Nested .bracketed n s → Nested .bracketed (.pair b n .nil) s

variable {k : Category} {n : Nest} {s : Sentence}

theorem Nested.derives (h : Nested k n s) : Derives k n.symbols s := by
  induction h with
  | ofBinary _ ih => exact .ofBinary ih
  | ofFactor _ ih => exact .ofFactor ih
  | joined c _ _ ihm ihn =>
    rw [Nest.symbols_append]
    exact .joined c ihm ihn
  | ofBare _ ih => exact .ofBare ih
  | ofBracketed _ ih => exact .ofBracketed ih
  | letter hl => exact .letter hl
  | negation _ ih => exact .negation ih
  | around b _ ih => exact .around b ih
  | again b _ ih => exact .again b ih

/-- The brackets of a derived phrase match. -/
theorem Derives.exists_nested {w : List Symbol} (h : Derives k w s) :
    ∃ n : Nest, n.symbols = w ∧ Nested k n s := by
  induction h with
  | ofBinary _ ih =>
    obtain ⟨n, rfl, h⟩ := ih
    exact ⟨n, rfl, .ofBinary h⟩
  | ofFactor _ ih =>
    obtain ⟨n, rfl, h⟩ := ih
    exact ⟨n, rfl, .ofFactor h⟩
  | joined c _ _ ihu ihv =>
    obtain ⟨m, rfl, hm⟩ := ihu
    obtain ⟨n, rfl, hn⟩ := ihv
    exact ⟨_, Nest.symbols_append .., .joined c hm hn⟩
  | ofBare _ ih =>
    obtain ⟨n, rfl, h⟩ := ih
    exact ⟨n, rfl, .ofBare h⟩
  | ofBracketed _ ih =>
    obtain ⟨n, rfl, h⟩ := ih
    exact ⟨n, rfl, .ofBracketed h⟩
  | letter hl => exact ⟨_, rfl, .letter hl⟩
  | negation _ ih =>
    obtain ⟨n, rfl, h⟩ := ih
    exact ⟨_, rfl, .negation h⟩
  | around b _ ih =>
    obtain ⟨n, rfl, h⟩ := ih
    exact ⟨_, rfl, .around b h⟩
  | again b _ ih =>
    obtain ⟨n, rfl, h⟩ := ih
    exact ⟨_, rfl, .again b h⟩

/-! ### Pairs around a phrase -/

theorem Nested.bracketed_isPair (h : Nested .bracketed n s) : n.isPair = true := by
  cases h <;> rfl

theorem Nested.binary_not_isPair (h : Nested .binary n s) : n.isPair = false := by
  cases h with
  | joined c _ _ => exact Nest.isPair_append_plain ..

/-- What stands in a pair around the whole is of the same sentence, which has a connective. -/
theorem Nested.of_pair {b : Bracket} (h : Nested .sentence (.pair b n .nil) s) :
    Nested .sentence n s ∧ s.isBinary = true := by
  cases h with
  | ofBinary h => cases h.binary_not_isPair
  | ofFactor h =>
    cases h with
    | ofBare h => cases h
    | ofBracketed h =>
      cases h with
      | around b h => exact ⟨.ofBinary h, h.derives.binary_isBinary⟩
      | again b h => exact ⟨.ofFactor (.ofBracketed h), h.derives.bracketed_isBinary⟩

end Grammar

end Propositional
