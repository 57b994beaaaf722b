import Mathlib.Logic.Relation
import Propositional.Proofs.Formula.Nest
import Propositional.Proofs.Formula.RoundTrip
import Propositional.Proofs.Formula.Spelling

/-! Showing a sentence normalizes the formula that it was read from.

What reading forgets is the kind of each pair of brackets, pairs around a single pair, and a pair
around the whole formula. The spaced form of the sentence has the symbols of the formula without
these: all brackets are round (`rounded`), no pair stands directly around a pair (`collapsed`), and
none around the whole (`stripped`). On the way there a factor of the grammar becomes its sentence
as an operand, and anything else its sentence as a whole (`Nested.normal`).

So nothing else of a text reaches its sentence. A formula stays one, of the same sentence, when
matching brackets change their kind and when pairs are put around pairs or taken away again
(`Rebracketing`, `Nested.rebracketing`), however the symbols are spelled and whatever separators
stand between them. -/
namespace Propositional

namespace Grammar

namespace Nest

/-! ### Normal form -/

/-- All brackets round. -/
def rounded : Nest → Nest
  | nil => nil
  | plain x h rest => plain x h rest.rounded
  | pair _ inside rest => pair .round inside.rounded rest.rounded

/-- No pair whose whole content is a single pair. -/
def collapsed : Nest → Nest
  | nil => nil
  | plain x h rest => plain x h rest.collapsed
  | pair b inside rest =>
    if inside.isPair then inside.collapsed ++ rest.collapsed
    else pair b inside.collapsed rest.collapsed

/-- No pair around the whole. -/
def stripped : Nest → Nest
  | pair _ inside nil => inside
  | n => n

theorem rounded_append (m n : Nest) : (m ++ n).rounded = m.rounded ++ n.rounded := by
  induction m with
  | nil => rfl
  | plain x h rest ih => simp [rounded, ih]
  | pair b inside rest _ ih => simp [rounded, ih]

theorem append_assoc (l m n : Nest) : l ++ m ++ n = l ++ (m ++ n) := by
  induction l with
  | nil => rfl
  | plain x h rest ih => simp [ih]
  | pair b inside rest _ ih => simp [ih]

theorem collapsed_append (m n : Nest) : (m ++ n).collapsed = m.collapsed ++ n.collapsed := by
  induction m with
  | nil => rfl
  | plain x h rest ih => simp [collapsed, ih]
  | pair b inside rest _ ih =>
    simp only [pair_append, collapsed, ih]
    split
    · exact (append_assoc ..).symm
    · rfl

theorem isPair_rounded (n : Nest) : n.rounded.isPair = n.isPair := by
  cases n with
  | nil => rfl
  | plain x h rest => rfl
  | pair b inside rest => cases rest <;> rfl

theorem stripped_of_not_isPair {n : Nest} (h : n.isPair = false) : n.stripped = n := by
  unfold stripped
  split
  · cases h
  · rfl

theorem collapsed_rounded_joined (m n : Nest) {x : Symbol} (h : x.isBracket = false) :
    (m ++ plain x h n).rounded.collapsed =
      m.rounded.collapsed ++ plain x h n.rounded.collapsed := by
  rw [rounded_append, collapsed_append]
  rfl

/-- A pair around something that is no pair stays. -/
theorem collapsed_rounded_around {n : Nest} (b : Bracket) (h : n.isPair = false) :
    (pair b n nil).rounded.collapsed = pair .round n.rounded.collapsed nil := by
  simp [rounded, collapsed, isPair_rounded, h]

/-- A pair around a pair goes. -/
theorem collapsed_rounded_again {n : Nest} (b : Bracket) (h : n.isPair = true) :
    (pair b n nil).rounded.collapsed = n.rounded.collapsed := by
  simp [rounded, collapsed, isPair_rounded, h]

end Nest

variable {k : Category} {n n' : Nest} {s : Sentence}

/-- A sentence with a connective stands in round brackets as an operand. -/
theorem symbolsAt_false_of_isBinary (h : s.isBinary = true) :
    s.symbolsAt false = enclose .round (s.symbolsAt true) := by
  cases s with
  | binary c l r => rfl
  | _ => cases h

/-- What the normal form of a phrase shows: the sentence as an operand where a factor stands, and
the sentence as a whole when a pair around it is left out. -/
def ShowsNormal : Category → Nest → Sentence → Prop
  | .binary, n, s => n.rounded.collapsed.symbols = s.symbolsAt true
  | .sentence, n, s => n.rounded.collapsed.stripped.symbols = s.symbolsAt true
  | _, n, s => n.rounded.collapsed.symbols = s.symbolsAt false ∧
      n.rounded.collapsed.stripped.symbols = s.symbolsAt true

theorem Nested.normal (h : Nested k n s) : ShowsNormal k n s := by
  induction h with
  | ofBinary h ih =>
    cases h with
    | joined c _ _ =>
      -- two joined factors are no pair, so nothing is around them
      show Nest.symbols (Nest.stripped _) = _
      rw [Nest.stripped_of_not_isPair]
      · exact ih
      · rw [Nest.collapsed_rounded_joined]
        exact Nest.isPair_append_plain ..
  | ofFactor _ ih => exact ih.2
  | @joined m n a b c _ _ ihm ihn =>
    show (m ++ .plain (.connective c) (Symbol.isBracket_connective c) n).rounded.collapsed.symbols =
      _
    rw [Nest.collapsed_rounded_joined, Nest.symbols_append, ihm.1]
    exact congrArg (_ ++ .connective c :: ·) ihn.1
  | ofBare _ ih => exact ih
  | ofBracketed _ ih => exact ih
  | letter _ => exact ⟨rfl, rfl⟩
  | negation _ ih => exact ⟨congrArg _ ih.1, congrArg _ ih.1⟩
  | around b h ih =>
    have hpair := Nest.collapsed_rounded_around b h.binary_not_isPair
    refine ⟨?_, ?_⟩
    · rw [hpair, Nest.symbols_pair_nil, ih, symbolsAt_false_of_isBinary h.derives.binary_isBinary]
    · rw [hpair]
      exact ih
  | again b h ih =>
    have hpair := Nest.collapsed_rounded_again b h.bracketed_isPair
    exact ⟨hpair ▸ ih.1, hpair ▸ ih.2⟩

/-! ### Changing brackets -/

/-- One change of brackets somewhere in a nest: another kind for a pair, a pair put around a pair,
or a pair around a pair taken away. -/
inductive Rebracketing : Nest → Nest → Prop where
  | kind (b b' : Bracket) (inside rest : Nest) :
      Rebracketing (.pair b inside rest) (.pair b' inside rest)
  | added (b b' : Bracket) (inside rest : Nest) :
      Rebracketing (.pair b inside rest) (.pair b' (.pair b inside .nil) rest)
  | removed (b b' : Bracket) (inside rest : Nest) :
      Rebracketing (.pair b' (.pair b inside .nil) rest) (.pair b inside rest)
  | behindPlain {m n : Nest} (x : Symbol) (h : x.isBracket = false) :
      Rebracketing m n → Rebracketing (.plain x h m) (.plain x h n)
  | inside {m n : Nest} (b : Bracket) (rest : Nest) :
      Rebracketing m n → Rebracketing (.pair b m rest) (.pair b n rest)
  | behindPair {m n : Nest} (b : Bracket) (inside : Nest) :
      Rebracketing m n → Rebracketing (.pair b inside m) (.pair b inside n)

/-- A change happens on one side of a symbol that is no bracket. -/
theorem Rebracketing.of_append_plain {m n t : Nest} {x : Symbol} {h : x.isBracket = false}
    (hr : Rebracketing (m ++ .plain x h n) t) :
    (∃ m', Rebracketing m m' ∧ t = m' ++ .plain x h n) ∨
      ∃ n', Rebracketing n n' ∧ t = m ++ .plain x h n' := by
  induction m generalizing t with
  | nil =>
    cases hr with
    | behindPlain _ _ hr => exact .inr ⟨_, hr, rfl⟩
  | plain y hy rest ih =>
    cases hr with
    | behindPlain _ _ hr =>
      obtain ⟨m', hm, rfl⟩ | ⟨n', hn, rfl⟩ := ih hr
      · exact .inl ⟨_, .behindPlain y hy hm, rfl⟩
      · exact .inr ⟨n', hn, rfl⟩
  | pair b inside rest _ ih =>
    cases hr with
    | kind b b' => exact .inl ⟨_, .kind b b' inside rest, rfl⟩
    | added _ b' => exact .inl ⟨_, .added b b' inside rest, rfl⟩
    | removed b' _ inside => exact .inl ⟨_, .removed b' b inside rest, rfl⟩
    | inside _ _ hr => exact .inl ⟨_, .inside b rest hr, rfl⟩
    | behindPair _ _ hr =>
      obtain ⟨m', hm, rfl⟩ | ⟨n', hn, rfl⟩ := ih hr
      · exact .inl ⟨_, .behindPair b inside hm, rfl⟩
      · exact .inr ⟨n', hn, rfl⟩

/-- No change of brackets changes what a phrase is a phrase of. -/
theorem Nested.rebracketing (h : Nested k n s) (hr : Rebracketing n n') : Nested k n' s := by
  induction h generalizing n' with
  | ofBinary _ ih => exact .ofBinary (ih hr)
  | ofFactor _ ih => exact .ofFactor (ih hr)
  | joined c hm hn ihm ihn =>
    obtain ⟨m', hm', rfl⟩ | ⟨n', hn', rfl⟩ := hr.of_append_plain
    · exact .joined c (ihm hm') hn
    · exact .joined c hm (ihn hn')
  | ofBare _ ih => exact .ofBare (ih hr)
  | ofBracketed _ ih => exact .ofBracketed (ih hr)
  | letter _ =>
    cases hr with
    | behindPlain _ _ hr => cases hr
  | negation _ ih =>
    cases hr with
    | behindPlain _ _ hr => exact .negation (ih hr)
  | around b h ih =>
    cases hr with
    | kind b b' => exact .around b' h
    | added b b' => exact .again b' (.around b h)
    | removed => cases h.binary_not_isPair -- a pair around two factors is not around a pair
    | inside _ _ hr => exact .around b (ih hr)
    | behindPair _ _ hr => cases hr
  | again b h ih =>
    cases hr with
    | kind b b' => exact .again b' h
    | added b b' => exact .again b' (.again b h)
    | removed => exact h
    | inside _ _ hr => exact .again b (ih hr)
    | behindPair _ _ hr => cases hr

theorem Nested.rebracketings (h : Nested k n s) (hr : Relation.ReflTransGen Rebracketing n n') :
    Nested k n' s := by
  induction hr with
  | refl => exact h
  | tail _ hr ih => exact ih.rebracketing hr

end Grammar

namespace Sentence
open Grammar Propositional.Symbol

/-- **Showing a sentence normalizes the formula it was read from.** The symbols of a formula are
those of exactly one nest. The spaced form of its sentence spells this nest with all brackets round,
without the pairs around a single pair and without a pair around the whole. And whatever other text
is written with the symbols of a nest that changes of brackets lead to, in any spelling and with any
separators, is a formula of the same sentence. -/
theorem parse_normalizes {text : Text} {s : Sentence} (h : parse text = .ok s) :
    ∃ n : Nest, Spells (Text.trim text) n.symbols ∧
      (∀ m : Nest, Spells (Text.trim text) m.symbols → m = n) ∧
      Spells s.spaced n.rounded.collapsed.stripped.symbols ∧
      ∀ (m : Nest) (other : Text), Relation.ReflTransGen Rebracketing n m →
        Written (Text.trim other) m.symbols → parse other = .ok s := by
  obtain ⟨w, hw, hd⟩ := parse_eq_ok_iff.mp h
  obtain ⟨n, rfl, hn⟩ := hd.exists_nested
  refine ⟨n, hw, fun m hm => ?_, ?_, fun m other hr hother => ?_⟩
  · exact Nest.symbols_inj (hm.2.symm.trans hw.2)
  · have hshows := shows_spaced (isPlain_of_parse h)
    have hnormal : n.rounded.collapsed.stripped.symbols = s.symbolsAt true := hn.normal
    rw [hnormal, ← hshows.symbols]
    exact Tokens.scan_of_signs hshows.signs
  · exact parse_of_written hother (hn.rebracketings hr).derives

/-- Two letters with a connective between them. -/
def lettersJoined (c : Connective) (l r : Letter) : Nest :=
  .plain (.letter l) (isBracket_letter l) (.plain (.connective c) (isBracket_connective c)
    (.plain (.letter r) (isBracket_letter r) .nil))

/-- A disjunction with a negation on the right. -/
def orNot (l r : Nest) : Nest :=
  l ++ .plain (.connective .disjunction) (isBracket_connective .disjunction)
    (.plain .negation isBracket_negation r)

/-- A formula with needless brackets, and another text for its sentence: a pair more on the left, a
pair less on the right, one pair of another kind, other spellings and other separators. -/
theorem needless_brackets_normalized :
    let P : Letter := { id := 'P', isUpper := rfl }
    let Q : Letter := { id := 'Q', isUpper := rfl }
    let R : Letter := { id := 'R', isUpper := rfl }
    let S : Letter := { id := 'S', isUpper := rfl }
    let s : Sentence := .binary .disjunction (.binary .conditional (.letter P) (.letter Q))
      (.negation (.binary .conjunction (.letter R) (.letter S)))
    let n := orNot (.pair .square (.pair .curly (lettersJoined .conditional P Q) .nil) .nil)
      (.pair .round (.pair .round (lettersJoined .conjunction R S) .nil) .nil)
    parse " [\x7bP->Q\x7d]v~((R&S))\t".toList = .ok s ∧
      Spells s.spaced n.rounded.collapsed.stripped.symbols ∧
      parse "\n([(P → Q)]) ∨~(R\t∧S)".toList = .ok s := by
  intro P Q R S s n
  have hparse : parse " [\x7bP->Q\x7d]v~((R&S))\t".toList = .ok s := rfl
  obtain ⟨m, -, hunique, hspaced, hother⟩ := parse_normalizes hparse
  obtain rfl : n = m := hunique n ⟨rfl, rfl⟩
  let left (b : Bracket) : Nest :=
    .pair .round (.pair .square (.pair b (lettersJoined .conditional P Q) .nil) .nil) .nil
  let right : Nest := .pair .round (lettersJoined .conjunction R S) .nil
  have hadded : Rebracketing n (orNot (left .curly) (.pair .round right .nil)) :=
    .added .square .round _ _
  have hkind : Rebracketing (orNot (left .curly) (.pair .round right .nil))
      (orNot (left .round) (.pair .round right .nil)) :=
    .inside _ _ (.inside _ _ (.kind .curly .round _ _))
  have hremoved : Rebracketing (orNot (left .round) (.pair .round right .nil))
      (orNot (left .round) right) :=
    .behindPair _ _ (.behindPlain _ _ (.behindPlain _ _ (.removed .round .round _ _)))
  exact ⟨hparse, hspaced, hother (orNot (left .round) right) _
    (.head hadded (.head hkind (.single hremoved))) (spells_iff_written.mp ⟨rfl, rfl⟩)⟩

end Sentence

end Propositional
