import Propositional.Proofs.Formula.Spelling

/-! How a text is cut into tokens.

A text is separators, spellings of symbols and, if the scan fails, a rest that begins with none of
them (`Segmented`). The tokens are the spellings, where they stand: their spans ascend and leave out
nothing but separators up to the end or the failure (`Segmented.ascending`, `Segmented.covered`).
No spelling begins another one, and none begins with a separator, so it does not matter what stands
next to a spelling: whatever is written token by token is cut there again (`scanFrom_lexemes`).
`scan_segments_exactly` states both. -/
namespace Propositional

/-! ### The accepted spellings -/

/-- How a connective may be written: as it is typed, and with the sign it is displayed with. -/
def Connective.spellings : Connective → List Text
  | conjunction => [['&'], ['∧']]
  | disjunction => [['v'], ['∨']]
  | conditional => [['-', '>'], ['→']]
  | biconditional => [['<', '-', '>'], ['↔']]
  | xor => [['+'], ['⊕']]
  | nand => [['|']]

/-- How a symbol may be written. A letter with a number is only displayed. -/
def Symbol.spellings : Symbol → List Text
  | letter l => if l.index = 0 then [[l.id]] else []
  | negation => [['~']]
  | connective c => c.spellings
  | opening .round => [['(']]
  | closing .round => [[')']]
  | opening .square => [['[']]
  | closing .square => [[']']]
  | opening .curly => [['\x7b']]
  | closing .curly => [['\x7d']]

namespace Sentence
open Tokens Propositional.Symbol

theorem Spelling.mem_spellings {x : Symbol} {a : Text} (h : Spelling x a) : a ∈ x.spellings := by
  cases h with
  | conditional => decide
  | biconditional => decide
  | @sign c x hc =>
    unfold ofChar? at hc
    split at hc
    case h_17 =>
      obtain ⟨l, hl, rfl⟩ := Option.map_eq_some_iff.mp hc
      unfold Letter.ofChar? at hl
      split at hl
      next hupper =>
        obtain rfl := Option.some.inj hl
        exact List.mem_singleton_self _
      next => cases hl
    all_goals
      obtain rfl := Option.some.inj hc
      decide

theorem spelling_of_mem {x : Symbol} {a : Text} (h : a ∈ x.spellings) : Spelling x a := by
  cases x with
  | letter l =>
    rw [spellings] at h
    split at h
    next hindex =>
      obtain rfl := List.mem_singleton.mp h
      have hl : l = { id := l.id, isUpper := l.isUpper } := Letter.ext_parts rfl hindex
      exact .sign (hl ▸ ofChar?_of_isUpper l.isUpper)
    next => cases h
  | negation =>
    obtain rfl := List.mem_singleton.mp h
    exact .sign rfl
  | connective c =>
    cases c <;> simp only [spellings, Connective.spellings, List.mem_cons, List.not_mem_nil,
      or_false] at h
    case conditional =>
      rcases h with rfl | rfl
      · exact .conditional
      · exact .sign rfl
    case biconditional =>
      rcases h with rfl | rfl
      · exact .biconditional
      · exact .sign rfl
    case nand =>
      subst h
      exact .sign rfl
    all_goals rcases h with rfl | rfl <;> exact .sign rfl
  | opening b => cases b <;> obtain rfl := List.mem_singleton.mp h <;> exact .sign rfl
  | closing b => cases b <;> obtain rfl := List.mem_singleton.mp h <;> exact .sign rfl

end Sentence

namespace Tokens
open Propositional.Sentence

/-! ### Cutting from the left -/

/-- A text whose first character is at position `p`, cut into tokens from the left. -/
inductive Segmented : Nat → Text → Tokens → Prop where
  | done (p : Nat) : Segmented p [] ⟨[], none⟩
  | stuck {c : Char} {rest : Text} (p : Nat) : isSeparator c = false →
      (∀ x a, Spelling x a → ¬a <+: c :: rest) → Segmented p (c :: rest) ⟨[], some ⟨c, p⟩⟩
  | gap {p : Nat} {c : Char} {t : Text} {ts : Tokens} : isSeparator c = true →
      Segmented (p + 1) t ts → Segmented p (c :: t) ts
  | token {p : Nat} {x : Symbol} {a t : Text} {ts : Tokens} : Spelling x a →
      Segmented (p + a.length) t ts → Segmented p (a ++ t) (push ⟨x, a, p⟩ ts)

theorem segmented_scanFrom (p : Nat) (text : Text) : Segmented p text (scanFrom p text) := by
  fun_induction scanFrom p text with
  | case1 p => exact .done p
  | case2 p rest ih => exact .token .biconditional ih
  | case3 p rest ih => exact .token .conditional ih
  | case4 p c rest _ _ hsep ih => exact .gap hsep ih
  | case5 p c rest _ _ hsep x hx ih => exact .token (.sign hx) ih
  | case6 p c rest hiff himp hsep hx =>
    refine .stuck p (Bool.eq_false_iff.mpr hsep) fun x a ha hprefix => ?_
    obtain ⟨after, hafter⟩ := hprefix
    cases ha with
    | sign hc =>
      obtain ⟨rfl, -⟩ := List.cons.inj hafter
      rw [hx] at hc
      cases hc
    | conditional =>
      obtain ⟨rfl, hrest⟩ := List.cons.inj hafter
      exact himp after rfl hrest.symm
    | biconditional =>
      obtain ⟨rfl, hrest⟩ := List.cons.inj hafter
      exact hiff after rfl hrest.symm

namespace Segmented

variable {p : Nat} {text : Text} {ts : Tokens}

theorem accepted (h : Segmented p text ts) : ∀ t ∈ ts.tokens, t.spelling ∈ t.symbol.spellings := by
  induction h with
  | done p => exact fun t ht => nomatch ht
  | stuck p _ _ => exact fun t ht => nomatch ht
  | gap _ _ ih => exact ih
  | token ha _ ih =>
    intro t ht
    rcases List.mem_cons.mp ht with rfl | ht
    · exact ha.mem_spellings
    · exact ih t ht

/-- A token takes at least one character. -/
theorem start_lt_stop (h : Segmented p text ts) :
    ∀ t ∈ ts.tokens, p ≤ t.start ∧ t.start < t.stop := by
  induction h with
  | done p => exact fun t ht => nomatch ht
  | stuck p _ _ => exact fun t ht => nomatch ht
  | gap _ _ ih => exact fun t ht => ⟨Nat.le_of_succ_le (ih t ht).1, (ih t ht).2⟩
  | token ha _ ih =>
    intro t ht
    have hlength := List.length_pos_iff.mpr ha.ne_nil
    rcases List.mem_cons.mp ht with rfl | ht
    · exact ⟨Nat.le_refl _, Nat.lt_add_of_pos_right hlength⟩
    · exact ⟨Nat.le_trans (Nat.le_add_right _ _) (ih t ht).1, (ih t ht).2⟩

theorem ascending (h : Segmented p text ts) : ts.tokens.Pairwise fun t t' => t.stop ≤ t'.start := by
  induction h with
  | done p => exact .nil
  | stuck p _ _ => exact .nil
  | gap _ _ ih => exact ih
  | token _ hrest ih => exact .cons (fun t ht => (hrest.start_lt_stop t ht).1) ih

/-- Up to the end or the failure there are only tokens and separators. -/
theorem covered (h : Segmented p text ts) {i : Nat} {c : Char} (hi : text[i]? = some c)
    (hlt : ∀ e, ts.failure = some e → p + i < e.position) :
    isSeparator c = true ∨ ∃ t ∈ ts.tokens, t.start ≤ p + i ∧ p + i < t.stop := by
  induction h generalizing i with
  | done p => cases hi
  | stuck p _ _ => exact absurd (hlt _ rfl) (Nat.not_lt.mpr (Nat.le_add_right p i))
  | @gap p d t ts hd _ ih =>
    cases i with
    | zero =>
      obtain rfl := Option.some.inj hi
      exact .inl hd
    | succ i =>
      have hplace : p + 1 + i = p + (i + 1) := by omega
      rw [← hplace] at hlt ⊢
      exact ih hi hlt
  | @token p x a t ts _ _ ih =>
    by_cases hin : i < a.length
    · exact .inr ⟨⟨x, a, p⟩, List.mem_cons_self, Nat.le_add_right p i, Nat.add_lt_add_left hin p⟩
    · have hplace : p + a.length + (i - a.length) = p + i := by omega
      rw [List.getElem?_append_right (Nat.not_lt.mp hin)] at hi
      rw [← hplace] at hlt ⊢
      refine (ih hi hlt).imp_right fun ⟨u, hu, hspan⟩ => ⟨u, List.mem_cons_of_mem _ hu, hspan⟩

/-- The scan fails behind all tokens, where a character that is no separator begins no spelling. -/
theorem failure (h : Segmented p text ts) {e : IllegalCharacter} (he : ts.failure = some e) :
    (∀ t ∈ ts.tokens, t.stop ≤ e.position) ∧ isSeparator e.char = false ∧
      ∃ before rest, text = before ++ e.char :: rest ∧ e.position = p + before.length ∧
        ∀ x a, Spelling x a → ¬a <+: e.char :: rest := by
  induction h with
  | done p => cases he
  | @stuck c rest p hc hnone =>
    obtain rfl := Option.some.inj he
    exact ⟨fun t ht => (nomatch ht), hc, [], rest, rfl, rfl, hnone⟩
  | @gap p c t ts _ _ ih =>
    obtain ⟨hstop, hchar, before, rest, rfl, hposition, hnone⟩ := ih he
    refine ⟨hstop, hchar, c :: before, rest, rfl, ?_, hnone⟩
    rw [hposition, List.length_cons]
    omega
  | @token p x a t ts _ hrest ih =>
    obtain ⟨hstop, hchar, before, rest, rfl, hposition, hnone⟩ := ih he
    have hend : e.position = p + (a ++ before).length := by
      rw [hposition, List.length_append]
      omega
    refine ⟨fun u hu => ?_, hchar, a ++ before, rest, (List.append_assoc _ _ _).symm, hend, hnone⟩
    rcases List.mem_cons.mp hu with rfl | hu
    · rw [hend, List.length_append, ← Nat.add_assoc]
      exact Nat.le_add_right _ _
    · exact hstop u hu

end Segmented

/-- Tokens that cut a text. -/
structure Segments (text : Text) (ts : Tokens) : Prop where
  /-- A token is an accepted spelling of its symbol, and the text has it where the token stands. -/
  spelled : ∀ t ∈ ts.tokens, t.spelling ∈ t.symbol.spellings ∧ SpelledIn 0 text t
  nonempty : ∀ t ∈ ts.tokens, t.start < t.stop
  ascending : ts.tokens.Pairwise fun t t' => t.stop ≤ t'.start
  /-- Up to the failure, or the end, a character outside of the tokens is a separator. -/
  covered : ∀ i c, text[i]? = some c → (∀ e, ts.failure = some e → i < e.position) →
    isSeparator c = true ∨ ∃ t ∈ ts.tokens, t.start ≤ i ∧ i < t.stop
  /-- The failure is behind all tokens and names the character there, which is no separator; no
  accepted spelling starts with it. -/
  failure : ∀ e, ts.failure = some e → (∀ t ∈ ts.tokens, t.stop ≤ e.position) ∧
    text[e.position]? = some e.char ∧ isSeparator e.char = false ∧
    ∀ x : Symbol, ∀ a ∈ x.spellings, ¬a <+: text.drop e.position
  /-- What is said of the failure gives the character and the position. -/
  failure_message : ∀ e, ts.failure = some e → ∃ c, text[e.position]? = some c ∧
    e.message = "Illegal character \x27".toList ++ c ::
      "\x27 encountered at position ".toList ++ Nat.toDigits 10 e.position

theorem segments_scan (text : Text) : Segments text (scan text) := by
  have h : Segmented 0 text (scan text) := segmented_scanFrom 0 text
  constructor
  case spelled => exact fun t ht => ⟨h.accepted t ht, (located_scan text).1 t ht⟩
  case nonempty => exact fun t ht => (h.start_lt_stop t ht).2
  case ascending => exact h.ascending
  case covered =>
    intro i c hi hlt
    rw [← Nat.zero_add i] at hlt ⊢
    exact h.covered hi hlt
  case failure =>
    intro e he
    obtain ⟨hstop, hchar, before, rest, rfl, hposition, hnone⟩ := h.failure he
    rw [Nat.zero_add] at hposition
    refine ⟨hstop, ?_, hchar, fun x a ha => ?_⟩
    · rw [hposition, List.getElem?_append_right (Nat.le_refl _), Nat.sub_self]
      rfl
    · rw [hposition, List.drop_left]
      exact hnone x a (spelling_of_mem ha)
  case failure_message => exact fun e he => ⟨e.char, ((located_scan text).2 e he).2, rfl⟩

/-! ### Writing token by token -/

/-- Characters that mean nothing. -/
def Gap := { t : Text // ∀ c ∈ t, isSeparator c = true }

/-- A symbol as it is to be written: one of its spellings, with a gap in front. -/
structure Lexeme where
  gap : Gap
  symbol : Symbol
  spelling : Text
  accepted : spelling ∈ symbol.spellings

def Lexeme.text (x : Lexeme) : Text := x.gap.val ++ x.spelling

/-- The tokens of what is written, from a position on. -/
def tokensFrom (p : Nat) : List Lexeme → List Token
  | [] => []
  | x :: rest =>
    ⟨x.symbol, x.spelling, p + x.gap.val.length⟩ :: tokensFrom (p + x.text.length) rest

theorem scanFrom_separators {g : Text} (hg : ∀ c ∈ g, isSeparator c = true) (p : Nat) (t : Text) :
    scanFrom p (g ++ t) = scanFrom (p + g.length) t := by
  induction g generalizing p with
  | nil => rfl
  | cons c g ih =>
    have hplace : p + 1 + g.length = p + (c :: g).length := by
      rw [List.length_cons]
      omega
    rw [List.cons_append, scanFrom_gap (hg c List.mem_cons_self),
      ih fun d hd => hg d (List.mem_cons_of_mem c hd), hplace]

/-- What is written token by token is cut into these tokens. -/
theorem scanFrom_lexemes (p : Nat) (lexemes : List Lexeme) (last : Gap) :
    scanFrom p (lexemes.flatMap Lexeme.text ++ last.val) = ⟨tokensFrom p lexemes, none⟩ := by
  induction lexemes generalizing p with
  | nil =>
    have hlast := scanFrom_separators last.property p []
    rwa [List.append_nil] at hlast
  | cons x rest ih =>
    rw [List.flatMap_cons, Lexeme.text, List.append_assoc, List.append_assoc,
      scanFrom_separators x.gap.property, scanFrom_spelling (spelling_of_mem x.accepted), ih,
      tokensFrom, Lexeme.text, List.length_append, Nat.add_assoc]
    rfl

/-- **A scan cuts a text exactly.** Whatever the text, the tokens are accepted spellings where the
text has them, their spans ascend without overlapping, all that is left out up to the end or the
failure are separators, and a failure is at the first character behind the tokens that is no
separator, where no spelling starts, and says so. Conversely, a text that is written token by token,
with any spellings and any separators between them, is cut into just these tokens. -/
theorem scan_segments_exactly :
    (∀ text, Segments text (scan text)) ∧
      ∀ (lexemes : List Lexeme) (last : Gap),
        scan (lexemes.flatMap Lexeme.text ++ last.val) = ⟨tokensFrom 0 lexemes, none⟩ :=
  ⟨segments_scan, scanFrom_lexemes 0⟩

end Tokens

end Propositional
