import Propositional.Formula.Token
import Propositional.Text.Blank

/-! What scanning makes of a text.

A sign is a symbol spelled by one character. A text of signs and separators alone is scanned
character by character (`scan_of_signs`), and trimming takes no sign away (`filterMap_trim`). The
symbols of any scanned text hold only letters without a number (`typed_scan`); its tokens and the
character that ends the scan stand where they say they do; and a text is scanned to its end only
if every character is one that tokens or separators are made of (`isLegal_of_scan`). -/
namespace Propositional

namespace Symbol

/-! ### The symbols of one character -/

/-- The characters that are a symbol on their own, besides the letters. -/
def signs : List Char :=
  ['~', '&', '∧', 'v', '∨', '→', '↔', '+', '⊕', '|', '(', ')', '[', ']', '\x7b', '\x7d']

/-- A character that is a symbol is a letter or one of the signs. -/
theorem ofChar?_eq_some {c : Char} {s : Symbol} (h : ofChar? c = some s) :
    (∃ hc : c.isUpper = true, s = .letter { id := c, isUpper := hc }) ∨
      c ∈ signs ∧ ∀ l, s ≠ .letter l := by
  unfold ofChar? at h
  split at h
  case h_17 =>
    obtain ⟨l, hl, rfl⟩ := Option.map_eq_some_iff.mp h
    unfold Letter.ofChar? at hl
    split at hl
    next hc => exact .inl ⟨hc, by rw [← Option.some.inj hl]⟩
    next => cases hl
  all_goals
    obtain rfl := Option.some.inj h
    exact .inr ⟨by decide, fun l hl => by cases hl⟩

/-- Every letter is a symbol on its own. -/
theorem ofChar?_of_isUpper {c : Char} (h : c.isUpper = true) :
    ofChar? c = some (.letter { id := c, isUpper := h }) := by
  unfold ofChar?
  split
  case h_17 => simp [Letter.ofChar?, h]
  all_goals exact absurd h (by decide)

/-- Only letters without a number: all that a text can spell. -/
def Typed (w : List Symbol) : Prop := ∀ l, .letter l ∈ w → l.index = 0

theorem index_ofChar? {c : Char} {l : Letter} (h : ofChar? c = some (.letter l)) : l.index = 0 := by
  obtain ⟨hc, hs⟩ | ⟨-, hne⟩ := ofChar?_eq_some h
  · rw [Symbol.letter.inj hs]
  · exact absurd rfl (hne l)

theorem ofChar?_of_isSeparator {c : Char} (h : Tokens.isSeparator c = true) : ofChar? c = none := by
  simp only [Tokens.isSeparator, Bool.or_eq_true, beq_iff_eq] at h
  rcases h with ((rfl | rfl) | rfl) | rfl <;> rfl

/-- No sign is a blank. -/
theorem ofChar?_of_isBlankChar {c : Char} (h : Text.isBlankChar c = true) : ofChar? c = none := by
  cases hs : ofChar? c with
  | none => rfl
  | some s =>
    obtain ⟨hc, -⟩ | ⟨hc, -⟩ := ofChar?_eq_some hs
    · have hrange : 65 ≤ c.toNat ∧ c.toNat ≤ 90 := of_decide_eq_true hc
      simp only [Text.isBlankChar, Bool.or_eq_true, Bool.and_eq_true, decide_eq_true_eq,
        beq_iff_eq] at h
      omega
    · have hnone : signs.all (fun c => !Text.isBlankChar c) = true := by decide
      have hc := List.all_eq_true.mp hnone c hc
      rw [h] at hc
      contradiction

end Symbol

namespace Text

/-! ### Trimming -/

theorem trimEnd_append (t : Text) :
    trimEnd t ++ (t.reverse.takeWhile isBlankChar).reverse = t := by
  rw [trimEnd, ← List.reverse_append, List.takeWhile_append_dropWhile, List.reverse_reverse]

/-- Trimming splits blanks off at both ends. -/
theorem trim_split (t : Text) :
    ∃ before after, t = before ++ trim t ++ after ∧ (∀ c ∈ before, isBlankChar c = true) ∧
      ∀ c ∈ after, isBlankChar c = true := by
  refine ⟨t.takeWhile isBlankChar, ((trimStart t).reverse.takeWhile isBlankChar).reverse, ?_,
    List.all_eq_true.mp List.all_takeWhile,
    fun c hc => List.all_eq_true.mp List.all_takeWhile c (List.mem_reverse.mp hc)⟩
  rw [trim, List.append_assoc, trimEnd_append, trimStart, List.takeWhile_append_dropWhile]

theorem mem_of_mem_trim {t : Text} {c : Char} (h : c ∈ trim t) : c ∈ t := by
  obtain ⟨before, after, ht, -, -⟩ := trim_split t
  rw [ht]
  simp [h]

/-- Trimming takes no other characters away than blanks. -/
theorem mem_trim_of_mem {t : Text} {c : Char} (h : c ∈ t) (hc : isBlankChar c = false) :
    c ∈ trim t := by
  obtain ⟨before, after, ht, hbefore, hafter⟩ := trim_split t
  rw [ht] at h
  simp only [List.mem_append] at h
  rcases h with (h | h) | h
  · rw [hbefore c h] at hc
    contradiction
  · exact h
  · rw [hafter c h] at hc
    contradiction

/-- What `dropWhile` leaves does not start with what it drops. -/
theorem eq_nil_of_dropWhile {p : Char → Bool} {t u v : Text} (h : t.dropWhile p = u ++ v)
    (hu : ∀ c ∈ u, p c = true) : u = [] := by
  cases u with
  | nil => rfl
  | cons c u =>
    have hne : t.dropWhile p ≠ [] := by simp [h]
    have hc := List.head_dropWhile_not p hne
    simp only [h, List.cons_append, List.head_cons] at hc
    rw [hu c List.mem_cons_self] at hc
    contradiction

theorem eq_nil_of_trimEnd {t u v : Text} (h : trimEnd t = u ++ v)
    (hv : ∀ c ∈ v, isBlankChar c = true) : v = [] := by
  have hrev : t.reverse.dropWhile isBlankChar = v.reverse ++ u.reverse := by
    rw [← List.reverse_append, ← h, trimEnd, List.reverse_reverse]
  exact List.reverse_eq_nil_iff.mp
    (eq_nil_of_dropWhile hrev fun c hc => hv c (List.mem_reverse.mp hc))

/-- A trimmed text does not end with blanks. -/
theorem eq_nil_of_trim_right {t u v : Text} (h : trim t = u ++ v)
    (hv : ∀ c ∈ v, isBlankChar c = true) : v = [] :=
  eq_nil_of_trimEnd h hv

/-- A trimmed text does not start with blanks. -/
theorem eq_nil_of_trim_left {t u v : Text} (h : trim t = u ++ v)
    (hu : ∀ c ∈ u, isBlankChar c = true) : u = [] := by
  have hsplit := trimEnd_append (trimStart t)
  rw [← trim, h, List.append_assoc] at hsplit
  exact eq_nil_of_dropWhile hsplit.symm hu

/-- Trimming takes no sign away. -/
theorem filterMap_trim (t : Text) :
    (trim t).filterMap Symbol.ofChar? = t.filterMap Symbol.ofChar? := by
  obtain ⟨before, after, ht, hbefore, hafter⟩ := trim_split t
  have hnil (part : Text) (h : ∀ c ∈ part, isBlankChar c = true) :
      part.filterMap Symbol.ofChar? = [] :=
    List.filterMap_eq_nil_iff.mpr fun c hc => Symbol.ofChar?_of_isBlankChar (h c hc)
  have hall := congrArg (List.filterMap Symbol.ofChar?) ht
  rw [List.filterMap_append, List.filterMap_append, hnil before hbefore, hnil after hafter,
    List.nil_append, List.append_nil] at hall
  exact hall.symm

end Text

namespace Tokens

/-! ### Texts of signs and separators -/

theorem symbols_push (t : Token) (ts : Tokens) :
    (push t ts).tokens.map Token.symbol = t.symbol :: ts.tokens.map Token.symbol := rfl

theorem failure_push (t : Token) (ts : Tokens) : (push t ts).failure = ts.failure := rfl

theorem scanFrom_of_signs (p : Nat) {t : Text}
    (h : ∀ c ∈ t, isSeparator c = true ∨ (Symbol.ofChar? c).isSome = true) :
    (scanFrom p t).failure = none ∧
      (scanFrom p t).tokens.map Token.symbol = t.filterMap Symbol.ofChar? := by
  fun_induction scanFrom p t with
  | case1 p => exact ⟨rfl, rfl⟩
  | case2 p rest ih => exact absurd (h '<' (by simp)) (by decide)
  | case3 p rest ih => exact absurd (h '-' (by simp)) (by decide)
  | case4 p c rest _ _ hsep ih =>
    have := ih fun c hc => h c (List.mem_cons_of_mem _ hc)
    rw [List.filterMap_cons_none (Symbol.ofChar?_of_isSeparator hsep)]
    exact this
  | case5 p c rest _ _ hsep s hs ih =>
    have := ih fun c hc => h c (List.mem_cons_of_mem _ hc)
    rw [List.filterMap_cons_some hs, failure_push, symbols_push, this.2]
    exact ⟨this.1, rfl⟩
  | case6 p c rest _ _ hsep hs =>
    rcases h c List.mem_cons_self with hc | hc
    · exact absurd hc hsep
    · rw [hs] at hc
      contradiction

/-- A text of signs and separators is scanned character by character. -/
theorem scan_of_signs {t : Text}
    (h : ∀ c ∈ t, isSeparator c = true ∨ (Symbol.ofChar? c).isSome = true) :
    (scan t).failure = none ∧ (scan t).tokens.map Token.symbol = t.filterMap Symbol.ofChar? :=
  scanFrom_of_signs 0 h

/-! ### The symbols, the tokens and the failure of any scan -/

theorem typed_push {t : Token} {ts : Tokens} (ht : Symbol.Typed [t.symbol])
    (hts : Symbol.Typed (ts.tokens.map Token.symbol)) :
    Symbol.Typed ((push t ts).tokens.map Token.symbol) := by
  intro l hl
  rw [symbols_push, List.mem_cons] at hl
  rcases hl with hl | hl
  · exact ht l (hl ▸ List.mem_cons_self)
  · exact hts l hl

theorem typed_scanFrom (p : Nat) (t : Text) :
    Symbol.Typed ((scanFrom p t).tokens.map Token.symbol) := by
  fun_induction scanFrom p t with
  | case1 p => exact fun l hl => nomatch hl
  | case2 p rest ih => exact typed_push (fun l hl => by simp at hl) ih
  | case3 p rest ih => exact typed_push (fun l hl => by simp at hl) ih
  | case4 p c rest _ _ hsep ih => exact ih
  | case5 p c rest _ _ hsep s hs ih =>
    refine typed_push (fun l hl => ?_) ih
    have hl : Symbol.letter l = s := List.mem_singleton.mp hl
    exact Symbol.index_ofChar? (hl ▸ hs)
  | case6 p c rest _ _ hsep hs => exact fun l hl => nomatch hl

theorem typed_scan (t : Text) : Symbol.Typed ((scan t).tokens.map Token.symbol) :=
  typed_scanFrom 0 t

/-- Where a token starts, a text whose first character is at position `p` goes on with its
spelling. -/
def SpelledIn (p : Nat) (text : Text) (t : Token) : Prop :=
  p ≤ t.start ∧ t.spelling <+: text.drop (t.start - p)

/-- The character stands in the text at its position. -/
def FoundIn (p : Nat) (text : Text) (e : IllegalCharacter) : Prop :=
  p ≤ e.position ∧ text[e.position - p]? = some e.char

theorem SpelledIn.append {p : Nat} {text : Text} {t : Token} (before : Text)
    (h : SpelledIn (p + before.length) text t) : SpelledIn p (before ++ text) t := by
  obtain ⟨hstart, hspelled⟩ := h
  have hdrop : (before ++ text).drop (t.start - p) =
      text.drop (t.start - (p + before.length)) := by
    rw [List.drop_append, List.drop_eq_nil_of_le (by omega), List.nil_append]
    congr 1
    omega
  exact ⟨by omega, hdrop ▸ hspelled⟩

theorem FoundIn.append {p : Nat} {text : Text} {e : IllegalCharacter} (before : Text)
    (h : FoundIn (p + before.length) text e) : FoundIn p (before ++ text) e := by
  obtain ⟨hstart, hfound⟩ := h
  refine ⟨by omega, ?_⟩
  rw [List.getElem?_append_right (by omega), ← hfound]
  congr 1
  omega

/-- What a scan reports stands in the text where it is said to. -/
def Located (p : Nat) (text : Text) (ts : Tokens) : Prop :=
  (∀ t ∈ ts.tokens, SpelledIn p text t) ∧ ∀ e, ts.failure = some e → FoundIn p text e

theorem Located.append {p : Nat} {text : Text} {ts : Tokens} (before : Text)
    (h : Located (p + before.length) text ts) : Located p (before ++ text) ts :=
  ⟨fun t ht => (h.1 t ht).append before, fun e he => (h.2 e he).append before⟩

/-- A token in front of a scan of the text after it. -/
theorem Located.push {p : Nat} {text : Text} {ts : Tokens} (s : Symbol) (spelling : Text)
    (h : Located (p + spelling.length) text ts) :
    Located p (spelling ++ text) (push ⟨s, spelling, p⟩ ts) := by
  refine ⟨fun t ht => ?_, (h.append spelling).2⟩
  rcases List.mem_cons.mp ht with rfl | ht
  · exact ⟨Nat.le_refl p, by simp⟩
  · exact (h.1 t ht).append spelling

theorem located_scanFrom (p : Nat) (text : Text) : Located p text (scanFrom p text) := by
  fun_induction scanFrom p text with
  | case1 p => exact ⟨fun t ht => (nomatch ht), fun e he => (nomatch he)⟩
  | case2 p rest ih => exact Located.push _ ['<', '-', '>'] ih
  | case3 p rest ih => exact Located.push _ ['-', '>'] ih
  | case4 p c rest _ _ hsep ih => exact ih.append [c]
  | case5 p c rest _ _ hsep s hs ih => exact Located.push s [c] ih
  | case6 p c rest _ _ hsep hs =>
    refine ⟨fun t ht => (nomatch ht), fun e he => ?_⟩
    obtain rfl := Option.some.inj he
    exact ⟨Nat.le_refl p, by simp⟩

theorem located_scan (text : Text) : Located 0 text (scan text) := located_scanFrom 0 text

/-- A character that tokens or the gaps between them are made of. -/
def isLegal (c : Char) : Bool :=
  isSeparator c || (Symbol.ofChar? c).isSome || ['<', '-', '>'].contains c

/-- A text that is scanned to its end has legal characters only. -/
theorem isLegal_of_scanFrom {p : Nat} {t : Text} (h : (scanFrom p t).failure = none) {c : Char}
    (hc : c ∈ t) : isLegal c = true := by
  fun_induction scanFrom p t with
  | case1 p => cases hc
  | case2 p rest ih =>
    rw [failure_push] at h
    simp only [List.mem_cons] at hc
    rcases hc with rfl | rfl | rfl | hc
    · rfl
    · rfl
    · rfl
    · exact ih h hc
  | case3 p rest ih =>
    rw [failure_push] at h
    simp only [List.mem_cons] at hc
    rcases hc with rfl | rfl | hc
    · rfl
    · rfl
    · exact ih h hc
  | case4 p c' rest _ _ hsep ih =>
    rcases List.mem_cons.mp hc with rfl | hc
    · simp [isLegal, hsep]
    · exact ih h hc
  | case5 p c' rest _ _ hsep s hs ih =>
    rw [failure_push] at h
    rcases List.mem_cons.mp hc with rfl | hc
    · simp [isLegal, hs]
    · exact ih h hc
  | case6 p c' rest _ _ hsep hs => cases h

theorem isLegal_of_scan {t : Text} (h : (scan t).failure = none) {c : Char} (hc : c ∈ t) :
    isLegal c = true :=
  isLegal_of_scanFrom h hc

end Tokens

end Propositional
