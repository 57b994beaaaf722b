import Propositional.Proofs.Formula.Nest
import Propositional.Proofs.Formula.Spelling
import Propositional.Proofs.Submission.Judging

/-! The remark on outer brackets.

The remark is given when brackets of one kind stay open from the start of a formula to its end. In a
formula all kinds are balanced inside every pair, so this is so exactly if one pair encloses the
whole (`isEnclosedBy_iff`). Without its first and last character such a formula is one of the same
sentence, and no other formula is: a letter or a negation would be missing at the start, or a
bracket would be closed that is not open (`parse_inner_iff`). -/
namespace Propositional

/-! ### The characters of brackets -/

/-- The two characters of a kind of brackets. -/
def Bracket.chars : Bracket → Char × Char
  | round => ('(', ')')
  | square => ('[', ']')
  | curly => ('\x7b', '\x7d')

theorem Submission.any_bracketPairs {p : Char × Char → Bool} :
    bracketPairs.any p = true ↔ ∃ b : Bracket, p b.chars = true := by
  simp only [bracketPairs, List.any_cons, List.any_nil, Bool.or_false, Bool.or_eq_true]
  constructor
  · rintro (h | h | h)
    · exact ⟨.round, h⟩
    · exact ⟨.square, h⟩
    · exact ⟨.curly, h⟩
  · rintro ⟨b, h⟩
    cases b with
    | round => exact .inl h
    | square => exact .inr (.inl h)
    | curly => exact .inr (.inr h)

namespace Symbol

theorem ofChar?_fst_chars (b : Bracket) : ofChar? b.chars.1 = some (.opening b) := by
  cases b <;> rfl

theorem ofChar?_snd_chars (b : Bracket) : ofChar? b.chars.2 = some (.closing b) := by
  cases b <;> rfl

/-- Brackets are spelled by their characters only. -/
theorem eq_chars_of_ofChar? {c : Char} {b : Bracket} :
    (ofChar? c = some (.opening b) → c = b.chars.1) ∧
      (ofChar? c = some (.closing b) → c = b.chars.2) := by
  unfold ofChar?
  split
  case h_17 => simp
  all_goals
    constructor
    · intro h
      cases h <;> rfl
    · intro h
      cases h <;> rfl

/-- A character that is no bracket of a kind. -/
def Neutral (b : Bracket) (c : Char) : Prop := c ≠ b.chars.1 ∧ c ≠ b.chars.2

theorem neutral_of_ofChar? {b : Bracket} {c : Char} (hopening : ofChar? c ≠ some (.opening b))
    (hclosing : ofChar? c ≠ some (.closing b)) : Neutral b c := by
  constructor
  · rintro rfl
    exact hopening (ofChar?_fst_chars b)
  · rintro rfl
    exact hclosing (ofChar?_snd_chars b)

theorem neutral_fst_chars {b b' : Bracket} (h : b' ≠ b) : Neutral b b'.chars.1 := by
  apply neutral_of_ofChar?
  · simpa [ofChar?_fst_chars] using h
  · simp [ofChar?_fst_chars]

theorem neutral_snd_chars {b b' : Bracket} (h : b' ≠ b) : Neutral b b'.chars.2 := by
  apply neutral_of_ofChar?
  · simp [ofChar?_snd_chars]
  · simpa [ofChar?_snd_chars] using h

theorem neutral_of_isBlankChar {b : Bracket} {c : Char} (h : Text.isBlankChar c = true) :
    Neutral b c := by
  apply neutral_of_ofChar?
  · simp [ofChar?_of_isBlankChar h]
  · simp [ofChar?_of_isBlankChar h]

/-- Whether a symbol is a letter or a negation sign. -/
def startsBare : Symbol → Bool
  | letter _ | negation => true
  | connective _ | opening _ | closing _ => false

end Symbol

namespace Sentence
open Grammar Propositional.Symbol

theorem Spelling.eq_fst_chars {b : Bracket} {a : Text} (h : Spelling (.opening b) a) :
    a = [b.chars.1] := by
  cases h with
  | sign hc => rw [eq_chars_of_ofChar?.1 hc]

theorem Spelling.eq_snd_chars {b : Bracket} {a : Text} (h : Spelling (.closing b) a) :
    a = [b.chars.2] := by
  cases h with
  | sign hc => rw [eq_chars_of_ofChar?.2 hc]

theorem Spelling.neutral {x : Symbol} {a : Text} (h : Spelling x a) (hx : x.isBracket = false)
    (b : Bracket) : ∀ c ∈ a, Neutral b c := by
  cases h with
  | sign hc =>
    intro d hd
    obtain rfl := List.mem_singleton.mp hd
    apply neutral_of_ofChar?
    · rintro hd
      rw [hd] at hc
      cases hc
      cases hx
    · rintro hd
      rw [hd] at hc
      cases hc
      cases hx
  | conditional => cases b <;> simp [Neutral, Bracket.chars]
  | biconditional => cases b <;> simp [Neutral, Bracket.chars]

/-- A text that starts with a pair of brackets, cut at the two. -/
theorem Written.cut_pair {t : Text} {b : Bracket} {inside rest : Nest}
    (h : Written t (Nest.pair b inside rest).symbols) :
    ∃ gap content after, t = gap ++ b.chars.1 :: (content ++ b.chars.2 :: after) ∧
      Written gap [] ∧ Written content inside.symbols ∧ Written after rest.symbols := by
  obtain ⟨gap, a, t, rfl, hgap, ha, ht⟩ := Written.cut (v := []) h
  obtain ⟨content, a', after, rfl, hcontent, ha', hafter⟩ := ht.cut
  obtain rfl := ha.eq_fst_chars
  obtain rfl := ha'.eq_snd_chars
  exact ⟨gap, content, after, rfl, hgap, hcontent, hafter⟩

/-! ### Letters and negations -/

/-- How many letters and negations a sentence has. -/
def bareCount : Sentence → Nat
  | const _ => 0
  | letter _ => 1
  | negation s => s.bareCount + 1
  | binary _ l r => l.bareCount + r.bareCount

theorem countP_startsBare {k : Category} {w : List Symbol} {s : Sentence} (h : Derives k w s) :
    w.countP startsBare = s.bareCount := by
  induction h with
  | joined c _ _ ihu ihv =>
    simp [List.countP_append, ihu, ihv, startsBare, bareCount]
  | letter _ => rfl
  | negation _ ih => simp [List.countP_cons, ih, startsBare, bareCount]
  | around b _ ih => simp [enclose, List.countP_append, ih, startsBare]
  | again b _ ih => simp [enclose, List.countP_append, ih, startsBare]
  | _ => assumption

/-- A formula starts with a bracket, a letter or a negation sign. -/
theorem exists_head_of_derives {k : Category} {w : List Symbol} {s : Sentence}
    (h : Derives k w s) : ∃ x v, w = x :: v ∧ (x.isBracket || startsBare x) = true := by
  induction h with
  | joined c _ _ ihu _ =>
    obtain ⟨x, v, rfl, hx⟩ := ihu
    exact ⟨x, _, List.cons_append, hx⟩
  | letter _ => exact ⟨_, _, rfl, rfl⟩
  | negation _ _ => exact ⟨_, _, rfl, rfl⟩
  | around b _ _ => exact ⟨_, _, rfl, rfl⟩
  | again b _ _ => exact ⟨_, _, rfl, rfl⟩
  | _ => assumption

theorem Spelling.countP_startsBare {x : Symbol} {a : Text} (h : Spelling x a) :
    (a.filterMap ofChar?).countP startsBare = [x].countP startsBare := by
  cases h with
  | sign hc => rw [List.filterMap_cons_some hc, List.filterMap_nil]
  | conditional => rfl
  | biconditional => rfl

/-- The letters and negation signs can be counted in the text. -/
theorem Written.countP_startsBare {t : Text} {w : List Symbol} (h : Written t w) :
    (t.filterMap ofChar?).countP startsBare = w.countP startsBare := by
  induction h with
  | nil => rfl
  | gap hc _ ih => rw [List.filterMap_cons_none (ofChar?_of_isSeparator hc), ih]
  | @symbol x a t w hx _ ih =>
    rw [List.filterMap_append, List.countP_append, hx.countP_startsBare, ih, ← List.countP_append,
      List.singleton_append]

theorem countP_of_parse {t : Text} {s : Sentence} (h : parse t = .ok s) :
    (t.filterMap ofChar?).countP startsBare = s.bareCount := by
  obtain ⟨w, hw, hd⟩ := written_of_parse h
  rw [← Text.filterMap_trim, hw.countP_startsBare, Sentence.countP_startsBare hd]

end Sentence

namespace Submission
open Grammar Sentence Propositional.Symbol

/-! ### Staying open -/

section StaysOpen
variable {b : Bracket} {d : Int} {t u : Text}

theorem staysOpen_of_neutral {c : Char} (hd : d ≠ 0) (hc : Neutral b c) (t : Text) :
    staysOpen b.chars.1 b.chars.2 d (c :: t) = staysOpen b.chars.1 b.chars.2 d t := by
  simp [staysOpen, hc.1, hc.2, hd]

theorem staysOpen_append_of_neutral (hd : d ≠ 0) (hu : ∀ c ∈ u, Neutral b c) (t : Text) :
    staysOpen b.chars.1 b.chars.2 d (u ++ t) = staysOpen b.chars.1 b.chars.2 d t := by
  induction u with
  | nil => rfl
  | cons c u ih =>
    rw [List.cons_append, staysOpen_of_neutral hd (hu c List.mem_cons_self),
      ih fun c hc => hu c (List.mem_cons_of_mem _ hc)]

theorem staysOpen_append_of_blanks (hd : d ≠ 0) (hu : ∀ c ∈ u, Text.isBlankChar c = true)
    (t : Text) : staysOpen b.chars.1 b.chars.2 d (u ++ t) = staysOpen b.chars.1 b.chars.2 d t :=
  staysOpen_append_of_neutral hd (fun c hc => neutral_of_isBlankChar (hu c hc)) t

theorem staysOpen_opening (hd : 0 ≤ d) (t : Text) :
    staysOpen b.chars.1 b.chars.2 d (b.chars.1 :: t) =
      staysOpen b.chars.1 b.chars.2 (d + 1) t := by
  have hd : d + 1 ≠ 0 := by omega
  simp [staysOpen, hd]

theorem staysOpen_closing (t : Text) :
    staysOpen b.chars.1 b.chars.2 d (b.chars.2 :: t) =
      (d - 1 != 0 && staysOpen b.chars.1 b.chars.2 (d - 1) t) := by
  have hne : b.chars.2 ≠ b.chars.1 := by cases b <;> decide
  simp [staysOpen, hne]

/-- What is open before a text with matching brackets is open behind it, and all the while. -/
theorem staysOpen_append_of_written {n : Nest} (h : Written t n.symbols) (hd : 0 < d) (u : Text) :
    staysOpen b.chars.1 b.chars.2 d (t ++ u) = staysOpen b.chars.1 b.chars.2 d u := by
  induction n generalizing t u d with
  | nil => exact staysOpen_append_of_blanks (Int.ne_of_gt hd) h.blanks u
  | plain x hx rest ih =>
    obtain ⟨gap, a, after, rfl, hgap, ha, hafter⟩ := Written.cut (v := []) h
    rw [List.append_assoc, List.append_assoc,
      staysOpen_append_of_blanks (Int.ne_of_gt hd) hgap.blanks,
      staysOpen_append_of_neutral (Int.ne_of_gt hd) (ha.neutral hx b), ih hafter hd]
  | pair b' inside rest ihi ihr =>
    obtain ⟨gap, content, after, rfl, hgap, hcontent, hafter⟩ := h.cut_pair
    simp only [List.append_assoc, List.cons_append]
    rw [staysOpen_append_of_blanks (Int.ne_of_gt hd) hgap.blanks]
    by_cases hb : b' = b
    · -- one level deeper up to the closing bracket
      subst hb
      rw [staysOpen_opening (Int.le_of_lt hd), ihi hcontent (by omega), staysOpen_closing,
        show d + 1 - 1 = d by omega, ihr hafter hd]
      simp [Int.ne_of_gt hd]
    · rw [staysOpen_of_neutral (Int.ne_of_gt hd) (neutral_fst_chars hb), ihi hcontent hd,
        staysOpen_of_neutral (Int.ne_of_gt hd) (neutral_snd_chars hb), ihr hafter hd]

end StaysOpen

/-- In a formula nothing is closed that is not open. -/
theorem staysOpen_of_parse {b : Bracket} {d : Int} {t : Text} {s : Sentence}
    (h : parse t = .ok s) (hd : 0 < d) : staysOpen b.chars.1 b.chars.2 d t = true := by
  obtain ⟨w, hw, hderives⟩ := written_of_parse h
  obtain ⟨n, rfl, -⟩ := hderives.exists_nested
  obtain ⟨before, after, ht, hbefore, hafter⟩ := Text.trim_split t
  rw [ht, List.append_assoc, staysOpen_append_of_blanks (Int.ne_of_gt hd) hbefore,
    staysOpen_append_of_written hw hd, ← List.append_nil after,
    staysOpen_append_of_blanks (Int.ne_of_gt hd) hafter]
  rfl

/-! ### The ends of a formula -/

section Ends
variable {t : Text} {s : Sentence} {b : Bracket} {inside rest : Nest}

/-- A formula that starts with a bracket, cut at this bracket and at its partner: either the partner
is the last character, or something stands behind it. -/
theorem trim_eq_of_pair (h : Written (Text.trim t) (Nest.pair b inside rest).symbols) :
    ∃ content, Written content inside.symbols ∧
      (rest = .nil ∧ Text.trim t = b.chars.1 :: (content ++ [b.chars.2]) ∨
        rest ≠ .nil ∧ ∃ after c,
          Text.trim t = b.chars.1 :: (content ++ b.chars.2 :: (after ++ [c]))) := by
  obtain ⟨gap, content, after, ht, hgap, hcontent, hafter⟩ := h.cut_pair
  obtain rfl := Text.eq_nil_of_trim_left ht hgap.blanks
  refine ⟨content, hcontent, ?_⟩
  by_cases hrest : rest = .nil
  · subst hrest
    have hend : Text.trim t = (b.chars.1 :: (content ++ [b.chars.2])) ++ after := by simp [ht]
    obtain rfl := Text.eq_nil_of_trim_right hend hafter.blanks
    exact .inl ⟨rfl, ht⟩
  · obtain rfl | ⟨after, c, rfl⟩ := List.eq_nil_or_concat after
    · exact absurd (Nest.symbols_inj (hafter.eq_nil_of_blanks nofun)) hrest
    · exact .inr ⟨hrest, after, c, by rw [ht, List.concat_eq_append, List.nil_append]⟩

theorem fst_chars_inj {b b' : Bracket} (h : b.chars.1 = b'.chars.1) : b = b' := by
  have hsymbol := ofChar?_fst_chars b
  rw [h, ofChar?_fst_chars] at hsymbol
  cases hsymbol
  rfl

theorem isEnclosedBy_pair {content : Text} (h : Written content inside.symbols) :
    isEnclosedBy (b.chars.1 :: (content ++ [b.chars.2])) b.chars = true := by
  have hopen : staysOpen b.chars.1 b.chars.2 0 (b.chars.1 :: content) = true := by
    rw [staysOpen_opening (by decide), ← List.append_nil content,
      staysOpen_append_of_written h (by decide)]
    rfl
  rw [← List.cons_append, isEnclosedBy, List.dropLast_concat, List.getLast?_concat, hopen]
  simp

/-- The first bracket is closed before the last character. -/
theorem staysOpen_closed {content : Text} (h : Written content inside.symbols) (u : Text) :
    staysOpen b.chars.1 b.chars.2 1 (content ++ b.chars.2 :: u) = false := by
  rw [staysOpen_append_of_written h (by decide), staysOpen_closing]
  rfl

theorem not_isEnclosedBy {content : Text} (h : Written content inside.symbols) (after : Text)
    (c : Char) (b' : Bracket) :
    isEnclosedBy (b.chars.1 :: (content ++ b.chars.2 :: (after ++ [c]))) b'.chars = false := by
  rw [← Bool.not_eq_true]
  intro henclosed
  have hconcat : b.chars.1 :: (content ++ b.chars.2 :: (after ++ [c])) =
      (b.chars.1 :: (content ++ b.chars.2 :: after)) ++ [c] := by simp
  rw [hconcat, isEnclosedBy, List.dropLast_concat] at henclosed
  simp only [List.cons_append, List.head?_cons, Bool.and_eq_true, beq_iff_eq, Option.some.injEq]
    at henclosed
  obtain ⟨⟨hfirst, -⟩, hopen⟩ := henclosed
  obtain rfl := fst_chars_inj hfirst
  rw [staysOpen_opening (by decide), Int.zero_add, staysOpen_closed h] at hopen
  contradiction

/-- The brackets at the ends belong together exactly if nothing stands behind the first pair. -/
theorem isEnclosedBy_iff (h : Written (Text.trim t) (Nest.pair b inside rest).symbols) :
    bracketPairs.any (isEnclosedBy (Text.trim t)) = true ↔ rest = .nil := by
  obtain ⟨content, hcontent, ⟨hrest, ht⟩ | ⟨hrest, after, c, ht⟩⟩ := trim_eq_of_pair h
  · rw [any_bracketPairs, ht]
    exact iff_of_true ⟨b, isEnclosedBy_pair hcontent⟩ hrest
  · rw [any_bracketPairs, ht]
    refine iff_of_false (fun ⟨b', henclosed⟩ => ?_) hrest
    rw [not_isEnclosedBy hcontent] at henclosed
    contradiction

/-- A formula that starts with a letter or a negation sign has no brackets around it. -/
theorem not_isEnclosedBy_of_bare {c : Char} {x : Symbol} {u : Text} (hc : ofChar? c = some x)
    (hx : x.isBracket = false) : bracketPairs.any (isEnclosedBy (c :: u)) = false := by
  rw [← Bool.not_eq_true, any_bracketPairs]
  intro ⟨b, henclosed⟩
  simp only [isEnclosedBy, List.head?_cons, Bool.and_eq_true, beq_iff_eq, Option.some.injEq]
    at henclosed
  rw [henclosed.1.1, ofChar?_fst_chars] at hc
  cases hc
  cases hx

/-! ### A formula without its ends -/

theorem trim_eq_of_bare {x : Symbol} {w : List Symbol} (h : Written (Text.trim t) (x :: w))
    (hx : startsBare x = true) : ∃ c u, Text.trim t = c :: u ∧ ofChar? c = some x := by
  obtain ⟨gap, a, after, ht, hgap, ha, -⟩ := Written.cut (v := []) h
  obtain rfl := Text.eq_nil_of_trim_left ht hgap.blanks
  cases ha with
  | sign hc => exact ⟨_, after, ht, hc⟩
  | conditional => cases hx
  | biconditional => cases hx

/-- Without its first letter or negation sign nothing is left of the same sentence. -/
theorem parse_inner_ne_of_bare {c : Char} {x : Symbol} {u : Text} (hp : parse t = .ok s)
    (ht : Text.trim t = c :: u) (hc : ofChar? c = some x) (hx : startsBare x = true) :
    parse u.dropLast ≠ .ok s := by
  intro hinner
  have hwhole := countP_of_parse hp
  rw [← Text.filterMap_trim, ht, List.filterMap_cons_some hc, List.countP_cons_of_pos hx]
    at hwhole
  have hle := ((List.dropLast_sublist u).filterMap ofChar?).countP_le (p := startsBare)
  rw [countP_of_parse hinner] at hle
  omega

/-- Without its ends, a formula that starts with a bracket is one of the same sentence exactly if
nothing stands behind the first pair. -/
theorem parse_inner_iff (hn : Nested .sentence (.pair b inside rest) s)
    (h : Written (Text.trim t) (Nest.pair b inside rest).symbols) :
    parse (Text.trim t).tail.dropLast = .ok s ↔ rest = .nil := by
  obtain ⟨content, hcontent, ⟨rfl, ht⟩ | ⟨hrest, after, c, ht⟩⟩ := trim_eq_of_pair h
  · rw [ht, List.tail_cons, List.dropLast_concat]
    exact iff_of_true (parse_of_written hcontent.trim hn.of_pair.1.derives) rfl
  · have hinner : (Text.trim t).tail.dropLast = content ++ b.chars.2 :: after := by
      rw [ht, List.tail_cons, ← List.cons_append, ← List.append_assoc, List.dropLast_concat]
    -- the partner of the missing bracket closes what nothing opened
    rw [hinner]
    refine iff_of_false (fun hp => ?_) hrest
    have hopen := staysOpen_of_parse (b := b) (d := 1) hp (by decide)
    rw [staysOpen_closed hcontent] at hopen
    contradiction

end Ends

theorem warning_ofText {text : Text} {s : Sentence} (h : parse text = .ok s) :
    (ofText text).warning =
      if hasNeedlessOuterBrackets text s then some outerBracketsWarning else none := by
  have hblank : ¬Text.isBlank text = true := by
    intro hblank
    rw [parse_of_isBlank hblank] at h
    contradiction
  simp only [ofText, if_neg hblank, h]

/-- **What the remark on outer brackets means.** A formula gets the remark exactly if it is still a
formula of the same sentence without its first and its last character. -/
theorem warning_ofText_iff {text : Text} {s : Sentence} (h : parse text = .ok s) :
    (ofText text).warning = some outerBracketsWarning ↔
      parse (Text.trim text).tail.dropLast = .ok s := by
  have hwarning : (ofText text).warning = some outerBracketsWarning ↔
      bracketPairs.any (isEnclosedBy (Text.trim text)) = true ∧ s.isBinary = true := by
    rw [warning_ofText h, hasNeedlessOuterBrackets]
    simp only [Bool.and_eq_true, ite_eq_left_iff, reduceCtorEq, imp_false, Decidable.not_not]
  obtain ⟨w, hw, hd⟩ := written_of_parse h
  obtain ⟨n, rfl, hn⟩ := hd.exists_nested
  obtain ⟨x, v, hhead, hx⟩ := exists_head_of_derives hd
  cases n with
  | nil => cases hhead
  | plain y hplain rest =>
    obtain ⟨rfl, -⟩ := List.cons.inj hhead
    rw [hplain, Bool.false_or] at hx
    -- no remark, and a letter or a negation sign is missing in what is left
    obtain ⟨c, u, ht, hc⟩ := trim_eq_of_bare hw hx
    rw [hwarning, ht, not_isEnclosedBy_of_bare hc hplain]
    exact iff_of_false (fun hfalse => nomatch hfalse.1) (parse_inner_ne_of_bare h ht hc hx)
  | pair b inside rest =>
    rw [hwarning, isEnclosedBy_iff hw, parse_inner_iff hn hw]
    constructor
    · exact And.left
    · rintro rfl
      exact ⟨rfl, hn.of_pair.2⟩

/-- A disjunction in brackets. -/
def bracketedText : Text := "\t\x7b[A & B] v (B -> A)\x7d ".toList

/-- The same disjunction, with a bracket of its operands at either end. -/
def unbracketedText : Text := "[A & B] v [B -> A]".toList

/-- The brackets around the disjunction are remarked on, those around its operands are not. -/
theorem only_enclosing_brackets_remarked :
    let A : Sentence := .letter { id := 'A', isUpper := rfl }
    let B : Sentence := .letter { id := 'B', isUpper := rfl }
    let s : Sentence := .binary .disjunction (.binary .conjunction A B) (.binary .conditional B A)
    (parse bracketedText = .ok s ∧
        (ofText bracketedText).warning = some outerBracketsWarning) ∧
      (parse unbracketedText = .ok s ∧
        (ofText unbracketedText).warning ≠ some outerBracketsWarning) := by
  intro A B s
  have hbracketed : parse bracketedText = .ok s := rfl
  have hinner : parse (Text.trim bracketedText).tail.dropLast = .ok s := rfl
  have hunbracketed : parse unbracketedText = .ok s := rfl
  have hends : parse (Text.trim unbracketedText).tail.dropLast =
      .error (.unexpected ⟨.closing .square, [']'], 5⟩) := rfl
  refine ⟨⟨hbracketed, (warning_ofText_iff hbracketed).mpr hinner⟩, hunbracketed, ?_⟩
  intro hwarning
  have hread := (warning_ofText_iff hunbracketed).mp hwarning
  rw [hends] at hread
  cases hread

end Submission

end Propositional
