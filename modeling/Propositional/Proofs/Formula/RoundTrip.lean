import Propositional.Proofs.Formula.Derivation
import Propositional.Proofs.Sentence.CompactForm
import Propositional.Proofs.Sentence.DisplayedForms

/-! Sentences that are shown and read again.

A formula can express exactly the plain sentences: those without constants whose letters have no
number. The spaced form, the compact form, the compact form of an operand and the row of pieces of
a plain sentence all show the same symbols (`symbolsAt`), up to a pair of brackets around the
whole, and the strict grammar derives the sentence from them, so each is read as that sentence.
The spaced form of any other sentence has a character in it that no token is made of. -/
namespace Propositional.Sentence
open Grammar Propositional.Symbol Tokens

/-- No constants, and no letters with a number. -/
def isPlain : Sentence → Bool
  | const _ => false
  | letter l => l.index == 0
  | negation s => s.isPlain
  | binary _ l r => l.isPlain && r.isPlain

/-! ### The symbols of a plain sentence -/

/-- The symbols a plain sentence is written with, as a whole or as an operand. -/
def symbolsAt (whole : Bool) : Sentence → List Symbol
  | const _ => []
  | letter l => [.letter l]
  | negation s => .negation :: s.symbolsAt false
  | binary c l r =>
    let inner := l.symbolsAt false ++ .connective c :: r.symbolsAt false
    if whole then inner else enclose .round inner

theorem derives_symbolsAt_false {s : Sentence} (h : s.isPlain = true) :
    Derives .factor (s.symbolsAt false) s := by
  induction s with
  | const b => cases h
  | letter l => exact .ofBare (.letter (by simpa [isPlain] using h))
  | negation s ih => exact .ofBare (.negation (ih h))
  | binary c l r ihl ihr =>
    simp only [isPlain, Bool.and_eq_true] at h
    exact .ofBracketed (.around .round (.joined c (ihl h.1) (ihr h.2)))

theorem derives_symbolsAt {s : Sentence} (h : s.isPlain = true) (whole : Bool) :
    Derives .sentence (s.symbolsAt whole) s := by
  cases whole with
  | false => exact .ofFactor (derives_symbolsAt_false h)
  | true =>
    cases s with
    | const b => cases h
    | letter l => exact .ofFactor (derives_symbolsAt_false h)
    | negation s => exact .ofFactor (derives_symbolsAt_false h)
    | binary c l r =>
      simp only [isPlain, Bool.and_eq_true] at h
      exact .ofBinary (.joined c (derives_symbolsAt_false h.1) (derives_symbolsAt_false h.2))

/-! ### Texts that show symbols -/

/-- A text of signs and separators, and its signs. -/
structure Shows (t : Text) (w : List Symbol) : Prop where
  signs : ∀ c ∈ t, isSeparator c = true ∨ (ofChar? c).isSome = true
  symbols : t.filterMap ofChar? = w

theorem shows_nil : Shows [] [] := ⟨nofun, rfl⟩

theorem Shows.append {t t' : Text} {w w' : List Symbol} (h : Shows t w) (h' : Shows t' w') :
    Shows (t ++ t') (w ++ w') := by
  refine ⟨fun c hc => ?_, ?_⟩
  · rcases List.mem_append.mp hc with hc | hc
    · exact h.signs c hc
    · exact h'.signs c hc
  · rw [List.filterMap_append, h.symbols, h'.symbols]

theorem Shows.sign {c : Char} {x : Symbol} {t : Text} {w : List Symbol} (hc : ofChar? c = some x)
    (h : Shows t w) : Shows (c :: t) (x :: w) := by
  refine ⟨fun d hd => ?_, ?_⟩
  · rcases List.mem_cons.mp hd with rfl | hd
    · exact .inr (by rw [hc]; rfl)
    · exact h.signs d hd
  · rw [List.filterMap_cons_some hc, h.symbols]

theorem Shows.blank {t : Text} {w : List Symbol} (h : Shows t w) : Shows (' ' :: t) w := by
  refine ⟨fun d hd => ?_, ?_⟩
  · rcases List.mem_cons.mp hd with rfl | hd
    · exact .inl rfl
    · exact h.signs d hd
  · rw [List.filterMap_cons_none rfl, h.symbols]

/-- What a text shows is what it spells when it is trimmed. -/
theorem Shows.spells {t : Text} {w : List Symbol} (h : Shows t w) : Spells (Text.trim t) w := by
  obtain ⟨hfailure, hsymbols⟩ := scan_of_signs fun c hc => h.signs c (Text.mem_of_mem_trim hc)
  rw [Text.filterMap_trim, h.symbols] at hsymbols
  exact ⟨hfailure, hsymbols⟩

theorem parse_of_shows {t : Text} {w : List Symbol} {s : Sentence} (h : Shows t w)
    (hd : Derives .sentence w s) : parse t = .ok s :=
  parse_eq_ok_iff.mpr ⟨w, h.spells, hd⟩

theorem ofChar?_sign (c : Connective) : ofChar? c.sign = some (.connective c) := by
  cases c <;> rfl

theorem shows_name {l : Letter} (h : l.index = 0) : Shows l.name [.letter l] := by
  have hname : l.name = [l.id] := by simp [Letter.name, h]
  have hsign : ofChar? l.id = some (.letter l) := by
    rw [ofChar?_of_isUpper l.isUpper]
    exact congrArg (fun l => some (Symbol.letter l)) (Letter.ext_parts rfl h.symm)
  rw [hname]
  exact shows_nil.sign hsign

/-! ### The three renderings -/

theorem Shows.bracketed {t : Text} {w : List Symbol} (h : Shows t w) :
    Shows (bracketed t) (enclose .round w) :=
  .sign rfl (h.append (shows_nil.sign rfl))

theorem Shows.joined {joint : Connective → Text} (hjoint : ∀ c, Shows (joint c) [.connective c])
    (c : Connective) {t t' : Text} {w w' : List Symbol} (h : Shows t w) (h' : Shows t' w') :
    Shows (t ++ joint c ++ t') (w ++ .connective c :: w') := by
  rw [List.append_assoc]
  exact h.append ((hjoint c).append h')

theorem shows_operandWith {joint : Connective → Text}
    (hjoint : ∀ c, Shows (joint c) [.connective c]) {s : Sentence} (h : s.isPlain = true) :
    Shows (s.operandWith joint) (s.symbolsAt false) := by
  induction s with
  | const b => cases h
  | letter l => exact shows_name (by simpa [isPlain] using h)
  | negation s ih => exact (ih h).sign rfl
  | binary c l r ihl ihr =>
    simp only [isPlain, Bool.and_eq_true] at h
    exact ((ihl h.1).joined hjoint c (ihr h.2)).bracketed

theorem shows_formWith {joint : Connective → Text}
    (hjoint : ∀ c, Shows (joint c) [.connective c]) {s : Sentence} (h : s.isPlain = true) :
    Shows (s.formWith joint) (s.symbolsAt true) := by
  cases s with
  | binary c l r =>
    simp only [isPlain, Bool.and_eq_true] at h
    exact (shows_operandWith hjoint h.1).joined hjoint c (shows_operandWith hjoint h.2)
  | const b => cases h
  | letter l => exact shows_operandWith hjoint h
  | negation s => exact shows_operandWith hjoint h

theorem shows_sign (c : Connective) : Shows [c.sign] [.connective c] :=
  shows_nil.sign (ofChar?_sign c)

theorem shows_gappedSign (c : Connective) : Shows (gappedSign c) [.connective c] :=
  (shows_nil.blank.sign (ofChar?_sign c)).blank

theorem shows_pointText (c : Connective) : Shows c.pointText [.connective c] := by
  cases c with
  | conditional => exact shows_gappedSign .conditional
  | biconditional => exact shows_gappedSign .biconditional
  | _ => exact shows_sign _

theorem lettered_of_isPlain {s : Sentence} (h : s.isPlain = true) : s.lettered = s := by
  induction s with
  | const b => cases h
  | letter l => rfl
  | negation s ih => rw [lettered, ih h]
  | binary c l r ihl ihr =>
    simp only [isPlain, Bool.and_eq_true] at h
    rw [lettered, ihl h.1, ihr h.2]

theorem shows_compactAt {s : Sentence} (h : s.isPlain = true) (whole : Bool) :
    Shows (s.compactAt whole) (s.symbolsAt whole) := by
  cases whole with
  | true =>
    show Shows s.compact _
    rw [compact_eq, lettered_of_isPlain h]
    exact shows_formWith shows_sign h
  | false =>
    rw [compactAt_false_eq, lettered_of_isPlain h]
    exact shows_operandWith shows_sign h

theorem shows_spaced {s : Sentence} (h : s.isPlain = true) :
    Shows s.spaced (s.symbolsAt true) := by
  rw [spaced_eq]
  exact shows_formWith shows_gappedSign h

theorem shows_layout {s : Sentence} (h : s.isPlain = true) :
    Shows s.layout.text (s.symbolsAt true) := by
  rw [text_layout]
  exact shows_formWith shows_pointText h

/-! ### Sentences that no formula expresses -/

/-- The grammar derives plain sentences only. -/
theorem isPlain_of_derives {k : Category} {w : List Symbol} {s : Sentence} (h : Derives k w s) :
    s.isPlain = true := by
  induction h with
  | joined c _ _ ihu ihv => simp [isPlain, ihu, ihv]
  | letter hl => simp [isPlain, hl]
  | negation _ ih => exact ih
  | _ => assumption

theorem isPlain_of_parse {text : Text} {s : Sentence} (h : parse text = .ok s) :
    s.isPlain = true := by
  obtain ⟨w, -, hd⟩ := parse_eq_ok_iff.mp h
  exact isPlain_of_derives hd

theorem mem_enclosed {c : Char} {s : Sentence} {t : Text} (h : c ∈ t) : c ∈ enclosed s t := by
  unfold enclosed bracketed
  split
  · simp [h]
  · exact h

theorem isLegal_of_isDigit {c : Char} (h : c.isDigit = true) :
    isLegal c = false ∧ Text.isBlankChar c = false := by
  have hdigits : ∀ n < 10, isLegal (Char.ofNat (48 + n)) = false ∧
      Text.isBlankChar (Char.ofNat (48 + n)) = false := by decide
  simp only [Char.isDigit, Bool.and_eq_true, decide_eq_true_eq] at h
  have hlow : 48 ≤ c.toNat := h.1
  have hhigh : c.toNat ≤ 57 := h.2
  have hc : Char.ofNat (48 + (c.toNat - 48)) = c := by
    rw [Nat.add_sub_cancel' hlow, Char.ofNat_toNat]
  have := hdigits (c.toNat - 48) (by omega)
  rwa [hc] at this

/-- The number of a letter is shown in digits. -/
theorem digit_mem_name {l : Letter} (h : l.index ≠ 0) : ∃ c ∈ l.name, c.isDigit = true := by
  obtain ⟨c, hc⟩ := List.exists_mem_of_ne_nil (Text.ofNat l.index) Nat.toDigits_ne_nil
  refine ⟨c, ?_, Nat.isDigit_of_mem_toDigits (by decide) (by decide) hc⟩
  simp [Letter.name, h, hc]

/-- A character of the spaced form that neither tokens nor the gaps between them are made of. -/
theorem mem_spaced_of_not_isPlain {s : Sentence} (h : s.isPlain = false) :
    ∃ c ∈ s.spaced, isLegal c = false ∧ Text.isBlankChar c = false := by
  induction s with
  | const b => exact ⟨constantSign b, List.mem_singleton_self _, by cases b <;> decide⟩
  | letter l =>
    obtain ⟨c, hc, hdigit⟩ := digit_mem_name (l := l) (by simpa [isPlain] using h)
    exact ⟨c, hc, isLegal_of_isDigit hdigit⟩
  | negation s ih =>
    obtain ⟨c, hc, hillegal⟩ := ih h
    exact ⟨c, List.mem_cons_of_mem _ (mem_enclosed hc), hillegal⟩
  | binary k l r ihl ihr =>
    simp only [isPlain, Bool.and_eq_false_iff] at h
    rcases h with h | h
    · obtain ⟨c, hc, hillegal⟩ := ihl h
      exact ⟨c, by simp [spaced, mem_enclosed hc], hillegal⟩
    · obtain ⟨c, hc, hillegal⟩ := ihr h
      exact ⟨c, by simp [spaced, mem_enclosed hc], hillegal⟩

theorem parse_spaced_of_not_isPlain {s : Sentence} (h : s.isPlain = false) :
    ∃ e, parse s.spaced = .error e := by
  cases hp : parse s.spaced with
  | error e => exact ⟨e, rfl⟩
  | ok s' =>
    obtain ⟨c, hc, hillegal, hblank⟩ := mem_spaced_of_not_isPlain h
    obtain ⟨w, ⟨hfailure, -⟩, -⟩ := parse_eq_ok_iff.mp hp
    rw [isLegal_of_scan hfailure (Text.mem_trim_of_mem hc hblank)] at hillegal
    cases hillegal

/-- **Reading inverts the renderings of plain sentences and of no others.** A plain sentence is
read from its spaced form, from both compact forms and from its layout; the spaced form of any
other sentence is rejected; and the sentences that some text is read as are the plain ones, which
are those that their spaced form is read as. -/
theorem parse_inverts_renderings (s : Sentence) :
    (s.isPlain = true → parse s.spaced = .ok s ∧ parse s.compact = .ok s ∧
        parse (s.compactAt false) = .ok s ∧ parse s.layout.text = .ok s) ∧
      (s.isPlain = false → ∃ e, parse s.spaced = .error e) ∧
      (∀ text, parse text = .ok s → s.isPlain = true) ∧
      ((∃ text, parse text = .ok s) ↔ parse s.spaced = .ok s) := by
  have hspaced (h : s.isPlain = true) : parse s.spaced = .ok s :=
    parse_of_shows (shows_spaced h) (derives_symbolsAt h true)
  refine ⟨fun h => ⟨hspaced h, ?_, ?_, ?_⟩, parse_spaced_of_not_isPlain,
    fun text => isPlain_of_parse, fun ⟨text, h⟩ => hspaced (isPlain_of_parse h), fun h => ⟨_, h⟩⟩
  · exact parse_of_shows (shows_compactAt h true) (derives_symbolsAt h true)
  · exact parse_of_shows (shows_compactAt h false) (derives_symbolsAt h false)
  · exact parse_of_shows (shows_layout h) (derives_symbolsAt h true)

end Propositional.Sentence
