import Propositional.Proofs.Formula.Derivation

/-! Texts written with symbols.

A symbol is spelled by one character, or as an arrow of two or three (`Spelling`). A text is written
with symbols (`Written`) when it consists of their spellings, in order, with separators anywhere
between and around them; these are the texts that a scan takes apart into the symbols
(`spells_iff_written`). So texts with the same symbols differ in spellings and separators only. A
written text can be cut at each of its symbols (`Written.cut`), and blanks at its ends are
separators (`Written.trim`). -/
namespace Propositional

namespace Sentence
open Grammar Propositional.Symbol Tokens

/-- How a symbol may be spelled. -/
inductive Spelling : Symbol → Text → Prop where
  | sign {c x} : ofChar? c = some x → Spelling x [c]
  | conditional : Spelling (.connective .conditional) ['-', '>']
  | biconditional : Spelling (.connective .biconditional) ['<', '-', '>']

/-- A text that consists of the spellings of symbols and of separators. -/
inductive Written : Text → List Symbol → Prop where
  | nil : Written [] []
  | gap {c t w} : isSeparator c = true → Written t w → Written (c :: t) w
  | symbol {x a t w} : Spelling x a → Written t w → Written (a ++ t) (x :: w)

/-! ### What a scan takes apart -/

theorem scanFrom_gap {c : Char} (hc : isSeparator c = true) (p : Nat) (t : Text) :
    scanFrom p (c :: t) = scanFrom (p + 1) t := by
  conv => lhs; unfold scanFrom
  split
  next => contradiction
  next h => obtain ⟨rfl, -⟩ := List.cons.inj h; exact absurd hc (by decide)
  next h => obtain ⟨rfl, -⟩ := List.cons.inj h; exact absurd hc (by decide)
  next h => obtain ⟨rfl, rfl⟩ := List.cons.inj h; rw [if_pos hc]

theorem scanFrom_sign {c : Char} {x : Symbol} (hc : ofChar? c = some x) (p : Nat) (t : Text) :
    scanFrom p (c :: t) = push ⟨x, [c], p⟩ (scanFrom (p + 1) t) := by
  conv => lhs; unfold scanFrom
  split
  next => contradiction
  next h => obtain ⟨rfl, -⟩ := List.cons.inj h; exact absurd hc (by simp [ofChar?, Letter.ofChar?])
  next h => obtain ⟨rfl, -⟩ := List.cons.inj h; exact absurd hc (by simp [ofChar?, Letter.ofChar?])
  next h =>
    obtain ⟨rfl, rfl⟩ := List.cons.inj h
    have hgap : ¬isSeparator c = true := fun hsep => by
      rw [ofChar?_of_isSeparator hsep] at hc
      contradiction
    rw [if_neg hgap, hc]

/-- A spelling is read as its symbol, whatever follows it. -/
theorem scanFrom_spelling {x : Symbol} {a : Text} (h : Spelling x a) (p : Nat) (t : Text) :
    scanFrom p (a ++ t) = push ⟨x, a, p⟩ (scanFrom (p + a.length) t) := by
  cases h with
  | sign hc => exact scanFrom_sign hc p t
  | conditional => rfl
  | biconditional => rfl

theorem scanFrom_of_written {t : Text} {w : List Symbol} (h : Written t w) (p : Nat) :
    (scanFrom p t).failure = none ∧ (scanFrom p t).tokens.map Token.symbol = w := by
  induction h generalizing p with
  | nil => exact ⟨rfl, rfl⟩
  | gap hc _ ih =>
    rw [scanFrom_gap hc]
    exact ih (p + 1)
  | symbol hx _ ih =>
    rw [scanFrom_spelling hx, failure_push, symbols_push, (ih _).2]
    exact ⟨(ih _).1, rfl⟩

theorem written_of_scanFrom {p : Nat} {t : Text} (h : (scanFrom p t).failure = none) :
    Written t ((scanFrom p t).tokens.map Token.symbol) := by
  fun_induction scanFrom p t with
  | case1 p => exact .nil
  | case2 p rest ih => exact .symbol .biconditional (ih h)
  | case3 p rest ih => exact .symbol .conditional (ih h)
  | case4 p c rest _ _ hsep ih => exact .gap hsep (ih h)
  | case5 p c rest _ _ hsep s hs ih => exact .symbol (.sign hs) (ih h)
  | case6 p c rest _ _ hsep hs => cases h

variable {t u : Text} {v w : List Symbol}

/-- **The texts that spell symbols** are those written with them. -/
theorem spells_iff_written : Spells t w ↔ Written t w := by
  constructor
  · intro ⟨hfailure, hsymbols⟩
    exact hsymbols ▸ written_of_scanFrom hfailure
  · intro h
    exact scanFrom_of_written h 0

/-! ### Cutting a written text -/

/-- Where a symbol stands, the text in front of it, its spelling and the text behind it. -/
theorem Written.cut {x : Symbol} (h : Written t (v ++ x :: w)) :
    ∃ before a after, t = before ++ (a ++ after) ∧ Written before v ∧ Spelling x a ∧
      Written after w := by
  generalize hz : v ++ x :: w = z at h
  induction h generalizing v with
  | nil => simp at hz
  | gap hc _ ih =>
    obtain ⟨before, a, after, rfl, hbefore, ha, hafter⟩ := ih hz
    exact ⟨_ :: before, a, after, rfl, .gap hc hbefore, ha, hafter⟩
  | @symbol y b t z hy ht ih =>
    cases v with
    | nil =>
      obtain ⟨rfl, rfl⟩ := List.cons.inj hz
      exact ⟨[], b, t, rfl, .nil, hy, ht⟩
    | cons y' v =>
      obtain ⟨rfl, hz'⟩ := List.cons.inj hz
      obtain ⟨before, a, after, rfl, hbefore, ha, hafter⟩ := ih hz'
      exact ⟨b ++ before, a, after, by simp, .symbol hy hbefore, ha, hafter⟩

/-- A text that is written with nothing consists of separators. -/
theorem Written.separators (h : Written t []) : ∀ c ∈ t, isSeparator c = true := by
  generalize hw : ([] : List Symbol) = w at h
  induction h with
  | nil => exact fun c hc => nomatch hc
  | gap hc _ ih =>
    intro d hd
    rcases List.mem_cons.mp hd with rfl | hd
    · exact hc
    · exact ih hw d hd
  | symbol _ _ _ => cases hw

theorem isBlankChar_of_isSeparator {c : Char} (h : isSeparator c = true) :
    Text.isBlankChar c = true := by
  simp only [isSeparator, Bool.or_eq_true, beq_iff_eq] at h
  rcases h with ((rfl | rfl) | rfl) | rfl <;> decide

theorem Written.blanks (h : Written t []) : ∀ c ∈ t, Text.isBlankChar c = true :=
  fun c hc => isBlankChar_of_isSeparator (h.separators c hc)

/-! ### Blanks at the ends -/

theorem Spelling.ne_nil {x : Symbol} {a : Text} (h : Spelling x a) : a ≠ [] := by
  cases h <;> simp

theorem Spelling.not_blank {x : Symbol} {a : Text} (h : Spelling x a) :
    ∀ c ∈ a, Text.isBlankChar c = false := by
  cases h with
  | @sign c _ hc =>
    intro d hd
    obtain rfl := List.mem_singleton.mp hd
    cases hblank : Text.isBlankChar d with
    | false => rfl
    | true =>
      rw [ofChar?_of_isBlankChar hblank] at hc
      contradiction
  | conditional => simp [Text.isBlankChar]
  | biconditional => simp [Text.isBlankChar]

theorem Written.eq_nil_of_blanks (h : Written t w) (ht : ∀ c ∈ t, Text.isBlankChar c = true) :
    w = [] := by
  induction h with
  | nil => rfl
  | gap _ _ ih => exact ih fun c hc => ht c (List.mem_cons_of_mem _ hc)
  | symbol hx _ _ =>
    obtain ⟨c, hc⟩ := List.exists_mem_of_ne_nil _ hx.ne_nil
    have hblank := ht c (List.mem_append_left _ hc)
    rw [hx.not_blank c hc] at hblank
    contradiction

theorem Written.of_append_left (h : Written (u ++ t) w)
    (hu : ∀ c ∈ u, Text.isBlankChar c = true) : Written t w := by
  induction u with
  | nil => exact h
  | cons c u ih =>
    refine ih ?_ fun d hd => hu d (List.mem_cons_of_mem _ hd)
    rw [List.cons_append] at h
    generalize hz : c :: (u ++ t) = z at h
    cases h with
    | nil => cases hz
    | gap _ hrest =>
      rw [(List.cons.inj hz).2]
      exact hrest
    | symbol hx _ =>
      obtain ⟨d, a, rfl⟩ := List.exists_cons_of_ne_nil hx.ne_nil
      have hblank := hu c List.mem_cons_self
      rw [(List.cons.inj hz).1, hx.not_blank d List.mem_cons_self] at hblank
      contradiction

theorem Written.of_append_right (h : Written (t ++ u) w)
    (hu : ∀ c ∈ u, Text.isBlankChar c = true) : Written t w := by
  generalize hz : t ++ u = z at h
  induction h generalizing t with
  | nil =>
    obtain ⟨rfl, -⟩ := List.append_eq_nil_iff.mp hz
    exact .nil
  | @gap c rest w hc hrest ih =>
    rcases List.append_eq_cons_iff.mp hz with ⟨rfl, rfl⟩ | ⟨t, rfl, hrest'⟩
    · obtain rfl := hrest.eq_nil_of_blanks fun d hd => hu d (List.mem_cons_of_mem _ hd)
      exact .nil
    · exact .gap hc (ih hrest'.symm)
  | @symbol x a rest w hx _ ih =>
    rcases List.append_eq_append_iff.mp hz with ⟨a', rfl, hu'⟩ | ⟨rest', rfl, rfl⟩
    · -- the spelling does not reach into the blanks
      obtain rfl : a' = [] := by
        cases a' with
        | nil => rfl
        | cons d a' =>
          have hblank := hu d (by simp [hu'])
          rw [hx.not_blank d (by simp)] at hblank
          contradiction
      rw [List.append_nil] at hx
      simpa using Written.symbol hx (ih (t := []) hu')
    · exact .symbol hx (ih rfl)

/-- Trimming leaves the symbols of a text. -/
theorem Written.trim (h : Written t w) : Written (Text.trim t) w := by
  obtain ⟨before, after, ht, hbefore, hafter⟩ := Text.trim_split t
  rw [ht] at h
  exact (h.of_append_right hafter).of_append_left hbefore

/-! ### Reading written texts -/

theorem parse_of_written {s : Sentence} (h : Written (Text.trim t) w) (hd : Derives .sentence w s) :
    parse t = .ok s :=
  parse_eq_ok_iff.mpr ⟨w, spells_iff_written.mpr h, hd⟩

theorem written_of_parse {s : Sentence} (h : parse t = .ok s) :
    ∃ w, Written (Text.trim t) w ∧ Derives .sentence w s := by
  obtain ⟨w, hw, hd⟩ := parse_eq_ok_iff.mp h
  exact ⟨w, spells_iff_written.mp hw, hd⟩

end Sentence

end Propositional
