import Propositional.Sentence.Rendering

/-! Unique readability.

An operand is written without a gap of its own: a sign or a name, a negation sign and an operand, or
brackets around two operands with a joint between them (`operandWith`); a whole sentence is written
in the same way but for the outer brackets (`formWith`). What the joints look like does not matter,
as long as they begin with no digit and none begins another (`Joints`): the first character tells
the variant, a letter ends where its digits end, and an operand can be read whatever follows it
(`operandWith_append_inj`). So no two sentences are written alike (`formWith_inj`). -/
namespace Propositional.Sentence

/-! ### Names and digits -/

/-- A digit in front of a text would belong to the number of a letter before it. -/
def NoDigitFirst (t : Text) : Prop := ∀ c ∈ t.head?, c.isDigit = false

theorem noDigitFirst_nil : NoDigitFirst [] := nofun

theorem noDigitFirst_cons {c : Char} (h : c.isDigit = false) (t : Text) :
    NoDigitFirst (c :: t) := by
  intro d hd
  rwa [← Option.some.inj hd]

/-- Digits end where something else begins. -/
theorem digits_append_inj {ds ds' u v : Text} (hds : ∀ c ∈ ds, c.isDigit = true)
    (hds' : ∀ c ∈ ds', c.isDigit = true) (hu : NoDigitFirst u) (hv : NoDigitFirst v)
    (h : ds ++ u = ds' ++ v) : ds = ds' ∧ u = v := by
  have hnone {t : Text} (ht : NoDigitFirst t) : t.takeWhile Char.isDigit = [] := by
    cases t with
    | nil => rfl
    | cons c t => rw [List.takeWhile_cons, ht c rfl]; rfl
  have hsame := congrArg (List.takeWhile Char.isDigit) h
  rw [List.takeWhile_append_of_pos hds, List.takeWhile_append_of_pos hds', hnone hu, hnone hv,
    List.append_nil, List.append_nil] at hsame
  subst hsame
  exact ⟨rfl, List.append_cancel_left h⟩

/-- Behind its character a name has digits only. -/
theorem isDigit_of_mem_tail_name {l : Letter} {c : Char} (hc : c ∈ l.name.tail) :
    c.isDigit = true := by
  simp only [Letter.name, List.tail_cons] at hc
  split at hc
  · cases hc
  · exact Nat.isDigit_of_mem_toDigits (by decide) (by decide) hc

/-- A name holds no character but upper-case ones and digits. -/
theorem isUpper_or_isDigit_of_mem_name {l : Letter} {c : Char} (hc : c ∈ l.name) :
    c.isUpper = true ∨ c.isDigit = true := by
  rcases List.mem_cons.mp hc with rfl | htail
  · exact .inl l.isUpper
  · exact .inr (isDigit_of_mem_tail_name htail)

theorem ne_of_mem_name {l : Letter} {c d : Char} (hc : c ∈ l.name) (hupper : d.isUpper = false)
    (hdigit : d.isDigit = false) : c ≠ d := by
  rintro rfl
  rcases isUpper_or_isDigit_of_mem_name hc with h | h
  · exact Bool.false_ne_true (hupper.symm.trans h)
  · exact Bool.false_ne_true (hdigit.symm.trans h)

theorem name_append_inj {l l' : Letter} {u v : Text} (hu : NoDigitFirst u) (hv : NoDigitFirst v)
    (h : l.name ++ u = l'.name ++ v) : l = l' ∧ u = v := by
  obtain ⟨hid, hrest⟩ := List.cons.inj h
  obtain ⟨htail, huv⟩ := digits_append_inj (fun c => isDigit_of_mem_tail_name)
    (fun c => isDigit_of_mem_tail_name) hu hv hrest
  have hname : l.name = l'.name := List.cons_eq_cons.mpr ⟨hid, htail⟩
  exact ⟨Letter.name_inj hname, huv⟩

/-! ### Operands -/

/-- An operand as text, with a joint between the operands of a connective. -/
def operandWith (joint : Connective → Text) : Sentence → Text
  | const b => [constantSign b]
  | letter l => l.name
  | negation s => '~' :: s.operandWith joint
  | binary c l r => bracketed (l.operandWith joint ++ joint c ++ r.operandWith joint)

/-- A whole sentence as text: as an operand, but without the outer brackets. -/
def formWith (joint : Connective → Text) : Sentence → Text
  | binary c l r => l.operandWith joint ++ joint c ++ r.operandWith joint
  | s => s.operandWith joint

/-- Joints that begin with no digit, and of which none begins another. -/
structure Joints (joint : Connective → Text) : Prop where
  eq_cons : ∀ c, ∃ d t, joint c = d :: t ∧ d.isDigit = false
  eq_of_append : ∀ c c' u v, joint c ++ u = joint c' ++ v → c = c'

theorem Joints.noDigitFirst {joint : Connective → Text} (h : Joints joint) (c : Connective)
    (t : Text) : NoDigitFirst (joint c ++ t) := by
  obtain ⟨d, t', hjoint, hd⟩ := h.eq_cons c
  rw [hjoint]
  exact noDigitFirst_cons hd _

/-- The first character of an operand. -/
def firstChar : Sentence → Char
  | const b => constantSign b
  | letter l => l.id
  | negation _ => '~'
  | binary .. => '('

theorem operandWith_eq_cons (joint : Connective → Text) (s : Sentence) :
    ∃ t, s.operandWith joint = s.firstChar :: t := by
  cases s <;> exact ⟨_, rfl⟩

/-! The first character tells the variant: no sign is an upper-case character. -/

variable {s : Sentence}

theorem eq_const_of_firstChar {x : Bool} (h : s.firstChar = constantSign x) : s = const x := by
  cases s with
  | const y => cases x <;> cases y <;> first | rfl | cases h
  | letter l => exact absurd l.isUpper (by rw [show l.id = _ from h]; cases x <;> decide)
  | negation s => cases x <;> cases h
  | binary c l r => cases x <;> cases h

theorem eq_letter_of_firstChar (h : s.firstChar.isUpper = true) : ∃ l, s = letter l := by
  cases s with
  | const x => cases x <;> cases h
  | letter l => exact ⟨l, rfl⟩
  | negation s => cases h
  | binary c l r => cases h

theorem eq_negation_of_firstChar (h : s.firstChar = '~') : ∃ s', s = negation s' := by
  cases s with
  | const x => cases x <;> cases h
  | letter l => exact absurd l.isUpper (by rw [show l.id = _ from h]; decide)
  | negation s => exact ⟨s, rfl⟩
  | binary c l r => cases h

theorem eq_binary_of_firstChar (h : s.firstChar = '(') : ∃ c l r, s = binary c l r := by
  cases s with
  | const x => cases x <;> cases h
  | letter l => exact absurd l.isUpper (by rw [show l.id = _ from h]; decide)
  | negation s => cases h
  | binary c l r => exact ⟨c, l, r, rfl⟩

variable {joint : Connective → Text} {u v : Text}

theorem firstChar_eq_of_append_eq {a b : Sentence}
    (h : a.operandWith joint ++ u = b.operandWith joint ++ v) : b.firstChar = a.firstChar := by
  obtain ⟨t, ha⟩ := operandWith_eq_cons joint a
  obtain ⟨t', hb⟩ := operandWith_eq_cons joint b
  rw [ha, hb] at h
  exact (List.cons.inj h).1.symm

/-- Operands are uniquely readable, whatever follows them. -/
theorem operandWith_append_inj (hjoint : Joints joint) {a b : Sentence} (hu : NoDigitFirst u)
    (hv : NoDigitFirst v) (h : a.operandWith joint ++ u = b.operandWith joint ++ v) :
    a = b ∧ u = v := by
  have hfirst := firstChar_eq_of_append_eq h
  induction a generalizing b u v with
  | const x =>
    obtain rfl := eq_const_of_firstChar hfirst
    exact ⟨rfl, List.append_cancel_left h⟩
  | letter l =>
    have hupper : b.firstChar.isUpper = true := hfirst.symm ▸ l.isUpper
    obtain ⟨l', rfl⟩ := eq_letter_of_firstChar hupper
    obtain ⟨rfl, huv⟩ := name_append_inj hu hv h
    exact ⟨rfl, huv⟩
  | negation s ih =>
    obtain ⟨s', rfl⟩ := eq_negation_of_firstChar hfirst
    have h := (List.cons.inj h).2
    obtain ⟨rfl, huv⟩ := ih hu hv h (firstChar_eq_of_append_eq h)
    exact ⟨rfl, huv⟩
  | binary c l r ihl ihr =>
    obtain ⟨c', l', r', rfl⟩ := eq_binary_of_firstChar hfirst
    have hinner (c : Connective) (l r : Sentence) (t : Text) :
        (binary c l r).operandWith joint ++ t =
          '(' :: (l.operandWith joint ++ (joint c ++ (r.operandWith joint ++ ')' :: t))) := by
      simp [operandWith, bracketed]
    have hclosed (t : Text) : NoDigitFirst (')' :: t) := noDigitFirst_cons rfl t
    rw [hinner, hinner] at h
    have hleft := (List.cons.inj h).2
    obtain ⟨rfl, hmiddle⟩ := ihl (hjoint.noDigitFirst c _) (hjoint.noDigitFirst c' _) hleft
      (firstChar_eq_of_append_eq hleft)
    obtain rfl := hjoint.eq_of_append c c' _ _ hmiddle
    have hright := List.append_cancel_left hmiddle
    obtain ⟨rfl, hend⟩ := ihr (hclosed u) (hclosed v) hright (firstChar_eq_of_append_eq hright)
    exact ⟨rfl, (List.cons.inj hend).2⟩

theorem operandWith_inj (hjoint : Joints joint) {a b : Sentence}
    (h : a.operandWith joint = b.operandWith joint) : a = b :=
  (operandWith_append_inj hjoint noDigitFirst_nil noDigitFirst_nil (congrArg (· ++ []) h)).1

/-- A whole with a connective goes on behind its first operand, where any other whole ends. -/
theorem formWith_binary_ne (hjoint : Joints joint) (c : Connective) (l r s : Sentence) :
    (binary c l r).formWith joint ≠ s.operandWith joint := by
  intro h
  rw [formWith, List.append_assoc, ← List.append_nil (s.operandWith joint)] at h
  obtain ⟨-, hnil⟩ := operandWith_append_inj hjoint (hjoint.noDigitFirst c _) noDigitFirst_nil h
  obtain ⟨d, t, hcons, -⟩ := hjoint.eq_cons c
  rw [hcons] at hnil
  cases hnil

/-- Whole sentences are uniquely readable. -/
theorem formWith_inj (hjoint : Joints joint) {a b : Sentence}
    (h : a.formWith joint = b.formWith joint) : a = b := by
  cases a with
  | binary c l r =>
    cases b with
    | binary c' l' r' =>
      simp only [formWith, List.append_assoc] at h
      obtain ⟨rfl, hmiddle⟩ :=
        operandWith_append_inj hjoint (hjoint.noDigitFirst c _) (hjoint.noDigitFirst c' _) h
      obtain rfl := hjoint.eq_of_append c c' _ _ hmiddle
      obtain rfl := operandWith_inj hjoint (List.append_cancel_left hmiddle)
      rfl
    | _ => exact absurd h (formWith_binary_ne hjoint c l r _)
  | _ =>
    cases b with
    | binary c l r => exact absurd h.symm (formWith_binary_ne hjoint c l r _)
    | _ => exact operandWith_inj hjoint h

end Propositional.Sentence
