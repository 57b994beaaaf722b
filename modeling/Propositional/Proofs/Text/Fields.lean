import Propositional.Proofs.Formula.Scan
import Propositional.Text.Centered

/-! Texts in fields.

A line is made of fields that are padded with spaces and joined by separators. Where the texts have
no blanks but spaces (`Tidy`), neither has the line, and what is dropped at its end are spaces
(`exists_trimEnd_append`). Where the spaces and the separators are left out, the texts remain
(`without_joinWith`, `Centred.without_eq`). -/
namespace Propositional.Text

/-! ### Blanks -/

/-- The only blanks of a text are spaces. -/
def Tidy (t : Text) : Prop := ∀ c ∈ t, isBlankChar c = true → c = ' '

theorem tidy_nil : Tidy [] := nofun

theorem tidy_of_no_blank {t : Text} (h : ∀ c ∈ t, isBlankChar c = false) : Tidy t :=
  fun c hc hblank => absurd (h c hc) (ne_false_of_eq_true hblank)

theorem tidy_singleton {c : Char} (h : isBlankChar c = false) : Tidy [c] :=
  tidy_of_no_blank (List.forall_mem_singleton.mpr h)

theorem Tidy.of_subset {t u : Text} (h : Tidy u) (hsubset : t ⊆ u) : Tidy t :=
  fun c hc => h c (hsubset hc)

theorem Tidy.append {t u : Text} (ht : Tidy t) (hu : Tidy u) : Tidy (t ++ u) := fun c hc =>
  (List.mem_append.mp hc).elim (ht c) (hu c)

/-- Digits and upper-case characters are no blanks. -/
theorem isBlankChar_eq_false {c : Char} (h : c.isUpper = true ∨ c.isDigit = true) :
    isBlankChar c = false := by
  have hrange : 65 ≤ c.toNat ∧ c.toNat ≤ 90 ∨ 48 ≤ c.toNat ∧ c.toNat ≤ 57 := by
    refine h.imp (fun hupper => ?_) (fun hdigit => ?_)
    · exact of_decide_eq_true hupper
    · exact (Bool.and_eq_true_iff.mp hdigit).imp of_decide_eq_true of_decide_eq_true
  rw [Bool.eq_false_iff]
  intro hblank
  simp only [isBlankChar, Bool.or_eq_true, Bool.and_eq_true, decide_eq_true_eq, beq_iff_eq]
    at hblank
  omega

theorem tidy_ofNat (n : Nat) : Tidy (ofNat n) := tidy_of_no_blank fun c hc =>
  have hdigit : c.isDigit = true := Nat.isDigit_of_mem_toDigits (by decide) (by decide) hc
  isBlankChar_eq_false (.inr hdigit)

theorem tidy_spaces (n : Nat) : Tidy (spaces n) := fun _ hc _ => List.eq_of_mem_replicate hc

theorem Tidy.centered {t : Text} (h : Tidy t) (width : Nat) : Tidy (centered t width) :=
  ((tidy_spaces _).append h).append (tidy_spaces _)

theorem Tidy.joinWith {separator : Text} (hseparator : Tidy separator) {pieces : List Text}
    (h : ∀ t ∈ pieces, Tidy t) : Tidy (joinWith separator pieces) := by
  induction pieces with
  | nil => exact tidy_nil
  | cons t rest ih =>
    have hrest := ih fun u hu => h u (List.mem_cons_of_mem t hu)
    have ht := h t List.mem_cons_self
    cases rest with
    | nil => simpa [Text.joinWith] using ht
    | cons u rest =>
      rw [Text.joinWith, List.intercalate_cons_cons]
      exact (ht.append hseparator).append hrest

/-- A tidy text is one line. -/
theorem Tidy.not_mem_lineFeed {t : Text} (h : Tidy t) : '\n' ∉ t := fun hmem =>
  absurd (h '\n' hmem (by decide)) (by decide)

theorem trimEnd_subset (t : Text) : trimEnd t ⊆ t := fun c hc => by
  rw [← trimEnd_append t]
  exact List.mem_append_left _ hc

/-- What is dropped at the end of a tidy text are spaces. -/
theorem Tidy.exists_trimEnd_append {t : Text} (h : Tidy t) : ∃ n, trimEnd t ++ spaces n = t := by
  have hsplit := trimEnd_append t
  refine ⟨(t.reverse.takeWhile isBlankChar).reverse.length, ?_⟩
  rw [spaces, ← List.eq_replicate_of_mem fun c hc => ?_]
  · exact hsplit
  · have hblank := List.all_eq_true.mp List.all_takeWhile c (List.mem_reverse.mp hc)
    exact h c (hsplit ▸ List.mem_append_right _ hc) hblank

/-! ### Fields -/

/-- A field with a text in the middle. Of an odd number of spaces, the one left over stands on the
left in a field of odd width and on the right in one of even width. -/
def Centred (t : Text) (width : Nat) (field : Text) : Prop :=
  ∃ left right, field = spaces left ++ t ++ spaces right ∧ left + t.length + right = width ∧
    (left = right ∨ left = right + 1 ∧ width % 2 = 1 ∨ right = left + 1 ∧ width % 2 = 0)

theorem centred_centered {t : Text} {width : Nat} (h : t.length ≤ width) :
    Centred t width (centered t width) := by
  have hle := leftPadding_le t.length width
  refine ⟨leftPadding t.length width, width - t.length - leftPadding t.length width, rfl, by omega,
    ?_⟩
  rw [leftPadding] at hle ⊢
  rcases Nat.mod_two_eq_zero_or_one width with hwidth | hwidth
  · rw [hwidth, Nat.mul_zero] at hle ⊢
    omega
  · rw [hwidth, Nat.mul_one] at hle ⊢
    omega

/-! ### Leaving characters out -/

/-- A text without some characters. -/
def without (dropped : List Char) (t : Text) : Text := t.filter fun c => !dropped.contains c

variable {dropped : List Char}

theorem without_append (t u : Text) :
    without dropped (t ++ u) = without dropped t ++ without dropped u :=
  List.filter_append _ _

theorem without_spaces (h : ' ' ∈ dropped) (n : Nat) : without dropped (spaces n) = [] := by
  refine List.filter_eq_nil_iff.mpr fun c hc => ?_
  obtain rfl := List.eq_of_mem_replicate hc
  simpa using h

theorem Centred.without_eq {t field : Text} {width : Nat} (hfield : Centred t width field)
    (h : ' ' ∈ dropped) : without dropped field = without dropped t := by
  obtain ⟨left, right, rfl, -, -⟩ := hfield
  rw [without_append, without_append, without_spaces h, without_spaces h, List.nil_append,
    List.append_nil]

theorem without_joinWith {separator : Text} (h : without dropped separator = [])
    (pieces : List Text) :
    without dropped (joinWith separator pieces) = pieces.flatMap (without dropped) := by
  induction pieces with
  | nil => rfl
  | cons t rest ih =>
    cases rest with
    | nil => simp [joinWith]
    | cons u rest =>
      rw [joinWith, List.intercalate_cons_cons, without_append, without_append, h, List.append_nil,
        List.flatMap_cons, ← ih, joinWith]

end Propositional.Text
