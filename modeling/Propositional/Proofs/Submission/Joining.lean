import Propositional.Proofs.Submission.Batch
import Propositional.Text.Blank

/-! Batches taken apart and put together.

A batch is taken apart at its line breaks, however many follow each other, so lines that are joined
by breaks are found again (`batchTexts_joined`). The lines of a text have all of its characters but
the breaks (`flatten_lines`), and every break is a blank, so nothing but blanks is lost of a batch
(`dense_flatten_batchTexts`). `batchTexts_inverts_joining` puts these together. -/
namespace Propositional

namespace Text

/-- A text without its blanks. -/
def dense (t : Text) : Text := t.filter fun c => !isBlankChar c

theorem dense_append (t u : Text) : dense (t ++ u) = dense t ++ dense u := List.filter_append t u

theorem dense_of_isBlank {t : Text} (h : isBlank t = true) : dense t = [] := by
  refine List.filter_eq_nil_iff.mpr fun c hc => ?_
  rw [List.all_eq_true.mp h c hc]
  decide

theorem isBlankChar_of_isLineBreak {c : Char} (h : isLineBreak c = true) :
    isBlankChar c = true := by
  simp only [isLineBreak, isBlankChar, Bool.or_eq_true, Bool.and_eq_true, decide_eq_true_eq,
    beq_iff_eq] at h ⊢
  omega

/-! ### The lines of a text -/

/-- No line has a break in it. -/
theorem not_isLineBreak_of_mem_lines (t : Text) :
    ∀ line ∈ lines t, ∀ c ∈ line, isLineBreak c = false := by
  induction t with
  | nil => exact nofun
  | cons c rest ih =>
    cases hbreak : isLineBreak c with
    | true =>
      obtain ⟨more, hlines, hrest⟩ := lines_break hbreak rest
      rw [hlines, List.forall_mem_cons]
      refine ⟨nofun, fun line hline => ih line ?_⟩
      rcases hrest with hrest | hrest
      · exact hrest ▸ hline
      · exact hrest ▸ List.mem_cons_of_mem [] hline
    | false =>
      rw [lines_cons_of_not_break hbreak]
      cases hrest : lines rest with
      | nil => exact List.forall_mem_singleton.mpr (List.forall_mem_singleton.mpr hbreak)
      | cons line more =>
        rw [hrest, List.forall_mem_cons] at ih
        exact List.forall_mem_cons.mpr ⟨List.forall_mem_cons.mpr ⟨hbreak, ih.1⟩, ih.2⟩

/-- The lines have all characters of the text that are no breaks. -/
theorem flatten_lines (t : Text) : (lines t).flatten = t.filter fun c => !isLineBreak c := by
  induction t with
  | nil => rfl
  | cons c rest ih =>
    cases hbreak : isLineBreak c with
    | true =>
      obtain ⟨more, hlines, hrest⟩ := lines_break hbreak rest
      have hmore : more.flatten = (lines rest).flatten := by
        rcases hrest with hrest | hrest <;> rw [hrest]
        rfl
      rw [hlines, List.flatten_cons, List.nil_append, hmore, ih,
        List.filter_cons_of_neg (by rw [hbreak]; decide)]
    | false =>
      rw [lines_cons_of_not_break hbreak, List.filter_cons_of_pos (by rw [hbreak]; rfl), ← ih]
      cases lines rest <;> rfl

end Text

namespace Submission
open Text

variable {t content : Text} {texts : List Text}

/-! ### What a batch loses -/

/-- A line that is left out is blank. -/
theorem dense_flatten_unlessBlank (t : Text) : dense (unlessBlank t).flatten = dense t := by
  cases hblank : Text.isBlank t with
  | true =>
    rw [unlessBlank_of_isBlank hblank, dense_of_isBlank hblank]
    rfl
  | false => rw [unlessBlank_of_not_isBlank hblank, List.flatten_singleton]

theorem dense_flatten_filter (texts : List Text) :
    dense (texts.filter fun t => !Text.isBlank t).flatten = dense texts.flatten := by
  induction texts with
  | nil => rfl
  | cons t rest ih =>
    rw [filter_cons, List.flatten_append, List.flatten_cons, dense_append, dense_append, ih,
      dense_flatten_unlessBlank]

theorem dense_flatten_batchTexts (t : Text) : dense (batchTexts t).flatten = dense t := by
  rw [batchTexts, dense_flatten_filter, flatten_lines, dense, dense, List.filter_filter]
  refine List.filter_congr fun c _ => ?_
  cases hbreak : isLineBreak c with
  | true =>
    rw [isBlankChar_of_isLineBreak hbreak]
    rfl
  | false => rw [Bool.not_false, Bool.and_true]

/-! ### Joined lines -/

/-- Something stands on a line, and no break. -/
structure IsLine (t : Text) : Prop where
  nonblank : Text.isBlank t = false
  unbroken : ∀ c ∈ t, isLineBreak c = false

theorem isLine_of_mem_batchTexts {line : Text} (h : line ∈ batchTexts t) : IsLine line := by
  obtain ⟨hline, hnonblank⟩ := List.mem_filter.mp h
  exact ⟨by simpa using hnonblank, not_isLineBreak_of_mem_lines t line hline⟩

/-- Texts with a run of breaks between neighbours, and perhaps one behind the last of them. -/
inductive Joined : List Text → Text → Prop
  | nil : Joined [] []
  | last (t : Text) : Joined [t] t
  | joint {t run content : Text} {texts : List Text} : Breaks run → run ≠ [] →
    Joined texts content → Joined (t :: texts) (t ++ run ++ content)

/-- Lines that are joined by breaks are found again. -/
theorem batchTexts_joined (h : Joined texts content) (hlines : ∀ t ∈ texts, IsLine t) :
    batchTexts content = texts := by
  induction h with
  | nil => rfl
  | last t =>
    have ht := hlines t List.mem_cons_self
    rw [batchTexts_of_no_break ht.unbroken, unlessBlank_of_not_isBlank ht.nonblank]
  | @joint t run content texts hrun hne _ ih =>
    obtain ⟨ht, htexts⟩ := List.forall_mem_cons.mp hlines
    rw [batchTexts_ended ht.unbroken hrun hne, unlessBlank_of_not_isBlank ht.nonblank, ih htexts]
    rfl

/-- A line feed is a run of one break. -/
theorem joined_joinLines (texts : List Text) : Joined texts (joinLines texts) := by
  induction texts with
  | nil => exact .nil
  | cons t rest ih =>
    cases rest with
    | nil =>
      rw [joinLines, joinWith, List.intercalate_singleton]
      exact .last t
    | cons u rest =>
      rw [joinLines, joinWith, List.intercalate_cons_cons]
      exact .joint (List.forall_mem_singleton.mpr rfl) (List.cons_ne_nil _ _) ih

/-- **Taking a batch apart undoes joining its lines.** Lines are found again between any runs of
breaks, and of any text the lines are found: with the blanks left out they make up the text, and
joined by line feeds they make a batch that is taken apart in the same way. -/
theorem batchTexts_inverts_joining :
    (∀ front content texts, Breaks front → Joined texts content → (∀ t ∈ texts, IsLine t) →
      batchTexts (front ++ content) = texts) ∧
    ∀ t, (∀ line ∈ batchTexts t, IsLine line) ∧
      dense (batchTexts t).flatten = dense t ∧
      batchTexts (joinLines (batchTexts t)) = batchTexts t := by
  refine ⟨fun front content texts hfront hjoined hlines => ?_, fun t => ⟨?_, ?_, ?_⟩⟩
  · rw [batchTexts_breaks hfront, batchTexts_joined hjoined hlines]
  · exact fun line hline => isLine_of_mem_batchTexts hline
  · exact dense_flatten_batchTexts t
  · exact batchTexts_joined (joined_joinLines _) fun line hline => isLine_of_mem_batchTexts hline

def brokenLines : List Text := ["A & B".toList, "[A v".toList, " ~~B".toList]

def brokenContent : Text := "A & B\n\r\x0b[A v\r\n ~~B\u2028".toList

theorem joined_brokenLines : Joined brokenLines brokenContent := by
  have hseveral : Breaks "\n\r\x0b".toList := by decide
  have hpair : Breaks "\r\n".toList := by decide
  have hbehind : Breaks "\u2028".toList := by decide
  exact .joint hseveral (by decide) (.joint hpair (by decide) (.joint hbehind (by decide) .nil))

/-- Three lines are found between breaks of many kinds. -/
theorem lines_found_between_breaks :
    batchTexts ("\x85\x0c".toList ++ brokenContent) = brokenLines := by
  refine batchTexts_inverts_joining.1 _ _ _ (by decide) joined_brokenLines fun t ht => ?_
  have hall :
      brokenLines.all (fun t => !Text.isBlank t && t.all fun c => !isLineBreak c) = true := by
    decide
  have hline := List.all_eq_true.mp hall t ht
  simp only [Bool.and_eq_true, Bool.not_eq_true', List.all_eq_true] at hline
  exact ⟨hline.1, hline.2⟩

end Submission

end Propositional
