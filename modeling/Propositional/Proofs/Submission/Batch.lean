import Propositional.Submission

/-! The formulas of a batch.

A line that is ended by a break is one text of the batch, or none if it is blank, and what follows
is a batch of its own (`batchTexts_line`): since blank lines do not count, it does not matter which
break it is, nor that two of them make one when a carriage return meets a line feed, nor how many
breaks follow each other (`batchTexts_ended`). So texts that are written one to a line are read
again, without the blank ones (`batchTexts_of_lined`). -/
namespace Propositional

namespace Text

variable {c : Char} {t : Text}

/-- A line break ends an empty line. What stands behind it are the lines of the rest, but for an
empty one in front if the break is the first half of a pair. -/
theorem lines_break (h : isLineBreak c = true) (rest : Text) :
    ∃ more, lines (c :: rest) = [] :: more ∧ (lines rest = more ∨ lines rest = [] :: more) := by
  by_cases hpair : ∃ rest', c = '\r' ∧ rest = '\n' :: rest'
  · obtain ⟨rest', rfl, rfl⟩ := hpair
    exact ⟨lines rest', rfl, .inr rfl⟩
  · refine ⟨lines rest, ?_, .inl rfl⟩
    rw [lines_cons fun rest' hc hrest => hpair ⟨rest', hc, hrest⟩, if_pos h]

theorem lines_cons_of_not_break (h : isLineBreak c = false) (rest : Text) :
    lines (c :: rest) = growFirst c (lines rest) := by
  have hpair : ∀ more, c = '\r' → rest ≠ '\n' :: more := by
    rintro more rfl
    cases h
  rw [lines_cons hpair, if_neg (by rw [h]; exact Bool.false_ne_true)]

/-- Characters in front of a line belong to it unless they break lines. -/
theorem lines_append_of_cons {line rest : Text} {more : List Text}
    (ht : ∀ c ∈ t, isLineBreak c = false) (h : lines rest = line :: more) :
    lines (t ++ rest) = (t ++ line) :: more := by
  induction t with
  | nil => exact h
  | cons c t ih =>
    rw [List.forall_mem_cons] at ht
    rw [List.cons_append, lines_cons_of_not_break ht.1, ih ht.2]
    rfl

/-- A text without a line break is its only line. -/
theorem lines_of_no_break (hne : t ≠ []) (ht : ∀ c ∈ t, isLineBreak c = false) : lines t = [t] := by
  obtain ⟨start, c, rfl⟩ := (List.eq_nil_or_concat t).resolve_left hne
  rw [List.concat_eq_append, List.forall_mem_append] at ht
  rw [List.concat_eq_append]
  refine lines_append_of_cons ht.1 ?_
  rw [lines_cons_of_not_break (ht.2 c List.mem_cons_self)]
  rfl

end Text

namespace Submission
open Text

variable {t run : Text}

/-- A text, unless it is blank. -/
def unlessBlank (t : Text) : List Text := [t].filter fun line => !Text.isBlank line

theorem unlessBlank_of_isBlank (h : Text.isBlank t = true) : unlessBlank t = [] :=
  List.filter_cons_of_neg (by rw [h]; decide)

theorem unlessBlank_of_not_isBlank (h : Text.isBlank t = false) : unlessBlank t = [t] :=
  List.filter_cons_of_pos (by rw [h]; rfl)

theorem filter_cons (t : Text) (texts : List Text) :
    ((t :: texts).filter fun line => !Text.isBlank line) =
      unlessBlank t ++ texts.filter fun line => !Text.isBlank line := by
  rw [unlessBlank, ← List.filter_append, List.singleton_append]

/-- It does not matter to a batch whether its lines end in line feeds. -/
theorem batchTexts_withLineFeeds (t : Text) : batchTexts (withLineFeeds t) = batchTexts t := by
  rw [batchTexts, lines_withLineFeeds, batchTexts]

/-- The last line of a batch need not be ended. -/
theorem batchTexts_of_no_break (ht : ∀ c ∈ t, isLineBreak c = false) :
    batchTexts t = unlessBlank t := by
  by_cases hne : t = []
  · rw [hne]
    rfl
  · rw [batchTexts, lines_of_no_break hne ht, unlessBlank]

/-- The first line of a batch, and the batch behind it. -/
theorem batchTexts_line (ht : ∀ c ∈ t, isLineBreak c = false) {c : Char}
    (hc : isLineBreak c = true) (rest : Text) :
    batchTexts (t ++ c :: rest) = unlessBlank t ++ batchTexts rest := by
  obtain ⟨more, hlines, hrest⟩ := lines_break hc rest
  have hmore : batchTexts rest = more.filter fun line => !Text.isBlank line := by
    rw [batchTexts]
    rcases hrest with hrest | hrest
    · rw [hrest]
    · rw [hrest]
      rfl
  rw [batchTexts, lines_append_of_cons ht hlines, List.append_nil, filter_cons, hmore]

/-- A run of characters each of which ends a line. -/
def Breaks (run : Text) : Prop := ∀ c ∈ run, isLineBreak c = true

instance (run : Text) : Decidable (Breaks run) :=
  decidable_of_iff (run.all isLineBreak = true) List.all_eq_true

/-- Breaks in front of a batch do not count. -/
theorem batchTexts_breaks (h : Breaks run) (rest : Text) :
    batchTexts (run ++ rest) = batchTexts rest := by
  induction run with
  | nil => rfl
  | cons c run ih =>
    obtain ⟨hc, hrun⟩ := List.forall_mem_cons.mp h
    exact (batchTexts_line (t := []) nofun hc (run ++ rest)).trans (ih hrun)

/-- Any breaks end the first line. -/
theorem batchTexts_ended (ht : ∀ c ∈ t, isLineBreak c = false) (h : Breaks run) (hne : run ≠ [])
    (rest : Text) : batchTexts (t ++ run ++ rest) = unlessBlank t ++ batchTexts rest := by
  obtain ⟨c, run, rfl⟩ := List.exists_cons_of_ne_nil hne
  obtain ⟨hc, hrun⟩ := List.forall_mem_cons.mp h
  rw [List.append_assoc, List.cons_append, batchTexts_line ht hc, batchTexts_breaks hrun]

/-- What ends a line. -/
inductive LineEnd : Text → Prop
  | single {c : Char} : isLineBreak c = true → LineEnd [c]
  | pair : LineEnd ['\r', '\n']

theorem LineEnd.breaks {stop : Text} (h : LineEnd stop) : Breaks stop := by
  cases h with
  | single hc => exact List.forall_mem_singleton.mpr hc
  | pair => decide

theorem LineEnd.ne_nil {stop : Text} (h : LineEnd stop) : stop ≠ [] := by
  cases h <;> exact List.cons_ne_nil _ _

/-- Texts written one to a line. The last line need not be ended. -/
inductive Lined : List Text → Text → Prop
  | nil : Lined [] []
  | last (t : Text) : Lined [t] t
  | ended {t stop content : Text} {texts : List Text} : LineEnd stop → Lined texts content →
    Lined (t :: texts) (t ++ stop ++ content)

/-- Texts that are written one to a line are read again, but for the blank ones. -/
theorem batchTexts_of_lined {texts : List Text} {content : Text} (h : Lined texts content)
    (hbreak : ∀ t ∈ texts, ∀ c ∈ t, isLineBreak c = false) :
    batchTexts content = texts.filter fun t => !Text.isBlank t := by
  induction h with
  | nil => rfl
  | last t => exact batchTexts_of_no_break (hbreak t List.mem_cons_self)
  | @ended t stop content texts hstop _ ih =>
    rw [List.forall_mem_cons] at hbreak
    rw [filter_cons, ← ih hbreak.2]
    exact batchTexts_ended hbreak.1 hstop.breaks hstop.ne_nil content

end Submission

end Propositional
