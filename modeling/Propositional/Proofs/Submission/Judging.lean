import Propositional.Submission

/-! Judging texts one by one.

A text is blank, or it is read as a sentence, or it is faulty and is rejected with a message of its
own (`Submission.rejection?`). So the sentences of judged texts are those that can be read, in
order (`sentences_ofTexts`), a diagnostic is there exactly if a text is faulty
(`isEmpty_rejected_ofTexts`), and nothing that is told while texts are judged or a table is
generated is an error (`errors_entries`, `errors_generationEntries`). -/
namespace Propositional

/-! ### Errors in the journal -/

namespace Journal

/-- The entries of a journal that report an error. -/
def errors (entries : List Entry) : List Entry :=
  entries.filter fun e => e.level == Severity.error.level

theorem errors_append (a b : List Entry) : errors (a ++ b) = errors a ++ errors b :=
  List.filter_append ..

theorem errors_flatMap {α : Type} (f : α → List Entry) (l : List α) :
    errors (l.flatMap f) = l.flatMap fun x => errors (f x) :=
  List.filter_flatMap

theorem errors_eq_nil {entries : List Entry}
    (h : ∀ e ∈ entries, e.level = Severity.debug.level) : errors entries = [] := by
  refine List.filter_eq_nil_iff.mpr fun e he => ?_
  rw [h e he]
  decide

end Journal

/-! ### Texts that can be read -/

namespace Sentence

/-- Whether a text is a formula. -/
def isReadable (t : Text) : Bool := (parse t).isOk

/-- The sentence that a text is read as, if it is a formula. -/
def read? (t : Text) : Option Sentence := (parse t).toOption

variable {t : Text}

theorem parse_of_isBlank (h : Text.isBlank t = true) : parse t = .error .blank := by
  rw [parse, Text.trim_of_isBlank h]

theorem isSome_read? (t : Text) : (read? t).isSome = isReadable t := by
  rw [read?, isReadable]
  cases parse t <;> rfl

theorem filterMap_read?_filter (texts : List Text) :
    (texts.filter isReadable).filterMap read? = texts.filterMap read? := by
  rw [List.filterMap_filter]
  congr 1
  funext t
  rw [← isSome_read?]
  cases read? t <;> rfl

theorem filterMap_read?_eq_nil_iff {texts : List Text} :
    texts.filterMap read? = [] ↔ ∀ t ∈ texts, isReadable t = false := by
  simp only [List.filterMap_eq_nil_iff, ← isSome_read?, Option.isSome_eq_false_iff,
    Option.isNone_iff_eq_none]

theorem level_parseEntries (t : Text) : ∀ e ∈ parseEntries t, e.level = Severity.debug.level := by
  intro e he
  rw [parseEntries, List.mem_cons, List.mem_cons] at he
  rcases he with rfl | rfl | he
  · rfl
  · rfl
  · unfold outcomeEntries at he
    split at he
    · simp only [List.mem_cons, List.not_mem_nil, or_false] at he
      rcases he with rfl | rfl <;> rfl
    · split at he <;> simp only [List.mem_append, List.mem_cons, List.not_mem_nil, or_false,
        false_or] at he
      · rw [he]; rfl
      · rcases he with (rfl | rfl) | rfl <;> rfl
      · rcases he with rfl | rfl <;> rfl

end Sentence

/-! ### Judged texts -/

namespace Submission

variable {t : Text}

/-- Whether a text has something on it and is no formula. -/
def isFaulty (t : Text) : Bool := !Text.isBlank t && !Sentence.isReadable t

/-- The message by which a text is rejected, if it is faulty. -/
def rejection? (t : Text) : Option Journal.Entry :=
  if Text.isBlank t then none
  else match Sentence.parse t with
    | .ok _ => none
    | .error e => some (Journal.rejected t e.message)

theorem text_ofText (t : Text) : (ofText t).text = t := by
  unfold ofText
  split
  · rfl
  · split <;> rfl

theorem isBlank_ofText (t : Text) : (ofText t).isBlank = Text.isBlank t := by
  rw [isBlank, text_ofText]

theorem parsed_ofText (t : Text) : (ofText t).parsed = Sentence.read? t := by
  rw [ofText, Sentence.read?]
  split
  · rename_i hblank
    rw [Sentence.parse_of_isBlank hblank]
    rfl
  · cases Sentence.parse t <;> rfl

theorem isSome_diagnostic_ofText (t : Text) : (ofText t).diagnostic.isSome = isFaulty t := by
  rw [ofText, isFaulty, Sentence.isReadable]
  cases Text.isBlank t with
  | true => rfl
  | false => cases Sentence.parse t <;> rfl

theorem isSome_rejection? (t : Text) : (rejection? t).isSome = isFaulty t := by
  rw [rejection?, isFaulty, Sentence.isReadable]
  cases Text.isBlank t with
  | true => rfl
  | false => cases Sentence.parse t <;> rfl

/-- Among formulas there is no faulty text. -/
theorem isFaulty_of_mem_filter {texts : List Text} (h : t ∈ texts.filter Sentence.isReadable) :
    isFaulty t = false := by
  rw [isFaulty, (List.mem_filter.mp h).2, Bool.not_true, Bool.and_false]

theorem any_isFaulty_filter (texts : List Text) :
    (texts.filter Sentence.isReadable).any isFaulty = false := by
  rw [List.any_eq_false]
  exact fun t ht => Bool.eq_false_iff.mp (isFaulty_of_mem_filter ht)

theorem filterMap_rejection?_filter (texts : List Text) :
    (texts.filter Sentence.isReadable).filterMap rejection? = [] := by
  refine List.filterMap_eq_nil_iff.mpr fun t ht => ?_
  rw [← Option.isNone_iff_eq_none, ← Option.isSome_eq_false_iff, isSome_rejection?]
  exact isFaulty_of_mem_filter ht

theorem level_entries (t : Text) : ∀ e ∈ entries t, e.level = Severity.debug.level := by
  intro e he
  unfold entries at he
  split at he
  · cases he
  · rw [List.mem_append] at he
    rcases he with he | he
    · exact Sentence.level_parseEntries t e he
    · split at he
      · cases he
      · rw [List.mem_singleton.mp he]
        rfl

theorem errors_entries (texts : List Text) : Journal.errors (texts.flatMap entries) = [] := by
  rw [Journal.errors_flatMap, List.flatMap_eq_nil_iff]
  exact fun t _ => Journal.errors_eq_nil (level_entries t)

/-- What comes of judging texts; blank ones are passed over. -/
def ofTexts (texts : List Text) : List Submission :=
  (texts.map ofText).filter fun s => !s.isBlank

theorem ofTexts_cons (t : Text) (texts : List Text) :
    ofTexts (t :: texts) = if Text.isBlank t then ofTexts texts else ofText t :: ofTexts texts := by
  rw [ofTexts, List.map_cons, List.filter_cons, isBlank_ofText]
  cases Text.isBlank t <;> rfl

theorem ofTexts_eq_nil_iff {texts : List Text} :
    ofTexts texts = [] ↔ ∀ t ∈ texts, Text.isBlank t = true := by
  rw [ofTexts, List.filter_eq_nil_iff, List.forall_mem_map]
  simp only [isBlank_ofText, Bool.not_eq_true', Bool.not_eq_false]

theorem ofTexts_append (a b : List Text) : ofTexts (a ++ b) = ofTexts a ++ ofTexts b := by
  simp only [ofTexts, List.map_append, List.filter_append]

/-- Nothing comes of a blank text. -/
theorem ofTexts_filter (texts : List Text) :
    ofTexts (texts.filter fun t => !Text.isBlank t) = ofTexts texts := by
  simp only [ofTexts, List.filter_map, List.filter_filter, Function.comp_def, isBlank_ofText,
    Bool.and_self]

/-- Nothing is told of a blank text. -/
theorem flatMap_entries_filter (texts : List Text) :
    (texts.filter fun t => !Text.isBlank t).flatMap entries = texts.flatMap entries := by
  induction texts with
  | nil => rfl
  | cons t texts ih =>
    rw [List.flatMap_cons, List.filter_cons, ← ih]
    cases hblank : Text.isBlank t with
    | true =>
      have hnone : entries t = [] := if_pos hblank
      rw [hnone]
      rfl
    | false => rfl

theorem sentences_ofTexts (texts : List Text) :
    sentences (ofTexts texts) = texts.filterMap Sentence.read? := by
  rw [ofTexts, sentences, List.filterMap_filter, List.filterMap_map]
  congr 1
  funext t
  simp only [Function.comp_apply, isBlank_ofText, parsed_ofText]
  cases hblank : Text.isBlank t with
  | true => rw [Sentence.read?, Sentence.parse_of_isBlank hblank]; rfl
  | false => rfl

theorem table?_ofTexts (texts : List Text) :
    table? (ofTexts texts) =
      if texts.filterMap Sentence.read? = [] then none
      else some (Table.ofBatch (texts.filterMap Sentence.read?)) := by
  rw [table?, sentences_ofTexts]
  cases texts.filterMap Sentence.read? <;> rfl

/-- A diagnostic is there exactly if one of the texts is faulty. -/
theorem isEmpty_rejected_ofTexts (texts : List Text) :
    ((ofTexts texts).filter fun s => s.diagnostic.isSome).isEmpty = !texts.any isFaulty := by
  have hany : ((ofTexts texts).any fun s => s.diagnostic.isSome) = texts.any isFaulty := by
    rw [ofTexts, List.any_filter, List.any_map]
    congr 1
    funext t
    simp only [Function.comp_apply, isBlank_ofText, isSome_diagnostic_ofText, isFaulty]
    cases Text.isBlank t <;> rfl
  rw [← hany, Bool.eq_iff_iff]
  simp [List.filter_eq_nil_iff]

end Submission

theorem Table.errors_generationEntries (t : Table) : Journal.errors t.generationEntries = [] := by
  refine Journal.errors_eq_nil fun e he => ?_
  rcases List.mem_cons.mp he with rfl | he
  · rfl
  · obtain ⟨state, -, rfl⟩ := List.mem_mapIdx.mp he
    rfl

end Propositional
