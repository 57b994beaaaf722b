import Propositional.Proofs.Formula.Scan
import Propositional.Proofs.Submission.Judging

/-! When a batch is ready.

Whether a table may be generated is asked of the submissions that are not blank: all of them have to
be readable (`allReady_iff`). A table is built from the submissions that have a sentence, blank or
not (`sentences_map_ofText`). The two agree because no sentence is read from a blank text
(`filter_isReadable`): a batch is ready exactly if its table leaves no typed text out
(`allReady_iff_complete`). So says `ready_iff_table_complete`, together with what is known of each
submission. -/
namespace Propositional

namespace Text

/-- A text is blank if trimming leaves nothing of it. -/
theorem isBlank_iff_trim {t : Text} : isBlank t = true ↔ trim t = [] := by
  constructor
  · exact trim_of_isBlank
  · intro h
    rw [isBlank, List.all_eq_true]
    intro c hc
    cases hblank : isBlankChar c with
    | true => rfl
    | false =>
      have hkept := mem_trim_of_mem hc hblank
      rw [h] at hkept
      cases hkept

end Text

namespace Sentence

variable {t : Text}

theorem isBlank_of_isReadable (h : isReadable t = true) : Text.isBlank t = false := by
  cases hblank : Text.isBlank t with
  | false => rfl
  | true =>
    rw [isReadable, parse_of_isBlank hblank] at h
    cases h

theorem read?_eq_none_iff : read? t = none ↔ ∃ e, parse t = .error e := by
  rw [read?]
  cases parse t with
  | error e => exact iff_of_true rfl ⟨e, rfl⟩
  | ok s =>
    refine iff_of_false (Option.some_ne_none s) ?_
    rintro ⟨e, he⟩
    cases he

theorem length_filterMap_read? (texts : List Text) :
    (texts.filterMap read?).length = (texts.filter isReadable).length := by
  simp only [List.length_filterMap_eq_countP, isSome_read?, List.countP_eq_length_filter]

end Sentence

namespace Submission

/-! ### Submissions one by one -/

/-- Nothing is known of a blank submission; of any other one there is a sentence or a diagnostic,
but not both. -/
structure Decided (s : Submission) : Prop where
  blank : Text.trim s.text = [] → s.parsed = none ∧ s.diagnostic = none
  typed : Text.trim s.text ≠ [] → s.parsed.isSome = !s.diagnostic.isSome

theorem decided_ofText (t : Text) : (ofText t).Decided where
  blank h := by
    rw [text_ofText, ← Text.isBlank_iff_trim] at h
    have hnone : (ofText t).diagnostic.isSome = false := by
      rw [isSome_diagnostic_ofText, isFaulty, h]
      rfl
    rw [parsed_ofText, Sentence.read?, Sentence.parse_of_isBlank h]
    exact ⟨rfl, Option.isNone_iff_eq_none.mp (Option.isSome_eq_false_iff.mp hnone)⟩
  typed h := by
    rw [text_ofText, ne_eq, ← Text.isBlank_iff_trim, Bool.not_eq_true] at h
    rw [parsed_ofText, Sentence.isSome_read?, isSome_diagnostic_ofText, isFaulty, h, Bool.not_false,
      Bool.true_and, Bool.not_not]

/-! ### Batches -/

/-- The texts that something stands on. -/
def typedTexts (texts : List Text) : List Text := texts.filter fun t => !(Text.trim t).isEmpty

variable {texts : List Text}

theorem typedTexts_eq (texts : List Text) :
    typedTexts texts = texts.filter fun t => !Text.isBlank t := by
  refine List.filter_congr fun t _ => congrArg not ?_
  rw [Bool.eq_iff_iff, List.isEmpty_iff, Text.isBlank_iff_trim]

theorem ofTexts_eq_map (texts : List Text) : ofTexts texts = (typedTexts texts).map ofText := by
  rw [ofTexts, List.filter_map, typedTexts_eq]
  congr 1
  refine List.filter_congr fun t _ => ?_
  rw [Function.comp_apply, isBlank_ofText]

/-- Every text that can be read is typed. -/
theorem filter_isReadable (texts : List Text) :
    (typedTexts texts).filter Sentence.isReadable = texts.filter Sentence.isReadable := by
  rw [typedTexts_eq, List.filter_filter]
  refine List.filter_congr fun t _ => ?_
  cases hread : Sentence.isReadable t with
  | false => rfl
  | true =>
    rw [Sentence.isBlank_of_isReadable hread]
    rfl

theorem allReady_iff :
    allReady (texts.map ofText) = true ↔
      typedTexts texts ≠ [] ∧ ∀ t ∈ typedTexts texts, Sentence.isReadable t = true := by
  have hready : allReady (texts.map ofText) =
      (!(ofTexts texts).isEmpty && (ofTexts texts).all isReadable) := rfl
  rw [hready, ofTexts_eq_map, List.isEmpty_map, List.all_map, Bool.and_eq_true, Bool.not_eq_true',
    List.isEmpty_eq_false_iff, List.all_eq_true]
  simp only [Function.comp_apply, isReadable, parsed_ofText, Sentence.isSome_read?]

theorem sentences_map_ofText (texts : List Text) :
    sentences (texts.map ofText) = texts.filterMap Sentence.read? := by
  rw [sentences, List.filterMap_map]
  congr 1
  funext t
  exact parsed_ofText t

theorem length_sentences (texts : List Text) :
    (sentences (texts.map ofText)).length =
      ((typedTexts texts).filter Sentence.isReadable).length := by
  rw [sentences_map_ofText, Sentence.length_filterMap_read?, filter_isReadable]

/-- A batch is ready if there are sentences, as many as typed texts. -/
theorem allReady_iff_complete :
    allReady (texts.map ofText) = true ↔
      sentences (texts.map ofText) ≠ [] ∧
        (sentences (texts.map ofText)).length = (typedTexts texts).length := by
  rw [allReady_iff, ← List.length_pos_iff, ← List.length_pos_iff, length_sentences,
    List.length_filter_eq_length_iff]
  refine and_congr_left fun hall => ?_
  rw [List.filter_eq_self.mpr hall]

section Table

variable {submissions : List Submission} {table : Table}

theorem table?_eq_none_iff : table? submissions = none ↔ sentences submissions = [] := by
  rw [table?]
  cases sentences submissions with
  | nil => exact iff_of_true rfl rfl
  | cons s rest => exact iff_of_false (Option.some_ne_none _) (List.cons_ne_nil s rest)

theorem table?_eq_some_iff :
    table? submissions = some table ↔
      sentences submissions ≠ [] ∧ table = Table.ofBatch (sentences submissions) := by
  rw [table?]
  cases sentences submissions with
  | nil => exact iff_of_false (Option.some_ne_none table).symm fun h => h.1 rfl
  | cons s rest =>
    rw [Option.some.injEq, and_iff_right (List.cons_ne_nil s rest)]
    exact eq_comm

end Table

/-- **A batch is ready exactly if its table leaves no typed text out.** Of each typed text there is
a sentence or a diagnostic, of a blank one neither. There is no table exactly if no text can be
read; any table is generated from the sentences of the texts that can be read, in their order. -/
theorem ready_iff_table_complete (texts : List Text) :
    let inputs := texts.map ofText
    (∀ s ∈ inputs, s.Decided) ∧
      (table? inputs = none ↔ ∀ t ∈ texts, ∃ e, Sentence.parse t = .error e) ∧
      (∀ table, table? inputs = some table →
        table.formulas = texts.filterMap Sentence.read? ∧
          Table.generate table.formulas = .ok table) ∧
      (allReady inputs = true ↔
        ∃ table, table? inputs = some table ∧
          table.formulas.length = (typedTexts texts).length) := by
  intro inputs
  have hsentences : sentences inputs = texts.filterMap Sentence.read? := sentences_map_ofText texts
  refine ⟨?_, ?_, ?_, ?_⟩
  · exact List.forall_mem_map.mpr fun t _ => decided_ofText t
  · rw [table?_eq_none_iff, hsentences, List.filterMap_eq_nil_iff]
    simp only [Sentence.read?_eq_none_iff]
  · intro table htable
    obtain ⟨-, rfl⟩ := table?_eq_some_iff.mp htable
    exact ⟨hsentences, Table.generate_eq_ofBatch _⟩
  · rw [allReady_iff_complete]
    constructor
    · rintro ⟨hne, hcomplete⟩
      exact ⟨_, table?_eq_some_iff.mpr ⟨hne, rfl⟩, hcomplete⟩
    · rintro ⟨table, htable, hcomplete⟩
      obtain ⟨hne, rfl⟩ := table?_eq_some_iff.mp htable
      exact ⟨hne, hcomplete⟩

end Submission

end Propositional
