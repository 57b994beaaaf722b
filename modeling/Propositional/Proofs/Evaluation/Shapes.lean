import Propositional.Datum
import Propositional.Proofs.Bindings.Lookup
import Propositional.Proofs.Evaluation.Outcome

/-! The shapes of an assignment.

Values for letters can be handed in under the letters themselves, under their display names, or as a
function that looks the display name up and has nothing to say where there is none. Display names
tell letters apart, whatever their numbers, so nothing is lost or merged when entries are renamed
(`get?_named`), and every shape says the same of every letter (`truth?_mapping_named`,
`truth?_ofNames_named`). What a sentence comes to depends on no more than that (`SettledBy`). Where
a mapping has entries of both kinds, those under letters decide (`truth?_mapping`), and an entry
without a value decides as well: the letter is then unbound, whatever stands under its name.
`evaluate_of_any_shape` puts this together. -/
namespace Propositional

namespace Assignment

/-! ### Values as they are handed in -/

/-- The entries of a map, as what their values count as. -/
def entries {κ : Type} [DecidableEq κ] (m : Bindings κ Datum) : Bindings κ (Option Bool) :=
  .ofList (m.toList.map fun p => (p.1, p.2.truth?))

theorem get?_entries {κ : Type} [DecidableEq κ] (m : Bindings κ Datum) (k : κ) :
    (entries m).get? k = (m.get? k).map Datum.truth? :=
  Bindings.get?_ofList_map m (fun _ d => d.truth?) k

/-- The entries for letters, under their display names. -/
def named (m : Bindings Letter Datum) : Bindings Text Datum :=
  .ofList (m.toList.map fun p => (p.1.name, p.2))

theorem get?_named (m : Bindings Letter Datum) (l : Letter) : (named m).get? l.name = m.get? l := by
  rw [named, Bindings.get?_ofList_rename Letter.name Letter.name_inj m (fun _ d => d) l,
    Option.map_id']

/-- The value that a map gives a letter, if it has an entry and the entry has a value. -/
def given (m : Bindings Letter Datum) (l : Letter) : Option Bool := (m.get? l).bind Datum.truth?

/-- The same, where a letter without an entry is looked up by its display name. -/
def givenOrNamed (m : Bindings Letter Datum) (names : Bindings Text Datum) (l : Letter) :
    Option Bool :=
  match m.get? l with
  | some d => d.truth?
  | none => (names.get? l.name).bind Datum.truth?

/-! ### What each shape says of a letter -/

theorem truth?_ofEntry (entry : Option Bool) : (Reply.ofEntry entry).truth? = entry := by
  cases entry <;> rfl

/-- An entry under the letter decides over one under its name. -/
theorem truth?_mapping (m : Bindings Letter Datum) (names : Bindings Text Datum) (l : Letter) :
    (mapping (entries m) (entries names)).truth? l = givenOrNamed m names l := by
  rw [truth?, reply, get?_entries, get?_entries, givenOrNamed]
  cases m.get? l with
  | some d => exact truth?_ofEntry _
  | none =>
    cases names.get? l.name with
    | some d => exact truth?_ofEntry _
    | none => rfl

theorem givenOrNamed_empty (m : Bindings Letter Datum) (l : Letter) :
    givenOrNamed m .empty l = given m l := by
  rw [givenOrNamed, given]
  cases m.get? l <;> rfl

theorem truth?_mapping_letters (m : Bindings Letter Datum) (l : Letter) :
    (mapping (entries m) .empty).truth? l = given m l :=
  (truth?_mapping m .empty l).trans (givenOrNamed_empty m l)

theorem truth?_mapping_named (m : Bindings Letter Datum) (l : Letter) :
    (mapping .empty (entries (named m))).truth? l = given m l := by
  have hnamed : givenOrNamed .empty (named m) l = given m l := by
    rw [givenOrNamed, Bindings.get?_empty, get?_named, given]
  exact (truth?_mapping .empty (named m) l).trans hnamed

/-- A function that looks names up may say in any way that it has no value for the others. -/
theorem truth?_ofNames_named (m : Bindings Letter Datum) {otherwise : Reply}
    (h : otherwise.truth? = none) (l : Letter) :
    (ofNames (entries (named m)) otherwise).truth? l = given m l := by
  rw [truth?, ofNames, reply, get?_entries, get?_named, given]
  cases m.get? l with
  | some d => exact truth?_ofEntry _
  | none => exact h

end Assignment

/-! ### What a sentence comes to -/

/-- The outcome of a sentence where its letters have these values, if they have any. -/
structure SettledBy (value? : Letter → Option Bool) (s : Sentence) (r : Except Unbound Bool) :
    Prop where
  /-- A letter without a value, where all before it have one, is named. -/
  of_missing : ∀ before l after, s.occurrences = before ++ l :: after →
    (∀ m ∈ before, ∃ b, value? m = some b) → value? l = none → r = .error ⟨l⟩
  of_given : ∀ v : Letter → Bool, (∀ l ∈ s.occurrences, value? l = some (v l)) →
    ∃ b, r = .ok b ∧ (b = true ↔ s.Holds v)

theorem settledBy_of_truth? {value? : Letter → Option Bool} {a : Assignment} (s : Sentence)
    (h : ∀ l, a.truth? l = value? l) : SettledBy value? s (s.evaluate a) := by
  obtain rfl : a.truth? = value? := funext h
  constructor
  case of_missing =>
    intro before l after hsplit hbefore hnone
    exact Sentence.evaluate_of_unbound (Sentence.firstUnbound_of_split hsplit hbefore hnone)
  case of_given =>
    intro v hv
    exact ⟨s.truth v, Sentence.evaluate_eq_truth hv, Sentence.truth_eq_true_iff v s⟩

open Assignment in
/-- **The shape of an assignment does not matter.** Whatever the values for letters are, a sentence
has one outcome under the mapping by letter, the mapping by display name and the functions that look
display names up, which fail or give nothing where there is no entry; and in a mapping by letter
that has names besides, a name counts only for a letter without an entry. -/
theorem Sentence.evaluate_of_any_shape (m : Bindings Letter Datum) (s : Sentence) :
    ∃ r, SettledBy (given m) s r ∧
      s.evaluate (.mapping (entries m) .empty) = r ∧
      s.evaluate (.mapping .empty (entries (named m))) = r ∧
      s.evaluate (.ofNames (entries (named m)) .missing) = r ∧
      s.evaluate (.ofNames (entries (named m)) .blank) = r ∧
      ∀ names : Bindings Text Datum,
        SettledBy (givenOrNamed m names) s (s.evaluate (.mapping (entries m) (entries names))) := by
  have hsame {a : Assignment} (h : ∀ l, a.truth? l = given m l) :
      s.evaluate a = s.evaluate (.mapping (entries m) .empty) :=
    evaluate_congr fun l _ => (h l).trans (truth?_mapping_letters m l).symm
  refine ⟨_, settledBy_of_truth? s (truth?_mapping_letters m), rfl, ?_, ?_, ?_, ?_⟩
  · exact hsame (truth?_mapping_named m)
  · exact hsame (truth?_ofNames_named m rfl)
  · exact hsame (truth?_ofNames_named m rfl)
  · exact fun names => settledBy_of_truth? s (truth?_mapping m names)

/-- `P` is entered without a value, so it is unbound, although its name has a value. -/
example : (Sentence.letter { id := 'P', isUpper := rfl }).evaluate (.mapping
    (Assignment.entries (.ofList [({ id := 'P', isUpper := rfl }, .nothing)]))
    (Assignment.entries (.ofList [(['P'], .bool true)]))) =
      .error ⟨{ id := 'P', isUpper := rfl }⟩ := by rfl

end Propositional
