import Mathlib.Data.List.Induction
import Propositional.Proofs.Letters.Order

/-! Collecting letters.

A collection is settled by the letters that were added to it: it has them in the order in which they
were first added (`toList_ofList`). Every call on a collection comes to adding the letters that it
brings (`perform_eq`), so any calls on a collection of letters lead to the collection of these
letters and of those that the calls bring (`run_ofList`). What `run_collects` says of every
collection that calls lead to is thereby read off the letters that were added. -/
namespace Propositional.Letters

/-! ### One letter after the other -/

theorem ofList_append (letters new : List Letter) :
    ofList (letters ++ new) = (ofList letters).addAll new :=
  List.foldl_append

/-- A collection has the letters of a list at their first places. -/
theorem toList_ofList (letters : List Letter) :
    (ofList letters).toList = letters.eraseDups := by
  induction letters using List.reverseRecOn with
  | nil => rfl
  | append_singleton letters l ih =>
    have hadd : ofList (letters ++ [l]) = ((ofList letters).add l).1 := ofList_append letters [l]
    rw [hadd, toList_add, ih, List.eraseDups_append]
    simp only [List.mem_eraseDups]
    by_cases hmem : l ∈ letters
    · have hgone : [l].removeAll letters = [] := by simp [List.removeAll, hmem]
      rw [if_pos hmem, hgone]
      exact (List.append_nil _).symm
    · have hkept : [l].removeAll letters = [l] := by simp [List.removeAll, hmem]
      rw [if_neg hmem, hkept]
      rfl

theorem mem_ofList {letters : List Letter} {l : Letter} :
    l ∈ (ofList letters).toList ↔ l ∈ letters := by
  rw [toList_ofList, List.mem_eraseDups]

section Calls

variable {ε : Type}

/-- The letters in front of the first one that cannot be had. -/
def beforeError (new : List (Except ε Letter)) : List Letter :=
  (new.takeWhile Except.isOk).filterMap Except.toOption

theorem fst_addUntilError (ls : Letters) (new : List (Except ε Letter)) :
    (ls.addUntilError new).1 = ls.addAll (beforeError new) := by
  induction new generalizing ls with
  | nil => rfl
  | cons r rest ih =>
    cases r with
    | ok l => exact ih (ls.add l).1
    | error e => rfl

/-! ### Calls -/

/-- What a collection can be called for: to add a letter, to add letters of which one may be in
error, and to list its letters in order. -/
inductive Call (ε : Type) where
  | add (l : Letter)
  | update (new : List (Except ε Letter))
  | sort

/-- The letters that a call brings. -/
def Call.letters : Call ε → List Letter
  | add l => [l]
  | update new => beforeError new
  | sort => []

/-- The collection after a call. -/
def perform (ls : Letters) : Call ε → Letters
  | .add l => (ls.add l).1
  | .update new => (ls.addUntilError new).1
  | .sort => ls

/-- The collection after a sequence of calls, whether or not they come to an error. -/
def run (ls : Letters) (calls : List (Call ε)) : Letters := calls.foldl perform ls

theorem perform_eq (ls : Letters) (c : Call ε) : ls.perform c = ls.addAll c.letters := by
  cases c with
  | add l => rfl
  | update new => exact ls.fst_addUntilError new
  | sort => rfl

/-- Calls lead from the collection of some letters to that of more letters. -/
theorem run_ofList (letters : List Letter) (calls : List (Call ε)) :
    (ofList letters).run calls = ofList (letters ++ calls.flatMap Call.letters) := by
  induction calls generalizing letters with
  | nil => rw [List.flatMap_nil, List.append_nil]; rfl
  | cons c rest ih =>
    have hstep : (ofList letters).perform c = ofList (letters ++ c.letters) := by
      rw [perform_eq, ofList_append]
    rw [run, List.foldl_cons, hstep, List.flatMap_cons, ← List.append_assoc]
    exact ih (letters ++ c.letters)

/-! ### What is found in a collection -/

variable {ls : Letters}

theorem containsAny_iff {α : Type} {x : Sentence ⊕ α} :
    ls.containsAny x = true ↔ ∃ l ∈ ls.toList, x = .inl (.letter l) := by
  rcases x with s | a
  · cases s <;> simp [containsAny, containsSentence, contains_iff]
  · simp [containsAny]

theorem isNew_add_iff {l : Letter} : (ls.add l).2 = true ↔ l ∉ ls.toList := by
  rw [isNew_add, Bool.not_eq_true', ← Bool.not_eq_true, contains_iff]

/-- **A collection has the letters that were added, each at the place where it was first added.**
This is so after any calls on a collection of any letters. A further letter is new exactly if it is
none of those that were added, letters and nothing else are found in the collection, as many as it
lists, and sorting them makes a list of the same letters that ascends. -/
theorem run_collects (initial : List Letter) (calls : List (Call ε)) :
    let ls := (ofList initial).run calls
    let added := initial ++ calls.flatMap Call.letters
    (ls.toList = added.eraseDups ∧ ls.toList.Nodup) ∧
      (∀ l, (ls.add l).2 = true ↔ l ∉ added) ∧
      (∀ (α : Type) (x : Sentence ⊕ α),
        ls.containsAny x = true ↔ ∃ l ∈ ls.toList, x = .inl (.letter l)) ∧
      ls.size = ls.toList.length ∧
      ls.sorted.Perm ls.toList ∧ ls.sorted.Pairwise (· < ·) := by
  intro ls added
  have hls : ls = ofList added := run_ofList initial calls
  refine ⟨⟨?_, ls.nodup⟩, fun l => ?_, fun α x => containsAny_iff, rfl, ls.perm_sorted,
    ls.ascending_sorted⟩
  · rw [hls, toList_ofList]
  · rw [isNew_add_iff, hls, mem_ofList]

end Calls

end Propositional.Letters
