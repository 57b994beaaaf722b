import Mathlib.Data.List.Basic
import Mathlib.Data.List.Count
import Propositional.Proofs.Table.Enumeration
import Propositional.Proofs.Table.Values

/-! A formula's part in the table of a batch.

A table lists the assignments to its letters by halves: those with the first letter true, and the
same once more with it false (`halves`, `map_assignment_rows`). So a projection to some of the
letters can be followed letter by letter. Where a letter is dropped, the second half says again what
the first half says; where it is kept, the halves have nothing in common. Hence the projections come
first in the order in which a table of the kept letters lists them (`eraseDups_projections`), and
each comes once for every assignment to the dropped letters (`count_projections`).
`generate_projects` states this for the letters of one formula of a batch, whose values are those
that it has in a table of its own. -/
namespace Propositional

/-! ### First occurrences -/

section
variable {α β : Type} [BEq α] [LawfulBEq α] [BEq β] [LawfulBEq β]

theorem eraseDups_append_of_disjoint {l l' : List α} (h : ∀ a ∈ l', a ∉ l) :
    (l ++ l').eraseDups = l.eraseDups ++ l'.eraseDups := by
  have hkept : l'.removeAll l = l' := List.filter_eq_self.mpr fun a ha => by simpa using h a ha
  rw [List.eraseDups_append, hkept]

theorem eraseDups_append_self (l : List α) : (l ++ l).eraseDups = l.eraseDups := by
  have hnone : l.removeAll l = [] := List.filter_eq_nil_iff.mpr fun a ha => by simpa using ha
  rw [List.eraseDups_append, hnone]
  exact List.append_nil _

theorem eraseDups_map_of_injective {f : α → β} (hf : f.Injective) (l : List α) :
    (l.map f).eraseDups = l.eraseDups.map f := by
  -- what is left behind the first element is shorter, but no part of the list
  induction hn : l.length using Nat.strongRecOn generalizing l with
  | ind n ih =>
    cases l with
    | nil => rfl
    | cons a rest =>
      have hfilter : (rest.map f).filter (fun b => !b == f a) =
          (rest.filter fun b => !b == a).map f := by
        have hsame (b : α) : (f b == f a) = (b == a) :=
          Bool.eq_iff_iff.mpr (by rw [beq_iff_eq, beq_iff_eq, hf.eq_iff])
        simp only [List.filter_map, Function.comp_def, hsame]
      have hlt : (rest.filter fun b => !b == a).length < n := by
        rw [← hn]
        exact Nat.lt_succ_of_le (List.length_filter_le _ _)
      rw [List.map_cons, List.eraseDups_cons, hfilter, ih _ hlt _ rfl, List.eraseDups_cons]
      rfl

end

namespace Table

/-! ### Assignments by halves -/

/-- Assignments with a name in front, first true and then false. -/
def halves (name : Text) (rest : List (List (Text × Option Bool))) :
    List (List (Text × Option Bool)) :=
  rest.map ((name, some true) :: ·) ++ rest.map ((name, some false) :: ·)

theorem mem_halves {name : Text} {rest : List (List (Text × Option Bool))}
    {p : List (Text × Option Bool)} :
    p ∈ halves name rest ↔ ∃ b, ∃ q ∈ rest, p = (name, some b) :: q := by
  simp only [halves, List.mem_append, List.mem_map, Bool.exists_bool]
  rw [or_comm]
  simp only [eq_comm]

theorem eraseDups_halves (name : Text) (rest : List (List (Text × Option Bool))) :
    (halves name rest).eraseDups = halves name rest.eraseDups := by
  have hcons (b : Bool) : Function.Injective ((name, some b) :: ·) :=
    fun _ _ h => (List.cons.inj h).2
  have hdisjoint : ∀ p ∈ rest.map ((name, some false) :: ·),
      p ∉ rest.map ((name, some true) :: ·) := by
    intro p hp hp'
    obtain ⟨q, -, rfl⟩ := List.mem_map.mp hp
    obtain ⟨q', -, h⟩ := List.mem_map.mp hp'
    cases h
  rw [halves, eraseDups_append_of_disjoint hdisjoint, eraseDups_map_of_injective (hcons true),
    eraseDups_map_of_injective (hcons false)]
  rfl

theorem count_halves (name : Text) (rest : List (List (Text × Option Bool))) (b : Bool)
    (q : List (Text × Option Bool)) :
    (halves name rest).count ((name, some b) :: q) = rest.count q := by
  have hsame (b : Bool) :
      (rest.map ((name, some b) :: ·)).count ((name, some b) :: q) = rest.count q :=
    List.count_map_of_injective rest _ (fun _ _ h => (List.cons.inj h).2) q
  have hother {b b' : Bool} (hne : b' ≠ b) :
      (rest.map ((name, some b') :: ·)).count ((name, some b) :: q) = 0 := by
    refine List.count_eq_zero.mpr fun hmem => ?_
    obtain ⟨q', -, h⟩ := List.mem_map.mp hmem
    exact hne (Option.some.inj (Prod.mk.inj (List.cons.inj h).1).2)
  rw [halves, List.count_append]
  cases b with
  | true => rw [hsame, hother (by decide), Nat.add_zero]
  | false => rw [hsame, hother (by decide), Nat.zero_add]

/-- The assignments to letters, by display name, from all true to all false. -/
def assignments : List Letter → List (List (Text × Option Bool))
  | [] => [[]]
  | l :: rest => halves l.name (assignments rest)

/-- What the row with a number says of the letters. -/
def stateEntries (letters : List Letter) (state : Nat) : List (Text × Option Bool) :=
  letters.mapIdx fun i l => (l.name, some !state.testBit (letters.length - 1 - i))

theorem stateEntries_cons (l : Letter) (rest : List Letter) (state : Nat) :
    stateEntries (l :: rest) state =
      (l.name, some !state.testBit rest.length) :: stateEntries rest state := by
  have hplace (i : Nat) : rest.length + 1 - 1 - (i + 1) = rest.length - 1 - i := by omega
  simp only [stateEntries, List.mapIdx_cons, List.length_cons, hplace]
  rfl

/-- The digit above those of the letters does not matter. -/
theorem stateEntries_add (letters : List Letter) (state : Nat) :
    stateEntries letters (2 ^ letters.length + state) = stateEntries letters state := by
  refine List.mapIdx_eq_mapIdx_iff.mpr fun i hi => ?_
  rw [Nat.testBit_two_pow_add_gt (by omega)]

theorem map_stateEntries_range (letters : List Letter) :
    (List.range (2 ^ letters.length)).map (stateEntries letters) = assignments letters := by
  induction letters with
  | nil => rfl
  | cons l rest ih =>
    have hlow : ∀ state ∈ List.range (2 ^ rest.length),
        stateEntries (l :: rest) state = (l.name, some true) :: stateEntries rest state := by
      intro state hstate
      rw [stateEntries_cons, Nat.testBit_lt_two_pow (List.mem_range.mp hstate)]
      rfl
    have hhigh : ∀ state ∈ List.range (2 ^ rest.length),
        stateEntries (l :: rest) (2 ^ rest.length + state) =
          (l.name, some false) :: stateEntries rest state := by
      intro state hstate
      rw [stateEntries_cons, Nat.testBit_two_pow_add_eq,
        Nat.testBit_lt_two_pow (List.mem_range.mp hstate), stateEntries_add]
      rfl
    rw [assignments, ← ih, halves, List.map_map, List.map_map, List.length_cons, Nat.pow_succ,
      Nat.mul_two, List.range_add, List.map_append, List.map_map]
    exact congrArg₂ (· ++ ·) (List.map_congr_left hlow) (List.map_congr_left hhigh)

/-- The rows of a table are the assignments to its letters. -/
theorem map_assignment_rows (formulas : List Sentence) :
    (ofBatch formulas).rows.map (fun r => r.assignment.toList) =
      assignments (Sentence.batchLetters formulas) := by
  rw [← map_stateEntries_range, ofBatch, List.map_map]
  exact List.map_congr_left fun state _ =>
    toList_stateAssignment (Sentence.nodup_batchLetters formulas) state

/-! ### Projections -/

section
variable (keep : Text → Bool)

/-- The assignments to letters, each with the names that are kept. -/
def projections (letters : List Letter) : List (List (Text × Option Bool)) :=
  (assignments letters).map (List.filter fun p => keep p.1)

variable {keep} {l : Letter}

theorem projections_cons_of_kept (h : keep l.name = true) (rest : List Letter) :
    projections keep (l :: rest) = halves l.name (projections keep rest) := by
  simp only [projections, assignments, halves, List.map_append, List.map_map]
  simp [Function.comp_def, h]

theorem projections_cons_of_dropped (h : keep l.name = false) (rest : List Letter) :
    projections keep (l :: rest) = projections keep rest ++ projections keep rest := by
  simp only [projections, assignments, halves, List.map_append, List.map_map]
  simp [Function.comp_def, h]

variable (keep)

/-- In the order of their first occurrence, the projections are the assignments to the letters that
are kept. -/
theorem eraseDups_projections (letters : List Letter) :
    (projections keep letters).eraseDups =
      assignments (letters.filter fun l => keep l.name) := by
  induction letters with
  | nil => rfl
  | cons l rest ih =>
    cases h : keep l.name with
    | true =>
      rw [projections_cons_of_kept h, eraseDups_halves, ih,
        List.filter_cons_of_pos (by exact h)]
      rfl
    | false =>
      rw [projections_cons_of_dropped h, eraseDups_append_self, ih,
        List.filter_cons_of_neg (by rw [h]; decide)]

/-- Each projection occurs once for every assignment to the letters that are dropped. -/
theorem count_projections (letters : List Letter) {p : List (Text × Option Bool)}
    (hp : p ∈ projections keep letters) :
    (projections keep letters).count p = 2 ^ letters.countP fun l => !keep l.name := by
  induction letters generalizing p with
  | nil =>
    obtain rfl := List.mem_singleton.mp hp
    rfl
  | cons l rest ih =>
    cases h : keep l.name with
    | true =>
      rw [projections_cons_of_kept h] at hp ⊢
      obtain ⟨b, q, hq, rfl⟩ := mem_halves.mp hp
      rw [count_halves, ih hq, List.countP_cons_of_neg (by rw [h]; decide)]
    | false =>
      rw [projections_cons_of_dropped h] at hp ⊢
      have hp : p ∈ projections keep rest := by simpa using hp
      rw [List.count_append, ih hp, List.countP_cons_of_pos (by rw [h]; decide), Nat.pow_succ,
        Nat.mul_two]

end

/-! ### The part of one formula -/

/-- Whether a letter of a collection has this display name. -/
def isNameIn (ls : Letters) (name : Text) : Bool := (ls.toList.map Letter.name).contains name

theorem isNameIn_name (ls : Letters) (l : Letter) : isNameIn ls l.name = ls.contains l := by
  rw [Bool.eq_iff_iff, isNameIn, Letters.contains_iff, List.contains_iff_mem]
  exact List.mem_map_of_injective fun _ _ => Letter.name_inj

end Table

/-- The assignment of a row with the letters of a collection only. -/
def Row.projected (ls : Letters) (r : Row) : List (Text × Option Bool) :=
  r.assignment.toList.filter fun p => Table.isNameIn ls p.1

namespace Table

theorem map_projected_rows (formulas : List Sentence) (ls : Letters) :
    (ofBatch formulas).rows.map (Row.projected ls) =
      projections (isNameIn ls) (Sentence.batchLetters formulas) := by
  rw [projections, ← map_assignment_rows, List.map_map]
  rfl

/-- A projection says of its letters what the row says. -/
theorem valuation_eq_of_projected {ls : Letters} {r r' : Row}
    (h : r'.assignment.toList = r.projected ls) {l : Letter} (hl : l ∈ ls.toList) :
    valuation r'.assignment l = valuation r.assignment l := by
  have hname : isNameIn ls l.name = true := by
    rw [isNameIn_name]
    exact Letters.contains_iff.mpr hl
  have hget : r'.assignment.get? l.name = r.assignment.get? l.name := by
    ext v
    rw [Bindings.get?_eq_some_iff, Bindings.get?_eq_some_iff, h, Row.projected, List.mem_filter,
      and_iff_left hname]
  rw [valuation, valuation, hget]

/-- A table of one formula is its part in the table of a batch. -/
structure Projects (j : Nat) (f : Sentence) (t single : Table) : Prop where
  letters_eq : single.letters = t.letters.filter f.letters.contains
  /-- The assignments of the one are the projections of those of the other, at their first
  occurrences. -/
  first_rows : (t.rows.map (Row.projected f.letters)).eraseDups =
    single.rows.map fun r => r.assignment.toList
  /-- Every projection occurs equally often. -/
  count_eq : ∀ p ∈ t.rows.map (Row.projected f.letters),
    (t.rows.map (Row.projected f.letters)).count p =
      2 ^ (t.letters.length - single.letters.length)
  /-- A row has the value of the formula that stands in the row for its projection. -/
  value_eq : ∀ r ∈ t.rows,
    (∃ r' ∈ single.rows, r'.assignment.toList = r.projected f.letters) ∧
      ∀ r' ∈ single.rows, r'.assignment.toList = r.projected f.letters →
        ∃ b, r'.values = [b] ∧ r.values[j]? = some b

/-- **A formula's column does not depend on the rest of the batch.** Whatever the batch, the rows
with the letters of one of its formulas only are, at their first occurrences, the rows of the table
of that formula alone, in the same order; each occurs 2ⁿ⁻ᵐ times, for n letters of the batch and m
of the formula; and the formula has the same value in a row as in its own table. -/
theorem generate_projects (formulas : List Sentence) (j : Fin formulas.length) :
    ∃ t single, generate formulas = .ok t ∧ generate [formulas.get j] = .ok single ∧
      Projects j.val (formulas.get j) t single := by
  refine ⟨ofBatch formulas, ofBatch [formulas.get j], generate_eq_ofBatch _, generate_eq_ofBatch _,
    ?_⟩
  have hmem : formulas.get j ∈ formulas := List.get_mem formulas j
  have hget : formulas[j.val]? = some (formulas.get j) := List.getElem?_eq_getElem j.isLt
  generalize formulas.get j = f at hmem hget
  have hletters : (ofBatch [f]).letters = (ofBatch formulas).letters.filter f.letters.contains :=
    Sentence.batchLetters_singleton hmem
  have hnames : (fun l : Letter => isNameIn f.letters l.name) = f.letters.contains :=
    funext (isNameIn_name f.letters)
  have hfirst : ((ofBatch formulas).rows.map (Row.projected f.letters)).eraseDups =
      (ofBatch [f]).rows.map fun r => r.assignment.toList := by
    rw [map_projected_rows, eraseDups_projections, map_assignment_rows, hnames,
      Sentence.batchLetters_singleton hmem]
  constructor
  case letters_eq => exact hletters
  case first_rows => exact hfirst
  case count_eq =>
    intro p hp
    rw [map_projected_rows] at hp ⊢
    rw [count_projections (isNameIn f.letters) _ hp, hletters, List.countP_eq_length_filter]
    simp only [isNameIn_name]
    have hsplit := List.length_eq_length_filter_add (l := (ofBatch formulas).letters)
      f.letters.contains
    congr 1
    exact Nat.eq_sub_of_add_eq' hsplit.symm
  case value_eq =>
    intro r hr
    constructor
    · have hprojected : r.projected f.letters ∈
          (ofBatch [f]).rows.map fun r => r.assignment.toList := by
        rw [← hfirst, List.mem_eraseDups]
        exact List.mem_map_of_mem hr
      exact List.mem_map.mp hprojected
    · intro r' hr' hprojected
      refine ⟨f.truth (valuation r'.assignment), values_of_mem_rows hr', ?_⟩
      rw [getElem?_values hr hget, Sentence.truth_congr fun l hl => ?_]
      exact (valuation_eq_of_projected hprojected (Sentence.mem_letters.mpr hl)).symm

end Table

end Propositional
