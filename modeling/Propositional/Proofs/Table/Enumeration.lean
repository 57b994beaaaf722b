import Mathlib.Algebra.Group.Nat.Defs
import Mathlib.Data.Nat.Init
import Mathlib.Logic.ExistsUnique
import Propositional.Proofs.Bindings.Lookup
import Propositional.Proofs.Letters.Order
import Propositional.Table

/-! The rows of a truth table enumerate the assignments.

The letters of a batch are distinct, and so are their display names, so a row binds every letter of
the batch to a value of its own (`toList_stateAssignment`): the value is the opposite of the digit
that belongs to the letter in the binary number of the row, written with zeros in front
(`stateAssignment_eq_zip`). Numbers below 2ⁿ and assignments to n letters correspond one to one
(`existsUnique_state`), so each assignment is that of one row. `generate_enumerates` puts this
together for the table that is generated for a batch. -/
namespace Propositional

/-! ### The letters of a batch -/

theorem Letter.nodup_names {letters : List Letter} (h : letters.Nodup) :
    (letters.map Letter.name).Nodup :=
  List.Pairwise.map _ (fun _ _ hne he => hne (name_inj he)) h

namespace Table

/-! ### The binary number of a row -/

/-- A binary number, with zeros in front of it up to a width. -/
def paddedBinary (width state : Nat) : Text :=
  let digits := Nat.toDigits 2 state
  List.replicate (width - digits.length) '0' ++ digits

/-- The last digit is the parity of the number, and the digits before it are those of its half. -/
theorem stateBits_succ (width state : Nat) :
    stateBits (width + 1) state = stateBits width (state / 2) ++ [state.testBit 0] := by
  have hhigh : (List.range width).map (fun i => state.testBit (width + 1 - 1 - i)) =
      (List.range width).map fun i => (state / 2).testBit (width - 1 - i) := by
    apply List.map_congr_left
    intro i hi
    have hi : i < width := List.mem_range.mp hi
    rw [show width + 1 - 1 - i = (width - 1 - i) + 1 from by omega, Nat.testBit_succ]
  simp only [stateBits, List.range_succ, List.map_append, hhigh]
  simp

theorem shownBits_succ (width state : Nat) :
    shownBits (width + 1) state = shownBits width (state / 2) ++ [(state % 2).digitChar] := by
  have hlast : (if state.testBit 0 then '1' else '0') = (state % 2).digitChar := by
    rcases Nat.mod_two_eq_zero_or_one state with h | h <;> simp [Nat.testBit_zero, h]
  simp only [shownBits, stateBits_succ, List.map_append, List.map_cons, List.map_nil, hlast]

theorem paddedBinary_succ {width : Nat} (hwidth : 0 < width) (state : Nat) :
    paddedBinary (width + 1) state =
      paddedBinary width (state / 2) ++ [(state % 2).digitChar] := by
  by_cases h : state < 2
  · have hhalf : state / 2 = 0 := by omega
    have hmod : state % 2 = state := by omega
    have hzeros : List.replicate width '0' = List.replicate (width - 1) '0' ++ ['0'] := by
      rw [← List.replicate_succ', show width - 1 + 1 = width from by omega]
    simp only [paddedBinary, hhalf, hmod, Nat.toDigits_zero, Nat.toDigits_of_lt_base h,
      List.length_singleton, Nat.add_sub_cancel, hzeros]
  · have hstate : 2 ≤ state := by omega
    have hdigits := Nat.toDigits_of_base_le (show 1 < 2 from by decide) hstate
    simp only [paddedBinary, hdigits, List.length_append, List.length_singleton,
      Nat.add_sub_add_right, List.append_assoc]

/-- The digits that are shown for a row are those of its number in binary. -/
theorem shownBits_eq_paddedBinary {width state : Nat} (hwidth : 0 < width)
    (hstate : state < 2 ^ width) : shownBits width state = paddedBinary width state := by
  induction width generalizing state with
  | zero => exact absurd hwidth (Nat.lt_irrefl 0)
  | succ width ih =>
    rw [shownBits_succ]
    by_cases h : width = 0
    · subst h
      have hsmall : state = 0 ∨ state = 1 := by omega
      rcases hsmall with rfl | rfl <;> rfl
    · have hpos : 0 < width := Nat.pos_of_ne_zero h
      have hhalf : state / 2 < 2 ^ width := by
        rw [Nat.pow_succ] at hstate
        omega
      rw [ih hpos hhalf, paddedBinary_succ hpos]

/-! ### One row -/

/-- The assignment of a row from its number in binary. -/
theorem stateAssignment_eq_zip {letters : List Letter} {state : Nat}
    (hstate : state < 2 ^ letters.length) :
    stateAssignment letters state =
      .ofList (List.zipWith (fun l digit => (l.name, some (digit == '0'))) letters
        (paddedBinary letters.length state)) := by
  cases letters with
  | nil => rfl
  | cons first rest =>
    have hpos : 0 < (first :: rest).length := Nat.succ_pos _
    have hzero : ∀ bit : Bool, ((if bit then '1' else '0') == '0') = !bit := by decide
    rw [← shownBits_eq_paddedBinary hpos hstate, shownBits, List.zipWith_map_right]
    simp only [hzero]
    rfl

/-- A row binds every letter, in the order of the letters, and true stands for the digit 0. -/
theorem toList_stateAssignment {letters : List Letter} (h : letters.Nodup) (state : Nat) :
    (stateAssignment letters state).toList =
      letters.mapIdx fun i l => (l.name, some !state.testBit (letters.length - 1 - i)) := by
  have hpairs : (List.zipWith (fun l bit => (l.name, some !bit)) letters
      (stateBits letters.length state)) =
      letters.mapIdx fun i l => (l.name, some !state.testBit (letters.length - 1 - i)) := by
    apply List.ext_getElem
    · simp
    · intro i _ _
      simp [stateBits]
  have hkeys : ((letters.mapIdx fun i l =>
      (l.name, some !state.testBit (letters.length - 1 - i))).map Prod.fst).Nodup := by
    have hnames : (letters.mapIdx fun i l =>
        (l.name, some !state.testBit (letters.length - 1 - i))).map Prod.fst =
        letters.map Letter.name := by
      apply List.ext_getElem
      · simp
      · intro i _ _
        simp
    rw [hnames]
    exact Letter.nodup_names h
  rw [stateAssignment, hpairs]
  exact Bindings.toList_ofList hkeys

/-- What a row says of the letter at a place. -/
theorem lookup_rowOfState {letters : List Letter} (h : letters.Nodup) (formulas : List Sentence)
    (state : Nat) {i : Nat} (hi : i < letters.length) :
    (rowOfState letters formulas state).lookup letters[i] =
      .ok (some !state.testBit (letters.length - 1 - i)) := by
  have hmem : (letters[i].name, some !state.testBit (letters.length - 1 - i)) ∈
      (stateAssignment letters state).toList := by
    rw [toList_stateAssignment h]
    exact List.mem_iff_getElem.mpr ⟨i, by simpa using hi, by simp⟩
  have hget := Bindings.get?_of_mem hmem
  simp [rowOfState, Row.lookup, hget]

/-- A row agrees with an assignment if its digits are the opposite of the values. -/
theorem lookup_rowOfState_iff {letters : List Letter} (h : letters.Nodup)
    (formulas : List Sentence) (state : Nat) (v : Letter → Bool) :
    (∀ l ∈ letters, (rowOfState letters formulas state).lookup l = .ok (some (v l))) ↔
      ∀ i (hi : i < letters.length),
        state.testBit (letters.length - 1 - i) = !v letters[i] := by
  constructor
  · intro hrow i hi
    have hl := hrow letters[i] (List.getElem_mem hi)
    rw [lookup_rowOfState h formulas state hi] at hl
    have hv : (!state.testBit (letters.length - 1 - i)) = v letters[i] :=
      Option.some.inj (Except.ok.inj hl)
    rw [← hv, Bool.not_not]
  · intro hbits l hl
    obtain ⟨i, hi, rfl⟩ := List.mem_iff_getElem.mp hl
    rw [lookup_rowOfState h formulas state hi, hbits i hi, Bool.not_not]

/-! ### The rows and the assignments -/

/-- The number of the row for an assignment: its digits are the opposite of the values. -/
def stateOf (letters : List Letter) (v : Letter → Bool) : Nat :=
  Nat.ofBits fun i : Fin letters.length => !v (letters.get i.rev)

theorem stateOf_lt (letters : List Letter) (v : Letter → Bool) :
    stateOf letters v < 2 ^ letters.length :=
  Nat.ofBits_lt_two_pow _

theorem testBit_stateOf {letters : List Letter} (v : Letter → Bool) {i : Nat}
    (hi : i < letters.length) :
    (stateOf letters v).testBit (letters.length - 1 - i) = !v letters[i] := by
  have hlt : letters.length - 1 - i < letters.length := by omega
  have hrev : letters.get (Fin.rev ⟨letters.length - 1 - i, hlt⟩) = letters[i] := by
    have hval : letters.length - (letters.length - 1 - i + 1) = i := by omega
    simp [hval]
  rw [stateOf, Nat.testBit_ofBits_lt _ _ hlt, hrev]

/-- Each assignment to the letters is that of one number below 2ⁿ. -/
theorem existsUnique_state {letters : List Letter} (h : letters.Nodup)
    (formulas : List Sentence) (v : Letter → Bool) :
    ∃! state, state < 2 ^ letters.length ∧
      ∀ l ∈ letters, (rowOfState letters formulas state).lookup l = .ok (some (v l)) := by
  refine ⟨stateOf letters v, ⟨stateOf_lt letters v, ?_⟩, ?_⟩
  · exact (lookup_rowOfState_iff h formulas _ v).mpr fun i hi => testBit_stateOf v hi
  · intro state hstate
    obtain ⟨hlt, hrow⟩ := hstate
    have hbits := (lookup_rowOfState_iff h formulas state v).mp hrow
    -- above the digits of the letters, both numbers have only zeros
    apply Nat.eq_of_testBit_eq
    intro j
    by_cases hj : j < letters.length
    · have hplace : letters.length - 1 - (letters.length - 1 - j) = j := by omega
      have hi : letters.length - 1 - j < letters.length := by omega
      have hleft := hbits _ hi
      have hright := testBit_stateOf v hi
      rw [hplace] at hleft hright
      rw [hleft, hright]
    · have hpow : 2 ^ letters.length ≤ 2 ^ j := Nat.pow_le_pow_right (by decide) (by omega)
      rw [Nat.testBit_lt_two_pow (Nat.lt_of_lt_of_le hlt hpow),
        Nat.testBit_lt_two_pow (Nat.lt_of_lt_of_le (stateOf_lt letters v) hpow)]

/-- The first row is all true. -/
theorem lookup_rowOfState_zero {letters : List Letter} (h : letters.Nodup)
    (formulas : List Sentence) {l : Letter} (hl : l ∈ letters) :
    (rowOfState letters formulas 0).lookup l = .ok (some true) := by
  have hbits : ∀ i, i < letters.length → Nat.testBit 0 (letters.length - 1 - i) = !true := by
    intro i _
    rw [Nat.zero_testBit, Bool.not_true]
  exact (lookup_rowOfState_iff h formulas 0 fun _ => true).mpr hbits l hl

/-- The last row is all false. -/
theorem lookup_rowOfState_last {letters : List Letter} (h : letters.Nodup)
    (formulas : List Sentence) {l : Letter} (hl : l ∈ letters) :
    (rowOfState letters formulas (2 ^ letters.length - 1)).lookup l = .ok (some false) := by
  have hbits : ∀ i, i < letters.length →
      (2 ^ letters.length - 1).testBit (letters.length - 1 - i) = !false := by
    intro i hi
    rw [Nat.testBit_two_pow_sub_one, Bool.not_false, decide_eq_true_eq]
    omega
  exact (lookup_rowOfState_iff h formulas _ fun _ => false).mpr hbits l hl

/-! ### The whole table -/

/-- The rows of a table are the assignments to the letters of a batch, in order. -/
structure Enumerates (formulas : List Sentence) (t : Table) : Prop where
  formulas_eq : t.formulas = formulas
  mem_letters : ∀ l, l ∈ t.letters ↔ ∃ f ∈ formulas, l ∈ f.occurrences
  letters_nodup : t.letters.Nodup
  /-- No two letters share a key. -/
  names_nodup : (t.letters.map Letter.name).Nodup
  length_rows : t.rows.length = 2 ^ t.letters.length
  /-- A row has a key for each letter, with the value true where the digit is 0. -/
  assignment_eq : ∀ k : Fin t.rows.length, (t.rows.get k).assignment.toList =
    t.letters.mapIdx fun i l => (l.name, some !k.val.testBit (t.letters.length - 1 - i))
  /-- An assignment to the letters occurs in one row, and in no other. -/
  unique_row : ∀ v : Letter → Bool, ∃! k : Fin t.rows.length,
    ∀ l ∈ t.letters, (t.rows.get k).lookup l = .ok (some (v l))
  first_row : ∃ r, t.rows.head? = some r ∧ ∀ l ∈ t.letters, r.lookup l = .ok (some true)
  last_row : ∃ r, t.rows.getLast? = some r ∧ ∀ l ∈ t.letters, r.lookup l = .ok (some false)

theorem getElem?_rows_ofBatch {formulas : List Sentence} {k : Nat}
    (hk : k < 2 ^ (Sentence.batchLetters formulas).length) :
    (ofBatch formulas).rows[k]? =
      some (rowOfState (Sentence.batchLetters formulas) formulas k) := by
  have hk : k < Nat.pow 2 (Sentence.batchLetters formulas).length := hk
  simp only [ofBatch, List.getElem?_map, List.getElem?_range hk, Option.map_some]

theorem get_rows_ofBatch (formulas : List Sentence) (k : Fin (ofBatch formulas).rows.length) :
    (ofBatch formulas).rows.get k =
      rowOfState (Sentence.batchLetters formulas) formulas k.val := by
  have hk := getElem?_rows_ofBatch (Nat.lt_of_lt_of_eq k.isLt (length_rows_ofBatch formulas))
  rw [List.getElem?_eq_getElem k.isLt] at hk
  exact Option.some.inj hk

/-- **A table has each assignment once.** Whatever the batch, its table is generated. It has 2ⁿ rows
for n letters, each with a key of its own for every letter, and the digits of a row's number are the
values in it; so each assignment to the letters is that of exactly one row. -/
theorem generate_enumerates (formulas : List Sentence) :
    ∃ t, generate formulas = .ok t ∧ Enumerates formulas t := by
  refine ⟨ofBatch formulas, generate_eq_ofBatch formulas, ?_⟩
  have hnodup := Sentence.nodup_batchLetters formulas
  have hlength : (ofBatch formulas).rows.length =
      2 ^ (Sentence.batchLetters formulas).length := length_rows_ofBatch formulas
  constructor
  case formulas_eq => rfl
  case mem_letters => exact fun l => Sentence.mem_batchLetters
  case letters_nodup => exact hnodup
  case names_nodup => exact Letter.nodup_names hnodup
  case length_rows => exact hlength
  case assignment_eq =>
    intro k
    rw [get_rows_ofBatch]
    exact toList_stateAssignment hnodup k.val
  case unique_row =>
    intro v
    obtain ⟨state, ⟨hlt, hrow⟩, huniq⟩ := existsUnique_state hnodup formulas v
    have hlt : state < (ofBatch formulas).rows.length := by rw [hlength]; exact hlt
    refine ⟨⟨state, hlt⟩, ?_, ?_⟩
    · show ∀ l ∈ _, _
      rw [get_rows_ofBatch]
      exact hrow
    · intro k hk
      rw [get_rows_ofBatch] at hk
      exact Fin.ext (huniq k.val ⟨hlength ▸ k.isLt, hk⟩)
  case first_row =>
    refine ⟨rowOfState (Sentence.batchLetters formulas) formulas 0, ?_, fun l hl =>
      lookup_rowOfState_zero hnodup formulas hl⟩
    rw [List.head?_eq_getElem?]
    exact getElem?_rows_ofBatch (Nat.two_pow_pos _)
  case last_row =>
    refine ⟨rowOfState (Sentence.batchLetters formulas) formulas
      (2 ^ (Sentence.batchLetters formulas).length - 1), ?_, fun l hl =>
      lookup_rowOfState_last hnodup formulas hl⟩
    rw [List.getLast?_eq_getElem?, hlength]
    exact getElem?_rows_ofBatch (Nat.sub_lt (Nat.two_pow_pos _) Nat.one_pos)

end Table

end Propositional
