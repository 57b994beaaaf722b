import Propositional.Proofs.Table.Lines

/-! The two formats of a table.

The compact format lists the values of a row; the aligned format has them in columns, the value of a
formula under its main connective. Without spaces and separators a row is the same in both: first
the marks of the letters, then those of the formulas (`without_shownLine_row`,
`without_compactText`). `formats_agree` says so of all rows of a table. -/
namespace Propositional.Table

variable {t : Table} {formulas : List Sentence} {r : Row}

/-! ### Lines without their separators -/

/-- The spaces and bars of an aligned line. -/
def alignedSeparators : List Char := [' ', '|']

/-- The spaces and colons of a compact line. -/
def compactSeparators : List Char := [' ', ':']

theorem Aligned.without_eq {width : Column → Nat} {cell : Column → Text} {line : Text}
    (h : Aligned t width cell line) :
    Text.without alignedSeparators line =
      (t.lineOf cell).flatMap fun group => group.flatMap (Text.without alignedSeparators) := by
  obtain ⟨field, n, hcentred, hjoined⟩ := h.joined
  have hspaces : Text.without alignedSeparators (line ++ Text.spaces n) =
      Text.without alignedSeparators line := by
    rw [Text.without_append, Text.without_spaces (by decide), List.append_nil]
  rw [← hspaces, hjoined, joinedFields, Text.without_joinWith (by decide), lineOf, List.flatMap_map,
    List.flatMap_map]
  refine List.flatMap_congr fun group hgroup => ?_
  rw [Text.without_joinWith (by decide), List.flatMap_map, List.flatMap_map]
  exact List.flatMap_congr fun c hc => (hcentred group hgroup c hc).without_eq (by decide)

theorem flatMap_withLetters (t : Table) (letter : Letter → Text) (groups : List (List Text))
    (text : Text → Text) :
    (t.withLetters (t.letters.map letter) groups).flatMap (List.flatMap text) =
      (t.letters.map letter).flatMap text ++ groups.flatMap (List.flatMap text) := by
  rw [withLetters]
  split
  next hnone =>
    rw [List.isEmpty_iff.mp hnone]
    rfl
  next => exact List.flatMap_cons

/-! ### The marks of a row -/

theorem without_mark (b : Bool) :
    Text.without alignedSeparators (mark b) = mark b ∧
      Text.without compactSeparators (mark b) = mark b := by
  cases b <;> decide

theorem flatMap_without_marks {dropped : List Char}
    (h : ∀ b, Text.without dropped (mark b) = mark b) {α : Type} (value : α → Bool) (l : List α) :
    (l.map fun a => mark (value a)).flatMap (Text.without dropped) =
      (l.map fun a => mark (value a)).flatten := by
  rw [List.flatMap_map, List.flatMap_def]
  simp only [h]

theorem flatMap_ite_of_nodup {l : List Nat} (hl : l.Nodup) {m : Nat} (hm : m ∈ l) (text : Text) :
    (l.flatMap fun i => if i = m then text else []) = text := by
  obtain ⟨before, after, rfl⟩ := List.append_of_mem hm
  have hne : ∀ i ∈ before ++ after, i ≠ m := by
    rintro i hi rfl
    exact (List.nodup_cons.mp (List.nodup_middle.mp hl)).1 hi
  have hnil {part : List Nat} (h : part ⊆ before ++ after) :
      (part.flatMap fun i => if i = m then text else []) = [] :=
    List.flatMap_eq_nil_iff.mpr fun i hi => if_neg (hne i (h hi))
  rw [List.flatMap_append, List.flatMap_cons, hnil (List.subset_append_left _ _),
    hnil (List.subset_append_right _ _), if_pos rfl, List.append_nil, List.nil_append]

/-- Where only main points show their values, something stands at the main position alone. -/
theorem pieceCell_false {f : Sentence} {i : Nat} (hi : i < f.layout.pieces.length)
    (v : Letter → Bool) :
    pieceCell false (f.layout.points.map (Layout.pointValue v)) i =
      if i = f.mainPosition then mark (f.truth v) else [] := by
  by_cases hmain : i = f.mainPosition
  · obtain ⟨p, hp, hisMain, hsentence⟩ := f.exists_main
    rw [if_pos hmain, hmain, pieceCell_point hp, hisMain, hsentence]
    rfl
  · rw [if_neg hmain]
    have hget := List.getElem?_eq_getElem hi
    cases hpiece : f.layout.pieces[i] with
    | literal text => exact pieceCell_literal (hget.trans (congrArg some hpiece)) false v
    | point p =>
      have hp : (i, p) ∈ f.layout.points :=
        Layout.mem_points.mpr (hget.trans (congrArg some hpiece))
      have hother : p.isMain = false := Bool.eq_false_iff.mpr fun h =>
        hmain (Sentence.eq_of_isMain hp h).1
      rw [pieceCell_point hp, hother]
      rfl

/-- The cells of a formula come to its mark. -/
theorem without_formulaCells (v : Letter → Bool) (f : Sentence) :
    (formulaCells false v f).flatMap (Text.without alignedSeparators) = mark (f.truth v) := by
  obtain ⟨p, hp, -⟩ := f.exists_main
  have hlt : f.mainPosition < f.layout.pieces.length :=
    (List.getElem?_eq_some_iff.mp (Layout.mem_points.mp hp)).1
  have hcell : ∀ i ∈ List.range f.layout.pieces.length,
      Text.without alignedSeparators
          (pieceCell false (f.layout.points.map (Layout.pointValue v)) i) =
        if i = f.mainPosition then mark (f.truth v) else [] := by
    intro i hi
    rw [pieceCell_false (List.mem_range.mp hi)]
    split
    · exact (without_mark _).1
    · rfl
  rw [formulaCells, List.flatMap_map, List.flatMap_congr hcell]
  exact flatMap_ite_of_nodup List.nodup_range (List.mem_range.mpr hlt) _

/-- An aligned row has the marks of the letters and of the formulas. -/
theorem without_shownLine_row (hr : r ∈ (ofBatch formulas).rows) :
    Text.without alignedSeparators
        ((ofBatch formulas).shownLine false ((ofBatch formulas).rowCell false r)) =
      (letterMarks formulas r).flatten ++ (r.values.map mark).flatten := by
  have hletters := flatMap_without_marks (fun b => (without_mark b).1) (valuation r.assignment)
    (ofBatch formulas).letters
  have hformulas : (formulas.map (formulaCells false (valuation r.assignment))).flatMap
      (List.flatMap (Text.without alignedSeparators)) = (r.values.map mark).flatten := by
    rw [values_of_mem_rows hr, List.flatMap_map, List.map_map, List.flatMap_def]
    simp only [without_formulaCells]
    rfl
  rw [(aligned_row hr).without_eq, rowCell, lineOf_cellsOf, flatMap_withLetters, hletters]
  exact congrArg (_ ++ ·) hformulas

/-- So has a compact one. -/
theorem without_compactText (formulas : List Sentence) (r : Row) :
    Text.without compactSeparators (compactText formulas r) =
      (letterMarks formulas r).flatten ++ (r.values.map mark).flatten := by
  have hkept (b : Bool) := (without_mark b).2
  have hvalues : Text.without compactSeparators (Text.joinWith [' '] (r.values.map mark)) =
      (r.values.map mark).flatten := by
    rw [Text.without_joinWith (by decide)]
    exact flatMap_without_marks hkept id r.values
  have hletters : Text.without compactSeparators (Text.joinWith [' '] (letterMarks formulas r)) =
      (letterMarks formulas r).flatten := by
    rw [Text.without_joinWith (by decide)]
    exact flatMap_without_marks hkept (valuation r.assignment) _
  rw [compactText]
  split
  next hnone =>
    rw [hvalues, List.isEmpty_iff.mp hnone]
    rfl
  next =>
    have hcolon : Text.without compactSeparators [' ', ':', ' '] = [] := by decide
    rw [Text.without_append, Text.without_append, hletters, hvalues, hcolon, List.append_nil]

/-- **The two formats of a table agree.** Whatever the batch, row by row, the line of the aligned
format with main values only and that of the compact format are the same once the spaces and the
separators are left out. -/
theorem formats_agree (formulas : List Sentence) :
    ∃ t shown compact, generate formulas = .ok t ∧ t.display false t.layouts = .ok shown ∧
      t.compactLines = .ok compact ∧ compact.length = t.rows.length ∧
      ((shown.splitOn '\n').drop 2).map (Text.without alignedSeparators) =
        compact.map (Text.without compactSeparators) := by
  obtain ⟨shown, hshown, hlines⟩ := exists_display false formulas
  refine ⟨ofBatch formulas, shown, (ofBatch formulas).rows.map (compactText formulas),
    generate_eq_ofBatch formulas, hshown, ?_, List.length_map _, ?_⟩
  · exact mapM_eq_ok fun _ hr => compactLine_of_mem_rows hr
  · have hbody : (shown.splitOn '\n').drop 2 = (ofBatch formulas).rows.map fun r =>
        (ofBatch formulas).shownLine false ((ofBatch formulas).rowCell false r) := by
      rw [hlines]
      rfl
    rw [hbody, List.map_map, List.map_map]
    refine List.map_congr_left fun r hr => ?_
    exact (without_shownLine_row hr).trans (without_compactText formulas r).symm

end Propositional.Table
