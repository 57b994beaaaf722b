import Mathlib.Data.List.Induction
import Propositional.Proofs.Bindings.Lookup
import Propositional.Proofs.Layout.QuasiColumns

/-! The points of a layout grouped by their sentences.

Points of equal sentences are put together, whatever stands around them. The positions of a sentence
are those of its points, from left to right (`get?_sentencePositions`); so there are as many as the
sentence has places in the tree, and the groups cut the row of points up. A group has one value,
since a point is evaluated from its sentence alone. `layout_groups` puts the facts together. -/
namespace Propositional

/-- Values that are collected under keys, each at the end of what its key has so far. -/
theorem Bindings.get?_collect {γ κ α : Type} [DecidableEq κ] (key : γ → κ) (value : γ → α)
    (entries : List γ) (k : κ) :
    (entries.foldl (fun (found : Bindings κ (List α)) e =>
        found.insert (key e) ((found.get? (key e)).getD [] ++ [value e])) .empty).get? k =
      if k ∈ entries.map key then some ((entries.filter fun e => key e = k).map value)
      else none := by
  induction entries using List.reverseRecOn generalizing k with
  | nil => rfl
  | append_singleton entries e ih =>
    rw [List.foldl_append, List.foldl_cons, List.foldl_nil, get?_insert, ih, ih, List.filter_append,
      List.map_append, List.map_append]
    by_cases hk : k = key e
    · subst hk
      by_cases hmem : key e ∈ entries.map key
      · simp [hmem]
      · have hnone : entries.filter (fun e' => key e' = key e) = [] :=
          List.filter_eq_nil_iff.mpr fun e' he' hsame =>
            hmem (of_decide_eq_true hsame ▸ List.mem_map_of_mem he')
        simp [hmem, hnone]
    · simp [hk, Ne.symm hk]

namespace Layout

variable {l : Layout} {u v : Sentence} {ps : List Nat}

/-- The positions where points of a sentence stand. -/
def placesOf (l : Layout) (u : Sentence) : List Nat :=
  (l.points.filter fun p => p.2.sentence = u).map Prod.fst

theorem mem_placesOf {i : Nat} :
    i ∈ l.placesOf u ↔ ∃ p, (i, p) ∈ l.points ∧ p.sentence = u := by
  simp only [placesOf, List.mem_map, List.mem_filter, decide_eq_true_eq]
  constructor
  · rintro ⟨⟨j, p⟩, ⟨hp, hsentence⟩, rfl⟩
    exact ⟨p, hp, hsentence⟩
  · rintro ⟨p, hp, hsentence⟩
    exact ⟨(i, p), ⟨hp, hsentence⟩, rfl⟩

theorem pairwise_placesOf (l : Layout) (u : Sentence) : (l.placesOf u).Pairwise (· < ·) := by
  have hall : (l.points.map Prod.fst).Pairwise (· < ·) := pairwise_pointsFrom 0 l.pieces
  exact hall.sublist (List.filter_sublist.map _)

theorem length_placesOf (l : Layout) (u : Sentence) :
    (l.placesOf u).length = (l.points.map fun p => p.2.sentence).count u := by
  rw [placesOf, List.length_map, List.count, List.countP_map, List.countP_eq_length_filter]
  rfl

theorem get?_sentencePositions (l : Layout) (u : Sentence) :
    l.sentencePositions.get? u =
      if u ∈ l.points.map (fun p => p.2.sentence) then some (l.placesOf u) else none :=
  Bindings.get?_collect (fun p : Nat × Point => p.2.sentence) Prod.fst l.points u

theorem eq_placesOf (h : l.sentencePositions.get? u = some ps) : ps = l.placesOf u := by
  rw [get?_sentencePositions] at h
  split at h
  · exact (Option.some.inj h).symm
  · cases h

theorem get?_of_mem_points {i : Nat} {p : Point} (hp : (i, p) ∈ l.points) :
    l.sentencePositions.get? p.sentence = some (l.placesOf p.sentence) := by
  rw [get?_sentencePositions, if_pos (List.mem_map_of_mem (f := fun p => p.2.sentence) hp)]

theorem disjoint_placesOf (hne : u ≠ v) : (l.placesOf u).Disjoint (l.placesOf v) := by
  intro i hu hv
  obtain ⟨p, hp, rfl⟩ := mem_placesOf.mp hu
  obtain ⟨q, hq, rfl⟩ := mem_placesOf.mp hv
  exact hne (congrArg Point.sentence (point_unique hp hq))

/-- Every position of a point is in one group, and in none twice. -/
theorem perm_sentencePositions (l : Layout) :
    l.sentencePositions.values.flatten.Perm l.pointPositions := by
  have hgroup : ∀ {u ps}, (u, ps) ∈ l.sentencePositions.toList → ps = l.placesOf u :=
    fun h => eq_placesOf (Bindings.get?_of_mem h)
  have hnodup : l.sentencePositions.values.flatten.Nodup := by
    rw [List.nodup_flatten, Bindings.values, List.pairwise_map]
    constructor
    · intro ps hps
      obtain ⟨⟨u, ps⟩, hmem, rfl⟩ := List.mem_map.mp hps
      rw [hgroup hmem]
      exact (pairwise_placesOf l u).imp Nat.ne_of_lt
    · have hkeys := List.pairwise_map.mp l.sentencePositions.nodup
      refine hkeys.imp_of_mem fun {a b} ha hb hne => ?_
      rw [hgroup ha, hgroup hb]
      exact disjoint_placesOf hne
  refine (List.perm_ext_iff_of_nodup hnodup l.nodup_positions).mpr fun i => ?_
  rw [List.mem_flatten]
  constructor
  · rintro ⟨ps, hps, hi⟩
    obtain ⟨⟨u, ps⟩, hmem, rfl⟩ := List.mem_map.mp hps
    rw [hgroup hmem] at hi
    obtain ⟨p, hp, -⟩ := mem_placesOf.mp hi
    exact List.mem_map_of_mem (f := Prod.fst) hp
  · intro hi
    obtain ⟨⟨i, p⟩, hp, rfl⟩ := List.mem_map.mp hi
    have hmem := Bindings.get?_eq_some_iff.mp (get?_of_mem_points hp)
    exact ⟨_, List.mem_map_of_mem (f := Prod.snd) hmem, mem_placesOf.mpr ⟨p, hp, rfl⟩⟩

/-! ### Groups have one value -/

theorem valueAt_of_mem_placesOf {i : Nat} (w : Letter → Bool) (hi : i ∈ l.placesOf u) :
    valueAt (l.points.map (pointValue w)) i = some (u.truth w) := by
  obtain ⟨p, hp, rfl⟩ := mem_placesOf.mp hi
  exact valueAt_points w hp

/-- The positions of a layout are grouped by the sentences of their points. -/
structure GroupedBySentence (l : Layout) (groups : Bindings Sentence (List Nat)) : Prop where
  point_at : ∀ {u ps}, groups.get? u = some ps → ∀ i ∈ ps, ∃ p, (i, p) ∈ l.points ∧ p.sentence = u
  ascend : ∀ {u ps}, groups.get? u = some ps → ps.Pairwise (· < ·)
  /-- A group has a position for each place of its sentence in the tree. -/
  length_eq : ∀ {u ps}, groups.get? u = some ps → ps.length = l.sentence.inorder.count u
  none_iff : ∀ u, groups.get? u = none ↔ l.sentence.inorder.count u = 0
  disjoint : ∀ {u v ps qs}, groups.get? u = some ps → groups.get? v = some qs → u ≠ v →
    ps.Disjoint qs
  perm_positions : groups.values.flatten.Perm l.pointPositions
  /-- Where all letters have values, a group has one value, that of its sentence. -/
  one_value : ∀ a : Assignment, (∀ x ∈ l.sentence.letters.toList, a.truth? x ≠ none) →
    ∃ reported, (l.evaluate a).outcome = .ok reported ∧ ∀ {u ps}, groups.get? u = some ps →
      ∃ b, u.evaluate a = .ok b ∧ ∀ i ∈ ps, valueAt reported i = some b

end Layout

theorem Sentence.firstUnbound_of_covered {s : Sentence} {a : Assignment}
    (h : ∀ x ∈ s.letters.toList, a.truth? x ≠ none) : s.firstUnbound a = none := by
  refine List.find?_eq_none.mpr fun x hx hnone => ?_
  exact h x (mem_letters.mpr hx) (Option.isNone_iff_eq_none.mp hnone)

/-- **The positions of equal parts of a sentence belong together.** A layout has a group for every
part of its sentence, with the positions of all its places in ascending order; no position is in two
groups, and each is in one. Under an assignment to the letters of the sentence a group has one
value. -/
theorem Sentence.layout_groups (s : Sentence) :
    s.layout.GroupedBySentence s.layout.sentencePositions := by
  have h := s.placed_layout
  constructor
  case point_at =>
    intro u ps hps i hi
    rw [Layout.eq_placesOf hps] at hi
    exact Layout.mem_placesOf.mp hi
  case ascend =>
    intro u ps hps
    rw [Layout.eq_placesOf hps]
    exact Layout.pairwise_placesOf s.layout u
  case length_eq =>
    intro u ps hps
    rw [Layout.eq_placesOf hps, Layout.length_placesOf, h.sentences_eq]
    rfl
  case none_iff =>
    intro u
    rw [Layout.get?_sentencePositions, h.sentences_eq, ite_eq_right_iff]
    exact (imp_congr_right fun _ => iff_of_false nofun id).trans List.count_eq_zero.symm
  case disjoint =>
    intro u v ps qs hps hqs hne
    rw [Layout.eq_placesOf hps, Layout.eq_placesOf hqs]
    exact Layout.disjoint_placesOf hne
  case perm_positions => exact s.layout.perm_sentencePositions
  case one_value =>
    intro a ha
    have hbound := firstUnbound_of_covered (s := s) ha
    refine ⟨s.layout.points.map (Layout.pointValue a.valuation), ?_, fun {u ps} hps => ?_⟩
    · rw [Layout.outcome_evaluate, h.mapM_of_bound hbound]
    · rw [Layout.eq_placesOf hps]
      refine ⟨u.truth a.valuation, ?_, fun i => Layout.valueAt_of_mem_placesOf a.valuation⟩
      have hmem : u ∈ s.layout.points.map fun p => p.2.sentence := by
        by_contra hnone
        rw [Layout.get?_sentencePositions, if_neg hnone] at hps
        cases hps
      obtain ⟨p, hp, rfl⟩ := List.mem_map.mp hmem
      exact evaluate_of_bound (h.firstUnbound_of_bound hbound p hp)

/-- In `(P&~Q)∨~Q` the negation stands at two depths. -/
example : (Sentence.binary .disjunction (.binary .conjunction Table.letterP (.negation
    Table.letterQ)) (.negation Table.letterQ)).layout.sentencePositions.get?
      (.negation Table.letterQ) = some [3, 7] := by decide

end Propositional
