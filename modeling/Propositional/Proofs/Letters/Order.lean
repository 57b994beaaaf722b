import Propositional.Sentence

/-! The order of letters.

Letters are in a total order, by character and then by number (`Letter.le_iff`), so a collection has
one sorted list (`Letters.pairwise_sorted`, `Letter.eq_of_pairwise`). The letters of a batch are
such a list, and are known by their members (`Sentence.batchLetters_congr`): those of one formula
are the letters of the batch that occur in it, in the same order
(`Sentence.batchLetters_singleton`). -/
namespace Propositional

namespace Letter

theorem le_iff {a b : Letter} :
    a ≤ b ↔ a.id.toNat < b.id.toNat ∨ a.id.toNat = b.id.toNat ∧ a.index ≤ b.index :=
  or_congr Iff.rfl (and_congr Char.toNat_inj.symm Iff.rfl)

theorem le_trans {a b c : Letter} (hab : a ≤ b) (hbc : b ≤ c) : a ≤ c := by
  rw [le_iff] at *
  omega

theorem le_total (a b : Letter) : a ≤ b ∨ b ≤ a := by
  rw [le_iff, le_iff]
  omega

theorem le_antisymm {a b : Letter} (hab : a ≤ b) (hba : b ≤ a) : a = b := by
  rw [le_iff] at *
  exact ext_parts (Char.toNat_inj.mp (by omega)) (by omega)

theorem lt_of_le_of_ne {a b : Letter} (hle : a ≤ b) (hne : a ≠ b) : a < b := by
  rcases hle with hid | ⟨hid, hindex⟩
  · exact .inl hid
  · exact .inr ⟨hid, Nat.lt_of_le_of_ne hindex fun he => hne (ext_parts hid he)⟩

/-- Sorted lists of the same letters are equal. -/
theorem eq_of_pairwise {xs ys : List Letter} (hxs : xs.Pairwise (· ≤ ·)) (hys : ys.Pairwise (· ≤ ·))
    (hx : xs.Nodup) (hy : ys.Nodup) (h : ∀ l, l ∈ xs ↔ l ∈ ys) : xs = ys :=
  List.Perm.eq_of_pairwise (fun _ _ _ _ => le_antisymm) hxs hys
    ((List.perm_ext_iff_of_nodup hx hy).mpr h)

end Letter

theorem Letters.pairwise_sorted (ls : Letters) : ls.sorted.Pairwise (· ≤ ·) := by
  have h : ls.sorted.Pairwise fun a b => decide (a ≤ b) = true := by
    refine List.pairwise_mergeSort (fun a b c hab hbc => ?_) (fun a b => ?_) ls.toList
    · exact decide_eq_true (Letter.le_trans (of_decide_eq_true hab) (of_decide_eq_true hbc))
    · rw [Bool.or_eq_true, decide_eq_true_eq, decide_eq_true_eq]
      exact Letter.le_total a b
  exact h.imp fun hab => of_decide_eq_true hab

theorem Letters.perm_sorted (ls : Letters) : ls.sorted.Perm ls.toList :=
  List.mergeSort_perm _ _

theorem Letters.nodup_sorted (ls : Letters) : ls.sorted.Nodup :=
  ls.perm_sorted.nodup_iff.mpr ls.nodup

theorem Letters.ascending_sorted (ls : Letters) : ls.sorted.Pairwise (· < ·) :=
  (ls.pairwise_sorted.and ls.nodup_sorted).imp fun ⟨hle, hne⟩ => Letter.lt_of_le_of_ne hle hne

namespace Sentence

theorem pairwise_batchLetters (batch : List Sentence) : (batchLetters batch).Pairwise (· ≤ ·) :=
  Letters.pairwise_sorted _

theorem nodup_batchLetters (batch : List Sentence) : (batchLetters batch).Nodup :=
  Letters.nodup_sorted _

theorem ascending_batchLetters (batch : List Sentence) : (batchLetters batch).Pairwise (· < ·) :=
  Letters.ascending_sorted _

/-- Batches in which the same letters occur have the same list of letters. -/
theorem batchLetters_congr {batch batch' : List Sentence}
    (h : ∀ l, (∃ f ∈ batch, l ∈ f.occurrences) ↔ ∃ f ∈ batch', l ∈ f.occurrences) :
    batchLetters batch = batchLetters batch' :=
  Letter.eq_of_pairwise (pairwise_batchLetters batch) (pairwise_batchLetters batch')
    (nodup_batchLetters batch) (nodup_batchLetters batch')
    fun l => by rw [mem_batchLetters, mem_batchLetters, h]

/-- The letters of one formula of a batch are letters of the batch, in the same order. -/
theorem batchLetters_singleton {batch : List Sentence} {f : Sentence} (hf : f ∈ batch) :
    batchLetters [f] = (batchLetters batch).filter f.letters.contains := by
  refine Letter.eq_of_pairwise (pairwise_batchLetters [f]) ((pairwise_batchLetters batch).filter _)
    (nodup_batchLetters [f]) ((nodup_batchLetters batch).filter _) fun l => ?_
  rw [List.mem_filter, Letters.contains_iff, mem_letters, mem_batchLetters, mem_batchLetters]
  constructor
  · rintro ⟨g, hg, hl⟩
    obtain rfl := List.mem_singleton.mp hg
    exact ⟨⟨g, hf, hl⟩, hl⟩
  · rintro ⟨-, hl⟩
    exact ⟨f, List.mem_singleton_self f, hl⟩

end Sentence

end Propositional
