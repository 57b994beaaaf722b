import Propositional.Text

/-! Finite maps that remember the order in which their keys were first bound. Binding a key
again replaces its value and keeps its place; a key that was removed and bound anew goes last. -/
namespace Propositional

/-- Keys with their values, the earliest bound first. -/
structure Bindings (κ α : Type) where
  toList : List (κ × α)
  nodup : (toList.map Prod.fst).Nodup

namespace Bindings

variable {κ α : Type} [DecidableEq κ]

/-- Binds a key in a list of pairs. -/
def bindIn (k : κ) (v : α) : List (κ × α) → List (κ × α)
  | [] => [(k, v)]
  | (k', v') :: rest => if k' = k then (k, v) :: rest else (k', v') :: bindIn k v rest

theorem map_fst_bindIn (k : κ) (v : α) (l : List (κ × α)) :
    (bindIn k v l).map Prod.fst =
      if k ∈ l.map Prod.fst then l.map Prod.fst else l.map Prod.fst ++ [k] := by
  induction l with
  | nil => simp [bindIn]
  | cons p rest ih =>
    obtain ⟨k', v'⟩ := p
    by_cases h : k' = k
    · simp [bindIn, h]
    · simp only [bindIn, h, if_false, List.map_cons, ih, List.mem_cons, Ne.symm h, false_or]
      split <;> simp

def empty : Bindings κ α := ⟨[], by simp⟩

def insert (b : Bindings κ α) (k : κ) (v : α) : Bindings κ α where
  toList := bindIn k v b.toList
  nodup := by
    rw [map_fst_bindIn]
    split
    · exact b.nodup
    · rename_i h
      refine List.nodup_append.mpr ⟨b.nodup, by simp, fun x hx y hy => ?_⟩
      rw [List.mem_singleton.mp hy]
      exact fun he => h (he ▸ hx)

def erase (b : Bindings κ α) (k : κ) : Bindings κ α where
  toList := b.toList.filter fun p => p.1 != k
  nodup := List.Pairwise.sublist (List.Sublist.map _ List.filter_sublist) b.nodup

def get? (b : Bindings κ α) (k : κ) : Option α := (b.toList.find? fun p => p.1 == k).map Prod.snd

def contains (b : Bindings κ α) (k : κ) : Bool := b.toList.any fun p => p.1 == k

def size (b : Bindings κ α) : Nat := b.toList.length

def keys (b : Bindings κ α) : List κ := b.toList.map Prod.fst

def values (b : Bindings κ α) : List α := b.toList.map Prod.snd

/-- Binds the pairs one after the other, so the last value of a repeated key stands. -/
def ofList (pairs : List (κ × α)) : Bindings κ α :=
  pairs.foldl (fun b p => b.insert p.1 p.2) empty

/-- The same keys with the same values, in whatever order. -/
def sameAs [DecidableEq α] (a b : Bindings κ α) : Bool :=
  a.size == b.size && a.toList.all fun p => b.get? p.1 == some p.2

/-! ### Looking a key up -/

@[simp] theorem get?_empty (k : κ) : (empty : Bindings κ α).get? k = none := rfl

theorem find?_bindIn (k j : κ) (v : α) (l : List (κ × α)) :
    ((bindIn k v l).find? fun p => p.1 == j).map Prod.snd =
      if j = k then some v else (l.find? fun p => p.1 == j).map Prod.snd := by
  induction l with
  | nil =>
    by_cases h : j = k
    · simp [bindIn, h]
    · simp [bindIn, h, Ne.symm h]
  | cons p rest ih =>
    obtain ⟨k', v'⟩ := p
    by_cases hk : k' = k
    · by_cases hj : j = k
      · simp [bindIn, hk, hj]
      · simp [bindIn, hk, hj, Ne.symm hj]
    · by_cases hj : k' = j
      · have : ¬j = k := fun e => hk (hj.trans e)
        simp [bindIn, hj, this]
      · simp [bindIn, hk, hj, ih]

@[simp] theorem get?_insert (b : Bindings κ α) (k j : κ) (v : α) :
    (b.insert k v).get? j = if j = k then some v else b.get? j :=
  find?_bindIn k j v b.toList

theorem find?_filter_ne (k j : κ) (l : List (κ × α)) :
    ((l.filter fun p => p.1 != k).find? fun p => p.1 == j).map Prod.snd =
      if j = k then none else (l.find? fun p => p.1 == j).map Prod.snd := by
  induction l with
  | nil => simp
  | cons p rest ih =>
    obtain ⟨k', v'⟩ := p
    by_cases hk : k' = k
    · by_cases hj : j = k
      · simp [hj]
      · simpa [hk, hj, Ne.symm hj] using ih
    · by_cases hj : k' = j
      · have : ¬j = k := fun e => hk (hj.trans e)
        simp [hj, this]
      · simpa [hk, hj] using ih

@[simp] theorem get?_erase (b : Bindings κ α) (k j : κ) :
    (b.erase k).get? j = if j = k then none else b.get? j :=
  find?_filter_ne k j b.toList

/-- Binding other keys does not touch a key. -/
theorem get?_foldl_insert {k : κ} {pairs : List (κ × α)} (h : k ∉ pairs.map Prod.fst)
    (b : Bindings κ α) :
    (pairs.foldl (fun b p => b.insert p.1 p.2) b).get? k = b.get? k := by
  induction pairs generalizing b with
  | nil => rfl
  | cons p rest ih =>
    simp only [List.map_cons, List.mem_cons, not_or] at h
    rw [List.foldl_cons, ih h.2, get?_insert, if_neg h.1]

/-- A key of the pairs is bound to the value of one of them. -/
theorem get?_ofList {k : κ} {pairs : List (κ × α)} (h : k ∈ pairs.map Prod.fst) :
    ∃ v, (k, v) ∈ pairs ∧ (ofList pairs).get? k = some v := by
  suffices ∀ b : Bindings κ α, ∃ v, (k, v) ∈ pairs ∧
      (pairs.foldl (fun b p => b.insert p.1 p.2) b).get? k = some v from this empty
  induction pairs with
  | nil => simp at h
  | cons p rest ih =>
    intro b
    by_cases hk : k ∈ rest.map Prod.fst
    · obtain ⟨v, hv, hget⟩ := ih hk (b.insert p.1 p.2)
      exact ⟨v, List.mem_cons_of_mem _ hv, hget⟩
    · obtain rfl : k = p.1 := by simpa [hk] using h
      exact ⟨p.2, List.mem_cons_self, by rw [List.foldl_cons, get?_foldl_insert hk]; simp⟩

theorem contains_iff (b : Bindings κ α) (k : κ) :
    b.contains k = true ↔ (b.get? k).isSome = true := by
  simp only [contains, get?, Option.isSome_map, List.find?_isSome, List.any_eq_true]

end Bindings

end Propositional
