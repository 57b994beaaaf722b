import Propositional.Bindings

/-! What is found in bindings.

A key is found with the value that it is listed with and with no other (`get?_eq_some_iff`), and
binding the pairs of a list of distinct keys gives that list (`toList_ofList`). So a map whose
values are worked out from those of another one is read through that one (`get?_ofList_map`), also
if it has other keys for the same entries (`get?_ofList_rename`). -/
namespace Propositional

namespace Bindings
variable {κ α : Type} [DecidableEq κ]

/-! ### Binding distinct keys -/

theorem bindIn_of_not_mem {k : κ} {v : α} {l : List (κ × α)} (h : k ∉ l.map Prod.fst) :
    bindIn k v l = l ++ [(k, v)] := by
  induction l with
  | nil => rfl
  | cons p rest ih =>
    obtain ⟨k', v'⟩ := p
    simp only [List.map_cons, List.mem_cons, not_or] at h
    rw [bindIn, if_neg (Ne.symm h.1), ih h.2]
    rfl

/-- Distinct keys are bound in the order they come in. -/
theorem toList_ofList {pairs : List (κ × α)} (h : (pairs.map Prod.fst).Nodup) :
    (ofList pairs).toList = pairs := by
  suffices ∀ b : Bindings κ α, (b.toList ++ pairs).map Prod.fst |>.Nodup →
      (pairs.foldl (fun b p => b.insert p.1 p.2) b).toList = b.toList ++ pairs from
    this empty h
  induction pairs with
  | nil => exact fun b _ => (List.append_nil _).symm
  | cons p rest ih =>
    intro b hb
    have hnew : p.1 ∉ b.toList.map Prod.fst := by
      rw [List.map_append, List.map_cons, List.nodup_append] at hb
      exact fun hp => hb.2.2 _ hp _ List.mem_cons_self rfl
    have hinsert : (b.insert p.1 p.2).toList = b.toList ++ [p] := bindIn_of_not_mem hnew
    have hrest : (rest.map Prod.fst).Nodup := by
      rw [List.map_cons, List.nodup_cons] at h
      exact h.2
    rw [List.foldl_cons, ih hrest _ (by rw [hinsert]; simpa using hb), hinsert]
    simp

/-- A key has the value that it is bound to. -/
theorem get?_of_mem {b : Bindings κ α} {k : κ} {v : α} (h : (k, v) ∈ b.toList) :
    b.get? k = some v := by
  suffices ∀ l : List (κ × α), (l.map Prod.fst).Nodup → (k, v) ∈ l →
      (l.find? fun p => p.1 == k).map Prod.snd = some v from this b.toList b.nodup h
  intro l hnodup hmem
  induction l with
  | nil => exact absurd hmem List.not_mem_nil
  | cons p rest ih =>
    rw [List.map_cons, List.nodup_cons] at hnodup
    rcases List.mem_cons.mp hmem with hp | hrest
    · subst hp
      simp
    · have hk : k ∈ rest.map Prod.fst := List.mem_map_of_mem hrest
      have hne : p.1 ≠ k := fun he => hnodup.1 (he ▸ hk)
      rw [List.find?_cons_of_neg (by simpa using hne)]
      exact ih hnodup.2 hrest

theorem get?_eq_some_iff {b : Bindings κ α} {k : κ} {v : α} :
    b.get? k = some v ↔ (k, v) ∈ b.toList := by
  refine ⟨fun h => ?_, get?_of_mem⟩
  obtain ⟨⟨k', v'⟩, hfind, rfl⟩ := Option.map_eq_some_iff.mp h
  have hkey := List.find?_some hfind
  obtain rfl : k' = k := eq_of_beq hkey
  exact List.mem_of_find?_eq_some hfind

/-- What is found says how much there is, in whatever order. -/
theorem size_congr {a b : Bindings κ α} (h : ∀ k, a.get? k = b.get? k) : a.size = b.size := by
  have hnodup (b : Bindings κ α) : b.toList.Nodup :=
    List.Pairwise.of_map Prod.fst (fun _ _ hne he => hne (congrArg Prod.fst he)) b.nodup
  have hperm : a.toList.Perm b.toList := by
    refine (List.perm_ext_iff_of_nodup (hnodup a) (hnodup b)).mpr fun ⟨k, v⟩ => ?_
    rw [← get?_eq_some_iff, ← get?_eq_some_iff, h]
  exact hperm.length_eq

theorem contains_congr {a b : Bindings κ α} {k : κ} (h : a.get? k = b.get? k) :
    a.contains k = b.contains k := by
  rw [Bool.eq_iff_iff, contains_iff, contains_iff, h]

theorem mem_keys_iff {b : Bindings κ α} {k : κ} : k ∈ b.keys ↔ b.contains k = true := by
  simp [keys, contains]

/-- The entries of a map with their keys renamed, all differently, and their values worked out anew
key by key. -/
theorem get?_ofList_rename {κ' β : Type} [DecidableEq κ'] (rename : κ → κ')
    (hrename : ∀ {j k}, rename j = rename k → j = k) (b : Bindings κ α) (f : κ → α → β) (k : κ) :
    (ofList (b.toList.map fun p => (rename p.1, f p.1 p.2))).get? (rename k) =
      (b.get? k).map (f k) := by
  have hkeys : ((b.toList.map fun p => (rename p.1, f p.1 p.2)).map Prod.fst).Nodup := by
    have hrenamed : (b.toList.map fun p => (rename p.1, f p.1 p.2)).map Prod.fst =
        (b.toList.map Prod.fst).map rename := by
      rw [List.map_map, List.map_map]
      rfl
    rw [hrenamed]
    exact List.Pairwise.map rename (fun _ _ hne he => hne (hrename he)) b.nodup
  ext w
  rw [get?_eq_some_iff, toList_ofList hkeys, List.mem_map, Option.map_eq_some_iff]
  constructor
  · rintro ⟨⟨k', v⟩, hmem, hpair⟩
    obtain ⟨hk, rfl⟩ := Prod.mk.inj hpair
    obtain rfl := hrename hk
    exact ⟨v, get?_of_mem hmem, rfl⟩
  · rintro ⟨v, hget, rfl⟩
    exact ⟨(k, v), get?_eq_some_iff.mp hget, rfl⟩

/-- The values of a map, worked out anew key by key. -/
theorem get?_ofList_map {β : Type} (b : Bindings κ α) (f : κ → α → β) (k : κ) :
    (ofList (b.toList.map fun p => (p.1, f p.1 p.2))).get? k = (b.get? k).map (f k) :=
  get?_ofList_rename id (fun h => h) b f k

/-- Binding some keys, each to a value of its own, leaves the other keys alone. -/
theorem get?_foldl_insert_keys (f : κ → α) (ks : List κ) (b : Bindings κ α) (k : κ) :
    (ks.foldl (fun b k => b.insert k (f k)) b).get? k =
      if k ∈ ks then some (f k) else b.get? k := by
  induction ks generalizing b with
  | nil => simp
  | cons first rest ih =>
    rw [List.foldl_cons, ih, get?_insert]
    by_cases hrest : k ∈ rest
    · simp [hrest]
    · by_cases hk : k = first <;> simp [hrest, hk]

end Bindings

end Propositional
