import Propositional.Letter

/-! Collections of letters without repetitions. A collection remembers the order in which its
letters were first added; sorting gives the order of the columns of a truth table. Whether a letter
is there is not read off that list but off a set of keys, which is kept in step with it. -/
namespace Propositional

/-- Distinct letters, the earliest added first, and the set of their keys. -/
structure Letters where
  toList : List Letter
  seen : List (Char × Nat)
  nodup : toList.Nodup
  key_mem_seen : ∀ l : Letter, l.key ∈ seen ↔ l ∈ toList

namespace Letters

def empty : Letters := ⟨[], [], List.nodup_nil, fun _ => by simp⟩

def contains (ls : Letters) (l : Letter) : Bool := ls.seen.contains l.key

def size (ls : Letters) : Nat := ls.toList.length

/-- Adds a letter at the end and says whether it is new; one that is already there stays where it
is. -/
def add (ls : Letters) (l : Letter) : Letters × Bool :=
  if h : l.key ∈ ls.seen then (ls, false)
  else
    ({ toList := ls.toList ++ [l]
       seen := l.key :: ls.seen
       nodup := by
         rw [ls.key_mem_seen] at h
         refine List.nodup_append.mpr ⟨ls.nodup, by simp, fun a ha b hb => ?_⟩
         rw [List.mem_singleton.mp hb]
         exact fun he => h (he ▸ ha)
       key_mem_seen := fun m => by
         rw [List.mem_cons, List.mem_append, List.mem_singleton, Letter.key_inj, ls.key_mem_seen,
           or_comm] },
      true)

def addAll (ls : Letters) (new : List Letter) : Letters := new.foldl (fun ls l => (ls.add l).1) ls

/-- Adds letters one after the other until one cannot be had; those before it stay. -/
def addUntilError {ε : Type} (ls : Letters) : List (Except ε Letter) → Letters × Option ε
  | [] => (ls, none)
  | .ok l :: rest => (ls.add l).1.addUntilError rest
  | .error e :: _ => (ls, some e)

def ofList (letters : List Letter) : Letters := empty.addAll letters

/-- The letters by character and number. -/
def sorted (ls : Letters) : List Letter := ls.toList.mergeSort fun a b => decide (a ≤ b)

/-- Letters that were collected in their order are left as they are. -/
theorem sorted_of_pairwise {ls : Letters} (h : ls.toList.Pairwise (· ≤ ·)) :
    ls.sorted = ls.toList :=
  List.mergeSort_of_pairwise (h.imp decide_eq_true)

/-- The collection as it is displayed. -/
def described (ls : Letters) : Text :=
  "LetterSet([".toList ++ Text.joinWith [',', ' '] (ls.toList.map Letter.name) ++ [']', ')']

/-! ### The list behind a collection -/

@[simp] theorem toList_empty : empty.toList = [] := rfl

theorem contains_iff {ls : Letters} {l : Letter} : ls.contains l = true ↔ l ∈ ls.toList := by
  rw [contains, List.contains_iff_mem, ls.key_mem_seen]

theorem toList_add (ls : Letters) (l : Letter) :
    (ls.add l).1.toList = if l ∈ ls.toList then ls.toList else ls.toList ++ [l] := by
  simp only [← ls.key_mem_seen]
  unfold add
  split <;> rfl

theorem isNew_add (ls : Letters) (l : Letter) : (ls.add l).2 = !ls.contains l := by
  unfold add contains
  split <;> simp_all

@[simp] theorem mem_add {ls : Letters} {l m : Letter} :
    m ∈ (ls.add l).1.toList ↔ m ∈ ls.toList ∨ m = l := by
  rw [toList_add]
  split
  · constructor
    · exact Or.inl
    · rintro (h | rfl) <;> assumption
  · simp

@[simp] theorem mem_addAll {ls : Letters} {new : List Letter} {m : Letter} :
    m ∈ (ls.addAll new).toList ↔ m ∈ ls.toList ∨ m ∈ new := by
  induction new generalizing ls with
  | nil => simp [addAll]
  | cons l rest ih =>
    have := @ih (ls.add l).1
    simp only [addAll, List.foldl_cons] at this ⊢
    rw [this, mem_add]
    simp [or_assoc]

end Letters

end Propositional
