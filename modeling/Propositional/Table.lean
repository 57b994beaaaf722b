import Propositional.Evaluation
import Propositional.Journal
import Propositional.Position

/-! Truth tables. The letters of a batch of sentences, in their order, are the columns of the
assignments. The rows are numbered from 0; in the binary number of a row, with the first letter as
the highest digit, a 0 stands for true and a 1 for false. So the first row is all true, the last
row all false, and n letters make 2ⁿ rows. Evaluating the formulas row by row never meets a letter
without a value (`generate_eq_ofBatch`). -/
namespace Propositional

/-- One assignment, by display name, and the values of the formulas under it. -/
structure Row where
  assignment : Bindings Text (Option Bool)
  values : List Bool

namespace Row

/-- What a row says of a letter. -/
def reply (r : Row) (l : Letter) : Reply :=
  match r.assignment.get? l.name with
  | some entry => .ofEntry entry
  | none => .missing

/-- The entry of a letter, which is in error if the letter is no column. -/
def lookup (r : Row) (l : Letter) : Except Unbound (Option Bool) :=
  match r.assignment.get? l.name with
  | some entry => .ok entry
  | none => .error ⟨l⟩

/-- A row as an assignment. -/
def toAssignment (r : Row) : Assignment := .function r.reply

end Row

structure Table where
  letters : List Letter
  formulas : List Sentence
  rows : List Row

namespace Table

/-- The binary digits of a row's number, the highest first, for a number of letters. -/
def stateBits (width state : Nat) : List Bool :=
  (List.range width).map fun i => state.testBit (width - 1 - i)

@[simp] theorem length_stateBits (width state : Nat) : (stateBits width state).length = width := by
  simp [stateBits]

/-- The assignment of a row: a letter is true where the digit is 0. -/
def stateAssignment (letters : List Letter) (state : Nat) : Bindings Text (Option Bool) :=
  .ofList (List.zipWith (fun l bit => (l.name, some !bit)) letters
    (stateBits letters.length state))

/-- The valuation that an assignment stands for; letters that are no column are false in it. -/
def valuation (assignment : Bindings Text (Option Bool)) (l : Letter) : Bool :=
  assignment.get? l.name == some (some true)

def rowOfState (letters : List Letter) (formulas : List Sentence) (state : Nat) : Row :=
  let assignment := stateAssignment letters state
  ⟨assignment, formulas.map (Sentence.truth (valuation assignment))⟩

/-- The table of a batch of sentences, with a row for every assignment to their letters. -/
def ofBatch (formulas : List Sentence) : Table :=
  let letters := Sentence.batchLetters formulas
  ⟨letters, formulas, (List.range (Nat.pow 2 letters.length)).map (rowOfState letters formulas)⟩

/-- The values of the formula at a position, down the table. -/
def column? (t : Table) (position : Int) : Option (List Bool) :=
  t.rows.mapM fun r => Position.get? r.values position

@[simp] theorem length_rows_ofBatch (formulas : List Sentence) :
    (ofBatch formulas).rows.length = Nat.pow 2 (Sentence.batchLetters formulas).length := by
  simp [ofBatch]

/-! ### Working the values out

The values of a table are those that evaluating each formula under each row gives. -/

/-- A row with the values that its formulas evaluate to. -/
def evaluatedRow (letters : List Letter) (formulas : List Sentence) (state : Nat) :
    Except Unbound Row :=
  let row : Row := ⟨stateAssignment letters state, []⟩
  (formulas.mapM (Sentence.evaluate row.toAssignment)).map fun values =>
    { row with values := values }

/-- The table of a batch, evaluated row by row; a letter that is no column would end the work. -/
def generate (formulas : List Sentence) : Except Unbound Table :=
  let letters := Sentence.batchLetters formulas
  ((List.range (Nat.pow 2 letters.length)).mapM (evaluatedRow letters formulas)).map fun rows =>
    ⟨letters, formulas, rows⟩

theorem mapM_eq_ok {ε α β : Type} {f : α → Except ε β} {g : α → β} {l : List α}
    (h : ∀ a ∈ l, f a = .ok (g a)) : l.mapM f = .ok (l.map g) := by
  induction l with
  | nil => rfl
  | cons a rest ih =>
    rw [List.mapM_cons, h a List.mem_cons_self, ih fun x hx => h x (List.mem_cons_of_mem a hx)]
    rfl

/-- Every column has a value in every row, the one that the valuation of the row gives it. -/
theorem truth?_stateAssignment {letters : List Letter} {l : Letter} (h : l ∈ letters)
    (state : Nat) (values : List Bool) :
    (Row.toAssignment ⟨stateAssignment letters state, values⟩).truth? l =
      some (valuation (stateAssignment letters state) l) := by
  have hname : l.name ∈ (List.zipWith (fun l bit => (l.name, some !bit)) letters
      (stateBits letters.length state)).map Prod.fst := by
    rw [List.map_zipWith]
    obtain ⟨i, hi, rfl⟩ := List.mem_iff_getElem.mp h
    exact List.mem_iff_getElem.mpr ⟨i, by simpa using hi, by simp⟩
  obtain ⟨v, hv, hget⟩ := Bindings.get?_ofList hname
  obtain ⟨b, rfl⟩ : ∃ b, v = some b := by
    obtain ⟨i, hi, hv⟩ := List.mem_iff_getElem.mp hv
    rw [List.getElem_zipWith] at hv
    exact ⟨_, (Prod.mk.inj hv).2.symm⟩
  have hget : (stateAssignment letters state).get? l.name = some (some b) := hget
  simp [Assignment.truth?, Assignment.reply, Row.toAssignment, Row.reply, hget, Reply.ofEntry,
    Reply.truth?, valuation]

theorem evaluatedRow_eq {letters : List Letter} {formulas : List Sentence}
    (h : ∀ f ∈ formulas, ∀ l ∈ f.occurrences, l ∈ letters) (state : Nat) :
    evaluatedRow letters formulas state = .ok (rowOfState letters formulas state) := by
  have hvalues := mapM_eq_ok fun f hf =>
    Sentence.evaluate_eq_truth fun l hl => truth?_stateAssignment (h f hf l hl) state []
  simp only [evaluatedRow, hvalues]
  rfl

/-- No letter is ever missing. -/
theorem generate_eq_ofBatch (formulas : List Sentence) :
    generate formulas = .ok (ofBatch formulas) := by
  have h : ∀ f ∈ formulas, ∀ l ∈ f.occurrences, l ∈ Sentence.batchLetters formulas :=
    fun f hf l hl => Sentence.mem_batchLetters.mpr ⟨f, hf, hl⟩
  have hrows : (List.range (Nat.pow 2 (Sentence.batchLetters formulas).length)).mapM
      (evaluatedRow (Sentence.batchLetters formulas) formulas) = .ok (ofBatch formulas).rows :=
    mapM_eq_ok fun state _ => evaluatedRow_eq h state
  simp only [generate, hrows]
  rfl

/-- A generated table, from the letters of its batch as they are. -/
theorem eq_of_generate {formulas : List Sentence} {letters : List Letter} {t : Table}
    (ht : generate formulas = .ok t) (h : Sentence.batchLetters formulas = letters) :
    t = ⟨letters, formulas,
      (List.range (Nat.pow 2 letters.length)).map (rowOfState letters formulas)⟩ := by
  rw [← Except.ok.inj ((generate_eq_ofBatch formulas).symm.trans ht), ← h]
  rfl

/-! ### The journal -/

/-- The digits of a row's number as they are shown. -/
def shownBits (width state : Nat) : Text :=
  (stateBits width state).map fun bit => if bit then '1' else '0'

/-- What is told while a table is generated. -/
def generationEntries (t : Table) : List Journal.Entry :=
  Journal.tableBegun (t.letters.map Letter.name) t.formulas.length t.rows.length ::
    t.rows.mapIdx fun state row =>
      Journal.rowDone state (shownBits t.letters.length state) row.values

end Table

/-! ### The connectives -/

namespace Connective

/-- What a connective is called where its table is shown, with the sign that is typed for it. -/
def title : Connective → Text
  | conjunction => "Conjunction (&)".toList
  | disjunction => "Disjunction (v)".toList
  | conditional => "Conditional (->)".toList
  | biconditional => "Biconditional (<->)".toList
  | xor => "XOR (+)".toList
  | nand => "NAND (|)".toList

end Connective

namespace Table

def letterP : Sentence := .letter { id := 'P', isUpper := rfl }

def letterQ : Sentence := .letter { id := 'Q', isUpper := rfl }

/-- The sentences that show what negation and each connective mean, with their titles. -/
def definitions : List (Text × Sentence) :=
  ("Negation (~)".toList, .negation letterP) ::
    Connective.all.map fun c => (c.title, .binary c letterP letterQ)

/-- The table of every definition. -/
def definitionTables : List (Text × Table) := definitions.map fun d => (d.1, ofBatch [d.2])

end Table

end Propositional
