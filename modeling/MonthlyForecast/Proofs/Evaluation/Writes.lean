import MonthlyForecast.Proofs.Evaluation.Intake
import MonthlyForecast.Proofs.Evaluation.Ledger

/-! What a ledger holds after any number of writes, in any order and inside of the table or not.
The array behind it acts as a table with two indices: a cell has the value of the last write
to it and is pending before the first one, and a write outside of the table is lost. -/
namespace MonthlyForecast

/-- A value that is written for a node and a month. -/
structure LedgerWrite where
  node : NodeIndex
  month : Nat
  value : Option Float

/-- The indices of the cell that is written. -/
def LedgerWrite.cell (write : LedgerWrite) : NodeIndex × Nat :=
  (write.node, write.month)

namespace Ledger

/-- The ledger after the writes, one after the other. -/
def insertAll (ledger : Ledger) (writes : List LedgerWrite) : Ledger :=
  writes.foldl (fun ledger write => ledger.insert write.node write.month write.value) ledger

/-- The ledger is laid out for the nodes and months, and each cell of it has the value of the
last of the writes that goes to it. -/
structure Reflects (nodeCount : Nat) (months : List Date) (writes : List LedgerWrite)
    (ledger : Ledger) : Prop where
  months_eq : ledger.months = months
  sized : ledger.Sized nodeCount
  get_eq : ∀ node < nodeCount, ∀ month < months.length, ledger.get node month =
    (writes.reverse.find? (·.cell == (node, month))).elim .pending (.ready ·.value)

variable {ledger : Ledger} {months : List Date} {writes : List LedgerWrite}
  {nodeCount node month : Nat} {value : Option Float}

theorem reflects_empty (nodeCount : Nat) (months : List Date) :
    Reflects nodeCount months [] (empty nodeCount months) where
  months_eq := rfl
  sized := sized_empty nodeCount months
  get_eq node _ month _ := get_empty nodeCount months node month

namespace Reflects

theorem get_of_outside (reflects : Reflects nodeCount months writes ledger)
    (outside : nodeCount ≤ node ∨ months.length ≤ month) : ledger.get node month = .pending :=
  Ledger.get_of_outside reflects.sized (reflects.months_eq ▸ outside)

theorem insert_of_outside (reflects : Reflects nodeCount months writes ledger)
    (outside : nodeCount ≤ node ∨ months.length ≤ month) :
    ledger.insert node month value = ledger :=
  Ledger.insert_of_outside reflects.sized (reflects.months_eq ▸ outside)

theorem insert_sized (reflects : Reflects nodeCount months writes ledger) (node month : Nat)
    (value : Option Float) : (ledger.insert node month value).Sized nodeCount := by
  by_cases inside : month < ledger.months.length
  · exact reflects.sized.insert inside
  · rw [Ledger.insert, if_neg inside]
    exact reflects.sized

theorem insert (reflects : Reflects nodeCount months writes ledger) (write : LedgerWrite) :
    Reflects nodeCount months (writes ++ [write])
      (ledger.insert write.node write.month write.value) where
  months_eq := (months_insert ..).trans reflects.months_eq
  sized := reflects.insert_sized ..
  get_eq := by
    intro node nodeInside month monthInside
    rw [List.reverse_append, List.reverse_singleton, List.singleton_append, List.find?_cons]
    by_cases here : write.cell = (node, month)
    · rw [beq_iff_eq.mpr here]
      cases here
      exact get_insert_self reflects.sized nodeInside (reflects.months_eq ▸ monthInside)
    · have apart : ¬ (node = write.node ∧ month = write.month) := by
        rintro ⟨rfl, rfl⟩
        exact here rfl
      rw [beq_eq_false_iff_ne.mpr here, get_insert_of_ne apart]
      exact reflects.get_eq node nodeInside month monthInside

theorem get_eq_ready_iff (reflects : Reflects nodeCount months writes ledger) :
    ledger.get node month = .ready value ↔ node < nodeCount ∧ month < months.length ∧
      ∃ write, IsLast writes (·.cell = (node, month)) write ∧ write.value = value := by
  by_cases outside : nodeCount ≤ node ∨ months.length ≤ month
  · rw [reflects.get_of_outside outside]
    constructor
    · intro ready
      contradiction
    · rintro ⟨nodeInside, monthInside, _⟩
      omega
  · obtain ⟨nodeInside, monthInside⟩ : node < nodeCount ∧ month < months.length := by omega
    rw [reflects.get_eq node nodeInside month monthInside]
    simp only [nodeInside, monthInside, true_and, ← find?_reverse_eq_some_iff]
    cases writes.reverse.find? (·.cell == (node, month)) <;> simp

theorem get_eq_pending_iff (reflects : Reflects nodeCount months writes ledger) :
    ledger.get node month = .pending ↔ nodeCount ≤ node ∨ months.length ≤ month ∨
      ∀ write ∈ writes, write.cell ≠ (node, month) := by
  rw [← or_assoc]
  by_cases outside : nodeCount ≤ node ∨ months.length ≤ month
  · exact iff_of_true (reflects.get_of_outside outside) (.inl outside)
  · obtain ⟨nodeInside, monthInside⟩ : node < nodeCount ∧ month < months.length := by omega
    rw [reflects.get_eq node nodeInside month monthInside, ← find?_reverse_eq_none_iff]
    simp only [outside, false_or]
    cases writes.reverse.find? (·.cell == (node, month)) <;> simp

end Reflects

theorem reflects_insertAll (nodeCount : Nat) (months : List Date) (writes : List LedgerWrite) :
    Reflects nodeCount months writes ((empty nodeCount months).insertAll writes) := by
  apply foldl_invariant (Reflects nodeCount months)
  · exact reflects_empty nodeCount months
  · intro _ write _ _ reflects
    exact reflects.insert write

/-- After any writes a cell of the table has the value of the last write to it, if there is one,
and every other cell is pending. A further write changes no cell but its own, and nothing at
all if that lies outside of the table. -/
theorem insertAll_exact (nodeCount : Nat) (months : List Date) (writes : List LedgerWrite) :
    let ledger := (empty nodeCount months).insertAll writes
    (∀ node month value, ledger.get node month = .ready value ↔
        node < nodeCount ∧ month < months.length ∧
          ∃ write, IsLast writes (·.cell = (node, month)) write ∧ write.value = value) ∧
      (∀ node month, ledger.get node month = .pending ↔
        nodeCount ≤ node ∨ months.length ≤ month ∨
          ∀ write ∈ writes, write.cell ≠ (node, month)) ∧
      (∀ node month number, ledger.value node month = some number ↔
        ledger.get node month = .ready (some number)) ∧
      (∀ node, (ledger.row node).length = months.length ∧ ∀ month < months.length,
        (ledger.row node)[month]? = some (ledger.value node month)) ∧
      (∀ node month value other otherMonth, ¬ (other = node ∧ otherMonth = month) →
        (ledger.insert node month value).get other otherMonth = ledger.get other otherMonth) ∧
      ∀ node month value, nodeCount ≤ node ∨ months.length ≤ month →
        ledger.insert node month value = ledger := by
  intro ledger
  have reflects : Reflects nodeCount months writes ledger :=
    reflects_insertAll nodeCount months writes
  refine ⟨fun _ _ _ => reflects.get_eq_ready_iff, fun _ _ => reflects.get_eq_pending_iff,
    fun _ _ _ => value_eq_some_iff, ?_, fun _ _ _ _ _ => get_insert_of_ne,
    fun _ _ _ => reflects.insert_of_outside⟩
  intro node
  rw [← reflects.months_eq]
  exact ⟨length_row, fun month => getElem?_row⟩

/-- A month behind the end of a row is not the first one of the next row. -/
example :
    let ledger := (empty 2 [⟨2024, 1, 1, by decide⟩, ⟨2024, 2, 1, by decide⟩]).insertAll
      [⟨0, 1, some 3⟩, ⟨0, 2, some 5⟩, ⟨0, 1, none⟩]
    ledger.get 0 1 = .ready none ∧ ledger.get 1 0 = .pending := by
  decide +kernel

end Ledger
end MonthlyForecast
