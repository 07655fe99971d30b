import Mathlib.Tactic.ByContra
import MonthlyForecast.Evaluation.Ledger

/-! Reading a ledger after writing to it. A write changes its own cell and no other one: the
cells of different nodes or months never share a place of the array, and what lies outside of
the table has no place in it. -/
namespace MonthlyForecast.Ledger

/-- The array has a cell for each of the given number of nodes and each month. -/
def Sized (ledger : Ledger) (nodeCount : Nat) : Prop :=
  ledger.cells.size = nodeCount * ledger.months.length

variable {ledger : Ledger} {nodeCount node other month otherMonth : Nat} {value : Option Float}

theorem sized_empty (nodeCount : Nat) (months : List Date) :
    (empty nodeCount months).Sized nodeCount := by
  simp [Sized, empty]

theorem cells_insert (inside : month < ledger.months.length) :
    (ledger.insert node month value).cells =
      ledger.cells.setIfInBounds (ledger.offset node month) (.ready value) := by
  simp only [insert, if_pos inside]

theorem offset_insert :
    (ledger.insert node month value).offset other otherMonth = ledger.offset other otherMonth := by
  simp only [offset, months_insert]

theorem Sized.insert (sized : ledger.Sized nodeCount) (inside : month < ledger.months.length) :
    (ledger.insert node month value).Sized nodeCount := by
  unfold Sized at *
  rw [months_insert, ← sized, cells_insert inside, Array.size_setIfInBounds]

theorem lt_of_ready (ready : ledger.get node month = .ready value) :
    month < ledger.months.length := by
  by_contra outside
  simp [get, outside] at ready

theorem offset_lt (sized : ledger.Sized nodeCount) (nodeInside : node < nodeCount)
    (monthInside : month < ledger.months.length) :
    ledger.offset node month < ledger.cells.size := by
  rw [sized, offset]
  calc node * ledger.months.length + month
      < node * ledger.months.length + ledger.months.length := by omega
    _ = (node + 1) * ledger.months.length := (Nat.succ_mul _ _).symm
    _ ≤ nodeCount * ledger.months.length := Nat.mul_le_mul_right _ nodeInside

theorem offset_injective (inside : month < ledger.months.length)
    (otherInside : otherMonth < ledger.months.length)
    (same : ledger.offset node month = ledger.offset other otherMonth) :
    node = other ∧ month = otherMonth := by
  have positive : 0 < ledger.months.length := by omega
  have row_of_offset : ∀ node month, month < ledger.months.length →
      ledger.offset node month / ledger.months.length = node := by
    intro node month inside
    rw [offset, Nat.mul_comm, Nat.mul_add_div positive, Nat.div_eq_of_lt inside, Nat.add_zero]
  have rows : node = other := by
    rw [← row_of_offset node month inside, same, row_of_offset other otherMonth otherInside]
  subst rows
  unfold offset at same
  exact ⟨rfl, by omega⟩

theorem get_insert_self (sized : ledger.Sized nodeCount) (nodeInside : node < nodeCount)
    (monthInside : month < ledger.months.length) :
    (ledger.insert node month value).get node month = .ready value := by
  have inside := offset_lt sized nodeInside monthInside
  rw [get, months_insert, if_pos monthInside, cells_insert monthInside, offset_insert,
    Array.getElem?_setIfInBounds_self_of_lt inside, Option.getD_some]

theorem get_insert_of_ne (different : ¬ (other = node ∧ otherMonth = month)) :
    (ledger.insert node month value).get other otherMonth = ledger.get other otherMonth := by
  by_cases inside : month < ledger.months.length
  · unfold get
    rw [months_insert]
    split
    · rename_i otherInside
      have apart : ledger.offset node month ≠ ledger.offset other otherMonth := by
        intro same
        obtain ⟨rfl, rfl⟩ := offset_injective inside otherInside same
        exact different ⟨rfl, rfl⟩
      rw [cells_insert inside, offset_insert, Array.getElem?_setIfInBounds_ne apart]
    · rfl
  · rw [insert, if_neg inside]

/-- The cells of a node outside of the table would lie behind the array. -/
theorem size_le_offset (sized : ledger.Sized nodeCount) (nodeOutside : nodeCount ≤ node) :
    ledger.cells.size ≤ ledger.offset node month := by
  rw [sized, offset]
  calc nodeCount * ledger.months.length
      ≤ node * ledger.months.length := Nat.mul_le_mul_right _ nodeOutside
    _ ≤ node * ledger.months.length + month := Nat.le_add_right _ _

theorem get_of_outside (sized : ledger.Sized nodeCount)
    (outside : nodeCount ≤ node ∨ ledger.months.length ≤ month) :
    ledger.get node month = .pending := by
  unfold get
  split
  · rename_i monthInside
    have nodeOutside := outside.resolve_right (Nat.not_le.mpr monthInside)
    rw [Array.getElem?_eq_none (size_le_offset sized nodeOutside), Option.getD_none]
  · rfl

theorem insert_of_outside (sized : ledger.Sized nodeCount)
    (outside : nodeCount ≤ node ∨ ledger.months.length ≤ month) :
    ledger.insert node month value = ledger := by
  unfold insert
  split
  · rename_i monthInside
    have nodeOutside := outside.resolve_right (Nat.not_le.mpr monthInside)
    simp only [Array.setIfInBounds_eq_of_size_le (size_le_offset sized nodeOutside)]
  · rfl

theorem value_eq_some_iff {number : Float} :
    ledger.value node month = some number ↔ ledger.get node month = .ready (some number) := by
  unfold Ledger.value Cell.value
  split <;> simp [*]

theorem length_row : (ledger.row node).length = ledger.months.length := by
  rw [row, List.length_map, List.length_range]

theorem getElem?_row (inside : month < ledger.months.length) :
    (ledger.row node)[month]? = some (ledger.value node month) := by
  rw [row, List.getElem?_map, List.getElem?_range inside, Option.map_some]

/-- Every place of the array is some node's cell for some month. -/
theorem get_of_place (sized : ledger.Sized nodeCount) {place : Nat}
    (inside : place < ledger.cells.size) :
    ledger.get (place / ledger.months.length) (place % ledger.months.length) =
      ledger.cells[place] := by
  have positive : 0 < ledger.months.length := by
    rw [sized] at inside
    exact Nat.pos_of_lt_mul_left inside
  have here : ledger.offset (place / ledger.months.length) (place % ledger.months.length) =
      place := by
    rw [offset, Nat.mul_comm, Nat.div_add_mod]
  rw [get, if_pos (Nat.mod_lt _ positive), here, Array.getElem?_eq_getElem inside,
    Option.getD_some]

/-- Ledgers of one size with the same cells are the same. -/
theorem eq_of_get {others : Ledger} (sized : ledger.Sized nodeCount)
    (othersSized : others.Sized nodeCount) (months_eq : ledger.months = others.months)
    (same : ∀ node month, ledger.get node month = others.get node month) : ledger = others := by
  have sizes : ledger.cells.size = others.cells.size := by
    rw [sized, othersSized, months_eq]
  have cells : ledger.cells = others.cells := by
    apply Array.ext sizes
    intro place inside inside'
    rw [← get_of_place sized inside, ← get_of_place othersSized inside', same, months_eq]
  cases ledger
  cases others
  simp only at months_eq cells
  rw [months_eq, cells]

end MonthlyForecast.Ledger
