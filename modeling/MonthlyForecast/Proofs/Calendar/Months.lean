import MonthlyForecast.Calendar.Date
import MonthlyForecast.Proofs.Outcome

/-! Months between two dates. A first day is fixed by its month index, and every index
between those of two dates has one, so the months through a range are all of them, once
and in order. -/
namespace MonthlyForecast.Date

/-- The month of the one date comes before the month of the other. -/
def MonthBefore (first second : Date) : Prop :=
  first.year < second.year ∨ first.year = second.year ∧ first.month < second.month

/-- The first days of the months of a range, each once and in order. -/
structure MonthsOf (start stop : Date) (dates : List Date) : Prop where
  sorted : dates.Pairwise MonthBefore
  mem_iff : ∀ date, date ∈ dates ↔
    date.day = 1 ∧ ¬ date.MonthBefore start ∧ ¬ stop.MonthBefore date
  length_eq : (dates.length : Int) = monthsTo start stop + 1

variable {start stop date other : Date} {index : Int}

theorem monthIndex_lt_iff : date.monthIndex < other.monthIndex ↔ date.MonthBefore other := by
  obtain ⟨_, _, _, _, _, _⟩ := date.day_exists
  obtain ⟨_, _, _, _, _, _⟩ := other.day_exists
  unfold monthIndex MonthBefore
  omega

theorem ofMonthIndex?_eq_some_iff :
    ofMonthIndex? index = some date ↔ date.day = 1 ∧ date.monthIndex = index := by
  obtain ⟨_, _, _, _, _, _⟩ := date.day_exists
  rw [ofMonthIndex?, ofParts?_eq_some_iff, monthIndex]
  omega

theorem eq_of_monthIndex (first : date.day = 1) (otherFirst : other.day = 1)
    (same : date.monthIndex = other.monthIndex) : date = other := by
  have found := ofMonthIndex?_eq_some_iff.mpr ⟨first, rfl⟩
  have otherFound := ofMonthIndex?_eq_some_iff.mpr ⟨otherFirst, same.symm⟩
  exact Option.some.inj (found.symm.trans otherFound)

/-- The calendar has every month between two of its dates. -/
theorem exists_ofMonthIndex? (low : start.monthIndex ≤ index) (high : index ≤ stop.monthIndex) :
    ∃ date, ofMonthIndex? index = some date := by
  obtain ⟨_, _, _, _, _, _⟩ := start.day_exists
  obtain ⟨_, _, _, _, _, _⟩ := stop.day_exists
  have inside : DayExists (index / 12) ((index % 12).toNat + 1) 1 := by
    have long := one_le_daysInMonth (index / 12) ((index % 12).toNat + 1)
    unfold DayExists
    unfold monthIndex at low high
    omega
  exact ⟨_, by rw [ofMonthIndex?, ofParts?, dif_pos inside]⟩

/-- The months through a range are those at the offsets from its start. -/
theorem forall₂_monthsThrough (start stop : Date) :
    List.Forall₂ (fun (offset : Nat) date => date.day = 1 ∧
        date.monthIndex = start.monthIndex + offset)
      (List.range (monthsTo start stop + 1).toNat) (start.monthsThrough stop) := by
  have found : ∀ offset ∈ List.range (monthsTo start stop + 1).toNat,
      ∃ date, start.addMonths? offset = some date := by
    intro offset member
    have inside := List.mem_range.mp member
    unfold monthsTo at inside
    have low : start.monthIndex ≤ start.monthIndex + offset := by omega
    have high : start.monthIndex + offset ≤ stop.monthIndex := by omega
    exact exists_ofMonthIndex? low high
  unfold monthsThrough
  generalize List.range (monthsTo start stop + 1).toNat = offsets at found
  induction offsets with
  | nil => exact .nil
  | cons offset rest ih =>
    obtain ⟨⟨date, here⟩, later⟩ := List.forall_mem_cons.mp found
    simp only [List.filterMap_cons, here]
    exact .cons (ofMonthIndex?_eq_some_iff.mp here) (ih later)

theorem length_monthsThrough (start stop : Date) :
    (start.monthsThrough stop).length = (monthsTo start stop + 1).toNat := by
  rw [← (forall₂_monthsThrough start stop).length_eq, List.length_range]

/-- The months through a range are the first days that lie in it. -/
theorem mem_monthsThrough_iff :
    date ∈ start.monthsThrough stop ↔
      date.day = 1 ∧ start.monthIndex ≤ date.monthIndex ∧ date.monthIndex ≤ stop.monthIndex := by
  have all := forall₂_monthsThrough start stop
  constructor
  · intro member
    obtain ⟨offset, among, first, same⟩ := exists_left_of_forall₂ all member
    have inside := List.mem_range.mp among
    unfold monthsTo at inside
    exact ⟨first, by omega, by omega⟩
  · rintro ⟨first, low, high⟩
    have among : (date.monthIndex - start.monthIndex).toNat ∈
        List.range (monthsTo start stop + 1).toNat := by
      rw [List.mem_range]
      unfold monthsTo
      omega
    obtain ⟨month, member, monthFirst, same⟩ :=
      exists_left_of_forall₂ (List.Forall₂.flip all) among
    have equal : date = month := eq_of_monthIndex first monthFirst (by omega)
    exact equal ▸ member

theorem monthsThrough_sorted (start stop : Date) :
    (start.monthsThrough stop).Pairwise MonthBefore := by
  have all := forall₂_monthsThrough start stop
  generalize start.monthsThrough stop = months at all
  have ordered : (List.range (monthsTo start stop + 1).toNat).Pairwise (· < ·) :=
    List.pairwise_lt_range
  generalize List.range (monthsTo start stop + 1).toNat = offsets at all ordered
  induction all with
  | nil => exact .nil
  | cons one rest ih =>
    obtain ⟨before, later⟩ := List.pairwise_cons.mp ordered
    refine List.pairwise_cons.mpr ⟨?_, ih later⟩
    intro date member
    obtain ⟨offset, among, _, same⟩ := exists_left_of_forall₂ rest member
    have := before offset among
    have := one.2
    exact monthIndex_lt_iff.mp (by omega)

/-- The months to a later date begin with those to an earlier one. -/
theorem monthsThrough_isPrefix (later : ¬ other.MonthBefore stop) :
    start.monthsThrough stop <+: start.monthsThrough other := by
  rw [← monthIndex_lt_iff] at later
  have more : (monthsTo start stop + 1).toNat ≤ (monthsTo start other + 1).toNat := by
    unfold monthsTo
    omega
  obtain ⟨rest, whole⟩ := Nat.exists_eq_add_of_le more
  unfold monthsThrough
  rw [whole, List.range_add]
  exact (List.prefix_append _ _).filterMap _

theorem monthsOf_monthsThrough (ordered : ¬ stop.MonthBefore start) :
    MonthsOf start stop (start.monthsThrough stop) where
  sorted := monthsThrough_sorted start stop
  mem_iff := by
    intro date
    simp only [mem_monthsThrough_iff, ← monthIndex_lt_iff, Int.not_lt]
  length_eq := by
    rw [← monthIndex_lt_iff] at ordered
    rw [length_monthsThrough]
    unfold monthsTo
    omega

end MonthlyForecast.Date
