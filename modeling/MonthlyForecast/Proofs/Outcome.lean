import Mathlib.Data.List.Forall2
import Mathlib.Data.List.Nodup

/-! What holds after a run that ends with a value or with a fault. Each rule follows one
way to put runs together: in sequence, once for each item, or item by item on a state.
A fold without faults has the same rule for its state. Lists that are related item by
item are what a run on each item leaves, and items with different keys are found by them.
Two runs that take the same steps on different values are put together in the same ways. -/
namespace MonthlyForecast

theorem foldl_invariant {σ α : Type} {step : σ → α → σ} {items : List α} {init : σ}
    (holds : List α → σ → Prop) (start : holds [] init)
    (next : ∀ done item state, item ∈ items → holds done state →
      holds (done ++ [item]) (step state item)) :
    holds items (items.foldl step init) := by
  have run : ∀ rest done state, (∀ item ∈ rest, item ∈ items) → holds done state →
      holds (done ++ rest) (rest.foldl step state) := by
    intro rest
    induction rest with
    | nil =>
      intro done state _ held
      simpa using held
    | cons item rest ih =>
      intro done state inside held
      have following := next done item state (inside item (by simp)) held
      have := ih (done ++ [item]) (step state item) (fun _ later => inside _ (by simp [later]))
        following
      simpa using this
  exact run items [] init (fun _ member => member) start

theorem foldl_map_hom {σ τ α β : Type} (value : σ → τ) {item' : α → β} {step : σ → α → σ}
    {other : τ → β → τ}
    (each : ∀ state item, other (value state) (item' item) = value (step state item))
    (items : List α) (start : σ) :
    (items.map item').foldl other (value start) = value (items.foldl step start) := by
  rw [List.foldl_map]
  exact List.foldl_hom value each

theorem exists_left_of_forall₂ {α β : Type} {related : α → β → Prop} {firsts : List α}
    {seconds : List β} (all : List.Forall₂ related firsts seconds) {second : β}
    (member : second ∈ seconds) : ∃ first ∈ firsts, related first second := by
  induction all with
  | nil => contradiction
  | cons one _ ih =>
    rcases List.mem_cons.mp member with rfl | later
    · exact ⟨_, List.mem_cons_self, one⟩
    · obtain ⟨first, among, relates⟩ := ih later
      exact ⟨first, List.mem_cons_of_mem _ among, relates⟩

/-- Related items of related items, along the lists. -/
theorem forall₂_comp {α β γ : Type} {related : α → β → Prop} {further : β → γ → Prop}
    {firsts : List α} {seconds : List β} {thirds : List γ}
    (here : List.Forall₂ related firsts seconds) (there : List.Forall₂ further seconds thirds) :
    List.Forall₂ (fun first third => ∃ second, related first second ∧ further second third)
      firsts thirds := by
  induction here generalizing thirds with
  | nil =>
    cases there
    exact .nil
  | cons one _ ih =>
    cases there with
    | cons two rest => exact .cons ⟨_, one, two⟩ (ih rest)

theorem exists_forall₂ {α β : Type} {related : α → β → Prop} {firsts : List α}
    (each : ∀ first ∈ firsts, ∃ second, related first second) :
    ∃ seconds, List.Forall₂ related firsts seconds := by
  induction firsts with
  | nil => exact ⟨[], .nil⟩
  | cons first rest ih =>
    obtain ⟨⟨second, here⟩, others⟩ := List.forall_mem_cons.mp each
    obtain ⟨seconds, later⟩ := ih others
    exact ⟨second :: seconds, .cons here later⟩

theorem exists_getElem?_of_forall₂ {α β : Type} {related : α → β → Prop} {firsts : List α}
    {seconds : List β} (all : List.Forall₂ related firsts seconds) {place : Nat} {first : α}
    (stands : firsts[place]? = some first) :
    ∃ second, seconds[place]? = some second ∧ related first second := by
  induction all generalizing place with
  | nil => simp at stands
  | cons one _ ih =>
    cases place with
    | zero =>
      cases stands
      exact ⟨_, rfl, one⟩
    | succ place => exact ih (by simpa using stands)

/-- What a step on each item gives, if all of them give something. -/
theorem forall₂_of_mapM {α β : Type} {step : α → Option β} {items : List α} {results : List β}
    (found : items.mapM step = some results) :
    List.Forall₂ (fun item result => step item = some result) items results := by
  induction items generalizing results with
  | nil =>
    cases found
    exact .nil
  | cons item rest ih =>
    rw [List.mapM_cons] at found
    simp only [Option.bind_eq_bind, Option.bind_eq_some_iff] at found
    obtain ⟨result, here, others, later, same⟩ := found
    cases same
    exact .cons here (ih later)

theorem mapM_of_forall₂ {α β : Type} {step : α → Option β} {items : List α} {results : List β}
    (each : List.Forall₂ (fun item result => step item = some result) items results) :
    items.mapM step = some results := by
  induction each with
  | nil => rfl
  | cons here _ ih => simp [List.mapM_cons, here, ih]

/-- Among items with different keys the item with a key is found by it. -/
theorem find?_key_eq_some_iff {α : Type} {key : α → String} {items : List α} {item : α}
    {id : String} (distinct : (items.map key).Nodup) :
    items.find? (key · == id) = some item ↔ item ∈ items ∧ key item = id := by
  constructor
  · intro found
    exact ⟨List.mem_of_find?_eq_some found, beq_iff_eq.mp (List.find?_some found :)⟩
  · rintro ⟨member, rfl⟩
    have isSome : (items.find? (key · == key item)).isSome :=
      List.find?_isSome.mpr ⟨item, member, by simp⟩
    obtain ⟨other, found⟩ := Option.isSome_iff_exists.mp isSome
    have same : key other = key item := beq_iff_eq.mp (List.find?_some found :)
    rw [found, List.inj_on_of_nodup_map distinct (List.mem_of_find?_eq_some found) member same]

/-- Items with different keys are found in any order of the list. -/
theorem find?_key_perm {α : Type} {key : α → String} {items others : List α}
    (arranged : items.Perm others) (distinct : (items.map key).Nodup) (id : String) :
    items.find? (key · == id) = others.find? (key · == id) := by
  apply Option.ext
  intro item
  rw [find?_key_eq_some_iff distinct,
    find?_key_eq_some_iff ((arranged.map key).nodup_iff.mp distinct), arranged.mem_iff]

theorem exists_of_toBool {ε α : Type} {run : Except ε α} (completes : run.toBool = true) :
    ∃ value, run = .ok value := by
  cases run with
  | error fault => contradiction
  | ok value => exact ⟨value, rfl⟩

theorem exists_ok_of_bind {ε α β : Type} {run : Except ε α} {next : α → Except ε β} {result : β}
    (ran : (run >>= next) = .ok result) : ∃ value, run = .ok value ∧ next value = .ok result := by
  cases run with
  | error fault => contradiction
  | ok value => exact ⟨value, rfl, ran⟩

/-- A value satisfies the one predicate, a fault the other. -/
def Outcome {ε α : Type} (holds : α → Prop) (fails : ε → Prop) : Except ε α → Prop
  | .ok value => holds value
  | .error fault => fails fault

namespace Outcome

variable {ε σ α β : Type} {holds : α → Prop} {fails : ε → Prop} {run : Except ε α}

theorem of_ok {value : α} (outcome : Outcome holds fails run) (ran : run = .ok value) :
    holds value := by
  subst ran
  exact outcome

theorem of_error {fault : ε} (outcome : Outcome holds fails run) (failed : run = .error fault) :
    fails fault := by
  subst failed
  exact outcome

theorem exists_ok (outcome : Outcome holds fails run) (never : ∀ fault, ¬ fails fault) :
    ∃ value, run = .ok value ∧ holds value := by
  cases run with
  | ok value => exact ⟨value, rfl, outcome⟩
  | error fault => exact absurd outcome (never fault)

theorem imp {weaker : α → Prop} {others : ε → Prop} (outcome : Outcome holds fails run)
    (value : ∀ value, holds value → weaker value) (fault : ∀ fault, fails fault → others fault) :
    Outcome weaker others run := by
  cases run with
  | ok result => exact value result outcome
  | error reason => exact fault reason outcome

theorem bind {next : α → Except ε β} {after : β → Prop} (first : Outcome holds fails run)
    (second : ∀ value, run = .ok value → holds value → Outcome after fails (next value)) :
    Outcome after fails (run >>= next) := by
  cases run with
  | ok value => exact second value rfl first
  | error fault => exact first

theorem mapM {items : List α} {step : α → Except ε β} {related : α → β → Prop}
    (each : ∀ item ∈ items, Outcome (related item) fails (step item)) :
    Outcome (List.Forall₂ related items) fails (items.mapM step) := by
  induction items with
  | nil => exact .nil
  | cons item rest ih =>
    rw [List.mapM_cons]
    apply bind (each item (by simp))
    intro result _ first
    apply bind (ih fun _ later => each _ (by simp [later]))
    intro results _ others
    exact .cons first others

/-- A run on each item fails with the fault of the first item that fails. -/
theorem mapM_first (items : List α) (step : α → Except ε β) :
    Outcome (List.Forall₂ (fun item result => step item = .ok result) items)
      (fun fault => ∃ before item after, items = before ++ item :: after ∧
        (∀ earlier ∈ before, ∃ result, step earlier = .ok result) ∧ step item = .error fault)
      (items.mapM step) := by
  induction items with
  | nil => exact .nil
  | cons item rest ih =>
    rw [List.mapM_cons]
    cases ran : step item with
    | error fault => exact ⟨[], item, rest, rfl, by simp, ran⟩
    | ok result =>
      apply bind (ih.imp (fun _ all => all) _)
      · exact fun results _ others => .cons ran others
      · rintro fault ⟨before, failing, after, rfl, earlier, failed⟩
        exact ⟨item :: before, failing, after, rfl,
          List.forall_mem_cons.mpr ⟨⟨result, ran⟩, earlier⟩, failed⟩

theorem forM {items : List α} {step : α → Except ε Unit} {each : α → Prop}
    (every : ∀ item ∈ items, Outcome (fun _ => each item) fails (step item)) :
    Outcome (fun _ => ∀ item ∈ items, each item) fails (items.forM step) := by
  induction items with
  | nil =>
    intro item member
    contradiction
  | cons item rest ih =>
    change Outcome _ _ (step item >>= fun _ => rest.forM step)
    apply bind (every item (by simp))
    intro _ _ first
    apply (ih fun _ later => every _ (by simp [later])).imp _ fun _ fault => fault
    intro _ others other member
    rcases List.mem_cons.mp member with rfl | later
    · exact first
    · exact others other later

theorem foldlM {items : List α} {step : σ → α → Except ε σ} {init : σ}
    (holds : List α → σ → Prop) (start : holds [] init)
    (next : ∀ done item rest state, items = done ++ item :: rest → holds done state →
      Outcome (holds (done ++ [item])) fails (step state item)) :
    Outcome (holds items) fails (items.foldlM step init) := by
  have run : ∀ rest done state, items = done ++ rest → holds done state →
      Outcome (holds items) fails (rest.foldlM step state) := by
    intro rest
    induction rest with
    | nil =>
      intro done state split held
      rw [List.append_nil] at split
      exact split ▸ held
    | cons item rest ih =>
      intro done state split held
      rw [List.foldlM_cons]
      apply bind (next done item rest state split held)
      intro following _ kept
      exact ih (done ++ [item]) following (by simpa using split) kept
  exact run items [] init rfl start

end Outcome

/-- If the one run ends with a value, the other ends with the value that stands for it. -/
def Follows {ε α β : Type} (value : α → β) (run : Except ε α) (other : Except ε β) : Prop :=
  ∀ result, run = .ok result → other = .ok (value result)

namespace Follows

variable {ε σ τ α β γ δ : Type}

theorem error (value : α → β) (fault : ε) (other : Except ε β) :
    Follows value (.error fault) other := by
  intro result ran
  contradiction

theorem ok (value : α → β) (result : α) :
    Follows value (.ok result : Except ε α) (.ok (value result)) := by
  rintro _ ⟨⟩
  rfl

theorem bind {value : α → β} {last : γ → δ} {run : Except ε α} {other : Except ε β}
    {next : α → Except ε γ} {nextToo : β → Except ε δ} (first : Follows value run other)
    (second : ∀ result, run = .ok result →
      Follows last (next result) (nextToo (value result))) :
    Follows last (run >>= next) (other >>= nextToo) := by
  cases ran : run with
  | error fault => exact error last fault _
  | ok result =>
    rw [first result ran]
    exact second result ran

theorem mapM {value : α → β} {items : List γ} {step : γ → Except ε α} {other : γ → Except ε β}
    (each : ∀ item ∈ items, Follows value (step item) (other item)) :
    Follows (List.map value) (items.mapM step) (items.mapM other) := by
  induction items with
  | nil => exact ok _ []
  | cons item rest ih =>
    rw [List.mapM_cons, List.mapM_cons]
    apply bind (each item (by simp))
    intro result _
    apply bind (ih fun _ later => each _ (by simp [later]))
    intro results _
    exact ok _ (result :: results)

theorem foldlM {value : σ → τ} {items : List γ} {step : σ → γ → Except ε σ}
    {other : τ → γ → Except ε τ}
    (each : ∀ state item, Follows value (step state item) (other (value state) item))
    (start : σ) : Follows value (items.foldlM step start) (items.foldlM other (value start)) := by
  induction items generalizing start with
  | nil => exact ok value start
  | cons item rest ih =>
    rw [List.foldlM_cons, List.foldlM_cons]
    exact bind (each start item) fun next _ => ih next

end Follows
end MonthlyForecast
