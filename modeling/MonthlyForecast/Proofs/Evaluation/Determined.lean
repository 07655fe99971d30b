import MonthlyForecast.Evaluation.Model
import MonthlyForecast.Proofs.Evaluation.Ledger
import MonthlyForecast.Proofs.Tree.Placement

/-! Ledgers whose values are what the nodes say of them. A node's value is determined by
cells that are ready, in the ledger itself and whatever tree it is read in, so writing
a determined value again changes nothing, and without cycles the ready cells fix all
values. Which cells are ready is held exactly. -/
namespace MonthlyForecast.Model

/-- The values of nodes in one month, all of them ready. -/
def ReadyAt (ledger : Ledger) (place : Nat) : List NodeIndex → List (Option Float) → Prop :=
  List.Forall₂ fun node value => ledger.get node place = .ready value

/-- The value that a node has in a month, from cells that are ready. -/
def Determined (model : Model) (ledger : Ledger) (node : NodeIndex) (place : Nat) (month : Date)
    (value : Option Float) : Prop :=
  match model.graph.kind? node with
  | some (.data _ variableId offset) => value = model.series.value? variableId month offset.toInt
  | some (.constant _ number) => value = finite? number
  | some (.operator operation ids) => ∃ inputs values,
      ids.mapM (MetricTree.operand model.graph node) = .ok inputs ∧
        ReadyAt ledger place inputs values ∧ value = operation.combine values
  | some (.seed sourceId) => ∃ source, model.graph.index? sourceId = some source ∧
      match place with
      | 0 => value = ledger.months.head?.bind (model.openingValue source)
      | previous + 1 => ledger.get source previous = .ready value
  | some (.metric attributes) => ∃ values, ReadyAt ledger place (model.graph.parents node) values ∧
      value = model.rootValue attributes values month
  | none => False

/-- No ready cell is lost or changed. -/
structure Keeps (before after : Ledger) : Prop where
  months_eq : after.months = before.months
  ready : ∀ {node place value},
    before.get node place = .ready value → after.get node place = .ready value

/-- A ledger during a run: exactly the filled cells are ready, each with the value that
its node has. -/
structure Progress (model : Model) (months : List Date) (filled : NodeIndex → Nat → Prop)
    (ledger : Ledger) : Prop where
  months_eq : ledger.months = months
  sized : ledger.Sized model.graph.size
  ready_iff : ∀ node place, (∃ value, ledger.get node place = .ready value) ↔ filled node place
  determined : ∀ {node place month value}, ledger.get node place = .ready value →
    months[place]? = some month → model.Determined ledger node place month value

variable {model : Model} {months : List Date} {ledger before after : Ledger}
  {filled : NodeIndex → Nat → Prop} {node place : Nat} {month : Date} {value other : Option Float}

theorem get_eq_pending_iff {ledger : Ledger} {node place : Nat} :
    ledger.get node place = .pending ↔ ¬ ∃ value, ledger.get node place = .ready value := by
  cases ledger.get node place <;> simp

theorem ReadyAt.unique {nodes : List NodeIndex} {values others : List (Option Float)}
    (first : ReadyAt ledger place nodes values) (second : ReadyAt ledger place nodes others) :
    values = others := by
  induction first generalizing others with
  | nil =>
    cases second
    rfl
  | cons one _ ih =>
    cases second with
    | cons one' rest =>
      rw [ih rest, Cell.ready.inj (one.symm.trans one')]

theorem ReadyAt.keep {nodes : List NodeIndex} {values : List (Option Float)}
    (ready : ReadyAt before place nodes values) (keeps : Keeps before after) :
    ReadyAt after place nodes values :=
  ready.imp fun _ _ one => keeps.ready one

theorem ReadyAt.congr {others : Ledger} {nodes : List NodeIndex} {values : List (Option Float)}
    (ready : ReadyAt ledger place nodes values)
    (same : ∀ node ∈ nodes, ledger.get node place = others.get node place) :
    ReadyAt others place nodes values := by
  induction ready with
  | nil => exact .nil
  | cons one _ ih =>
    obtain ⟨head, tail⟩ := List.forall_mem_cons.mp same
    exact .cons (head ▸ one) (ih tail)

/-- Ledgers that agree on the inputs of a node and on the months before determine the same
value for it. -/
theorem Determined.agree {others : Ledger} (first : model.Determined ledger node place month value)
    (second : model.Determined others node place month other)
    (months_eq : ledger.months = others.months)
    (inputs : ∀ input, model.graph.Linked input node →
      ledger.get input place = others.get input place)
    (sources : ∀ source, ∀ earlier < place, ledger.get source earlier = others.get source earlier) :
    value = other := by
  unfold Determined at first second
  cases kind : model.graph.kind? node with
  | none =>
    rw [kind] at first
    contradiction
  | some kind' =>
    rw [kind] at first second
    cases kind' with
    | data | constant => exact first.trans second.symm
    | operator operation ids =>
      obtain ⟨operands, values, declared, ready, rfl⟩ := first
      obtain ⟨operands', values', declared', ready', rfl⟩ := second
      cases declared.symm.trans declared'
      have same : ∀ input ∈ operands, ledger.get input place = others.get input place := by
        intro input member
        obtain ⟨_, _, _, linked⟩ :=
          exists_left_of_forall₂ (MetricTree.operands_eq_ok declared) member
        exact inputs input linked
      rw [(ready.congr same).unique ready']
    | metric =>
      obtain ⟨values, ready, rfl⟩ := first
      obtain ⟨values', ready', rfl⟩ := second
      have same : ∀ input ∈ model.graph.parents node,
          ledger.get input place = others.get input place :=
        fun input member => inputs input (Graph.mem_parents_iff.mp member)
      rw [(ready.congr same).unique ready']
    | seed =>
      obtain ⟨source, found, first⟩ := first
      obtain ⟨source', found', second⟩ := second
      cases found.symm.trans found'
      cases place with
      | zero => exact first.trans (months_eq ▸ second.symm)
      | succ previous =>
        have same := sources source previous (Nat.lt_succ_self _)
        exact Cell.ready.inj (first.symm.trans (same.trans second))

theorem Determined.unique (first : model.Determined ledger node place month value)
    (second : model.Determined ledger node place month other) : value = other :=
  first.agree second rfl (fun _ _ => rfl) (fun _ _ _ => rfl)

theorem Determined.keep (determined : model.Determined before node place month value)
    (keeps : Keeps before after) : model.Determined after node place month value := by
  unfold Determined at *
  cases kind : model.graph.kind? node with
  | none =>
    rw [kind] at determined
    contradiction
  | some kind' =>
    rw [kind] at determined
    cases kind' with
    | data | constant => exact determined
    | operator =>
      obtain ⟨inputs, values, declared, ready, same⟩ := determined
      exact ⟨inputs, values, declared, ready.keep keeps, same⟩
    | metric =>
      obtain ⟨values, ready, same⟩ := determined
      exact ⟨values, ready.keep keeps, same⟩
    | seed =>
      obtain ⟨source, found, determined⟩ := determined
      refine ⟨source, found, ?_⟩
      cases place with
      | zero => exact keeps.months_eq ▸ determined
      | succ => exact keeps.ready determined

namespace Progress

theorem empty (model : Model) (months : List Date) :
    Progress model months (fun _ _ => False) (.empty model.graph.size months) where
  months_eq := rfl
  sized := Ledger.sized_empty _ _
  ready_iff := by simp [Ledger.get_empty]
  determined := by
    intro node place month value ready
    rw [Ledger.get_empty] at ready
    contradiction

theorem congr (progress : Progress model months filled ledger) {others : NodeIndex → Nat → Prop}
    (alike : ∀ node place, filled node place ↔ others node place) :
    Progress model months others ledger where
  months_eq := progress.months_eq
  sized := progress.sized
  ready_iff := fun node place => (progress.ready_iff node place).trans (alike node place)
  determined := progress.determined

/-- A write of the value that a node has anyway. -/
theorem insert_keeps (progress : Progress model months filled ledger)
    (inside : node < model.graph.size) (dated : months[place]? = some month)
    (determined : model.Determined ledger node place month value) :
    Keeps ledger (ledger.insert node place value) := by
  have placeInside : place < ledger.months.length :=
    progress.months_eq ▸ (List.getElem?_eq_some_iff.mp dated).1
  refine ⟨Ledger.months_insert .., ?_⟩
  intro other month' earlier ready
  -- Another tree may have filled the cell; what determined it then still does.
  by_cases same : other = node ∧ month' = place
  · obtain ⟨rfl, rfl⟩ := same
    rw [Ledger.get_insert_self progress.sized inside placeInside,
      determined.unique (progress.determined ready dated)]
  · rw [Ledger.get_insert_of_ne same]
    exact ready

theorem insert (progress : Progress model months filled ledger)
    (inside : node < model.graph.size) (dated : months[place]? = some month)
    (determined : model.Determined ledger node place month value) :
    Progress model months (fun n p => filled n p ∨ n = node ∧ p = place)
      (ledger.insert node place value) := by
  have placeInside : place < ledger.months.length :=
    progress.months_eq ▸ (List.getElem?_eq_some_iff.mp dated).1
  have keeps := progress.insert_keeps inside dated determined
  have own : (ledger.insert node place value).get node place = .ready value :=
    Ledger.get_insert_self progress.sized inside placeInside
  refine ⟨keeps.months_eq.trans progress.months_eq, progress.sized.insert placeInside, ?_, ?_⟩
  · intro other month'
    by_cases same : other = node ∧ month' = place
    · simp only [same, and_self, or_true, iff_true]
      exact ⟨value, own⟩
    · rw [Ledger.get_insert_of_ne same]
      simp only [same, or_false]
      exact progress.ready_iff other month'
  · intro other place' month' found ready dated'
    by_cases same : other = node ∧ place' = place
    · obtain ⟨rfl, rfl⟩ := same
      cases dated.symm.trans dated'
      cases Cell.ready.inj (own.symm.trans ready)
      exact determined.keep keeps
    · rw [Ledger.get_insert_of_ne same] at ready
      exact (progress.determined ready dated').keep keeps

end Progress
end MonthlyForecast.Model
