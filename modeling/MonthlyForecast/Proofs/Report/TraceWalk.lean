import MonthlyForecast.Proofs.Outcome
import MonthlyForecast.Report.Trace

/-! The entries of a trace. A walk only adds entries, each for a slot of the tree, with the
slot's node and the node's cell. A full entry says what its slot shows, and the first entry is
the root's, in full. -/
namespace MonthlyForecast

/-- The entry is no reference to another one. -/
def TraceEntry.IsFull (entry : TraceEntry) : Prop :=
  ∀ level, entry.detail ≠ .reference level

namespace MetricTree

/-- The entry is for a slot of the tree and says in full what the slot shows, or refers to an
entry that does. -/
def EntryOf (graph : Graph) (ledger : Ledger) (tree : MetricTree) (month : Nat)
    (entry : TraceEntry) : Prop :=
  ∃ place slot, tree.slots[place]? = some slot ∧ entry.node = graph.idOf slot.node ∧
    entry.value = ledger.get slot.node month ∧
    (entry.IsFull → entry.detail = (traceDetail graph ledger tree month place slot).1)

/-- A walk that went on from another: it has the entries of that one, and those it added are
for slots of the tree. -/
structure Walked (graph : Graph) (ledger : Ledger) (tree : MetricTree) (month : Nat)
    (before after : TraceWalk) : Prop where
  kept : before.entries <+: after.entries
  added : ∀ entry ∈ after.entries, entry ∈ before.entries ∨ EntryOf graph ledger tree month entry

variable {graph : Graph} {ledger : Ledger} {tree : MetricTree} {month : Nat}
  {first second third : TraceWalk}

theorem Walked.refl (walk : TraceWalk) : Walked graph ledger tree month walk walk :=
  ⟨List.prefix_refl _, fun _ => Or.inl⟩

theorem Walked.trans (one : Walked graph ledger tree month first second)
    (two : Walked graph ledger tree month second third) :
    Walked graph ledger tree month first third where
  kept := one.kept.trans two.kept
  added := fun entry member => (two.added entry member).elim (one.added entry) Or.inr

theorem Walked.snoc {entry : TraceEntry} (shows : EntryOf graph ledger tree month entry)
    (written : List (NodeIndex × Nat)) :
    Walked graph ledger tree month first ⟨written, first.entries ++ [entry]⟩ where
  kept := List.prefix_append _ _
  added := List.forall_mem_append.mpr
    ⟨fun _ => Or.inl, List.forall_mem_singleton.mpr (Or.inr shows)⟩

theorem walked_traceFrom (depth level : Nat) (rails : List Bool) (place : Nat) (walk : TraceWalk) :
    Walked graph ledger tree month walk
      (traceFrom graph ledger tree month depth level rails place walk) := by
  induction depth generalizing level rails place walk with
  | zero => exact .refl walk
  | succ depth ih =>
    unfold traceFrom
    split
    · exact .refl walk
    · rename_i slot stands
      split
      · rename_i seen _
        exact .snoc ⟨place, slot, stands, rfl, rfl, fun full => absurd rfl (full seen)⟩ _
      · have here : EntryOf graph ledger tree month
            ⟨level, rails, graph.idOf slot.node, ledger.get slot.node month,
              (traceDetail graph ledger tree month place slot).1⟩ :=
          ⟨place, slot, stands, rfl, rfl, fun _ => rfl⟩
        apply foldl_invariant fun _ after => Walked graph ledger tree month walk after
        · exact .snoc here _
        · intro _ _ sofar _ walked
          exact walked.trans (ih ..)

theorem entryOf_of_mem_traceEntries {entry : TraceEntry}
    (member : entry ∈ traceEntries graph ledger tree month) :
    EntryOf graph ledger tree month entry :=
  ((walked_traceFrom ..).added entry member).resolve_left List.not_mem_nil

theorem traceDetail_ne_reference (graph : Graph) (ledger : Ledger) (tree : MetricTree)
    (month place : Nat) (slot : TreeSlot) (level : Nat) :
    (traceDetail graph ledger tree month place slot).1 ≠ .reference level := by
  unfold traceDetail
  split <;> (try split) <;> (try split) <;> simp

/-- The trace begins with the root, in full. -/
theorem traceEntries_root {slot : TreeSlot} (stands : tree.slots[tree.rootPlace]? = some slot) :
    ∃ root rest, traceEntries graph ledger tree month = root :: rest ∧ root.IsFull ∧
      root.level = 1 ∧ root.rails = [] ∧ root.node = graph.idOf slot.node := by
  let detail := traceDetail graph ledger tree month tree.rootPlace slot
  let root : TraceEntry :=
    ⟨1, [], graph.idOf slot.node, ledger.get slot.node month, detail.1⟩
  have kept : [root] <+: traceEntries graph ledger tree month := by
    unfold traceEntries traceFrom
    simp only [stands, List.lookup_nil]
    apply foldl_invariant fun _ (after : TraceWalk) => [root] <+: after.entries
    · exact List.prefix_refl _
    · intro _ _ sofar _ standing
      exact standing.trans (Walked.kept (walked_traceFrom ..))
  obtain ⟨rest, whole⟩ := kept
  exact ⟨root, rest, whole.symm, traceDetail_ne_reference graph ledger tree month _ slot, rfl, rfl,
    rfl⟩

end MetricTree
end MonthlyForecast
