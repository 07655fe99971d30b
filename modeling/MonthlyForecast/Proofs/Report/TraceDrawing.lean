import Mathlib.Algebra.GroupWithZero.Nat
import MonthlyForecast.Proofs.Report.Audit
import MonthlyForecast.Proofs.Tree.Construction

/-! What a trace draws of a tree that is opened at its root. Each slot has one full entry, with
the entries of its inputs below it, and every further use of the slot is an entry that refers
to the full one. The walk is told apart from what it draws: a drawing is a form of the list of
entries alone, and the state of the walk only decides which entries are full. -/
namespace MonthlyForecast
open Relation

/-- The level of the entry that is referred to. -/
def TraceDetail.reference? : TraceDetail → Option Nat
  | reference level => some level
  | _ => none

namespace TraceEntry

/-- Every reference names the level of a full entry for its node that stands before it. -/
def RefersBack (entries : List TraceEntry) : Prop :=
  ∀ before entry after level, entries = before ++ entry :: after →
    entry.detail = .reference level →
      ∃ first ∈ before, first.IsFull ∧ first.node = entry.node ∧ first.level = level

theorem isFull_iff {entry : TraceEntry} : entry.IsFull ↔ entry.detail.reference? = none := by
  unfold IsFull
  cases entry.detail <;> simp [TraceDetail.reference?]

instance : DecidablePred IsFull :=
  fun _ => decidable_of_iff _ isFull_iff.symm

variable {entries : List TraceEntry} {entry : TraceEntry}

theorem filter_isFull_full (full : entry.IsFull) :
    (entry :: entries).filter (·.IsFull) = entry :: entries.filter (·.IsFull) :=
  List.filter_cons_of_pos (decide_eq_true full)

theorem filter_isFull_reference {level : Nat} (shape : entry.detail = .reference level) :
    (entry :: entries).filter (·.IsFull) = entries.filter (·.IsFull) :=
  List.filter_cons_of_neg fun full => of_decide_eq_true full level shape

theorem exists_reference_of_not_full (short : ¬ entry.IsFull) :
    ∃ level, entry.detail = .reference level := by
  simpa [IsFull] using short

theorem RefersBack.snoc (refers : RefersBack entries)
    (earlier : ∀ level, entry.detail = .reference level →
      ∃ first ∈ entries, first.IsFull ∧ first.node = entry.node ∧ first.level = level) :
    RefersBack (entries ++ [entry]) := by
  intro before other after level whole shape
  rcases List.eq_nil_or_concat after with rfl | ⟨rest, last, rfl⟩
  · obtain ⟨rfl, same⟩ := List.append_inj' whole rfl
    obtain rfl := List.singleton_inj.mp same
    exact earlier level shape
  · have split : entries ++ [entry] = (before ++ other :: rest) ++ [last] := by simp [whole]
    exact refers before other rest level (List.append_inj' split rfl).1 shape

/-- Whatever has an entry has a full one. -/
theorem RefersBack.exists_full (refers : RefersBack entries) (member : entry ∈ entries) :
    ∃ first ∈ entries, first.IsFull ∧ first.node = entry.node := by
  by_cases full : entry.IsFull
  · exact ⟨entry, member, full, rfl⟩
  · obtain ⟨level, shape⟩ := exists_reference_of_not_full full
    obtain ⟨before, after, whole⟩ := List.append_of_mem member
    obtain ⟨first, among, full, same, _⟩ := refers before entry after level whole shape
    exact ⟨first, by simp [whole, among], full, same⟩

end TraceEntry

namespace MetricTree

/-- The inputs below an entry, each with its rails: those of the entry, and whether another
input follows. -/
def branches (rails : List Bool) (inputs : List Nat) : List (List Bool × Nat) :=
  inputs.zipIdx.map fun input => (rails ++ [decide (input.2 + 1 < inputs.length)], input.1)

/-- Entries that draw places of the tree on one level. The inputs of a slot that is drawn in
full stand below it, one level on, before the place that comes next. -/
inductive Drawn (graph : Graph) (ledger : Ledger) (tree : MetricTree) (month : Nat) :
    Nat → List (List Bool × Nat) → List TraceEntry → Prop where
  | nil {level : Nat} : Drawn graph ledger tree month level [] []
  | reference {level place first : Nat} {rails : List Bool} {slot : TreeSlot}
      {rest : List (List Bool × Nat)} {later : List TraceEntry}
      (stands : tree.slots[place]? = some slot)
      (others : Drawn graph ledger tree month level rest later) :
      Drawn graph ledger tree month level ((rails, place) :: rest)
        (⟨level, rails, graph.idOf slot.node, ledger.get slot.node month, .reference first⟩ ::
          later)
  | full {level place : Nat} {rails : List Bool} {slot : TreeSlot}
      {rest : List (List Bool × Nat)} {below later : List TraceEntry}
      (stands : tree.slots[place]? = some slot)
      (inputs : Drawn graph ledger tree month (level + 1) (branches rails slot.inputs) below)
      (others : Drawn graph ledger tree month level rest later) :
      Drawn graph ledger tree month level ((rails, place) :: rest)
        (⟨level, rails, graph.idOf slot.node, ledger.get slot.node month,
          (traceDetail graph ledger tree month place slot).1⟩ :: (below ++ later))

/-- The entries draw the tree: all of it from its root, each slot once in full. -/
structure Draws (graph : Graph) (ledger : Ledger) (tree : MetricTree) (month : Nat)
    (entries : List TraceEntry) : Prop where
  drawn : Drawn graph ledger tree month 1 [([], tree.rootPlace)] entries
  /-- One cell of marks for each step from the root. -/
  level_eq : ∀ entry ∈ entries, entry.level = entry.rails.length + 1
  /-- The root, and every use of a slot as an input. -/
  length_eq : entries.length = 1 + (tree.slots.map (·.inputs.length)).sum
  apart : (tree.slots.map fun slot => graph.idOf slot.node).Nodup
  full_perm : ((entries.filter (·.IsFull)).map (·.node)).Perm
    (tree.slots.map fun slot => graph.idOf slot.node)
  refersBack : TraceEntry.RefersBack entries

/-- The entry is for a slot whose inputs have entries. -/
def WithInputs (graph : Graph) (tree : MetricTree) (entries : List TraceEntry)
    (entry : TraceEntry) : Prop :=
  ∃ (place : Nat) (slot : TreeSlot), tree.slots[place]? = some slot ∧
    entry.node = graph.idOf slot.node ∧ ∀ input ∈ slot.inputs, ∀ other : TreeSlot,
      tree.slots[input]? = some other → ∃ below ∈ entries, below.node = graph.idOf other.node

/-- The number of inputs of the slot that has the id. -/
def inputCount (graph : Graph) (tree : MetricTree) (id : String) : Nat :=
  ((tree.slots.find? (graph.idOf ·.node == id)).map (·.inputs.length)).getD 0

/-- The root's value comes from an input. -/
def OpensRoot (graph : Graph) (tree : MetricTree) : Prop :=
  ∃ attributes inputs, graph.kind? tree.root = some (.metric attributes) ∧
    tree.slots[tree.rootPlace]? = some ⟨tree.root, inputs⟩ ∧
    attributes.useCalculated ∧ inputs ≠ []

variable {graph : Graph} {ledger : Ledger} {tree : MetricTree} {month level place : Nat}
  {rails : List Bool} {slot : TreeSlot} {places others : List (List Bool × Nat)}
  {entries later : List TraceEntry} {entry : TraceEntry}

/-! What a drawing shows. -/

theorem WithInputs.mono (shown : WithInputs graph tree entries entry) (kept : entries ⊆ later) :
    WithInputs graph tree later entry := by
  obtain ⟨place, slot, stands, same, inputs⟩ := shown
  refine ⟨place, slot, stands, same, fun input among other stands' => ?_⟩
  obtain ⟨below, listed, same⟩ := inputs input among other stands'
  exact ⟨below, kept listed, same⟩

theorem inputCount_idOf (apart : (tree.slots.map fun slot => graph.idOf slot.node).Nodup)
    (member : slot ∈ tree.slots) : inputCount graph tree (graph.idOf slot.node) =
      slot.inputs.length := by
  have found := (find?_key_eq_some_iff apart).mpr ⟨member, rfl⟩
  rw [inputCount, found]
  rfl

theorem length_branches (rails : List Bool) (inputs : List Nat) :
    (branches rails inputs).length = inputs.length := by
  simp [branches]

namespace Drawn

theorem append (drawn : Drawn graph ledger tree month level places entries)
    (behind : Drawn graph ledger tree month level others later) :
    Drawn graph ledger tree month level (places ++ others) (entries ++ later) := by
  induction drawn with
  | nil => exact behind
  | reference stands _ ih => exact .reference stands (ih behind)
  | full stands inputs _ _ ih =>
    rw [List.cons_append, List.cons_append, List.append_assoc]
    exact .full stands inputs (ih behind)

/-- Every place that is drawn has an entry. -/
theorem exists_entry (drawn : Drawn graph ledger tree month level places entries)
    (member : (rails, place) ∈ places) (stands : tree.slots[place]? = some slot) :
    ∃ entry ∈ entries, entry.node = graph.idOf slot.node := by
  induction drawn with
  | nil => contradiction
  | reference stands' _ ih | full stands' _ _ _ ih =>
    rcases List.mem_cons.mp member with same | among
    · cases same
      cases stands.symm.trans stands'
      exact ⟨_, List.mem_cons_self, rfl⟩
    · obtain ⟨entry, listed, same⟩ := ih among
      exact ⟨entry, by simp [listed], same⟩

theorem level_eq (drawn : Drawn graph ledger tree month level places entries)
    (heights : ∀ branch ∈ places, level = branch.1.length + 1) (member : entry ∈ entries) :
    entry.level = entry.rails.length + 1 := by
  induction drawn with
  | nil => contradiction
  | reference _ _ ih =>
    rw [List.forall_mem_cons] at heights
    rcases List.mem_cons.mp member with rfl | later
    · exact heights.1
    · exact ih heights.2 later
  | full _ _ _ ih ih' =>
    rw [List.forall_mem_cons] at heights
    rcases List.mem_cons.mp member with rfl | among
    · exact heights.1
    · rcases List.mem_append.mp among with below | later
      · refine ih (fun branch inner => ?_) below
        obtain ⟨_, _, rfl⟩ := List.mem_map.mp inner
        simpa using heights.1
      · exact ih' heights.2 later

/-- Below a full entry all inputs of its slot have entries. -/
theorem withInputs (drawn : Drawn graph ledger tree month level places entries)
    (member : entry ∈ entries) (full : entry.IsFull) : WithInputs graph tree entries entry := by
  induction drawn with
  | nil => contradiction
  | reference stands _ ih =>
    rcases List.mem_cons.mp member with rfl | among
    · exact absurd rfl (full _)
    · exact (ih among).mono (List.subset_cons_self _ _)
  | @full level place rails slot rest below later stands inputs _ ih ih' =>
    rcases List.mem_cons.mp member with rfl | among
    · refine ⟨place, slot, stands, rfl, fun input among other stands' => ?_⟩
      obtain ⟨position, found⟩ := List.mem_iff_getElem?.mp among
      have branch : (rails ++ [decide (position + 1 < slot.inputs.length)], input) ∈
          branches rails slot.inputs :=
        List.mem_map.mpr ⟨(input, position), List.mem_zipIdx_iff_getElem?.mpr found, rfl⟩
      obtain ⟨entry, listed, same⟩ := inputs.exists_entry branch stands'
      exact ⟨entry, by simp [listed], same⟩
    · rcases List.mem_append.mp among with inner | behind
      · exact (ih inner).mono fun _ listed => by simp [listed]
      · exact (ih' behind).mono fun _ listed => by simp [listed]

/-- Each entry is for a place to draw or for an input of a slot that is drawn in full. -/
theorem length_eq (drawn : Drawn graph ledger tree month level places entries)
    (apart : (tree.slots.map fun slot => graph.idOf slot.node).Nodup) :
    entries.length = places.length +
      (((entries.filter (·.IsFull)).map (·.node)).map (inputCount graph tree)).sum := by
  induction drawn with
  | nil => rfl
  | reference stands _ ih =>
    rw [TraceEntry.filter_isFull_reference rfl, List.length_cons, ih, List.length_cons]
    omega
  | @full level place rails slot rest below later stands _ _ ih ih' =>
    rw [TraceEntry.filter_isFull_full]
    · simp only [List.length_cons, List.length_append, List.filter_append, List.map_cons,
        List.map_append, List.sum_cons, List.sum_append, ih, ih', length_branches,
        inputCount_idOf apart (List.mem_of_getElem? stands)]
      omega
    · exact traceDetail_ne_reference graph ledger tree month place slot

end Drawn

end MetricTree

/-! The walk. -/

/-- What a walk has written: its full entries in their order, for different nodes. -/
structure TraceWalk.Sound (graph : Graph) (walk : TraceWalk) : Prop where
  written_eq : (walk.entries.filter (·.IsFull)).map (fun entry => (entry.node, entry.level)) =
    walk.written.reverse.map fun (node, level) => (graph.idOf node, level)
  distinct : (walk.written.map (·.1)).Nodup
  inside : ∀ known ∈ walk.written, known.1 < graph.size
  refersBack : TraceEntry.RefersBack walk.entries

namespace TraceWalk.Sound

variable {graph : Graph} {walk : TraceWalk} {entry : TraceEntry} {node : NodeIndex} {level : Nat}

theorem refer (sound : walk.Sound graph) (known : walk.written.lookup node = some level)
    (named : entry.node = graph.idOf node) (shape : entry.detail = .reference level) :
    Sound graph { walk with entries := walk.entries ++ [entry] } where
  written_eq := by
    rw [List.filter_append, TraceEntry.filter_isFull_reference shape]
    simpa using sound.written_eq
  distinct := sound.distinct
  inside := sound.inside
  refersBack := by
    obtain ⟨before, after, whole, _⟩ := List.lookup_eq_some_iff.mp known
    have written : (graph.idOf node, level) ∈
        walk.written.reverse.map fun (node, level) => (graph.idOf node, level) := by
      simp [whole]
    rw [← sound.written_eq] at written
    obtain ⟨first, listed, same⟩ := List.mem_map.mp written
    obtain ⟨among, full⟩ := List.mem_filter.mp listed
    obtain ⟨node_eq, level_eq⟩ := Prod.mk.inj same
    refine sound.refersBack.snoc fun other shape' => ?_
    cases shape.symm.trans shape'
    exact ⟨first, among, of_decide_eq_true full, node_eq.trans named.symm, level_eq⟩

theorem write (sound : walk.Sound graph) (unknown : walk.written.lookup node = none)
    (inside : node < graph.size) (named : entry.node = graph.idOf node)
    (height : entry.level = level) (full : entry.IsFull) :
    Sound graph ⟨(node, level) :: walk.written, walk.entries ++ [entry]⟩ where
  written_eq := by
    rw [List.filter_append, TraceEntry.filter_isFull_full full]
    simp [sound.written_eq, named, height]
  distinct := by
    refine List.nodup_cons.mpr ⟨?_, sound.distinct⟩
    intro member
    obtain ⟨known, among, same⟩ := List.mem_map.mp member
    simpa [same] using List.lookup_eq_none_iff.mp unknown known among
  inside := List.forall_mem_cons.mpr ⟨inside, sound.inside⟩
  refersBack := sound.refersBack.snoc fun level shape => absurd shape (full level)

theorem full_nodup (sound : walk.Sound graph) (resolved : graph.Resolved) :
    ((walk.entries.filter (·.IsFull)).map (·.node)).Nodup := by
  have nodes := congrArg (List.map Prod.fst) sound.written_eq
  simp only [List.map_map, Function.comp_def] at nodes
  rw [nodes, List.map_reverse, List.nodup_reverse]
  have ids := resolved.nodup_map_idOf sound.distinct (List.forall_mem_map.mpr sound.inside)
  rwa [List.map_map] at ids

end TraceWalk.Sound

namespace MetricTree

/-- A walk went on from another by drawing places of the tree. -/
structure WalkDraws (graph : Graph) (ledger : Ledger) (tree : MetricTree) (month level : Nat)
    (places : List (List Bool × Nat)) (before after : TraceWalk) : Prop where
  sound : after.Sound graph
  drawn : ∃ added, after.entries = before.entries ++ added ∧
    Drawn graph ledger tree month level places added

variable {graph : Graph} {ledger : Ledger} {tree : MetricTree} {month level place : Nat}
  {places others : List (List Bool × Nat)} {first second third : TraceWalk} {slot : TreeSlot}

theorem WalkDraws.trans (one : WalkDraws graph ledger tree month level places first second)
    (two : WalkDraws graph ledger tree month level others second third) :
    WalkDraws graph ledger tree month level (places ++ others) first third where
  sound := two.sound
  drawn := by
    obtain ⟨added, whole, drawn⟩ := one.drawn
    obtain ⟨more, whole', drawn'⟩ := two.drawn
    exact ⟨added ++ more, by rw [whole', whole, List.append_assoc], drawn.append drawn'⟩

/-- Every slot is opened as far as it has inputs, if the root is. -/
theorem Built.opened_eq (built : Built graph tree) (opens : OpensRoot graph tree)
    (ledger : Ledger) (month : Nat) (stands : tree.slots[place]? = some slot) :
    (traceDetail graph ledger tree month place slot).2 = slot.inputs := by
  obtain ⟨inputs, declared, linked⟩ := built.placed.inputs_at stands
  have none_of (nothing : inputsWithin graph tree.root slot.node = .ok []) : [] = slot.inputs := by
    cases nothing.symm.trans declared
    exact (List.forall₂_nil_right_iff.mp linked).symm
  unfold traceDetail
  cases kind : graph.kind? slot.node with
  | none => exact none_of (by simp only [inputsWithin, kind])
  | some shape =>
    cases shape with
    | data | constant | seed => exact none_of (by simp only [inputsWithin, kind])
    | operator => rfl
    | metric attributes =>
      by_cases last : place = tree.rootPlace
      · obtain ⟨_, _, rootKind, rootStands, calculated, some_inputs⟩ := opens
        rw [last, rootStands] at stands
        cases stands
        cases kind.symm.trans rootKind
        simp [last, calculated, some_inputs]
      · have other := mt (built.rootPlace_iff stands).mpr last
        simp only [ne_eq, last, not_false_eq_true, if_true]
        exact none_of (by simp only [inputsWithin, kind, if_neg other])

theorem WalkDraws.refl (sound : first.Sound graph) :
    WalkDraws graph ledger tree month level [] first first :=
  ⟨sound, [], (List.append_nil _).symm, .nil⟩

/-- The inputs of an entry, one after another. -/
theorem WalkDraws.foldl {rails : List Bool} {inputs : List Nat}
    {step : TraceWalk → Nat × Nat → TraceWalk} (sound : first.Sound graph)
    (each : ∀ input ∈ inputs, ∀ position (walk : TraceWalk), walk.Sound graph →
      WalkDraws graph ledger tree month level
        [(rails ++ [decide (position + 1 < inputs.length)], input)] walk
        (step walk (input, position))) :
    WalkDraws graph ledger tree month level (branches rails inputs) first
      (inputs.zipIdx.foldl step first) := by
  apply foldl_invariant fun (done : List (Nat × Nat)) after =>
    WalkDraws graph ledger tree month level
      (done.map fun input => (rails ++ [decide (input.2 + 1 < inputs.length)], input.1)) first after
  · exact .refl sound
  · rintro done ⟨input, position⟩ sofar member draws
    rw [List.map_append]
    exact draws.trans (each input (List.fst_mem_of_mem_zipIdx member) position sofar draws.sound)

/-- A slot is drawn in full with its inputs below it. -/
theorem WalkDraws.full {rails : List Bool} {written : List (NodeIndex × Nat)}
    (stands : tree.slots[place]? = some slot)
    (below : WalkDraws graph ledger tree month (level + 1) (branches rails slot.inputs)
      ⟨written, first.entries ++ [⟨level, rails, graph.idOf slot.node, ledger.get slot.node month,
        (traceDetail graph ledger tree month place slot).1⟩]⟩ second) :
    WalkDraws graph ledger tree month level [(rails, place)] first second where
  sound := below.sound
  drawn := by
    obtain ⟨added, whole, drawn⟩ := below.drawn
    exact ⟨_, by rw [whole, List.append_assoc, List.append_nil]; rfl, .full stands drawn .nil⟩

/-- A walk from a place draws it. The inputs of a built slot stand before it, so the depth
suffices. -/
theorem traceFrom_draws (built : Built graph tree) (opens : OpensRoot graph tree)
    (depth level : Nat) (rails : List Bool) (place : Nat) (walk : TraceWalk)
    (sound : walk.Sound graph) (stands : tree.slots[place]? = some slot)
    (enough : place < depth) :
    WalkDraws graph ledger tree month level [(rails, place)] walk
      (traceFrom graph ledger tree month depth level rails place walk) := by
  induction depth generalizing level rails place walk slot with
  | zero => contradiction
  | succ depth ih =>
    unfold traceFrom
    simp only [stands]
    split
    · rename_i known
      exact ⟨sound.refer known rfl rfl, _, rfl, .reference stands .nil⟩
    · -- The first time the slot is written in full, and its inputs stand at earlier places.
      rename_i unknown
      have full := traceDetail_ne_reference graph ledger tree month place slot
      have inside := built.inside slot (List.mem_of_getElem? stands)
      obtain ⟨_, _, linked⟩ := built.placed.inputs_at stands
      rw [built.opened_eq opens ledger month stands]
      refine .full stands (.foldl (sound.write unknown inside rfl rfl full) ?_)
      intro input member position walk sofar
      obtain ⟨_, _, before, other, standing, _⟩ := exists_left_of_forall₂ linked.flip member
      exact ih (level + 1) _ input walk sofar standing (by omega)

/-! The whole trace. -/

variable {entries : List TraceEntry} {node : NodeIndex}

theorem Built.ids_nodup (built : Built graph tree) (resolved : graph.Resolved) :
    (tree.slots.map fun slot => graph.idOf slot.node).Nodup := by
  have ids := resolved.nodup_map_idOf built.placed.nodes_nodup
    (List.forall_mem_map.mpr built.inside)
  rwa [List.map_map] at ids

/-- What the root uses has a full entry, since below a full entry all inputs have entries. -/
theorem Drawn.exists_full (built : Built graph tree) (resolved : graph.Resolved)
    (drawn : Drawn graph ledger tree month 1 [([], tree.rootPlace)] entries)
    (refers : TraceEntry.RefersBack entries)
    (path : ReflTransGen (Uses graph tree.root) tree.root node) :
    ∃ entry ∈ entries, entry.IsFull ∧ entry.node = graph.idOf node := by
  have full_of_entry : ∀ node, (∃ entry ∈ entries, entry.node = graph.idOf node) →
      ∃ entry ∈ entries, entry.IsFull ∧ entry.node = graph.idOf node := by
    rintro node ⟨entry, listed, same⟩
    obtain ⟨first, among, full, same'⟩ := refers.exists_full listed
    exact ⟨first, among, full, same'.trans same⟩
  induction path with
  | refl =>
    obtain ⟨_, stands⟩ := built.root_stands
    exact full_of_entry _ (drawn.exists_entry List.mem_cons_self stands)
  | @tail middle input path uses ih =>
    obtain ⟨entry, listed, full, same⟩ := ih
    obtain ⟨place, slot, stands, same', shown⟩ := drawn.withInputs listed full
    obtain ⟨held, among, rfl⟩ := built.holds_iff.mpr path
    obtain ⟨inputs, declared, member⟩ := uses
    obtain ⟨inputs', declared', linked⟩ := built.placed.inputs_at stands
    have node_eq : slot.node = held.node := resolved.idOf_injective
      (built.inside slot (List.mem_of_getElem? stands)) (built.inside held among)
      (same'.symm.trans same)
    cases declared.symm.trans (node_eq ▸ declared')
    obtain ⟨earlier, among, _, other, standing, rfl⟩ := exists_left_of_forall₂ linked member
    exact full_of_entry _ (shown earlier among other standing)

variable {attributes : Metric} {inputs : List Nat}

/-- The full entries are those of the slots. -/
theorem Drawn.full_perm (built : Built graph tree) (resolved : graph.Resolved)
    (drawn : Drawn graph ledger tree month 1 [([], tree.rootPlace)] entries)
    (refers : TraceEntry.RefersBack entries)
    (once : ((entries.filter (·.IsFull)).map (·.node)).Nodup) :
    ((entries.filter (·.IsFull)).map (·.node)).Perm
      (tree.slots.map fun slot => graph.idOf slot.node) := by
  rw [List.perm_ext_iff_of_nodup once (built.ids_nodup resolved)]
  intro id
  constructor
  · intro member
    obtain ⟨entry, listed, rfl⟩ := List.mem_map.mp member
    obtain ⟨among, full⟩ := List.mem_filter.mp listed
    obtain ⟨_, slot, stands, same, _⟩ := drawn.withInputs among (of_decide_eq_true full)
    exact List.mem_map.mpr ⟨slot, List.mem_of_getElem? stands, same.symm⟩
  · intro member
    obtain ⟨slot, among, rfl⟩ := List.mem_map.mp member
    obtain ⟨entry, listed, full, same⟩ :=
      drawn.exists_full built resolved refers (built.used slot among)
    exact List.mem_map.mpr ⟨entry, List.mem_filter.mpr ⟨listed, decide_eq_true full⟩, same⟩

theorem WalkDraws.draws (built : Built graph tree) (resolved : graph.Resolved)
    (walked : WalkDraws graph ledger tree month 1 [([], tree.rootPlace)] ⟨[], []⟩ second) :
    Draws graph ledger tree month second.entries := by
  obtain ⟨sound, _, rfl, drawn⟩ := walked
  have apart := built.ids_nodup resolved
  have full_perm := drawn.full_perm built resolved sound.refersBack (sound.full_nodup resolved)
  exact {
    drawn := drawn
    level_eq := fun entry member => drawn.level_eq (by simp) member
    length_eq := by
      rw [drawn.length_eq apart, (full_perm.map _).sum_nat, List.map_map]
      congr 2
      exact List.map_congr_left fun slot member => inputCount_idOf apart member
    apart := apart
    full_perm := full_perm
    refersBack := sound.refersBack }

/-- The trace of a tree that is opened at its root draws the tree. -/
theorem traceEntries_draws (built : Built graph tree) (resolved : graph.Resolved)
    (opens : OpensRoot graph tree) :
    Draws graph ledger tree month (traceEntries graph ledger tree month) := by
  obtain ⟨_, stands⟩ := built.root_stands
  have start : TraceWalk.Sound graph ⟨[], []⟩ :=
    ⟨rfl, List.nodup_nil, by simp, fun before entry after level whole => by simp at whole⟩
  have inside := (List.getElem?_eq_some_iff.mp stands).1
  exact (traceFrom_draws built opens (tree.slots.length + 1) 1 [] tree.rootPlace _ start stands
    (Nat.lt_succ_of_lt inside)).draws built resolved

/-- A root whose value does not come from an input is all there is to its trace. -/
theorem traceEntries_of_fallback (kind : graph.kind? tree.root = some (.metric attributes))
    (stands : tree.slots[tree.rootPlace]? = some ⟨tree.root, inputs⟩)
    (closed : ¬ (attributes.useCalculated ∧ inputs ≠ [])) :
    traceEntries graph ledger tree month = [⟨1, [], graph.idOf tree.root,
      ledger.get tree.root month, .fallback attributes.label⟩] := by
  have shows : traceDetail graph ledger tree month tree.rootPlace ⟨tree.root, inputs⟩ =
      (.fallback attributes.label, []) := by
    simp only [traceDetail, kind, ne_eq, not_true_eq_false, if_false]
    exact if_neg closed
  simp only [traceEntries, traceFrom, stands, List.lookup_nil, shows]
  rfl

/-- The trace of a built tree, for any ledger and any of its months: below the heading, if the
root's value comes from an input, the whole tree, each slot once in full and each further use
of it as a reference back; otherwise the root alone, with its fallback. -/
theorem trace_draws (nodes : List Node) (edges : List Edge) (metric : NodeIndex)
    (tree : MetricTree) (ledger : Ledger) (month : Nat) (date : Date)
    (found : build (Graph.ofLists nodes edges) metric = .ok tree)
    (dated : ledger.months[month]? = some date) :
    let graph := Graph.ofLists nodes edges
    let entries := traceEntries graph ledger tree month
    ∃ attributes inputs, graph.kind? metric = some (.metric attributes) ∧
      tree.slots[tree.rootPlace]? = some ⟨metric, inputs⟩ ∧
      tree.trace graph ledger month = Request.auditHeading attributes.label date ++
        String.join (entries.map (·.lineText)) ∧
      (attributes.useCalculated ∧ inputs ≠ [] → Draws graph ledger tree month entries) ∧
      (¬ (attributes.useCalculated ∧ inputs ≠ []) → entries = [⟨1, [], graph.idOf metric,
        ledger.get metric month, .fallback attributes.label⟩]) := by
  intro graph entries
  have resolved : graph.Resolved := Graph.ofLists_resolved nodes edges
  have isMetric : graph.isMetric metric := by
    by_contra other
    rw [build, if_neg other] at found
    contradiction
  obtain ⟨rfl, built⟩ := (build_outcome resolved isMetric).of_ok found
  obtain ⟨attributes, kind⟩ := Graph.isMetric_iff_kind?.mp isMetric
  obtain ⟨inputs, stands⟩ := built.root_stands
  have label : graph.label tree.root = attributes.label := by
    rw [Graph.label, kind]
    rfl
  refine ⟨attributes, inputs, kind, stands, ?_, ?_, traceEntries_of_fallback kind stands⟩
  · rw [Request.trace_eq_of_dated dated, label]
  · rintro ⟨calculated, some_inputs⟩
    exact traceEntries_draws built resolved
      ⟨attributes, inputs, kind, stands, calculated, some_inputs⟩

theorem trace_draws_square :
    let graph := Graph.ofLists squareNodes squareEdges
    let ledger := Ledger.empty 3 [⟨2025, 1, 1, by decide⟩]
    build graph 0 = .ok squareTree ∧ ledger.months[0]? = some ⟨2025, 1, 1, by decide⟩ ∧
      Draws graph ledger squareTree 0 (traceEntries graph ledger squareTree 0) ∧
      (traceEntries graph ledger squareTree 0).length = 4 := by
  intro graph ledger
  have found : build graph 0 = .ok squareTree := by decide +kernel
  have dated : ledger.months[0]? = some ⟨2025, 1, 1, by decide⟩ := rfl
  have area : graph.kind? 0 = some (.metric ⟨"Area", none, none, true⟩) := by decide +kernel
  obtain ⟨attributes, inputs, kind, stands, _, draws, _⟩ :=
    trace_draws squareNodes squareEdges 0 squareTree ledger 0 _ found dated
  cases kind.symm.trans area
  have root : squareTree.slots[squareTree.rootPlace]? = some ⟨0, [1]⟩ := rfl
  cases stands.symm.trans root
  have drawn := draws ⟨rfl, by simp⟩
  exact ⟨found, dated, drawn, drawn.length_eq⟩

end MetricTree
end MonthlyForecast
