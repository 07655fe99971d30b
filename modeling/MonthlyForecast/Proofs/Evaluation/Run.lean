import MonthlyForecast.Proofs.Evaluation.Slots

/-! What a run leaves, from one tree to all months, for trees in any order. The trees done in
a month fill the cells of the nodes that they hold. An operator without inputs stops a run,
and so does an order in which a tree is evaluated before the tree of a metric that it reads;
this shows in the first month. -/
namespace MonthlyForecast.Model
open MetricTree

variable {model : Model} {months : List Date} {ledger : Ledger} {node place : Nat} {month : Date}
  {tree : MetricTree} {trees : List MetricTree}

/-- Some tree holds the node. -/
def InTrees (trees : List MetricTree) (node : NodeIndex) : Prop :=
  ∃ tree ∈ trees, Holds tree.slots node

theorem inTrees_perm {others : List MetricTree} (arranged : others.Perm trees) :
    InTrees others node ↔ InTrees trees node := by
  simp only [InTrees, arranged.mem_iff]

/-- Every seed of the trees has a metric as its source. -/
def SourcesFound (graph : Graph) (trees : List MetricTree) : Prop :=
  ∀ tree ∈ trees, ∀ slot ∈ tree.slots, ∀ id, graph.kind? slot.node = some (.seed id) →
    ∃ source, graph.index? id = some source ∧ graph.isMetric source

/-- The cells of a month that the trees fill, beside all those of earlier months. -/
def FilledUpTo (trees done : List MetricTree) (place : Nat) (node : NodeIndex) (month : Nat) :
    Prop :=
  InTrees trees node ∧ month < place ∨ InTrees done node ∧ month = place

/-- Every metric that a tree does not open has its own tree before it. -/
def Admissible (graph : Graph) (trees : List MetricTree) : Prop :=
  ∀ earlier tree later, trees = earlier ++ tree :: later → ∀ slot ∈ tree.slots,
    IsForeign graph tree.root slot.node → ∃ other ∈ earlier, other.root = slot.node

theorem inTrees_of_isMetric (forest : Forest model.graph trees)
    (isMetric : model.graph.isMetric node) : InTrees trees node := by
  obtain ⟨tree, member, rfl⟩ := forest.complete node isMetric
  exact ⟨tree, member, (forest.built tree member).2.holds_iff.mpr .refl⟩

theorem inTrees_lt (forest : Forest model.graph trees) (held : InTrees trees node) :
    node < model.graph.size := by
  obtain ⟨tree, member, slot, among, rfl⟩ := held
  exact (forest.built tree member).2.inside slot among

theorem admissible_of_scheduled (scheduled : Scheduled model.graph trees) :
    Admissible model.graph trees := by
  rintro earlier tree later whole slot among ⟨isMetric, inner⟩
  have built := (scheduled.built tree (whole ▸ (by simp))).2
  have reads : slot.node ∈ tree.reads model.graph :=
    (mem_reads_iff built).mpr ⟨slot, among, Or.inr ⟨isMetric, rfl, inner⟩⟩
  exact scheduled.sorted earlier tree later whole _ reads isMetric inner

/-- In an admissible order a metric enters with its own tree. -/
theorem Admissible.exists_root (admissible : Admissible model.graph trees)
    (held : InTrees trees node) (isMetric : model.graph.isMetric node) :
    ∃ tree ∈ trees, tree.root = node := by
  obtain ⟨tree, member, slot, among, rfl⟩ := held
  by_cases own : slot.node = tree.root
  · exact ⟨tree, member, own.symm⟩
  · obtain ⟨earlier, later, whole⟩ := List.append_of_mem member
    obtain ⟨other, before, root⟩ := admissible earlier tree later whole slot among ⟨isMetric, own⟩
    exact ⟨other, whole ▸ List.mem_append_left _ before, root⟩

theorem Admissible.concat (admissible : Admissible model.graph trees)
    (last : ∀ slot ∈ tree.slots, IsForeign model.graph tree.root slot.node →
      ∃ other ∈ trees, other.root = slot.node) : Admissible model.graph (trees ++ [tree]) := by
  intro earlier other later whole
  rcases List.eq_nil_or_concat later with rfl | ⟨between, final, rfl⟩
  · obtain ⟨rfl, same⟩ := List.append_inj' whole rfl
    obtain rfl := List.singleton_inj.mp same
    exact last
  · have split : trees ++ [tree] = (earlier ++ other :: between) ++ [final] := by simpa using whole
    exact admissible earlier other between (List.append_inj' split rfl).1

theorem filledUpTo_concat (trees done : List MetricTree) (tree : MetricTree)
    (place node month : Nat) :
    FilledUpTo trees (done ++ [tree]) place node month ↔
      FilledBy (FilledUpTo trees done place) place tree.slots node month := by
  simp only [FilledUpTo, FilledBy, InTrees, List.mem_append, List.mem_singleton, or_and_right,
    exists_or, exists_eq_left, or_assoc]

/-- The trees evaluated so far in a month. -/
structure MonthProgress (model : Model) (months : List Date) (trees done : List MetricTree)
    (place : Nat) (ledger : Ledger) : Prop where
  progress : Progress model months (FilledUpTo trees done place) ledger
  nonempty : NoneEmpty model.graph done
  admissible : Admissible model.graph done

/-- The order of the trees makes a tree read a metric too early. -/
def Inadmissible (graph : Graph) (trees : List MetricTree) (month : Date)
    (fault : EvaluationFault) : Prop :=
  ¬ Admissible graph trees ∧ ∃ reader metric, fault = .readTooEarly reader metric month

/-- One more tree in a month. It can be evaluated exactly if it stands behind the trees of
the metrics that it does not open. -/
theorem runTree_next (forest : Forest model.graph trees)
    (sources : SourcesFound model.graph trees) (dated : months[place]? = some month)
    {done rest : List MetricTree} (whole : trees = done ++ tree :: rest)
    (sofar : MonthProgress model months trees done place ledger) :
    Outcome (MonthProgress model months trees (done ++ [tree]) place)
      (fun fault => Stopped model.graph trees fault ∨ Inadmissible model.graph trees month fault)
      (model.runTree place month tree ledger) := by
  have member : tree ∈ trees := whole ▸ (by simp)
  have filled_iff : ∀ node, FilledUpTo trees done place node place ↔ InTrees done node := by
    simp [FilledUpTo]
  have sourcesNow : ∀ slot ∈ tree.slots,
      SourceFilled model.graph (FilledUpTo trees done place) place slot.node := by
    intro slot among id kind
    obtain ⟨source, found, isMetric⟩ := sources tree member slot among id kind
    exact ⟨source, found, fun _ before => Or.inl ⟨inTrees_of_isMetric forest isMetric, before⟩⟩
  apply (runTree_outcome (forest.built tree member).2 dated sourcesNow member sofar.progress).imp
  · rintro after ⟨finished, kept⟩
    refine ⟨finished.congr fun node month => ?_, ?_, ?_⟩
    · exact (filledUpTo_concat trees done tree place node month).symm
    · exact List.forall_mem_append.mpr ⟨sofar.nonempty,
        List.forall_mem_singleton.mpr fun slot among => (kept slot among).1⟩
    · apply sofar.admissible.concat
      intro slot among foreign
      have held := (filled_iff slot.node).mp ((kept slot among).2 foreign)
      exact sofar.admissible.exists_root held foreign.1
  · rintro fault (stopped | ⟨slot, among, foreign, missing, same⟩)
    · exact Or.inl stopped
    · refine Or.inr ⟨fun admissible => missing ((filled_iff slot.node).mpr ?_), _, _, same⟩
      obtain ⟨other, earlier, root⟩ := admissible done tree rest whole slot among foreign
      have otherBuilt := (forest.built other (whole ▸ List.mem_append_left _ earlier)).2
      exact ⟨other, earlier, root ▸ otherBuilt.holds_iff.mpr .refl⟩

/-- One month, with all earlier months evaluated. -/
theorem runMonth_outcome (forest : Forest model.graph trees)
    (sources : SourcesFound model.graph trees) (dated : months[place]? = some month)
    (progress : Progress model months
      (fun node month => InTrees trees node ∧ month < place) ledger) :
    Outcome (fun after => Progress model months
          (fun node month => InTrees trees node ∧ month < place + 1) after ∧
        NoneEmpty model.graph trees ∧ Admissible model.graph trees)
      (fun fault => Stopped model.graph trees fault ∨ Inadmissible model.graph trees month fault)
      (model.runMonth trees ledger place month) := by
  have trees_done : Outcome (MonthProgress model months trees trees place)
      (fun fault => Stopped model.graph trees fault ∨ Inadmissible model.graph trees month fault)
      (model.runMonth trees ledger place month) := by
    apply Outcome.foldlM fun done after => MonthProgress model months trees done place after
    · refine ⟨progress.congr fun node month => ?_, by simp [NoneEmpty], by simp [Admissible]⟩
      simp [FilledUpTo, InTrees]
    · intro done tree rest before whole sofar
      exact runTree_next forest sources dated whole sofar
  apply trees_done.imp _ fun _ fault => fault
  rintro after ⟨finished, nonempty, admissible⟩
  refine ⟨finished.congr fun node month => ?_, nonempty, admissible⟩
  simp only [FilledUpTo, ← and_or_left, Nat.lt_succ_iff_lt_or_eq]

/-- A run of the trees in any order evaluates every slot of every tree in every month,
unless it stops at an operator without inputs or, in the first month, at a metric whose
tree comes later. -/
theorem run_forest_outcome (forest : Forest model.graph trees)
    (sources : SourcesFound model.graph trees) (months : List Date) :
    Outcome (fun after => Progress model months
          (fun node place => InTrees trees node ∧ place < months.length) after ∧
        (months ≠ [] → NoneEmpty model.graph trees ∧ Admissible model.graph trees))
      (fun fault => months ≠ [] ∧ (Stopped model.graph trees fault ∨
        ∃ first, months.head? = some first ∧ Inadmissible model.graph trees first fault))
      (model.run trees months) := by
  have months_done : Outcome (fun after => Progress model months
          (fun node place => InTrees trees node ∧ place < months.zipIdx.length) after ∧
        (months.zipIdx ≠ [] → NoneEmpty model.graph trees ∧ Admissible model.graph trees))
      (fun fault => months ≠ [] ∧ (Stopped model.graph trees fault ∨
        ∃ first, months.head? = some first ∧ Inadmissible model.graph trees first fault))
      (model.run trees months) := by
    apply Outcome.foldlM fun (done : List (Date × Nat)) after => Progress model months
        (fun node place => InTrees trees node ∧ place < done.length) after ∧
      (done ≠ [] → NoneEmpty model.graph trees ∧ Admissible model.graph trees)
    · refine ⟨(Progress.empty model months).congr fun node month => ?_, by simp⟩
      simp
    · rintro done ⟨month, place⟩ rest before whole ⟨started, earlier⟩
      have stands : months.zipIdx[done.length]? = some (month, place) := by simp [whole]
      obtain ⟨dated, rfl⟩ : months[done.length]? = some month ∧ done.length = place := by
        simpa [List.getElem?_zipIdx] using stands
      have nonempty : months ≠ [] := by
        rintro rfl
        simp at dated
      apply (runMonth_outcome forest sources dated started).imp
      · rintro after ⟨finished, others⟩
        refine ⟨finished.congr fun node month => ?_, fun _ => others⟩
        rw [List.length_append, List.length_singleton]
      · rintro fault (stopped | inadmissible)
        · exact ⟨nonempty, Or.inl stopped⟩
        · -- A later month is only reached in an admissible order.
          have first : done = [] := by
            by_contra later
            exact inadmissible.1 (earlier later).2
          subst first
          exact ⟨nonempty, Or.inr ⟨month, by simpa [List.head?_eq_getElem?] using dated,
            inadmissible⟩⟩
  simpa using months_done

/-- A run of scheduled trees evaluates every slot of every tree in every month, unless it
stops at an operator without inputs. -/
theorem run_outcome (scheduled : Scheduled model.graph trees)
    (sources : SourcesFound model.graph trees) (months : List Date) :
    Outcome (fun after => Progress model months
          (fun node place => InTrees trees node ∧ place < months.length) after ∧
        (months ≠ [] → NoneEmpty model.graph trees))
      (fun fault => months ≠ [] ∧ Stopped model.graph trees fault)
      (model.run trees months) := by
  apply (run_forest_outcome scheduled.toForest sources months).imp
  · rintro after ⟨finished, others⟩
    exact ⟨finished, fun nonempty => (others nonempty).1⟩
  · rintro fault ⟨nonempty, stopped | ⟨_, _, inadmissible, _⟩⟩
    · exact ⟨nonempty, stopped⟩
    · exact absurd (admissible_of_scheduled scheduled) inadmissible

/-- Resolved references leave no seed without a source. -/
theorem sourcesFound_of_resolved (resolved : model.resolveReferences trees = .ok ()) :
    SourcesFound model.graph trees := by
  have each : Outcome (fun _ => ∀ tree ∈ trees, ∀ slot ∈ tree.slots,
      ∀ id, model.graph.kind? slot.node = some (.seed id) →
        ∃ source, model.graph.index? id = some source ∧ model.graph.isMetric source)
      (fun _ => True) (model.resolveReferences trees) := by
    apply Outcome.forM
    intro tree _
    apply Outcome.forM
    intro slot _
    cases found : model.resolveNode slot.node with
    | error fault => trivial
    | ok =>
      intro id kind
      unfold resolveNode at found
      simp only [kind] at found
      split at found
      · rename_i attributes source
        obtain ⟨index, indexed, metric⟩ := Option.bind_eq_some_iff.mp source
        exact ⟨index, indexed, by simp [Graph.isMetric, metric]⟩
      · contradiction
  exact each.of_ok resolved

end MonthlyForecast.Model
