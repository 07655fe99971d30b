import MonthlyForecast.Proofs.Calculation.Equations

/-! Solutions of two requests beside each other. What a node reads is told by the node and
edge lists. A relation that operators keep holds between the values of a node and of its
counterpart in another request if it holds between what the two requests supply from outside:
the values of variables, fallbacks and opening values. Months, variables and policies may
differ. Equality is a relation of this kind. -/
namespace MonthlyForecast
open Relation Validation

/-- The node's value in a month is computed from that of the id in the same month. -/
def Node.Takes (edges : List Edge) (node : Node) (id : String) : Prop :=
  match node.kind with
  | .operator _ ids => id ∈ ids
  | .metric attributes => attributes.useCalculated = true ∧ Joined edges id node.id
  | .data .. | .constant .. | .seed _ => False

/-- The metric with the id uses no input, or has none. -/
def Metric.FallsBack (edges : List Edge) (attributes : Metric) (id : String) : Prop :=
  attributes.useCalculated = false ∨ inputIds edges id = []

/-- The reader's values are computed from those of the id, in the same month or, for a seed,
in the month before. -/
def ReadsValue (nodes : List Node) (edges : List Edge) (reader id : String) : Prop :=
  ∃ node ∈ nodes, node.id = reader ∧ (node.Takes edges id ∨ node.kind = .seed id)

namespace Validation.WellFormed

variable {nodes : List Node} {edges : List Edge} {node : Node} {reader id : String}

/-- What a node takes is joined to it. -/
theorem joined_of_takes (wellFormed : WellFormed nodes edges) (member : node ∈ nodes)
    (takes : node.Takes edges id) : Joined edges id node.id := by
  have matching := wellFormed.inputs_match node member
  unfold Node.Takes at takes
  unfold InputsMatch at matching
  cases kind : node.kind with
  | operator operation ids =>
    simp only [kind] at takes matching
    exact mem_inputIds_iff.mp (matching.2.mem_iff.mp takes)
  | metric attributes =>
    simp only [kind] at takes
    exact takes.2
  | data | constant | seed => simp [kind] at takes

/-- What a connected node reads is connected. -/
theorem connected_of_reads (wellFormed : WellFormed nodes edges)
    (connected : Connected nodes edges reader) (reads : ReadsValue nodes edges reader id) :
    Connected nodes edges id := by
  obtain ⟨node, member, rfl, takes | seed⟩ := reads
  · exact connected.of_joined (wellFormed.joined_of_takes member takes)
  · have source := wellFormed.seed_sources node member
    simp only [SourceIsMetric, seed] at source
    obtain ⟨metric, among, rfl, isMetric⟩ := source
    exact isMetric.connected among

end Validation.WellFormed

/-- Every value is related to itself, and operators give related values for related ones. -/
structure KeptByOperators (related : Option Float → Option Float → Prop) : Prop where
  refl : ∀ value, related value value
  combine : ∀ (operation : Operation) {values others : List (Option Float)},
    List.Forall₂ related values others → related (operation.combine values)
      (operation.combine others)

theorem keptByOperators_eq : KeptByOperators Eq where
  refl := fun _ => rfl
  combine := by
    intro operation values others same
    rw [List.forall₂_eq_eq_eq] at same
    rw [same]

namespace Request

variable {related : Option Float → Option Float → Prop} {first second : Request}
  {policy otherPolicy : Policy} {series otherSeries : SeriesTable} {values others : Values}
  {node twin : Node} {kind : NodeKind} {attributes : Metric} {month otherMonth : Date}
  {place otherPlace : Nat}

/-- A node of the one request and one of the other that read the same nodes. -/
structure Counterpart (first second : Request) (node twin : Node) : Prop where
  id_eq : twin.id = node.id
  kind_eq : twin.kind = node.kind
  inputs_eq : ∀ attributes, node.kind = .metric attributes → attributes.useCalculated = true →
    inputIds second.edges node.id = inputIds first.edges node.id

/-- What two requests supply for a node, in a month of each, is related. -/
structure Supplied (related : Option Float → Option Float → Prop) (policy otherPolicy : Policy)
    (series otherSeries : SeriesTable) (kind : NodeKind) (month otherMonth : Date) : Prop where
  value : ∀ id, kind.Names id → ∀ offset,
    related (series.value? id month offset) (otherSeries.value? id otherMonth offset)
  fallback : ∀ attributes, kind = .metric attributes →
    related (fallbackOf policy series attributes month)
      (fallbackOf otherPolicy otherSeries attributes otherMonth)
  opening : ∀ attributes, kind = .metric attributes →
    related (openingOf policy series attributes month)
      (openingOf otherPolicy otherSeries attributes otherMonth)

/-- A column of a variable that the node names, if it names one. -/
theorem related_column (kept : KeptByOperators related)
    (value : ∀ id, kind.Names id → ∀ offset,
      related (series.value? id month offset) (otherSeries.value? id otherMonth offset))
    {variableId : Option String} (named : ∀ id, variableId = some id → kind.Names id)
    (offset : Int) :
    related (variableId.bind fun id => series.value? id month offset)
      (variableId.bind fun id => otherSeries.value? id otherMonth offset) := by
  cases variableId with
  | none => exact kept.refl none
  | some id => exact value id (named id rfl) offset

theorem related_fallbackOf (kept : KeptByOperators related)
    (value : ∀ id, (NodeKind.metric attributes).Names id → ∀ offset,
      related (series.value? id month offset) (otherSeries.value? id otherMonth offset))
    (same : otherPolicy.fallbackSource = policy.fallbackSource) :
    related (fallbackOf policy series attributes month)
      (fallbackOf otherPolicy otherSeries attributes otherMonth) := by
  unfold fallbackOf
  rw [same]
  cases policy.fallbackSource with
  | budget => exact related_column kept value (fun id named => Or.inl named) 0
  | historical => exact related_column kept value (fun id named => Or.inr named) 0
  | missing => exact kept.refl none

theorem related_openingOf (kept : KeptByOperators related)
    (value : ∀ id, (NodeKind.metric attributes).Names id → ∀ offset,
      related (series.value? id month offset) (otherSeries.value? id otherMonth offset))
    (same : otherPolicy.seedOpening = policy.seedOpening) :
    related (openingOf policy series attributes month)
      (openingOf otherPolicy otherSeries attributes otherMonth) := by
  unfold openingOf
  rw [same]
  cases policy.seedOpening with
  | missing => exact kept.refl none
  | priorHistorical => exact related_column kept value (fun id named => Or.inr named) (-1)

/-- Under one policy the values of variables decide what is supplied. -/
theorem supplied_of_values (kept : KeptByOperators related)
    (value : ∀ id, kind.Names id → ∀ offset,
      related (series.value? id month offset) (otherSeries.value? id otherMonth offset)) :
    Supplied related policy policy series otherSeries kind month otherMonth where
  value := value
  fallback := fun _ shape => related_fallbackOf kept (shape ▸ value) rfl
  opening := fun _ shape => related_openingOf kept (shape ▸ value) rfl

/-- The equations of counterparts other than seeds relate their values, if what they take is
related. The months may stand at different places of their ranges. -/
theorem Equation.relate (one : first.Equation policy values node place month)
    (two : second.Equation otherPolicy others twin otherPlace otherMonth)
    (kept : KeptByOperators related) (alike : Counterpart first second node twin)
    (data : ∀ name id offset, node.kind = .data name id offset →
      related (first.series.value? id month offset.toInt)
        (second.series.value? id otherMonth offset.toInt))
    (fallback : ∀ attributes, node.kind = .metric attributes →
      attributes.FallsBack first.edges node.id →
        related (fallbackOf policy first.series attributes month)
          (fallbackOf otherPolicy second.series attributes otherMonth))
    (taken : ∀ id, node.Takes first.edges id → related (values id place) (others id otherPlace))
    (notSeed : ∀ source, node.kind ≠ .seed source) :
    related (values node.id place) (others node.id otherPlace) := by
  unfold Equation at one two
  unfold Node.Takes at taken
  rw [alike.kind_eq, alike.id_eq] at two
  cases kind : node.kind with
  | data name variableId offset =>
    rw [kind] at one two
    rw [one, two]
    exact data name variableId offset kind
  | constant =>
    rw [kind] at one two
    rw [one, two]
    exact kept.refl _
  | operator operation ids =>
    simp only [kind] at one two taken
    rw [one, two]
    apply kept.combine
    rw [List.forall₂_map_left_iff, List.forall₂_map_right_iff]
    exact List.forall₂_same.mpr taken
  | seed source => exact absurd kind (notSeed source)
  | metric attributes =>
    simp only [kind] at one two taken
    cases used : attributes.useCalculated with
    | false =>
      simp only [used] at one two
      rw [one, two]
      exact fallback attributes kind (Or.inl used)
    | true =>
      simp only [used, true_and, alike.inputs_eq attributes kind used] at one two taken
      cases given : inputIds first.edges node.id with
      | nil =>
        simp only [given] at one two
        rw [one, two]
        exact fallback attributes kind (Or.inr given)
      | cons input rest =>
        simp only [given] at one two
        rw [one, two]
        exact taken input (mem_inputIds_iff.mp (given ▸ List.mem_cons_self))

/-- The equations of seeds relate their values, if the earlier values of their source or, in
the first month, its opening values are related. -/
theorem Equation.relate_seed (one : first.Equation policy values node place month)
    (two : second.Equation otherPolicy others twin place otherMonth)
    (alike : Counterpart first second node twin) (distinct : IdsDistinct second.nodes)
    {source : String} (kind : node.kind = .seed source)
    (sources : ∀ earlier < place, related (values source earlier) (others source earlier))
    (openings : ∀ metric ∈ first.nodes, metric.id = source → ∃ twin ∈ second.nodes,
      Counterpart first second metric twin ∧ ∀ attributes, metric.kind = .metric attributes →
        related (openingOf policy first.series attributes month)
          (openingOf otherPolicy second.series attributes otherMonth)) :
    related (values node.id place) (others node.id place) := by
  unfold Equation at one two
  rw [alike.kind_eq, alike.id_eq] at two
  simp only [kind] at one two
  cases place with
  | zero =>
    obtain ⟨metric, member, named, attributes, shape, one⟩ := one
    obtain ⟨other, otherMember, otherNamed, otherAttributes, otherShape, two⟩ := two
    obtain ⟨twin, twinMember, metrics, opening⟩ := openings metric member named
    -- Ids are distinct, so the metric of the second equation is the counterpart of the first.
    have sameId : twin.id = other.id := by rw [metrics.id_eq, named, otherNamed]
    obtain rfl := List.inj_on_of_nodup_map distinct twinMember otherMember sameId
    have sameShape := metrics.kind_eq.symm.trans otherShape
    rw [shape] at sameShape
    cases sameShape
    rw [one, two]
    exact opening attributes shape
  | succ previous =>
    simp only at one two
    rw [one, two]
    exact sources previous (by omega)

/-- The nodes with the ids have counterparts for which related values are supplied, at every
place up to the given one. -/
def Paired (related : Option Float → Option Float → Prop) (policy otherPolicy : Policy)
    (first second : Request) (inside : String → Prop) (place : Nat) : Prop :=
  ∀ earlier ≤ place, ∃ month otherMonth, first.months[earlier]? = some month ∧
    second.months[earlier]? = some otherMonth ∧
      ∀ node ∈ first.nodes, inside node.id → ∃ twin ∈ second.nodes,
        Counterpart first second node twin ∧
          Supplied related policy otherPolicy first.series second.series node.kind month otherMonth

/-- Solutions of two requests are related on paired nodes that are connected in both and read
each other only. -/
theorem Solves.relate {inside : String → Prop} (solves : first.Solves policy values)
    (otherSolves : second.Solves otherPolicy others) (kept : KeptByOperators related)
    (wellFormed : WellFormed first.nodes first.edges) (distinct : IdsDistinct second.nodes)
    (closed : ∀ {reader id}, inside reader → ReadsValue first.nodes first.edges reader id →
      inside id)
    (connected : ∀ {id}, inside id → Connected first.nodes first.edges id)
    (connectedToo : ∀ {id}, inside id → Connected second.nodes second.edges id)
    (paired : Paired related policy otherPolicy first second inside place) :
    ∀ node ∈ first.nodes, inside node.id →
      related (values node.id place) (others node.id place) := by
  -- Seeds lead to earlier months, all other nodes to their inputs in the same month.
  induction place using Nat.strong_induction_on with
  | _ place earlier =>
    apply wellFormed.induction fun node =>
      inside node.id → related (values node.id place) (others node.id place)
    intro node member inputs held
    obtain ⟨month, otherMonth, here, there, pairs⟩ := paired place (Nat.le_refl place)
    obtain ⟨twin, twinMember, alike, supplied⟩ := pairs node member held
    have twinConnected : Connected second.nodes second.edges twin.id :=
      alike.id_eq ▸ connectedToo held
    have one := solves node member (connected held) place month here
    have two := otherSolves twin twinMember twinConnected place otherMonth there
    by_cases seed : ∃ source, node.kind = .seed source
    · obtain ⟨source, kind⟩ := seed
      have read := closed held ⟨node, member, rfl, Or.inr kind⟩
      apply one.relate_seed two alike distinct kind
      · intro previous before
        obtain ⟨metric, among, rfl⟩ := wellFormed.exists_node_of_connected (connected read)
        exact earlier previous before (fun other atMost => paired other (by omega)) metric among
          read
      · rintro metric among rfl
        obtain ⟨twin, twinMember, metrics, supplied⟩ := pairs metric among read
        exact ⟨twin, twinMember, metrics, supplied.opening⟩
    · apply one.relate two kept alike
      · intro name id offset kind
        exact supplied.value id (kind ▸ rfl) offset.toInt
      · exact fun attributes kind _ => supplied.fallback attributes kind
      · intro id takes
        have taken := closed held ⟨node, member, rfl, Or.inl takes⟩
        obtain ⟨input, among, rfl⟩ := wellFormed.exists_node_of_connected (connected taken)
        exact inputs input among (wellFormed.joined_of_takes member takes) taken
      · exact not_exists.mp seed

/-- Without seeds only one month of each solution is looked at. The two months may lie at
different places, and what is supplied counts for data and for fallbacks alone. -/
theorem Solves.relate_seedless {inside : String → Prop} (solves : first.Solves policy values)
    (otherSolves : second.Solves otherPolicy others) (kept : KeptByOperators related)
    (wellFormed : WellFormed first.nodes first.edges)
    (closed : ∀ {reader id}, inside reader → ReadsValue first.nodes first.edges reader id →
      inside id)
    (connected : ∀ {id}, inside id → Connected first.nodes first.edges id)
    (connectedToo : ∀ {id}, inside id → Connected second.nodes second.edges id)
    (here : first.months[place]? = some month)
    (there : second.months[otherPlace]? = some otherMonth)
    (counterparts : ∀ node ∈ first.nodes, inside node.id →
      ∃ twin ∈ second.nodes, Counterpart first second node twin)
    (seedless : ∀ node ∈ first.nodes, inside node.id → ∀ source, node.kind ≠ .seed source)
    (data : ∀ node ∈ first.nodes, inside node.id → ∀ name id offset,
      node.kind = .data name id offset → related (first.series.value? id month offset.toInt)
        (second.series.value? id otherMonth offset.toInt))
    (fallback : ∀ node ∈ first.nodes, inside node.id → ∀ attributes,
      node.kind = .metric attributes → attributes.FallsBack first.edges node.id →
        related (fallbackOf policy first.series attributes month)
          (fallbackOf otherPolicy second.series attributes otherMonth)) :
    ∀ node ∈ first.nodes, inside node.id →
      related (values node.id place) (others node.id otherPlace) := by
  apply wellFormed.induction fun node =>
    inside node.id → related (values node.id place) (others node.id otherPlace)
  intro node member inputs held
  obtain ⟨twin, twinMember, alike⟩ := counterparts node member held
  have twinConnected : Connected second.nodes second.edges twin.id :=
    alike.id_eq ▸ connectedToo held
  have one := solves node member (connected held) place month here
  have two := otherSolves twin twinMember twinConnected otherPlace otherMonth there
  apply one.relate two kept alike (data node member held) (fallback node member held)
  · intro id takes
    have taken := closed held ⟨node, member, rfl, Or.inl takes⟩
    obtain ⟨input, among, rfl⟩ := wellFormed.exists_node_of_connected (connected taken)
    exact inputs input among (wellFormed.joined_of_takes member takes) taken
  · exact seedless node member held

end Request
end MonthlyForecast
