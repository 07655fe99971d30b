import MonthlyForecast.Graph.Basic

/-! The links of a graph in two packed forms. Incoming links are blocks of one flat
list of sources, a block for each node. Outgoing links are chains: each node points
at its latest link, and each link at the one before it with the same source. One pass
over the links threads the chains and collects the sources, which are then laid out in
blocks. Both forms are read back by `sourcesOf` and `targetsOf`. -/
namespace MonthlyForecast

structure Adjacency where
  /-- For each node where its block of sources starts and how long it is. -/
  ranges : List (Nat × Nat)
  sources : List NodeIndex
  /-- For each node its latest outgoing link. -/
  firstLink : List (Option Nat)
  /-- For each link its target. -/
  targets : List NodeIndex
  /-- For each link the one before it with the same source. -/
  nextLink : List (Option Nat)

/-- The links that a pass has taken in so far. -/
structure LinkPass where
  /-- For each node the sources of its incoming links. -/
  incoming : List (List NodeIndex)
  firstLink : List (Option Nat)
  targets : List NodeIndex
  nextLink : List (Option Nat)

namespace LinkPass

def start (nodeCount : Nat) : LinkPass :=
  ⟨List.replicate nodeCount [], List.replicate nodeCount none, [], []⟩

/-- Takes in a link. It becomes the latest one of its source and points at the one that
was the latest before. -/
def add (taken : LinkPass) (link : Link) : LinkPass where
  incoming := taken.incoming.modify link.target (· ++ [link.source])
  firstLink := taken.firstLink.set link.source (some taken.targets.length)
  targets := taken.targets ++ [link.target]
  nextLink := taken.nextLink ++ [taken.firstLink[link.source]?.join]

end LinkPass

namespace Adjacency

/-- Consecutive blocks of the given lengths. -/
def blocks (start : Nat) : List Nat → List (Nat × Nat)
  | [] => []
  | length :: rest => (start, length) :: blocks (start + length) rest

def ofGraph (graph : Graph) : Adjacency :=
  let taken := graph.links.foldl LinkPass.add (.start graph.size)
  { ranges := blocks 0 (taken.incoming.map (·.length))
    sources := taken.incoming.flatten
    firstLink := taken.firstLink
    targets := taken.targets
    nextLink := taken.nextLink }

/-- The block of a node. -/
def sourcesOf (adjacency : Adjacency) (node : NodeIndex) : List NodeIndex :=
  match adjacency.ranges[node]? with
  | none => []
  | some (start, length) => (adjacency.sources.drop start).take length

/-- Follows a chain for at most `fuel` links. -/
def follow (adjacency : Adjacency) : Nat → Option Nat → List NodeIndex
  | 0, _ => []
  | _, none => []
  | fuel + 1, some link =>
    adjacency.targets[link]?.toList ++ follow adjacency fuel (adjacency.nextLink[link]?.join)

/-- The targets along the chain of a node. -/
def targetsOf (adjacency : Adjacency) (node : NodeIndex) : List NodeIndex :=
  adjacency.follow adjacency.targets.length adjacency.firstLink[node]?.join

end Adjacency
end MonthlyForecast
