/-! The choices that a graph leaves open: what a seed gives in the first month, what
a metric gives that does not use its input, and whether node results are reported. -/
namespace MonthlyForecast

/-- The value of a seed in the first month, where its source has no previous one. -/
inductive SeedOpening where
  | missing
  /-- The source's historical variable in the month before the first. -/
  | priorHistorical
deriving DecidableEq

namespace SeedOpening

def all : List SeedOpening := [missing, priorHistorical]

def name : SeedOpening → String
  | missing => "null"
  | priorHistorical => "prior_historical"

end SeedOpening

/-- The forecast of a metric that has no input or does not use it. -/
inductive FallbackSource where
  | budget
  | historical
  | missing
deriving DecidableEq

namespace FallbackSource

def all : List FallbackSource := [budget, historical, missing]

def name : FallbackSource → String
  | budget => "budget"
  | historical => "historical"
  | missing => "null"

end FallbackSource

structure Policy where
  seedOpening : SeedOpening
  fallbackSource : FallbackSource
  includeNodeResults : Bool
deriving DecidableEq

namespace Policy

def standard : Policy := ⟨.missing, .budget, false⟩

end Policy
end MonthlyForecast
