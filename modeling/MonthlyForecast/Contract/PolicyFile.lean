import MonthlyForecast.Evaluation.Policy
import MonthlyForecast.Toml.Reader

/-! Policies as TOML documents. Every setting has a default and settings with other
names are ignored; a known one must have its type. A choice is its name, or a table
with that name as its only key and an empty value. -/
namespace MonthlyForecast

/-- A policy file that cannot be used. -/
inductive PolicyFault where
  /-- There is no file, or it is no text. -/
  | unreadable
  /-- The text is no document, or a setting has no such value. -/
  | malformed
deriving DecidableEq

namespace Toml

def toBoolean? : Toml → Option Bool
  | .boolean value => some value
  | _ => none

def isEmptyValue : Toml → Bool
  | .array [] => true
  | .table _ [] => true
  | _ => false

def toChoice? {α : Type} (all : List α) (name : α → String) : Toml → Option α
  | .string value => all.find? fun choice => value == name choice
  | .table _ [(key, value)] =>
    if value.isEmptyValue then all.find? fun choice => key == name choice else none
  | _ => none

/-- The value of a setting, or its default. -/
def setting {α : Type} (entries : Entries) (key : String) (decode : Toml → Option α)
    (standard : α) : Option α :=
  match entries.lookup key with
  | none => some standard
  | some value => decode value

end Toml

namespace Policy

def ofEntries? (entries : Toml.Entries) : Option Policy := do
  some
    { seedOpening := ← Toml.setting entries "seed_bootstrap"
        (Toml.toChoice? SeedOpening.all SeedOpening.name) standard.seedOpening
      fallbackSource := ← Toml.setting entries "metric_fallback"
        (Toml.toChoice? FallbackSource.all FallbackSource.name) standard.fallbackSource
      includeNodeResults := ← Toml.setting entries "include_node_results" Toml.toBoolean?
        standard.includeNodeResults }

def ofToml (text : String) : Except PolicyFault Policy :=
  match (Toml.ofText? text).bind ofEntries? with
  | some policy => .ok policy
  | none => .error .malformed

/-- The policy in the contents of a file. -/
def ofBytes (bytes : List UInt8) : Except PolicyFault Policy :=
  match String.fromUTF8? (ByteArray.mk bytes.toArray) with
  | some text => ofToml text
  | none => .error .unreadable

end Policy
end MonthlyForecast
