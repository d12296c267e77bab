import GraphStore.Index.Settings
import GraphStore.Interchange.Form
import GraphStore.Json.Written

/-!
Settings as JSON text. Every setting may be missing and then has its default; settings of other names
are passed over and need only be well-formed; a setting that comes twice is an error. A group of
settings may also be an array, in a fixed order.
-/
namespace GraphStore

open Json

namespace SettingsText

/-- How a setting is read. -/
abbrev Reader (α : Type) := Written → Option α

def text : Reader String
  | .string units => Written.text? units
  | _ => none

/-- A whole number up to a bound, written as one. -/
def number (greatest : Nat) : Reader Nat
  | .number n =>
    if n.isFloat || n.negative then none
    else
      let value := n.whole.foldl (fun acc d => 10 * acc + d) 0
      if value ≤ greatest then some value else none
  | _ => none

/-- A digest length by name, or as a tag without a value. -/
def hashLength : Reader (Option HashLength)
  | .null => some none
  | .string units => (Written.text? units).bind fun s => (HashLength.ofName? s).map some
  | .object [(units, .null)] =>
    (Written.text? units).bind fun s => (HashLength.ofName? s).map some
  | _ => none

/-- The settings of a group by name. -/
def group? (names : List String) : Written → Option (List (String × Written))
  | .object fields => do
    let named ← fields.mapM fun (f : Units × Written) => do return (← Written.text? f.1, f.2)
    let known := named.filter fun f => f.1 ∈ names
    if (known.map (·.1)).Nodup then some known else none
  | .array items => if items.length ≤ names.length then some (names.zip items) else none
  | _ => none

/-- A setting of a group, or its default. -/
def setting {α : Type} (group : List (String × Written)) (name : String) (read? : Reader α)
    (default : α) : Option α :=
  match group.find? (·.1 = name) with
  | none => some default
  | some f => read? f.2

def batch : Reader BatchSettings := fun w => do
  let group ← group? ["batch_size", "min_free_memory_percent"] w
  let base := BatchSettings.default
  return ⟨← setting group "batch_size" (number (UInt64.size - 1)) base.batchSize,
    ← setting group "min_free_memory_percent" (number 255) base.minFreeMemoryPercent⟩

def settings : Reader Settings := fun w => do
  let group ←
    group? ["hash_keys", "raw_query_prefix", "wildcard_field", "string_suffix", "batch"] w
  let base := Settings.default
  return ⟨← setting group "hash_keys" hashLength base.hashKeys,
    ← setting group "raw_query_prefix" text base.rawQueryPrefix,
    ← setting group "wildcard_field" text base.wildcardField,
    ← setting group "string_suffix" text base.stringSuffix,
    ← setting group "batch" batch base.batch⟩

end SettingsText

def BatchSettings.parse? (s : String) : Option BatchSettings :=
  (Written.parse? s).bind SettingsText.batch

def Settings.parse? (s : String) : Option Settings :=
  (Written.parse? s).bind SettingsText.settings

def BatchSettings.write (b : BatchSettings) : Json :=
  .record [("batch_size", .int b.batchSize),
    ("min_free_memory_percent", .int b.minFreeMemoryPercent)]

def Settings.write (s : Settings) : Json :=
  .record [("hash_keys", .ofOption (fun h => .string h.name) s.hashKeys),
    ("raw_query_prefix", .string s.rawQueryPrefix), ("wildcard_field", .string s.wildcardField),
    ("string_suffix", .string s.stringSuffix), ("batch", s.batch.write)]

end GraphStore
