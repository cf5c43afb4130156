import TieredDispatch.Config
import TieredDispatch.Metrics
import TieredDispatch.Json.Decode
import TieredDispatch.Json.Value

/-!
# JSON forms of the public types

An identity is a bare number, an enumerated value its name, a record an object of its fields in
order. A configuration takes its defaults for the fields that are missing; a metrics snapshot needs
all of its eight. `encode` writes the compact text, and `decode` reads any text.
-/

namespace TieredDispatch

/-- Types whose values have a JSON form. -/
class JsonCoded (α : Type) where
  toJson : α → JsonValue
  decoder : Decoder α

export JsonCoded (toJson)

/-- The compact JSON text of a value. -/
def encode {α : Type} [JsonCoded α] (a : α) : String :=
  (toJson a).compact

/-- Reads a value from its JSON text. -/
def decode (α : Type) [JsonCoded α] (text : String) : Except JsonError α :=
  (JsonCoded.decoder : Decoder α).decode text

/-- The form of a type with finitely many values, each known by its label. -/
abbrev JsonCoded.named {α : Type} (choices : List α) (label : α → String) : JsonCoded α where
  toJson a := .text (label a)
  decoder := .name choices label

instance : JsonCoded UInt64 where
  toJson n := .number n.toNat
  decoder := .word

instance : JsonCoded MethodId where
  toJson m := toJson m.val
  decoder := Decoder.word.map .mk

instance : JsonCoded Tier := .named [.l1, .l2] toString

instance : JsonCoded MethodTier := .named [.interpreted, .l1Compiled, .l2Compiled] toString

instance : JsonCoded Decision := .named [.none, .compileL1, .compileL2] toString

instance : JsonCoded CompilationMode := .named [.synchronous, .background] toString

/-! ## Configurations -/

namespace TierConfig

/-- The fields of a configuration, all of them optional. -/
def schema : Schema TierConfig where
  fields := [
    .of "l1_threshold" .word fun n config => { config with l1Threshold := n },
    .of "l2_threshold" .word fun n config => { config with l2Threshold := n },
    .of "compilation_mode" JsonCoded.decoder fun mode config => { config with mode },
    .of "compile_workers" .word fun n config => { config with compileWorkers := n },
    .of "shards" .word fun n config => { config with shards := n }]
  initial := {}
  strict := false

instance : JsonCoded TierConfig where
  toJson config := .object [
    ("l1_threshold", toJson config.l1Threshold),
    ("l2_threshold", toJson config.l2Threshold),
    ("compilation_mode", toJson config.mode),
    ("compile_workers", toJson config.compileWorkers),
    ("shards", toJson config.shards)]
  decoder := .record schema

end TierConfig

/-! ## Metrics -/

namespace Metrics

/-- The eight counters, all of them required. -/
def schema : Schema Metrics where
  fields := ({} : Metrics).toList.map fun entry =>
    .of entry.1 .word fun n metrics => metrics.set entry.1 n
  initial := {}
  strict := true

instance : JsonCoded Metrics where
  toJson metrics := .object (metrics.toList.map fun entry => (entry.1, toJson entry.2))
  decoder := .record schema

end Metrics

end TieredDispatch
