import DialogueWindows.Config
import DialogueWindows.Json.Decoder

/-! # Configurations as JSON

A configuration is an object of three objects. Every field may be left out and has its default
then. -/

namespace DialogueWindows

open Json (Decoder)

namespace FeaturizerConfig

def toJson (c : FeaturizerConfig) : Json :=
  .object [("max_history", .ofOption .ofNat c.maxHistory),
    ("remove_duplicates", .bool c.removeDuplicates), ("parallel", .bool c.parallel)]

structure Draft where
  maxHistory : Option (Option Nat) := none
  removeDuplicates : Option Bool := none
  parallel : Option Bool := none

def fields : List (Decoder.Field Draft) :=
  [.of "max_history" (·.maxHistory) (fun d a => { d with maxHistory := some a })
      (.option .size) true,
    .of "remove_duplicates" (·.removeDuplicates) (fun d a => { d with removeDuplicates := some a })
      .bool true,
    .of "parallel" (·.parallel) (fun d a => { d with parallel := some a }) .bool true]

def decode : Decoder FeaturizerConfig :=
  .record "struct FeaturizerConfig" fields {} fun d =>
    .ok {
      maxHistory := d.maxHistory.getD default.maxHistory
      removeDuplicates := d.removeDuplicates.getD default.removeDuplicates
      parallel := d.parallel.getD default.parallel }

end FeaturizerConfig

namespace EncoderConfig

def toJson (c : EncoderConfig) : Json :=
  .object [("cache_capacity", .ofNat c.cacheCapacity)]

def fields : List (Decoder.Field (Option Nat)) :=
  [.of "cache_capacity" id (fun _ a => some a) (.natural "u64") true]

def decode : Decoder EncoderConfig :=
  .record "struct EncoderConfig" fields none fun d => .ok ⟨d.getD default.cacheCapacity⟩

end EncoderConfig

namespace ObservabilityConfig

def toJson (c : ObservabilityConfig) : Json :=
  .object [("log_level", .string c.logLevel), ("json_logs", .bool c.jsonLogs)]

structure Draft where
  logLevel : Option String := none
  jsonLogs : Option Bool := none

def fields : List (Decoder.Field Draft) :=
  [.of "log_level" (·.logLevel) (fun d a => { d with logLevel := some a }) .string true,
    .of "json_logs" (·.jsonLogs) (fun d a => { d with jsonLogs := some a }) .bool true]

def decode : Decoder ObservabilityConfig :=
  .record "struct ObservabilityConfig" fields {} fun d =>
    .ok ⟨d.logLevel.getD default.logLevel, d.jsonLogs.getD default.jsonLogs⟩

end ObservabilityConfig

namespace Config

def toJson (c : Config) : Json :=
  .object [("featurizer", c.featurizer.toJson), ("encoder", c.encoder.toJson),
    ("observability", c.observability.toJson)]

structure Draft where
  featurizer : Option FeaturizerConfig := none
  encoder : Option EncoderConfig := none
  observability : Option ObservabilityConfig := none

def fields : List (Decoder.Field Draft) :=
  [.of "featurizer" (·.featurizer) (fun d a => { d with featurizer := some a })
      FeaturizerConfig.decode true,
    .of "encoder" (·.encoder) (fun d a => { d with encoder := some a }) EncoderConfig.decode true,
    .of "observability" (·.observability) (fun d a => { d with observability := some a })
      ObservabilityConfig.decode true]

def decode : Decoder Config :=
  .record "struct TrackerConfig" fields {} fun d =>
    .ok ⟨d.featurizer.getD .default, d.encoder.getD .default, d.observability.getD .default⟩

end Config

end DialogueWindows
