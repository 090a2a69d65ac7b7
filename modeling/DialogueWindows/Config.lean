import DialogueWindows.Failure
import DialogueWindows.Text.Token

/-! # Configuration

The settings of the featurizer, of the encoder's cache and of the logs. `validate` refuses a history
bound of 0 and a log level that is blank. -/

namespace DialogueWindows

structure FeaturizerConfig where
  /-- The greatest number of states in a window, unbounded if none. -/
  maxHistory : Option Nat
  /-- Drop repeated training examples. -/
  removeDuplicates : Bool
  /-- Work on the dialogues of a batch in parallel. -/
  parallel : Bool
deriving DecidableEq, Repr

namespace FeaturizerConfig

def default : FeaturizerConfig :=
  ⟨none, true, true⟩

def withMaxHistory (maxHistory : Option Nat) : FeaturizerConfig :=
  { default with maxHistory }

/-- A window of no states holds nothing to learn from. -/
def validate (c : FeaturizerConfig) : Except ConfigFailure Unit :=
  if c.maxHistory = some 0 then
    .error (.invalid "featurizer.max_history" "must be at least 1 when set")
  else .ok ()

end FeaturizerConfig

structure EncoderConfig where
  /-- The number of encodings that are kept, 0 for no cache. -/
  cacheCapacity : Nat
deriving DecidableEq, Repr

def EncoderConfig.default : EncoderConfig :=
  ⟨10000⟩

structure ObservabilityConfig where
  logLevel : String
  /-- Write logs as JSON. -/
  jsonLogs : Bool
deriving DecidableEq, Repr

def ObservabilityConfig.default : ObservabilityConfig :=
  ⟨"info", false⟩

structure Config where
  featurizer : FeaturizerConfig
  encoder : EncoderConfig
  observability : ObservabilityConfig
deriving DecidableEq, Repr

namespace Config

def default : Config :=
  ⟨.default, .default, .default⟩

def validate (c : Config) : Except ConfigFailure Unit := do
  c.featurizer.validate
  if Text.isVoid c.observability.logLevel then
    .error (.invalid "observability.log_level" "must not be empty")

end Config

end DialogueWindows
