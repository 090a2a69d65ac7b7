import DialogueWindows.Config.Environment
import DialogueWindows.Toml.Reader

/-! # Loading configurations

A configuration is read from a TOML document, every field that is missing having its default.
`Config.load` lets the environment override it and then validates it. -/

namespace DialogueWindows

namespace Toml

/-- The fields of a value that stands for a record: of a table by name, of an array by position. A
date counts as a record without known fields. -/
def fields? (names : List String) : Toml → Option (List (String × Toml))
  | table entries => some entries
  | array items => some (names.zip items)
  | datetime _ => some []
  | string _ | integer _ | float _ | boolean _ => none

def natural? : Toml → Option Nat
  | integer n => if n < 0 then none else some n.toNat
  | _ => none

def boolean? : Toml → Option Bool
  | boolean b => some b
  | _ => none

def text? : Toml → Option String
  | string s => some s
  | _ => none

end Toml

namespace FeaturizerConfig

def putToml (c : FeaturizerConfig) (field : String × Toml) : Option FeaturizerConfig :=
  match field.1 with
  | "max_history" => do return { c with maxHistory := some (← field.2.natural?) }
  | "remove_duplicates" => do return { c with removeDuplicates := ← field.2.boolean? }
  | "parallel" => do return { c with parallel := ← field.2.boolean? }
  | _ => some c

def ofToml? (v : Toml) : Option FeaturizerConfig := do
  (← v.fields? ["max_history", "remove_duplicates", "parallel"]).foldlM putToml default

end FeaturizerConfig

namespace EncoderConfig

def putToml (c : EncoderConfig) (field : String × Toml) : Option EncoderConfig :=
  match field.1 with
  | "cache_capacity" => do return ⟨← field.2.natural?⟩
  | _ => some c

def ofToml? (v : Toml) : Option EncoderConfig := do
  (← v.fields? ["cache_capacity"]).foldlM putToml default

end EncoderConfig

namespace ObservabilityConfig

def putToml (c : ObservabilityConfig) (field : String × Toml) : Option ObservabilityConfig :=
  match field.1 with
  | "log_level" => do return { c with logLevel := ← field.2.text? }
  | "json_logs" => do return { c with jsonLogs := ← field.2.boolean? }
  | _ => some c

def ofToml? (v : Toml) : Option ObservabilityConfig := do
  (← v.fields? ["log_level", "json_logs"]).foldlM putToml default

end ObservabilityConfig

namespace Config

def putToml (c : Config) (field : String × Toml) : Option Config :=
  match field.1 with
  | "featurizer" => do return { c with featurizer := ← FeaturizerConfig.ofToml? field.2 }
  | "encoder" => do return { c with encoder := ← EncoderConfig.ofToml? field.2 }
  | "observability" => do return { c with observability := ← ObservabilityConfig.ofToml? field.2 }
  | _ => some c

/-- The configuration that a text writes, if it does. -/
def parse? (text : String) : Option Config := do
  let v ← Toml.parse? text
  (← v.fields? ["featurizer", "encoder", "observability"]).foldlM putToml default

/-- The configuration that a text writes, not yet validated; `path` is the name of the text. -/
def parse (path text : String) : Except ConfigFailure Config :=
  match parse? text with
  | some c => .ok c
  | none => .error (.unparsable path "not a configuration")

/-- The valid configuration that a text writes. -/
def ofText (text : String) : Except ConfigFailure Config := do
  let c ← parse "<string>" text
  c.validate
  return c

/-- The configuration in a file, with the overrides of the environment. A file whose bytes are not
UTF-8 counts as missing. -/
def load (path : String) (file : Option ByteArray) (env : Environment) :
    Except ConfigFailure Config := do
  match file.bind String.fromUTF8? with
  | none => .error (.fileNotFound path)
  | some text =>
    let c ← parse path text
    match env.apply c with
    | (_, some failure) => .error failure
    | (c, none) =>
      c.validate
      return c

end Config

end DialogueWindows
