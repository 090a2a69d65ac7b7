import DialogueWindows.Config

/-! # Overrides from the environment

Four variables override settings, one after the other. The first value that cannot be read ends
this, with the overrides before it in place. -/

namespace DialogueWindows

/-- The values of the variables that are set. -/
structure Environment where
  maxHistory : Option String
  removeDuplicates : Option String
  parallel : Option String
  logLevel : Option String
deriving DecidableEq, Repr

namespace Environment

def maxHistoryKey : String := "TRACKER_MAX_HISTORY"
def removeDuplicatesKey : String := "TRACKER_REMOVE_DUPLICATES"
def parallelKey : String := "TRACKER_PARALLEL"
def logLevelKey : String := "TRACKER_LOG_LEVEL"

def ofLookup (lookup : String → Option String) : Environment where
  maxHistory := lookup maxHistoryKey
  removeDuplicates := lookup removeDuplicatesKey
  parallel := lookup parallelKey
  logLevel := lookup logLevelKey

/-! ### Values -/

def digit? (c : Char) : Option Nat :=
  if c.isDigit then some (c.toNat - '0'.toNat) else none

/-- The natural number that some digits write, at least one of them. -/
def digits? : List Char → Option Nat
  | [] => none
  | cs => cs.foldl (fun n c => do return (← n) * 10 + (← digit? c)) (some 0)

/-- A natural number of 64 bits, after an optional plus sign. -/
def natural? (s : String) : Option Nat :=
  let digits := match (Text.trim s).toList with
    | '+' :: cs => cs
    | cs => cs
  (digits? digits).filter (· < UInt64.size)

def bool? (s : String) : Option Bool :=
  match Text.trim s with
  | "true" => some true
  | "false" => some false
  | _ => none

/-- The word `none` in letters of any case, or a number. -/
def bound? (s : String) : Option (Option Nat) :=
  if String.map Char.toLower s = "none" then some none else (natural? s).map some

/-! ### Overrides -/

/-- Puts the value of a variable into a configuration, if the variable is set. -/
def override {α : Type} (key : String) (parse : String → Option α) (put : Config → α → Config)
    (value : Option String) (c : Config) : Except ConfigFailure Config :=
  match value with
  | none => .ok c
  | some raw =>
    match parse raw with
    | some a => .ok (put c a)
    | none => .error (.invalid key ("cannot parse '" ++ raw ++ "'"))

def steps (env : Environment) : List (Config → Except ConfigFailure Config) :=
  [override maxHistoryKey bound?
      (fun c a => { c with featurizer := { c.featurizer with maxHistory := a } }) env.maxHistory,
    override removeDuplicatesKey bool?
      (fun c a => { c with featurizer := { c.featurizer with removeDuplicates := a } })
      env.removeDuplicates,
    override parallelKey bool?
      (fun c a => { c with featurizer := { c.featurizer with parallel := a } }) env.parallel,
    override logLevelKey some
      (fun c a => { c with observability := { c.observability with logLevel := a } }) env.logLevel]

/-- Runs the steps up to the first that fails. -/
def runSteps (c : Config) :
    List (Config → Except ConfigFailure Config) → Config × Option ConfigFailure
  | [] => (c, none)
  | step :: rest =>
    match step c with
    | .ok c => runSteps c rest
    | .error failure => (c, some failure)

/-- The configuration with the overrides in place, and the failure that ended them early. -/
def apply (env : Environment) (c : Config) : Config × Option ConfigFailure :=
  runSteps c env.steps

end Environment

end DialogueWindows
