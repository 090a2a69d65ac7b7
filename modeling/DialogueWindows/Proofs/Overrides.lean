import DialogueWindows.Config.Environment
import Mathlib.Data.List.TakeWhile

/-! # Overrides, variable by variable

A variable that is set to what cannot be read is refused whatever the configuration is. The first
refusal ends the overriding, with the overrides before it in place (`Environment.apply_eq`). If no
variable is refused, each one that is set decides its setting (`Environment.apply_of_refusals`). -/

namespace DialogueWindows.Environment
variable {α : Type} {env : Environment}

/-- The failure of a variable that is set to what cannot be read. -/
def refusal? (key : String) (parse : String → Option α) (value : Option String) :
    Option ConfigFailure :=
  value.bind fun raw =>
    if (parse raw).isSome then none else some (.invalid key ("cannot parse '" ++ raw ++ "'"))

/-- The failures of the variables, in the order in which they are read. Every log level can be read.
-/
def refusals (env : Environment) : List ConfigFailure :=
  [refusal? maxHistoryKey bound? env.maxHistory,
    refusal? removeDuplicatesKey bool? env.removeDuplicates,
    refusal? parallelKey bool? env.parallel].filterMap id

/-- The settings that the variables decide, all others from `base`. -/
def resolve (env : Environment) (base : Config) : Config where
  featurizer := {
    maxHistory := (env.maxHistory.bind bound?).getD base.featurizer.maxHistory
    removeDuplicates := (env.removeDuplicates.bind bool?).getD base.featurizer.removeDuplicates
    parallel := (env.parallel.bind bool?).getD base.featurizer.parallel }
  encoder := base.encoder
  observability := {
    logLevel := env.logLevel.getD base.observability.logLevel
    jsonLogs := base.observability.jsonLogs }

/-! ### Steps -/

/-- What a step does: it fails, or it changes the configuration. -/
structure Effect where
  failure? : Option ConfigFailure
  change : Config → Config

namespace Effect

def run (e : Effect) (c : Config) : Except ConfigFailure Config :=
  match e.failure? with
  | some failure => .error failure
  | none => .ok (e.change c)

def ofVariable (key : String) (parse : String → Option α) (put : Config → α → Config)
    (value : Option String) : Effect :=
  ⟨refusal? key parse value, fun c => (value.bind parse).elim c (put c)⟩

theorem run_ofVariable (key : String) (parse : String → Option α) (put : Config → α → Config)
    (value : Option String) :
    (ofVariable key parse put value).run = override key parse put value := by
  funext c
  cases value with
  | none => rfl
  | some raw => cases h : parse raw <;> simp [run, ofVariable, override, refusal?, h]

end Effect

theorem runSteps_run (effects : List Effect) (c : Config) :
    runSteps c (effects.map Effect.run) =
      ((effects.takeWhile (·.failure?.isNone)).foldl (fun c e => e.change c) c,
        (effects.filterMap (·.failure?)).head?) := by
  induction effects generalizing c with
  | nil => rfl
  | cons e rest ih =>
    rw [List.map_cons, runSteps, Effect.run]
    cases h : e.failure? with
    | some failure =>
      rw [List.takeWhile_cons_of_neg (by simp [h]), List.filterMap_cons_some h]
      rfl
    | none =>
      rw [List.takeWhile_cons_of_pos (by simp [h]), List.filterMap_cons_none h]
      exact ih _

/-! ### Variables -/

def effects (env : Environment) : List Effect :=
  [.ofVariable maxHistoryKey bound?
      (fun c a => { c with featurizer := { c.featurizer with maxHistory := a } }) env.maxHistory,
    .ofVariable removeDuplicatesKey bool?
      (fun c a => { c with featurizer := { c.featurizer with removeDuplicates := a } })
      env.removeDuplicates,
    .ofVariable parallelKey bool?
      (fun c a => { c with featurizer := { c.featurizer with parallel := a } }) env.parallel,
    .ofVariable logLevelKey some
      (fun c a => { c with observability := { c.observability with logLevel := a } }) env.logLevel]

theorem map_run_effects (env : Environment) : env.effects.map Effect.run = env.steps := by
  simp only [effects, List.map_cons, List.map_nil, Effect.run_ofVariable]
  rfl

theorem filterMap_failure?_effects (env : Environment) :
    env.effects.filterMap (·.failure?) = env.refusals := by
  have hlevel : refusal? logLevelKey some env.logLevel = none := by cases env.logLevel <;> rfl
  simp only [effects, Effect.ofVariable, List.filterMap_cons, hlevel]
  rfl

theorem foldl_change_effects (env : Environment) (c : Config) :
    env.effects.foldl (fun c e => e.change c) c = env.resolve c := by
  simp only [effects, Effect.ofVariable, List.foldl_cons, List.foldl_nil, resolve]
  cases env.maxHistory.bind bound? <;> cases env.removeDuplicates.bind bool? <;>
    cases env.parallel.bind bool? <;> cases env.logLevel <;> rfl

theorem apply_eq (env : Environment) (c : Config) :
    env.apply c = ((env.effects.takeWhile (·.failure?.isNone)).foldl (fun c e => e.change c) c,
      env.refusals.head?) := by
  rw [apply, ← map_run_effects, runSteps_run, filterMap_failure?_effects]

theorem apply_of_refusals (h : env.refusals = []) (c : Config) :
    env.apply c = (env.resolve c, none) := by
  have hall : env.effects.takeWhile (·.failure?.isNone) = env.effects := by
    rw [← filterMap_failure?_effects, List.filterMap_eq_nil_iff] at h
    exact List.takeWhile_eq_self_iff.2 fun e he => by rw [h e he]; rfl
  rw [apply_eq, hall, foldl_change_effects, h, List.head?_nil]

end DialogueWindows.Environment
