import DialogueWindows.Proofs.Calls
import DialogueWindows.Proofs.Overrides
import DialogueWindows.Proofs.Written

/-! # What loading answers

`Config.Loads` lists the answers to a file and an environment, each with its condition; the failures
stand in the order in which they take precedence. `Config.load_layers` is the main statement: there
are no other answers, a setting comes from the environment, else from the file, else from the
defaults, and an engine refuses a history bound exactly if the validation does. -/

namespace DialogueWindows

theorem fromUTF8?_eq_some_iff {bytes : ByteArray} {text : String} :
    String.fromUTF8? bytes = some text ↔ bytes = text.toUTF8 := by
  unfold String.fromUTF8?
  constructor
  · intro h
    split at h
    · cases h
      rfl
    · cases h
  · rintro rfl
    exact dif_pos text.isValidUTF8

theorem Text.isVoid_iff {text : String} : isVoid text = true ↔ ∀ ch ∈ text.toList, isBlank ch :=
  List.all_eq_true

/-- The failure with another name for the text that is read. -/
def ConfigFailure.withPath (path : String) : ConfigFailure → ConfigFailure
  | unparsable _ message => unparsable path message
  | failure => failure

/-- No variable is set. -/
def Environment.unset : Environment :=
  ⟨none, none, none, none⟩

namespace Config
variable {path : String} {file : Option ByteArray} {env : Environment} {text : String}
  {base c : Config} {failure : ConfigFailure} {r : Except ConfigFailure Config}

/-! ### Validity -/

structure Valid (c : Config) : Prop where
  maxHistory : c.featurizer.maxHistory ≠ some 0
  logLevel : ∃ ch ∈ c.observability.logLevel.toList, ¬ Text.isBlank ch

def noHistory : ConfigFailure :=
  .invalid "featurizer.max_history" "must be at least 1 when set"

def noLevel : ConfigFailure :=
  .invalid "observability.log_level" "must not be empty"

/-- The first setting that is not valid decides. -/
inductive Rejects (c : Config) : ConfigFailure → Prop
  | noHistory (h : c.featurizer.maxHistory = some 0) : Rejects c noHistory
  | noLevel (hhistory : c.featurizer.maxHistory ≠ some 0)
      (h : ∀ ch ∈ c.observability.logLevel.toList, Text.isBlank ch) : Rejects c noLevel

/-- The configuration, or the failure with which it is rejected. -/
def checked (c : Config) : Except ConfigFailure Config :=
  c.validate.map fun _ => c

theorem checked_eq (c : Config) :
    c.checked = if c.featurizer.maxHistory = some 0 then .error noHistory else
      if Text.isVoid c.observability.logLevel then .error noLevel else .ok c := by
  simp only [checked, validate, FeaturizerConfig.validate]
  split
  · rfl
  · simp only [bind, Except.bind]
    split <;> rfl

theorem Rejects.checked_eq (h : c.Rejects failure) : c.checked = .error failure := by
  rw [Config.checked_eq]
  rcases h with hhistory | ⟨hhistory, hlevel⟩
  · rw [if_pos hhistory]
  · rw [if_neg hhistory, if_pos (Text.isVoid_iff.2 hlevel)]

theorem Valid.checked_eq (h : c.Valid) : c.checked = .ok c := by
  obtain ⟨ch, hch, hblank⟩ := h.logLevel
  have hshown : ¬ Text.isVoid c.observability.logLevel := fun hvoid =>
    hblank (Text.isVoid_iff.1 hvoid ch hch)
  rw [Config.checked_eq, if_neg h.maxHistory, if_neg hshown]

theorem rejects_or_valid (c : Config) : (∃ failure, c.Rejects failure) ∨ c.Valid := by
  by_cases hhistory : c.featurizer.maxHistory = some 0
  · exact .inl ⟨_, .noHistory hhistory⟩
  · by_cases hlevel : ∀ ch ∈ c.observability.logLevel.toList, Text.isBlank ch
    · exact .inl ⟨_, .noLevel hhistory hlevel⟩
    · exact .inr ⟨hhistory, by simpa using hlevel⟩

theorem checked_eq_ok_iff {c' : Config} : c.checked = .ok c' ↔ c' = c ∧ c.Valid := by
  rcases rejects_or_valid c with ⟨failure, h⟩ | h
  · have hvalid : ¬ c.Valid := fun hvalid => by
      cases h.checked_eq.symm.trans hvalid.checked_eq
    simp [h.checked_eq, hvalid]
  · simp [h.checked_eq, h, eq_comm]

/-! ### Answers -/

inductive Loads (path : String) (file : Option ByteArray) (env : Environment) :
    Except ConfigFailure Config → Prop
  | missing (h : ∀ text : String, file ≠ some text.toUTF8) :
    Loads path file env (.error (.fileNotFound path))
  | unparsable {text : String} (hfile : file = some text.toUTF8) (h : parse? text = none) :
    Loads path file env (.error (.unparsable path "not a configuration"))
  | refused {text : String} {base : Config} {failure : ConfigFailure}
      (hfile : file = some text.toUTF8) (hparse : parse? text = some base)
      (h : env.refusals.head? = some failure) : Loads path file env (.error failure)
  | rejected {text : String} {base : Config} {failure : ConfigFailure}
      (hfile : file = some text.toUTF8) (hparse : parse? text = some base)
      (hread : env.refusals = []) (h : (env.resolve base).Rejects failure) :
    Loads path file env (.error failure)
  | loaded {text : String} {base : Config} (hfile : file = some text.toUTF8)
      (hparse : parse? text = some base) (hread : env.refusals = [])
      (h : (env.resolve base).Valid) : Loads path file env (.ok (env.resolve base))

theorem load_missing (h : ∀ text : String, file ≠ some text.toUTF8) :
    load path file env = .error (.fileNotFound path) := by
  have hnone : file.bind String.fromUTF8? = none := by
    rw [Option.bind_eq_none_iff]
    rintro bytes rfl
    rw [Option.eq_none_iff_forall_ne_some]
    intro text htext
    exact h text (congrArg some (fromUTF8?_eq_some_iff.1 htext))
  rw [load, hnone]

theorem load_toUTF8 (path text : String) (env : Environment) :
    load path (some text.toUTF8) env =
      match parse? text with
      | none => .error (.unparsable path "not a configuration")
      | some base =>
        match env.refusals.head? with
        | some failure => .error failure
        | none => (env.resolve base).checked := by
  simp only [load, Option.bind_some, fromUTF8?_eq_some_iff.2 rfl, parse]
  cases parse? text with
  | none => rfl
  | some base =>
    simp only [bind, Except.bind]
    cases hread : env.refusals with
    | cons failure rest => simp only [env.apply_eq, hread, List.head?_cons]
    | nil =>
      simp only [Environment.apply_of_refusals hread, List.head?_nil, checked]
      cases (env.resolve base).validate <;> rfl

theorem load_eq_iff : load path file env = r ↔ Loads path file env r := by
  constructor
  · rintro rfl
    by_cases hfile : ∀ text : String, file ≠ some text.toUTF8
    · rw [load_missing hfile]
      exact .missing hfile
    · obtain ⟨text, rfl⟩ : ∃ text : String, file = some text.toUTF8 := by simpa using hfile
      rw [load_toUTF8]
      cases hparse : parse? text with
      | none => exact .unparsable rfl hparse
      | some base =>
        cases hread : env.refusals.head? with
        | some failure => exact .refused rfl hparse hread
        | none =>
          rw [List.head?_eq_none_iff] at hread
          show Loads path _ env (env.resolve base).checked
          rcases rejects_or_valid (env.resolve base) with ⟨failure, h⟩ | h
          · rw [h.checked_eq]
            exact .rejected rfl hparse hread h
          · rw [h.checked_eq]
            exact .loaded rfl hparse hread h
  · rintro (h | ⟨rfl, h⟩ | ⟨rfl, hparse, h⟩ | ⟨rfl, hparse, hread, h⟩ | ⟨rfl, hparse, hread, h⟩)
    · exact load_missing h
    · simp only [load_toUTF8, h]
    · simp only [load_toUTF8, hparse, h]
    · simp only [load_toUTF8, hparse, hread, List.head?_nil, h.checked_eq]
    · simp only [load_toUTF8, hparse, hread, List.head?_nil, h.checked_eq]

/-! ### Texts alone -/

theorem ofText_eq (text : String) :
    ofText text =
      match parse? text with
      | none => .error (.unparsable "<string>" "not a configuration")
      | some c => c.checked := by
  simp only [ofText, parse, checked]
  cases parse? text with
  | none => rfl
  | some c =>
    simp only [bind, Except.bind]
    cases c.validate <;> rfl

theorem load_unset (path text : String) :
    load path (some text.toUTF8) .unset = (ofText text).mapError (·.withPath path) := by
  rw [load_toUTF8, ofText_eq]
  cases parse? text with
  | none => rfl
  | some base =>
    show base.checked = base.checked.mapError (·.withPath path)
    rcases rejects_or_valid base with ⟨failure, h⟩ | h
    · rw [h.checked_eq]
      cases h <;> rfl
    · rw [h.checked_eq, Except.mapError]

theorem valid_of_load (h : load path file env = .ok c) : c.Valid := by
  cases load_eq_iff.1 h with
  | loaded hfile hparse hread hvalid => exact hvalid

theorem valid_of_ofText (h : ofText text = .ok c) : c.Valid := by
  rw [ofText_eq] at h
  split at h
  · cases h
  · obtain ⟨rfl, hvalid⟩ := checked_eq_ok_iff.1 h
    exact hvalid

theorem exists_load_iff (hparse : parse? text = some base) (hread : env.refusals = []) :
    (∃ c, load path (some text.toUTF8) env = .ok c) ↔
      (env.maxHistory.bind Environment.bound?).getD base.featurizer.maxHistory ≠ some 0 ∧
        ∃ ch ∈ (env.logLevel.getD base.observability.logLevel).toList, ¬ Text.isBlank ch := by
  simp only [load_toUTF8, hparse, hread, List.head?_nil, checked_eq_ok_iff]
  exact ⟨fun ⟨_, _, hvalid⟩ => ⟨hvalid.maxHistory, hvalid.logLevel⟩,
    fun ⟨hhistory, hlevel⟩ => ⟨_, rfl, hhistory, hlevel⟩⟩

end Config

/-! ### Engines -/

namespace Engine
variable {runtime : Runtime} {config : Config} {domain : Domain}
  {tagger : Option EntityTagger}

theorem ofDomain_eq_error_iff {failure : Failure} :
    ofDomain runtime config domain tagger = .error failure ↔
      config.featurizer.maxHistory = some 0 ∧ failure = .config Config.noHistory := by
  unfold ofDomain FeaturizerConfig.validate
  by_cases h : config.featurizer.maxHistory = some 0
  · simp [h, eq_comm, Config.noHistory]
  · simp [h]

theorem exists_ofDomain (h : config.Valid) : ∃ e, ofDomain runtime config domain tagger = .ok e :=
  ⟨_, ofDomain_eq_ok_iff.2 ⟨if_neg h.maxHistory, rfl⟩⟩

end Engine

namespace Config

/-- The answers in full. -/
theorem load_layers (path : String) :
    (∀ file env r, load path file env = r ↔ Loads path file env r) ∧
    (∀ text base, parse? text = some base → ∃ v, Toml.parse? text = some v ∧ base.WrittenIn v) ∧
    (∀ text base env, parse? text = some base → env.refusals = [] →
      ((∃ c, load path (some text.toUTF8) env = .ok c) ↔
        (env.maxHistory.bind Environment.bound?).getD base.featurizer.maxHistory ≠ some 0 ∧
          ∃ ch ∈ (env.logLevel.getD base.observability.logLevel).toList, ¬ Text.isBlank ch)) ∧
    (∀ text, load path (some text.toUTF8) .unset = (ofText text).mapError (·.withPath path)) ∧
    (∀ runtime config domain tagger,
      (∀ failure, Engine.ofDomain runtime config domain tagger = .error failure ↔
        config.featurizer.maxHistory = some 0 ∧ failure = .config noHistory) ∧
      ((∃ file env, load path file env = .ok config) ∨ (∃ text, ofText text = .ok config) →
        ∃ e, Engine.ofDomain runtime config domain tagger = .ok e)) := by
  refine ⟨fun _ _ _ => load_eq_iff, fun _ _ => writtenIn_of_parse?,
    fun _ _ _ => exists_load_iff, load_unset path, fun _ _ _ _ =>
      ⟨fun _ => Engine.ofDomain_eq_error_iff, ?_⟩⟩
  rintro (⟨file, env, h⟩ | ⟨text, h⟩)
  · exact Engine.exists_ofDomain (valid_of_load h)
  · exact Engine.exists_ofDomain (valid_of_ofText h)

theorem load_layers_zero :
    (∃ c, load "tracker.toml" (some "[featurizer]\nmax_history = 0".toUTF8)
      ⟨some " 5 ", none, none, none⟩ = .ok c) ∧
    (¬ ∃ c, load "tracker.toml" (some "[featurizer]\nmax_history = 0".toUTF8) .unset = .ok c) ∧
    ¬ ∃ c, load "tracker.toml" (some "[featurizer]\nmax_history = 5".toUTF8)
      ⟨some "0", none, none, none⟩ = .ok c := by
  have hloads := (load_layers "tracker.toml").2.2.1
  have hzero : parse? "[featurizer]\nmax_history = 0" =
      some { default with featurizer := .withMaxHistory (some 0) } := by decide +kernel
  have hfive : parse? "[featurizer]\nmax_history = 5" =
      some { default with featurizer := .withMaxHistory (some 5) } := by decide +kernel
  refine ⟨(hloads _ _ _ hzero (by decide +kernel)).2
    ⟨by decide +kernel, 'i', by decide +kernel, by decide +kernel⟩, fun h => ?_, fun h => ?_⟩
  · exact ((hloads _ _ _ hzero rfl).1 h).1 rfl
  · exact ((hloads _ _ _ hfive (by decide +kernel)).1 h).1 (by decide +kernel)

end Config

end DialogueWindows
