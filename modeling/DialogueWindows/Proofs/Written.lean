import DialogueWindows.Config.Load
import DialogueWindows.Proofs.Overwriting

/-! # Settings that a document writes

A document writes a setting under its name in the record of a section; of several entries the last
counts. A configuration that has been read holds for each setting what the document writes there, or
else the default (`Config.writtenIn_of_parse?`). -/

namespace DialogueWindows

/-- What stands under a name in a record whose fields have `names`. -/
def Toml.field? (v : Toml) (names : List String) (name : String) : Option Toml :=
  lastUnder name ((v.fields? names).getD [])

/-- A part of a configuration: its name and those of its settings. -/
structure Section where
  name : String
  settings : List String

namespace Section

def featurizer : Section :=
  ⟨"featurizer", ["max_history", "remove_duplicates", "parallel"]⟩

def encoder : Section :=
  ⟨"encoder", ["cache_capacity"]⟩

def observability : Section :=
  ⟨"observability", ["log_level", "json_logs"]⟩

def names : List String :=
  [featurizer.name, encoder.name, observability.name]

/-- What a document writes for a setting. -/
def setting? (s : Section) (v : Toml) (name : String) : Option Toml :=
  (v.field? names s.name).bind (·.field? s.settings name)

/-- A section holds what is written there, all of it being the base where there is no section. -/
theorem of_elim {κ : Type} {s : Section} {v : Toml} {read : Toml → Option κ} {base c : κ}
    (WrittenIn : κ → (String → Option Toml) → Prop) (hbase : WrittenIn base fun _ => none)
    (hread : ∀ {w c}, read w = some c → WrittenIn c (w.field? s.settings))
    (h : (v.field? names s.name).elim (some base) read = some c) :
    WrittenIn c (s.setting? v) := by
  unfold setting?
  cases hs : v.field? names s.name with
  | none =>
    rw [hs] at h
    cases h
    exact hbase
  | some w =>
    rw [hs] at h
    exact hread h

end Section

/-- The values in `c` are those that are written, or else those in `base`. -/
structure FeaturizerConfig.WrittenIn (c : FeaturizerConfig) (written : String → Option Toml)
    (base : FeaturizerConfig) : Prop where
  maxHistory : (written "max_history").elim (some base.maxHistory) (·.natural?.map some) =
    some c.maxHistory
  removeDuplicates : (written "remove_duplicates").elim (some base.removeDuplicates) (·.boolean?) =
    some c.removeDuplicates
  parallel : (written "parallel").elim (some base.parallel) (·.boolean?) = some c.parallel

structure EncoderConfig.WrittenIn (c : EncoderConfig) (written : String → Option Toml)
    (base : EncoderConfig) : Prop where
  cacheCapacity : (written "cache_capacity").elim (some base.cacheCapacity) (·.natural?) =
    some c.cacheCapacity

structure ObservabilityConfig.WrittenIn (c : ObservabilityConfig) (written : String → Option Toml)
    (base : ObservabilityConfig) : Prop where
  logLevel : (written "log_level").elim (some base.logLevel) (·.text?) = some c.logLevel
  jsonLogs : (written "json_logs").elim (some base.jsonLogs) (·.boolean?) = some c.jsonLogs

/-- The configuration holds what the document writes, and defaults for all else. -/
structure Config.WrittenIn (c : Config) (v : Toml) : Prop where
  featurizer : c.featurizer.WrittenIn (Section.featurizer.setting? v) .default
  encoder : c.encoder.WrittenIn (Section.encoder.setting? v) .default
  observability : c.observability.WrittenIn (Section.observability.setting? v) .default

/-! ### Entries in order -/

section Entries
variable {κ β : Type} {put : κ → String × Toml → Option κ} {read : κ → β} {key : String}
  {value : Toml → Option β} {entries : List (String × Toml)} {c c' : κ}

theorem lastUnder_singleton (key : String) (e : String × Toml) :
    lastUnder key [e] = if e.1 = key then some e.2 else none :=
  lastUnder_concat [] e

/-- If each entry changes what is read under its own key alone, the last entry under a key is what
is read. -/
theorem read_foldlM
    (step : ∀ {c e c'}, put c e = some c' →
      (lastUnder key [e]).elim (some (read c)) value = some (read c'))
    (h : entries.foldlM put c = some c') :
    (lastUnder key entries).elim (some (read c)) value = some (read c') := by
  induction entries using List.reverseRecOn generalizing c' with
  | nil => cases h; rfl
  | append_singleton entries e ih =>
    rw [List.foldlM_append] at h
    obtain ⟨d, hd, h⟩ := Option.bind_eq_some_iff.1 h
    have hlast : put d e = some c' := by simpa using h
    have := step hlast
    rw [lastUnder_singleton] at this
    rw [lastUnder_concat]
    split
    · rename_i he
      rwa [if_pos he] at this
    · rename_i he
      rw [if_neg he] at this
      rw [ih hd, ← this]
      rfl

theorem Toml.read_field {v : Toml} {names : List String}
    (step : ∀ {c e c'}, put c e = some c' →
      (lastUnder key [e]).elim (some (read c)) value = some (read c'))
    (h : (v.fields? names >>= fun entries => entries.foldlM put c) = some c') :
    (v.field? names key).elim (some (read c)) value = some (read c') := by
  obtain ⟨entries, hentries, h⟩ := Option.bind_eq_some_iff.1 h
  rw [field?, hentries, Option.getD_some]
  exact read_foldlM step h

end Entries

/-! ### Sections -/

namespace FeaturizerConfig

theorem writtenIn_putToml {c c' : FeaturizerConfig} {e : String × Toml}
    (h : putToml c e = some c') : c'.WrittenIn (lastUnder · [e]) c := by
  unfold putToml at h
  split at h
  case h_4 hm hr hp =>
    cases h
    constructor <;>
      simp only [lastUnder_singleton, if_neg hm, if_neg hr, if_neg hp, Option.elim_none]
  -- a setting has been put, of the kind that belongs to its name
  all_goals
    rename_i hname
    obtain ⟨a, ha, h⟩ := Option.bind_eq_some_iff.1 h
    cases h
    constructor <;> simp [lastUnder_singleton, hname, ha]

theorem writtenIn_of_ofToml? {c : FeaturizerConfig} {v : Toml} (h : ofToml? v = some c) :
    c.WrittenIn (v.field? Section.featurizer.settings) default :=
  ⟨Toml.read_field (fun hput => (writtenIn_putToml hput).maxHistory) h,
    Toml.read_field (fun hput => (writtenIn_putToml hput).removeDuplicates) h,
    Toml.read_field (fun hput => (writtenIn_putToml hput).parallel) h⟩

end FeaturizerConfig

namespace EncoderConfig

theorem writtenIn_putToml {c c' : EncoderConfig} {e : String × Toml}
    (h : putToml c e = some c') : c'.WrittenIn (lastUnder · [e]) c := by
  unfold putToml at h
  split at h
  · rename_i hname
    obtain ⟨a, ha, h⟩ := Option.bind_eq_some_iff.1 h
    cases h
    constructor
    simp [lastUnder_singleton, hname, ha]
  · rename_i hname
    cases h
    constructor
    simp only [lastUnder_singleton, if_neg hname, Option.elim_none]

theorem writtenIn_of_ofToml? {c : EncoderConfig} {v : Toml} (h : ofToml? v = some c) :
    c.WrittenIn (v.field? Section.encoder.settings) default :=
  ⟨Toml.read_field (fun hput => (writtenIn_putToml hput).cacheCapacity) h⟩

end EncoderConfig

namespace ObservabilityConfig

theorem writtenIn_putToml {c c' : ObservabilityConfig} {e : String × Toml}
    (h : putToml c e = some c') : c'.WrittenIn (lastUnder · [e]) c := by
  unfold putToml at h
  split at h
  case h_3 hl hj =>
    cases h
    constructor <;> simp only [lastUnder_singleton, if_neg hl, if_neg hj, Option.elim_none]
  all_goals
    rename_i hname
    obtain ⟨a, ha, h⟩ := Option.bind_eq_some_iff.1 h
    cases h
    constructor <;> simp [lastUnder_singleton, hname, ha]

theorem writtenIn_of_ofToml? {c : ObservabilityConfig} {v : Toml} (h : ofToml? v = some c) :
    c.WrittenIn (v.field? Section.observability.settings) default :=
  ⟨Toml.read_field (fun hput => (writtenIn_putToml hput).logLevel) h,
    Toml.read_field (fun hput => (writtenIn_putToml hput).jsonLogs) h⟩

end ObservabilityConfig

/-! ### Documents -/

namespace Config

/-- The three parts of `c` are those that `section?` writes, or else those in `base`. -/
structure Assembles (section? : String → Option Toml) (base c : Config) : Prop where
  featurizer : (section? "featurizer").elim (some base.featurizer) FeaturizerConfig.ofToml? =
    some c.featurizer
  encoder : (section? "encoder").elim (some base.encoder) EncoderConfig.ofToml? = some c.encoder
  observability : (section? "observability").elim (some base.observability)
    ObservabilityConfig.ofToml? = some c.observability

theorem assembles_putToml {c c' : Config} {e : String × Toml} (h : putToml c e = some c') :
    Assembles (lastUnder · [e]) c c' := by
  unfold putToml at h
  split at h
  case h_4 hf he ho =>
    cases h
    constructor <;>
      simp only [lastUnder_singleton, if_neg hf, if_neg he, if_neg ho, Option.elim_none]
  all_goals
    rename_i hname
    obtain ⟨part, hpart, h⟩ := Option.bind_eq_some_iff.1 h
    cases h
    constructor <;> simp [lastUnder_singleton, hname, hpart]

theorem assembles_of_parse? {c : Config} {text : String} (h : parse? text = some c) :
    ∃ v, Toml.parse? text = some v ∧ Assembles (v.field? Section.names) .default c := by
  obtain ⟨v, hv, h⟩ := Option.bind_eq_some_iff.1 h
  exact ⟨v, hv, Toml.read_field (fun hput => (assembles_putToml hput).featurizer) h,
    Toml.read_field (fun hput => (assembles_putToml hput).encoder) h,
    Toml.read_field (fun hput => (assembles_putToml hput).observability) h⟩

theorem writtenIn_of_parse? {c : Config} {text : String} (h : parse? text = some c) :
    ∃ v, Toml.parse? text = some v ∧ c.WrittenIn v := by
  obtain ⟨v, hv, hparts⟩ := assembles_of_parse? h
  exact ⟨v, hv,
    Section.of_elim (FeaturizerConfig.WrittenIn · · .default) ⟨rfl, rfl, rfl⟩
      FeaturizerConfig.writtenIn_of_ofToml? hparts.featurizer,
    Section.of_elim (EncoderConfig.WrittenIn · · .default) ⟨rfl⟩
      EncoderConfig.writtenIn_of_ofToml? hparts.encoder,
    Section.of_elim (ObservabilityConfig.WrittenIn · · .default) ⟨rfl, rfl⟩
      ObservabilityConfig.writtenIn_of_ofToml? hparts.observability⟩

end Config

end DialogueWindows
