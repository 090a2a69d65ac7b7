import DialogueWindows.Proofs.Overrides
import DialogueWindows.Proofs.Spelling

/-! # What overriding changes

Each variable owns one setting. `Overridden` says that some variables have been read: those that are
set have put there what they spell, all other settings are as before, and with them the two that no
variable owns. If every variable that is set spells something, all of them are read; else the first
that spells nothing is refused, and those before it have been read (`Environment.apply_eq_iff`). So
the environment alone decides on success, and doing it once more changes nothing
(`Environment.overrides_framed`). -/

namespace DialogueWindows

inductive Variable where
  | maxHistory
  | removeDuplicates
  | parallel
  | logLevel
deriving DecidableEq

namespace Variable

/-- The variables whose values can be refused, in the order in which they are read. -/
def parsed : List Variable :=
  [maxHistory, removeDuplicates, parallel]

def all : List Variable :=
  parsed ++ [logLevel]

theorem mem_all (v : Variable) : v ∈ all := by cases v <;> decide

def key : Variable → String
  | maxHistory => Environment.maxHistoryKey
  | removeDuplicates => Environment.removeDuplicatesKey
  | parallel => Environment.parallelKey
  | logLevel => Environment.logLevelKey

theorem key_injective : Function.Injective key := by
  intro v w h
  cases v <;> cases w <;> first | rfl | exact absurd h (by decide)

/-- The value of the variable, if it is set. -/
def value? : Variable → Environment → Option String
  | maxHistory, env => env.maxHistory
  | removeDuplicates, env => env.removeDuplicates
  | parallel, env => env.parallel
  | logLevel, env => env.logLevel

abbrev Setting : Variable → Type
  | maxHistory => Option Nat
  | removeDuplicates => Bool
  | parallel => Bool
  | logLevel => String

def setting : (v : Variable) → Config → v.Setting
  | maxHistory, c => c.featurizer.maxHistory
  | removeDuplicates, c => c.featurizer.removeDuplicates
  | parallel, c => c.featurizer.parallel
  | logLevel, c => c.observability.logLevel

def put : (v : Variable) → Config → v.Setting → Config
  | maxHistory, c, a => { c with featurizer := { c.featurizer with maxHistory := a } }
  | removeDuplicates, c, a => { c with featurizer := { c.featurizer with removeDuplicates := a } }
  | parallel, c, a => { c with featurizer := { c.featurizer with parallel := a } }
  | logLevel, c, a => { c with observability := { c.observability with logLevel := a } }

def parse : (v : Variable) → String → Option v.Setting
  | maxHistory => Environment.bound?
  | removeDuplicates => Environment.bool?
  | parallel => Environment.bool?
  | logLevel => some

/-- What a text says of the setting. Every text is a log level. -/
def Spells : (v : Variable) → String → v.Setting → Prop
  | maxHistory, raw, a => Environment.SpellsBound raw a
  | removeDuplicates, raw, a => Text.Pads raw (Environment.truthWord a)
  | parallel, raw, a => Text.Pads raw (Environment.truthWord a)
  | logLevel, raw, a => raw = a

/-- The variable is not set, or it spells something. -/
def Readable (v : Variable) (env : Environment) : Prop :=
  ∀ raw, v.value? env = some raw → ∃ a, v.Spells raw a

variable {v w : Variable} {env : Environment} {raw : String} {c c' : Config}

theorem parse_eq_some_iff {a : v.Setting} : v.parse raw = some a ↔ v.Spells raw a := by
  cases v with
  | maxHistory => exact Environment.bound?_eq_some_iff
  | removeDuplicates => exact Environment.bool?_eq_some_iff
  | parallel => exact Environment.bool?_eq_some_iff
  | logLevel => exact Option.some_inj

theorem parse_eq_none_iff : v.parse raw = none ↔ ∀ a, ¬ v.Spells raw a := by
  simp only [Option.eq_none_iff_forall_ne_some, ne_eq, parse_eq_some_iff]

theorem spells_unique {a b : v.Setting} (ha : v.Spells raw a) (hb : v.Spells raw b) : a = b :=
  Option.some.inj ((parse_eq_some_iff.2 ha).symm.trans (parse_eq_some_iff.2 hb))

theorem setting_put (v : Variable) (c : Config) (a : v.Setting) : v.setting (v.put c a) = a := by
  cases v <;> rfl

theorem setting_put_of_ne (h : w ≠ v) (c : Config) (a : v.Setting) :
    w.setting (v.put c a) = w.setting c := by
  cases v <;> cases w <;> first | rfl | exact absurd rfl h

theorem encoder_put (v : Variable) (c : Config) (a : v.Setting) :
    (v.put c a).encoder = c.encoder := by
  cases v <;> rfl

theorem jsonLogs_put (v : Variable) (c : Config) (a : v.Setting) :
    (v.put c a).observability.jsonLogs = c.observability.jsonLogs := by
  cases v <;> rfl

theorem ext_setting (h : ∀ v : Variable, v.setting c = v.setting c')
    (hencoder : c.encoder = c'.encoder)
    (hlogs : c.observability.jsonLogs = c'.observability.jsonLogs) : c = c' := by
  obtain ⟨⟨_, _, _⟩, _, ⟨_, _⟩⟩ := c
  obtain ⟨⟨_, _, _⟩, _, ⟨_, _⟩⟩ := c'
  obtain rfl := h .maxHistory
  obtain rfl := h .removeDuplicates
  obtain rfl := h .parallel
  obtain rfl := h .logLevel
  obtain rfl := hencoder
  obtain rfl := hlogs
  rfl

/-! ### Refusals -/

def refusal? (env : Environment) (v : Variable) : Option ConfigFailure :=
  Environment.refusal? v.key v.parse (v.value? env)

theorem refusal?_eq_some_iff {failure : ConfigFailure} : v.refusal? env = some failure ↔
    ∃ raw, v.value? env = some raw ∧ (∀ a, ¬ v.Spells raw a) ∧
      failure = .invalid v.key ("cannot parse '" ++ raw ++ "'") := by
  unfold refusal? Environment.refusal?
  cases v.value? env with
  | none => simp
  | some raw =>
    simp only [Option.bind_some, Option.some.injEq, exists_eq_left', ← parse_eq_none_iff]
    cases v.parse raw <;> simp [eq_comm]

theorem refusal?_eq_none_iff : v.refusal? env = none ↔ v.Readable env := by
  rw [Option.eq_none_iff_forall_ne_some]
  constructor
  · intro h raw hraw
    by_contra hspells
    exact h _ (refusal?_eq_some_iff.2 ⟨raw, hraw, not_exists.1 hspells, rfl⟩)
  · intro h failure hfailure
    obtain ⟨raw, hraw, hspells, -⟩ := refusal?_eq_some_iff.1 hfailure
    obtain ⟨a, ha⟩ := h raw hraw
    exact hspells a ha

theorem readable_logLevel (env : Environment) : logLevel.Readable env :=
  fun raw _ => ⟨raw, rfl⟩

end Variable

namespace Environment
variable {env : Environment} {v : Variable} {vs before after : List Variable} {c c' c'' : Config}
  {raw : String} {r : Config × Option ConfigFailure}

/-- The configuration `c'` is `c` with the overrides of some variables in place. -/
structure Overridden (env : Environment) (vs : List Variable) (c c' : Config) : Prop where
  spelled : ∀ v ∈ vs, ∀ raw, v.value? env = some raw → v.Spells raw (v.setting c')
  kept : ∀ v, v ∉ vs ∨ v.value? env = none → v.setting c' = v.setting c
  encoder : c'.encoder = c.encoder
  jsonLogs : c'.observability.jsonLogs = c.observability.jsonLogs

/-- The answers to overriding. Those that refuse name the variable and quote its value. -/
inductive Outcome (env : Environment) (c : Config) : Config × Option ConfigFailure → Prop
  | overridden {c' : Config} (hread : ∀ v ∈ Variable.all, v.Readable env)
    (hc : Overridden env Variable.all c c') : Outcome env c (c', none)
  | refused {before after : List Variable} {v : Variable} {raw : String} {c' : Config}
    (hsplit : Variable.parsed = before ++ v :: after) (hbefore : ∀ w ∈ before, w.Readable env)
    (hraw : v.value? env = some raw) (hspells : ∀ a, ¬ v.Spells raw a)
    (hc : Overridden env before c c') :
    Outcome env c (c', some (.invalid v.key ("cannot parse '" ++ raw ++ "'")))

/-! ### Reading some variables -/

def effect (env : Environment) (v : Variable) : Effect :=
  .ofVariable v.key v.parse v.put (v.value? env)

theorem effects_eq (env : Environment) : env.effects = Variable.all.map env.effect := rfl

theorem refusals_eq (env : Environment) :
    env.refusals = Variable.parsed.filterMap (·.refusal? env) := rfl

namespace Overridden

theorem nil : Overridden env [] c c :=
  ⟨fun _ hv => absurd hv List.not_mem_nil, fun _ _ => rfl, rfl, rfl⟩

theorem trans (h : Overridden env before c c') (h' : Overridden env after c' c'')
    (hdisjoint : ∀ v ∈ before, v ∉ after) : Overridden env (before ++ after) c c'' where
  spelled v hv raw hraw := by
    rcases List.mem_append.1 hv with hv | hv
    · rw [h'.kept v (.inl (hdisjoint v hv))]
      exact h.spelled v hv raw hraw
    · exact h'.spelled v hv raw hraw
  kept v hv := by
    rw [List.mem_append, not_or] at hv
    rw [h'.kept v (hv.imp_left And.right), h.kept v (hv.imp_left And.left)]
  encoder := h'.encoder.trans h.encoder
  jsonLogs := h'.jsonLogs.trans h.jsonLogs

/-- One variable is read. -/
theorem step (hread : v.Readable env) (c : Config) :
    Overridden env [v] c ((env.effect v).change c) := by
  cases hraw : v.value? env with
  | none =>
    have hchange : (env.effect v).change c = c := by rw [effect, hraw]; rfl
    rw [hchange]
    refine ⟨fun w hw raw hset => ?_, fun _ _ => rfl, rfl, rfl⟩
    rw [List.mem_singleton.1 hw, hraw] at hset
    cases hset
  | some raw =>
    obtain ⟨a, ha⟩ := hread raw hraw
    have hchange : (env.effect v).change c = v.put c a := by
      rw [effect, hraw]
      show ((some raw).bind v.parse).elim c (v.put c) = v.put c a
      rw [Option.bind_some, Variable.parse_eq_some_iff.2 ha, Option.elim_some]
    rw [hchange]
    refine ⟨fun w hw raw' hset => ?_, fun w hw => ?_, v.encoder_put c a, v.jsonLogs_put c a⟩
    · obtain rfl := List.mem_singleton.1 hw
      obtain rfl := Option.some.inj (hraw.symm.trans hset)
      rwa [Variable.setting_put]
    · refine Variable.setting_put_of_ne ?_ c a
      rintro rfl
      rcases hw with hw | hw
      · exact hw (List.mem_singleton_self w)
      · cases hraw.symm.trans hw

/-- Variables that do not repeat are read one after the other. -/
theorem run (hnodup : vs.Nodup) (hread : ∀ v ∈ vs, v.Readable env) (c : Config) :
    Overridden env vs c (vs.foldl (fun c v => (env.effect v).change c) c) := by
  induction vs generalizing c with
  | nil => exact nil
  | cons v rest ih =>
    obtain ⟨hv, hrest⟩ := List.nodup_cons.1 hnodup
    obtain ⟨hreadv, hreadrest⟩ := List.forall_mem_cons.1 hread
    exact (step hreadv c).trans (ih hrest hreadrest _) (List.forall_mem_singleton.2 hv)

theorem unique (h : Overridden env vs c c') (h' : Overridden env vs c c'') : c' = c'' := by
  refine Variable.ext_setting (fun v => ?_) (h.encoder.trans h'.encoder.symm)
    (h.jsonLogs.trans h'.jsonLogs.symm)
  by_cases hv : v ∈ vs
  · cases hraw : v.value? env with
    | none => rw [h.kept v (.inr hraw), h'.kept v (.inr hraw)]
    | some raw => exact Variable.spells_unique (h.spelled v hv raw hraw) (h'.spelled v hv raw hraw)
  · rw [h.kept v (.inl hv), h'.kept v (.inl hv)]

/-- To read the same variables again changes nothing. -/
theorem again (h : Overridden env vs c c') : Overridden env vs c' c' :=
  ⟨h.spelled, fun _ _ => rfl, rfl, rfl⟩

end Overridden

/-! ### Reading all variables -/

theorem apply_snd (env : Environment) (c : Config) :
    (env.apply c).2 = Variable.parsed.findSome? (·.refusal? env) := by
  rw [apply_eq, refusals_eq, List.head?_filterMap]

theorem apply_snd_eq_none_iff :
    (env.apply c).2 = none ↔ ∀ v ∈ Variable.all, v.Readable env := by
  have hlevel : ∀ v ∈ [Variable.logLevel], v.Readable env := by
    intro v hv
    rw [List.mem_singleton.1 hv]
    exact Variable.readable_logLevel env
  rw [apply_snd, List.findSome?_eq_none_iff, Variable.all, List.forall_mem_append,
    and_iff_left hlevel]
  simp only [Variable.refusal?_eq_none_iff]

theorem apply_snd_eq_some_iff {failure : ConfigFailure} : (env.apply c).2 = some failure ↔
    ∃ before v after raw, Variable.parsed = before ++ v :: after ∧
      (∀ w ∈ before, w.Readable env) ∧ v.value? env = some raw ∧ (∀ a, ¬ v.Spells raw a) ∧
      failure = .invalid v.key ("cannot parse '" ++ raw ++ "'") := by
  rw [apply_snd, List.findSome?_eq_some_iff]
  simp only [Variable.refusal?_eq_some_iff, Variable.refusal?_eq_none_iff]
  constructor
  · rintro ⟨before, v, after, hsplit, ⟨raw, hraw, hspells, hfailure⟩, hbefore⟩
    exact ⟨before, v, after, raw, hsplit, hbefore, hraw, hspells, hfailure⟩
  · rintro ⟨before, v, after, raw, hsplit, hbefore, hraw, hspells, hfailure⟩
    exact ⟨before, v, after, hsplit, ⟨raw, hraw, hspells, hfailure⟩, hbefore⟩

theorem apply_snd_ne_of_readable (hread : v.Readable env) (c : Config) (message : String) :
    (env.apply c).2 ≠ some (.invalid v.key message) := by
  intro h
  obtain ⟨_, w, _, raw, -, -, hraw, hspells, hfailure⟩ := apply_snd_eq_some_iff.1 h
  obtain rfl := Variable.key_injective (ConfigFailure.invalid.inj hfailure).1
  obtain ⟨a, ha⟩ := hread raw hraw
  exact hspells a ha

/-- The variables before the first that is refused have been read, and no others. -/
theorem overridden_apply (hsplit : Variable.all = before ++ after)
    (hbefore : ∀ v ∈ before, v.Readable env) (hafter : ∀ v ∈ after.head?, ¬ v.Readable env)
    (c : Config) : Overridden env before c (env.apply c).1 := by
  have hnodup : before.Nodup := by
    have hall : Variable.all.Nodup := by decide
    rw [hsplit] at hall
    exact (List.nodup_append.1 hall).1
  let reads (v : Variable) : Bool := (env.effect v).failure?.isNone
  have hreads : ∀ v, reads v = true ↔ v.Readable env := fun v =>
    Option.isNone_iff_eq_none.trans Variable.refusal?_eq_none_iff
  have hstop : after.takeWhile reads = [] := by
    cases after with
    | nil => rfl
    | cons v rest => exact List.takeWhile_cons_of_neg (mt (hreads v).1 (hafter v rfl))
  have hrun : Variable.all.takeWhile reads = before := by
    rw [hsplit, List.takeWhile_append_of_pos fun v hv => (hreads v).2 (hbefore v hv), hstop,
      List.append_nil]
  have hread : env.effects.takeWhile (·.failure?.isNone) = before.map env.effect := by
    rw [effects_eq, List.takeWhile_map]
    exact congrArg _ hrun
  rw [apply_eq, hread, List.foldl_map]
  exact Overridden.run hnodup hbefore c

theorem overridden_of_readable (hread : ∀ v ∈ Variable.all, v.Readable env) (c : Config) :
    Overridden env Variable.all c (env.apply c).1 :=
  overridden_apply (List.append_nil _).symm hread (fun _ hv => by cases hv) c

theorem overridden_of_refused (hsplit : Variable.parsed = before ++ v :: after)
    (hbefore : ∀ w ∈ before, w.Readable env) (hraw : v.value? env = some raw)
    (hspells : ∀ a, ¬ v.Spells raw a) (c : Config) :
    Overridden env before c (env.apply c).1 := by
  have hall : Variable.all = before ++ (v :: (after ++ [.logLevel])) := by
    rw [Variable.all, hsplit, List.append_assoc, List.cons_append]
  refine overridden_apply hall hbefore (fun w hw hread => ?_) c
  obtain rfl := Option.some.inj hw
  obtain ⟨a, ha⟩ := hread raw hraw
  exact hspells a ha

theorem apply_eq_iff : env.apply c = r ↔ Outcome env c r := by
  constructor
  · intro h
    obtain ⟨c', _ | failure⟩ := r
    · have hread := apply_snd_eq_none_iff.1 (congrArg Prod.snd h)
      have hc := overridden_of_readable hread c
      rw [h] at hc
      exact .overridden hread hc
    · obtain ⟨before, v, after, raw, hsplit, hbefore, hraw, hspells, rfl⟩ :=
        apply_snd_eq_some_iff.1 (congrArg Prod.snd h)
      have hc := overridden_of_refused hsplit hbefore hraw hspells c
      rw [h] at hc
      exact .refused hsplit hbefore hraw hspells hc
  · rintro (⟨hread, hc⟩ | ⟨hsplit, hbefore, hraw, hspells, hc⟩)
    · exact Prod.ext ((overridden_of_readable hread c).unique hc) (apply_snd_eq_none_iff.2 hread)
    · exact Prod.ext ((overridden_of_refused hsplit hbefore hraw hspells c).unique hc)
        (apply_snd_eq_some_iff.2 ⟨_, _, _, _, hsplit, hbefore, hraw, hspells, rfl⟩)

/-- Success and failure do not depend on the configuration, nor does a setting whose variable is
set. Overriding once more changes nothing. -/
theorem overrides_framed (env : Environment) (c : Config) :
    (∀ r, env.apply c = r ↔ Outcome env c r) ∧
    (∀ c', (env.apply c').2 = (env.apply c).2) ∧
    ((env.apply c).2 = none →
      (∀ (v : Variable) (raw : String) (env' : Environment) (c' : Config),
        v.value? env = some raw → v.value? env' = some raw → (env'.apply c').2 = none →
        v.setting (env'.apply c').1 = v.setting (env.apply c).1) ∧
      env.apply (env.apply c).1 = ((env.apply c).1, none)) := by
  refine ⟨fun _ => apply_eq_iff, fun c' => by rw [apply_snd, apply_snd], fun h => ⟨?_, ?_⟩⟩
  · intro v raw env' c' hraw hraw' h'
    have hc := overridden_of_readable (apply_snd_eq_none_iff.1 h) c
    have hc' := overridden_of_readable (apply_snd_eq_none_iff.1 h') c'
    exact Variable.spells_unique (hc'.spelled v v.mem_all raw hraw')
      (hc.spelled v v.mem_all raw hraw)
  · have hread := apply_snd_eq_none_iff.1 h
    exact apply_eq_iff.2 (.overridden hread (overridden_of_readable hread c).again)

theorem overrides_framed_padded :
    let env : Environment := ⟨some " +007", none, some "false ", some ""⟩
    let env' : Environment := ⟨some " +007", some "true", none, none⟩
    let c : Config := ⟨.withMaxHistory (some 2), ⟨0⟩, ⟨"debug", true⟩⟩
    (env.apply c).2 = none ∧ (env'.apply .default).2 = none ∧
      (env'.apply .default).1.featurizer.maxHistory = (env.apply c).1.featurizer.maxHistory ∧
      env.apply (env.apply c).1 = ((env.apply c).1, none) ∧
      (env.apply c).1 = ⟨⟨some 7, true, false⟩, ⟨0⟩, ⟨"", true⟩⟩ := by
  intro env env' c
  have h : (env.apply c).2 = none := by decide +kernel
  have h' : (env'.apply .default).2 = none := by decide +kernel
  obtain ⟨hsame, hagain⟩ := (overrides_framed env c).2.2 h
  exact ⟨h, h', hsame .maxHistory " +007" env' .default rfl rfl h', hagain, by decide +kernel⟩

/-- The first value that cannot be read is quoted as it is; what stands behind it is not read. -/
example : apply ⟨some "0", some " maybe", some "false", some "debug"⟩ .default =
    ({ Config.default with featurizer := .withMaxHistory (some 0) },
      some (.invalid "TRACKER_REMOVE_DUPLICATES" "cannot parse ' maybe'")) := by
  decide +kernel

end Environment

end DialogueWindows
