import DialogueWindows.Proofs.Variables

/-! # Blanks around a value

Environments whose values say the same, variable by variable, have the same effect, up to the texts
that a failure quotes (`Environment.Agree.alike`). Blanks around a value do not change what it says,
with one exception: the word for no bound on the history is compared with its blanks, so these make
it a text that is refused (`Environment.padded_alike_iff`, `Environment.padded_none`). -/

namespace DialogueWindows.Environment
variable {env env' : Environment} {v w : Variable} {vs : List Variable} {raw raw' a b : String}
  {c c' : Config} {r r' : Config × Option ConfigFailure}

/-- The environment with a value of a variable. -/
def assign (env : Environment) : Variable → String → Environment
  | .maxHistory, raw => { env with maxHistory := some raw }
  | .removeDuplicates, raw => { env with removeDuplicates := some raw }
  | .parallel, raw => { env with parallel := some raw }
  | .logLevel, raw => { env with logLevel := some raw }

theorem value?_assign (env : Environment) (v : Variable) (raw : String) :
    v.value? (env.assign v raw) = some raw := by
  cases v <;> rfl

theorem value?_assign_of_ne (h : w ≠ v) (env : Environment) (raw : String) :
    w.value? (env.assign v raw) = w.value? env := by
  cases v <;> cases w <;> first | rfl | exact absurd rfl h

/-! ### Values that say the same -/

/-- The same configuration, with no failure or with failures of the same field. -/
inductive Alike : Config × Option ConfigFailure → Config × Option ConfigFailure → Prop
  | succeed (c : Config) : Alike (c, none) (c, none)
  | fail (c : Config) (field message message' : String) :
    Alike (c, some (.invalid field message)) (c, some (.invalid field message'))

theorem Alike.snd_eq_none_iff (h : Alike r r') : r.2 = none ↔ r'.2 = none := by
  cases h <;> simp

/-- The same variables are set, and their values are read alike. -/
def Agree (env env' : Environment) : Prop :=
  ∀ v : Variable, (v.value? env).map v.parse = (v.value? env').map v.parse

theorem agree_assign (env : Environment) (h : v.parse raw = v.parse raw') :
    Agree (env.assign v raw) (env.assign v raw') := by
  intro w
  by_cases hw : w = v
  · obtain rfl := hw
    rw [value?_assign, value?_assign, Option.map_some, Option.map_some, h]
  · rw [value?_assign_of_ne hw, value?_assign_of_ne hw]

namespace Agree

theorem symm (h : Agree env env') : Agree env' env :=
  fun v => (h v).symm

theorem exists_value (h : Agree env env') (hraw : v.value? env = some raw) :
    ∃ raw', v.value? env' = some raw' ∧ ∀ x, v.Spells raw' x ↔ v.Spells raw x := by
  have hv := h v
  rw [hraw, Option.map_some, eq_comm, Option.map_eq_some_iff] at hv
  obtain ⟨raw', hraw', hparse⟩ := hv
  exact ⟨raw', hraw', fun x => by rw [← Variable.parse_eq_some_iff, hparse,
    Variable.parse_eq_some_iff]⟩

theorem readable (h : Agree env env') (hread : v.Readable env) : v.Readable env' := by
  intro raw' hraw'
  obtain ⟨raw, hraw, hspells⟩ := h.symm.exists_value hraw'
  obtain ⟨x, hx⟩ := hread raw hraw
  exact ⟨x, (hspells x).1 hx⟩

theorem overridden (h : Agree env env') (hc : Overridden env vs c c') :
    Overridden env' vs c c' where
  spelled v hv raw' hraw' := by
    obtain ⟨raw, hraw, hspells⟩ := h.symm.exists_value hraw'
    exact (hspells _).1 (hc.spelled v hv raw hraw)
  kept v hv := by
    refine hc.kept v (hv.imp_right fun hunset => ?_)
    have hv := h v
    rwa [hunset, Option.map_none, Option.map_eq_none_iff] at hv
  encoder := hc.encoder
  jsonLogs := hc.jsonLogs

theorem alike (h : Agree env env') (c : Config) : Alike (env.apply c) (env'.apply c) := by
  have hr := apply_eq_iff.1 (rfl : env.apply c = env.apply c)
  generalize env.apply c = r at hr
  cases hr with
  | overridden hread hc =>
    rw [apply_eq_iff.2 (.overridden (fun v hv => h.readable (hread v hv)) (h.overridden hc))]
    exact .succeed _
  | refused hsplit hbefore hraw hspells hc =>
    obtain ⟨raw', hraw', hsame⟩ := h.exists_value hraw
    rw [apply_eq_iff.2 (.refused hsplit (fun w hw => h.readable (hbefore w hw)) hraw'
      (fun x hx => hspells x ((hsame x).1 hx)) (h.overridden hc))]
    exact .fail _ _ _ _

end Agree

/-! ### Blanks -/

theorem bool?_pad (ha : Text.isVoid a) (hb : Text.isVoid b) (raw : String) :
    bool? (a ++ raw ++ b) = bool? raw := by
  rw [bool?, Text.trim_pad ha hb, bool?]

theorem natural?_pad (ha : Text.isVoid a) (hb : Text.isVoid b) (raw : String) :
    natural? (a ++ raw ++ b) = natural? raw := by
  rw [natural?, Text.trim_pad ha hb, natural?]

theorem inAnyCase_none_pad (ha : Text.isVoid a) (hb : Text.isVoid b) :
    Text.InAnyCase (a ++ raw ++ b) "none" ↔ Text.InAnyCase raw "none" ∧ a ++ b = "" := by
  constructor
  · intro h
    have hletters := letter_of_inAnyCase h
    have hempty : ∀ s : String, Text.isVoid s → (∀ c ∈ s.toList, c ∈ (a ++ raw ++ b).toList) →
        s = "" := by
      intro s hs hsub
      rw [← String.toList_eq_nil_iff, List.eq_nil_iff_forall_not_mem]
      exact fun c hc => (hletters c (hsub c hc)).1 (List.all_eq_true.1 hs c hc)
    obtain rfl := hempty a ha fun c hc => by simp [hc]
    obtain rfl := hempty b hb fun c hc => by simp [hc]
    exact ⟨by simpa using h, rfl⟩
  · rintro ⟨h, hempty⟩
    obtain ⟨rfl, rfl⟩ := String.append_eq_empty_iff.1 hempty
    simpa using h

theorem bound?_pad_iff (ha : Text.isVoid a) (hb : Text.isVoid b) (raw : String) :
    bound? (a ++ raw ++ b) = bound? raw ↔ (Text.InAnyCase raw "none" → a ++ b = "") := by
  by_cases h : Text.InAnyCase raw "none"
  · have hraw : bound? raw = some none := bound?_eq_some_iff.2 (.unbounded h)
    rw [hraw, bound?_eq_some_iff]
    constructor
    · rintro (hpadded | _) -
      exact ((inAnyCase_none_pad ha hb).1 hpadded).2
    · exact fun hempty => .unbounded ((inAnyCase_none_pad ha hb).2 ⟨h, hempty h⟩)
  · have hpadded : ¬ Text.InAnyCase (a ++ raw ++ b) "none" := fun hpadded =>
      h ((inAnyCase_none_pad ha hb).1 hpadded).1
    rw [bound?, bound?, if_neg (mt inAnyCase_none_iff.2 hpadded),
      if_neg (mt inAnyCase_none_iff.2 h), natural?_pad ha hb]
    exact iff_of_true rfl fun hnone => absurd hnone h

theorem parse_pad_iff (hv : v ∈ Variable.parsed) (ha : Text.isVoid a) (hb : Text.isVoid b)
    (raw : String) : v.parse (a ++ raw ++ b) = v.parse raw ↔
      (v = .maxHistory → Text.InAnyCase raw "none" → a ++ b = "") := by
  cases v with
  | maxHistory => exact (bound?_pad_iff ha hb raw).trans ⟨fun h _ => h, fun h => h rfl⟩
  | removeDuplicates => exact iff_of_true (bool?_pad ha hb raw) fun h => by cases h
  | parallel => exact iff_of_true (bool?_pad ha hb raw) fun h => by cases h
  | logLevel => exact absurd hv (by decide)

theorem not_spellsBound_pad (ha : Text.isVoid a) (hb : Text.isVoid b) (hne : a ++ b ≠ "")
    (h : Text.InAnyCase raw "none") (bound : Option Nat) : ¬ SpellsBound (a ++ raw ++ b) bound := by
  rintro (hpadded | ⟨hlt, hnumeral, hpad⟩)
  · exact hne ((inAnyCase_none_pad ha hb).1 hpadded).2
  · have htrim := (Text.trim_eq_iff hnumeral.not_isBlank).2 hpad
    have hn := natural?_eq_some_iff.2 ⟨hlt, htrim ▸ hnumeral⟩
    rw [natural?_pad ha hb, natural?_of_inAnyCase h] at hn
    cases hn

/-- A bound that is refused comes before all that another value leads to. -/
theorem not_alike (hread : Variable.maxHistory.Readable (env.assign .maxHistory raw))
    (hspells : ∀ x, ¬ SpellsBound raw' x) (c : Config) :
    ¬ Alike ((env.assign .maxHistory raw).apply c) ((env.assign .maxHistory raw').apply c) := by
  have hrefused : ((env.assign .maxHistory raw').apply c).2 =
      some (.invalid Variable.maxHistory.key ("cannot parse '" ++ raw' ++ "'")) :=
    apply_snd_eq_some_iff.2 ⟨[], .maxHistory, _, raw', rfl, fun _ h => absurd h List.not_mem_nil,
      value?_assign env .maxHistory raw', hspells, rfl⟩
  have hfield := apply_snd_ne_of_readable hread c
  intro halike
  generalize (env.assign .maxHistory raw).apply c = r at hfield halike
  generalize (env.assign .maxHistory raw').apply c = r' at hrefused halike
  cases halike with
  | succeed => cases hrefused
  | fail _ field message message' =>
    obtain ⟨rfl, -⟩ := ConfigFailure.invalid.inj (Option.some.inj hrefused)
    exact hfield message rfl

theorem assign_snd_eq_none_iff : ((env.assign v raw).apply c).2 = none ↔
    (∃ x, v.Spells raw x) ∧ ∀ w, w ≠ v → w.Readable env := by
  have hself : v.Readable (env.assign v raw) ↔ ∃ x, v.Spells raw x := by
    simp only [Variable.Readable, value?_assign, Option.some.injEq, forall_eq']
  have hother : ∀ w, w ≠ v → (w.Readable (env.assign v raw) ↔ w.Readable env) := by
    intro w hw
    rw [Variable.Readable, Variable.Readable, value?_assign_of_ne hw]
  rw [apply_snd_eq_none_iff, ← hself]
  constructor
  · exact fun h => ⟨h v v.mem_all, fun w hw => (hother w hw).1 (h w w.mem_all)⟩
  · rintro ⟨hv, hrest⟩ w -
    by_cases hw : w = v
    · rwa [hw]
    · exact (hother w hw).2 (hrest w hw)

/-- A value is as good with blanks around it, but for the word that leaves the history unbounded.
What is accepted are the spellings. -/
theorem padded_alike_iff (env : Environment) (c : Config) (hv : v ∈ Variable.parsed)
    (ha : Text.isVoid a) (hb : Text.isVoid b) (raw : String) :
    (Alike ((env.assign v raw).apply c) ((env.assign v (a ++ raw ++ b)).apply c) ↔
      (v = .maxHistory → Text.InAnyCase raw "none" → a ++ b = "")) ∧
    (((env.assign v raw).apply c).2 = none ↔
      (∃ x, v.Spells raw x) ∧ ∀ w, w ≠ v → w.Readable env) := by
  refine ⟨⟨fun halike hmax hnone => ?_, fun h => ?_⟩, assign_snd_eq_none_iff⟩
  · obtain rfl := hmax
    by_contra hne
    have hread : Variable.maxHistory.Readable (env.assign .maxHistory raw) := by
      intro raw' hraw'
      obtain rfl := Option.some.inj (hraw'.symm.trans (value?_assign env .maxHistory raw))
      exact ⟨none, .unbounded hnone⟩
    exact not_alike hread (not_spellsBound_pad ha hb hne hnone) c halike
  · exact (agree_assign env ((parse_pad_iff hv ha hb raw).2 h).symm).alike c

theorem padded_alike_number :
    let env : Environment := ⟨none, some "false", none, none⟩
    Text.isVoid "\t" ∧ Text.isVoid "\u00a0 " ∧
      Alike ((env.assign .maxHistory "+007").apply .default)
        ((env.assign .maxHistory ("\t" ++ "+007" ++ "\u00a0 ")).apply .default) ∧
      ((env.assign .maxHistory "+007").apply .default).2 = none := by
  intro env
  have ha : Text.isVoid "\t" := by decide
  have hb : Text.isVoid "\u00a0 " := by decide
  have hnumber : ¬ Text.InAnyCase "+007" "none" := by
    rw [inAnyCase_none_iff]
    decide +kernel
  have hspells : SpellsBound "+007" (some 7) :=
    bound?_eq_some_iff.1 (by decide +kernel)
  have hmax : Variable.maxHistory ∈ Variable.parsed := by decide
  obtain ⟨halike, hdone⟩ := padded_alike_iff env .default hmax ha hb "+007"
  refine ⟨ha, hb, halike.2 fun _ h => absurd h hnumber, hdone.2 ⟨⟨some 7, hspells⟩, ?_⟩⟩
  intro w hw raw hraw
  cases w with
  | maxHistory => exact absurd rfl hw
  | removeDuplicates =>
    obtain rfl := Option.some.inj hraw
    exact ⟨false, bool?_eq_some_iff.1 (by decide +kernel)⟩
  | parallel => cases hraw
  | logLevel => cases hraw

/-- The word that leaves the history unbounded is refused with a blank before it. No number is. -/
theorem padded_none :
    let env : Environment := ⟨none, none, none, none⟩
    let c : Config := { Config.default with featurizer := .withMaxHistory (some 5) }
    (env.assign .maxHistory "none").apply c = (.default, none) ∧
      (env.assign .maxHistory (" " ++ "none" ++ "")).apply c =
        (c, some (.invalid "TRACKER_MAX_HISTORY" "cannot parse ' none'")) ∧
      Text.isVoid " " ∧ Text.isVoid "" ∧
      ¬ Alike ((env.assign .maxHistory "none").apply c)
        ((env.assign .maxHistory (" " ++ "none" ++ "")).apply c) := by
  intro env c
  have h : (env.assign .maxHistory "none").apply c = (.default, none) := by decide +kernel
  have h' : (env.assign .maxHistory (" " ++ "none" ++ "")).apply c =
      (c, some (.invalid "TRACKER_MAX_HISTORY" "cannot parse ' none'")) := by decide +kernel
  refine ⟨h, h', by decide, by decide, ?_⟩
  intro halike
  rw [h, h'] at halike
  cases halike.snd_eq_none_iff.1 rfl

end DialogueWindows.Environment
