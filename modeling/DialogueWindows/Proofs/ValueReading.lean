import DialogueWindows.Config.Json
import DialogueWindows.Domain.Json
import DialogueWindows.Proofs.LogReading
import DialogueWindows.Proofs.StateText
import DialogueWindows.Turn.Json

/-! # States, turns and settings are read back

Reading undoes writing for states, windows, turns, domains and configurations
(`values_roundTrip`). The three kinds of attribute value are three kinds of JSON, so the first form
that fits a value is the one it was written in, whatever its text looks like. None of these types
nests more than four levels. -/

namespace DialogueWindows

open Json (Exact exact_object_nil exact_object_cons exact_ofNat exact_ofOption depth_object_nil_le
  depth_object_cons_le depth_ofOption_le depth_ofStrings_le)
open Json.Decoder (Decodes RoundTrips)

/-! ### States -/

namespace AttributeValue

theorem decodes_literal (json : String) :
    Decodes decodeLiteral (literal json).toJson (literal json) :=
  .record (.cons rfl rfl (.string json) .nil) rfl

theorem decodes (v : AttributeValue) : Decodes decode v.toJson v := by
  intro source hroom
  have hvalue := Json.Reading.value_ofJson v.toJson source.limit hroom
  -- the forms before the right one refuse the value by its kind alone
  cases v with
  | text s => rfl
  | names ns =>
    have hnames : Json.Decoder.list .string .held (.ofJson (names ns).toJson) = .ok ns :=
      Decodes.strings ns .held trivial
    rw [decode, hvalue, hnames]
    rfl
  | literal json =>
    rw [decode, hvalue, decodes_literal json .held trivial]
    rfl

theorem depth_toJson_le (v : AttributeValue) : v.toJson.depth ≤ 1 := by
  cases v with
  | text s => exact Nat.zero_le 1
  | names ns => exact depth_ofStrings_le ns
  | literal json => exact depth_object_cons_le (Nat.le_refl 0) depth_object_nil_le

end AttributeValue

namespace SubState

theorem decodes (sub : SubState) : Decodes decode (toJson sub) sub :=
  .dictionary AttributeValue.decodes sub

theorem depth_toJson_le (sub : SubState) : (toJson sub).depth ≤ 2 :=
  Json.depth_ofDictionary_le fun e _ => e.2.depth_toJson_le

end SubState

theorem Role.ofName_name (role : Role) : ofName role.name = .ok role := by
  cases role <;> rfl

namespace State

theorem foldl_roles (s : State) :
    s.roles.foldl (fun s r => s.withRole r.1 (some r.2)) .empty = s := by
  obtain ⟨user, previousAction, slots, activeLoop⟩ := s
  cases user <;> cases previousAction <;> cases slots <;> cases activeLoop <;> rfl

theorem decodes (s : State) : Decodes decode s.toJson s := by
  have hroles : Decodes (.map Role.ofName SubState.decode) s.toJson s.roles :=
    .map Role.name (fun r _ => r.1.ofName_name) fun r _ => SubState.decodes r.2
  have hfold := hroles.fmap fun roles =>
    roles.foldl (fun s r => s.withRole r.1 (some r.2)) State.empty
  rwa [s.foldl_roles] at hfold

theorem depth_toJson_le (s : State) : s.toJson.depth ≤ 3 :=
  Json.depth_object_le_iff.2 (List.forall_mem_map.2 fun r _ => SubState.depth_toJson_le r.2)

theorem roundTrips : RoundTrips decode toJson fun _ => True :=
  .of_decodes (fun s _ => s.exact_toJson) (fun s _ => s.depth_toJson_le.trans (by decide))
    fun s _ => s.decodes

end State

namespace Window

theorem decodes (w : Window) : Decodes decode (toJson w) w :=
  .list fun s _ => s.decodes

theorem depth_toJson_le (w : Window) : (toJson w).depth ≤ 4 :=
  Json.depth_ofList_le fun s _ => s.depth_toJson_le

theorem roundTrips : RoundTrips decode toJson fun _ => True :=
  .of_decodes (fun w _ => exact_toJson w) (fun w _ => (depth_toJson_le w).trans (by decide))
    fun w _ => decodes w

end Window

/-! ### Turns -/

theorem EntitySpan.depth_toJson_le (s : EntitySpan) : s.toJson.depth ≤ 1 :=
  depth_object_cons_le (Nat.le_refl 0) <|
    depth_object_cons_le (depth_ofOption_le fun _ _ => Nat.le_refl 0) <|
    depth_object_cons_le (Nat.le_refl 0) <|
    depth_object_cons_le (Nat.le_refl 0) depth_object_nil_le

theorem Utterance.depth_toJson_le (u : Utterance) : u.toJson.depth ≤ 3 :=
  depth_object_cons_le (depth_ofOption_le fun _ _ => Nat.zero_le 2) <|
    depth_object_cons_le (Json.depth_ofList_le fun s _ => s.depth_toJson_le) <|
    depth_object_cons_le (depth_ofOption_le fun _ _ => Nat.zero_le 2) depth_object_nil_le

namespace Turn

/-- The position and the message's offsets fit in 64 bits. -/
structure Fits (t : Turn) : Prop where
  index : t.index < 0x10000000000000000
  utterance : ∀ u ∈ t.utterance, u.Fits

variable {t : Turn}

theorem Fits.exact (h : t.Fits) : Exact t.toJson :=
  exact_object_cons (exact_ofNat h.index) <|
    exact_object_cons (exact_ofOption fun a _ => .string a) <|
    exact_object_cons t.state.exact_toJson <|
    exact_object_cons (.bool t.isRuleOnly) <|
    exact_object_cons (.bool t.isUnlikelyIntent) <|
    exact_object_cons (.bool t.unpredictable) <|
    exact_object_cons (exact_ofOption fun u hu => (h.utterance u hu).exact) exact_object_nil

theorem decodes (t : Turn) : Decodes decode t.toJson t :=
  .record
    (.cons rfl rfl (.size t.index) <|
      .cons rfl rfl (.option (fun _ _ => nofun) fun a _ => .string a) <|
      .cons rfl rfl t.state.decodes <|
      .cons rfl rfl (.bool t.isRuleOnly) <|
      .cons rfl rfl (.bool t.isUnlikelyIntent) <|
      .cons rfl rfl (.bool t.unpredictable) <|
      .cons rfl rfl (.option (fun _ _ => nofun) fun u _ => u.decodes) .nil)
    rfl

theorem depth_toJson_le (t : Turn) : t.toJson.depth ≤ 4 :=
  depth_object_cons_le (Nat.zero_le 3) <|
    depth_object_cons_le (depth_ofOption_le fun _ _ => Nat.zero_le 3) <|
    depth_object_cons_le t.state.depth_toJson_le <|
    depth_object_cons_le (Nat.zero_le 3) <|
    depth_object_cons_le (Nat.zero_le 3) <|
    depth_object_cons_le (Nat.zero_le 3) <|
    depth_object_cons_le (depth_ofOption_le fun u _ => u.depth_toJson_le) depth_object_nil_le

theorem roundTrips : RoundTrips decode toJson Fits :=
  .of_decodes (fun _ h => h.exact) (fun t _ => t.depth_toJson_le.trans (by decide))
    fun t _ => t.decodes

end Turn

/-! ### Domains -/

namespace Domain

theorem exact_toJson (d : Domain) : Exact d.toJson :=
  exact_object_cons (Json.exact_ofStrings d.intents) <|
    exact_object_cons (Json.exact_ofStrings d.entities) <|
    exact_object_cons (Json.exact_ofStrings d.slots) <|
    exact_object_cons (Json.exact_ofStrings d.forms) <|
    exact_object_cons (Json.exact_ofStrings d.actions) exact_object_nil

theorem decodes (d : Domain) : Decodes decode d.toJson d :=
  .record
    (.cons rfl rfl (.strings d.intents) <|
      .cons rfl rfl (.strings d.entities) <|
      .cons rfl rfl (.strings d.slots) <|
      .cons rfl rfl (.strings d.forms) <|
      .cons rfl rfl (.strings d.actions) .nil)
    rfl

theorem depth_toJson_le (d : Domain) : d.toJson.depth ≤ 2 :=
  depth_object_cons_le (depth_ofStrings_le d.intents) <|
    depth_object_cons_le (depth_ofStrings_le d.entities) <|
    depth_object_cons_le (depth_ofStrings_le d.slots) <|
    depth_object_cons_le (depth_ofStrings_le d.forms) <|
    depth_object_cons_le (depth_ofStrings_le d.actions) depth_object_nil_le

theorem roundTrips : RoundTrips decode toJson fun _ => True :=
  .of_decodes (fun d _ => d.exact_toJson) (fun d _ => d.depth_toJson_le.trans (by decide))
    fun d _ => d.decodes

end Domain

/-! ### Configurations -/

namespace FeaturizerConfig

theorem exact_toJson {c : FeaturizerConfig} (h : ∀ n ∈ c.maxHistory, n < 0x10000000000000000) :
    Exact c.toJson :=
  exact_object_cons (exact_ofOption fun n hn => exact_ofNat (h n hn)) <|
    exact_object_cons (.bool c.removeDuplicates) <|
    exact_object_cons (.bool c.parallel) exact_object_nil

theorem decodes (c : FeaturizerConfig) : Decodes decode c.toJson c :=
  .record
    (.cons rfl rfl (.option (fun _ _ => nofun) fun n _ => .size n) <|
      .cons rfl rfl (.bool c.removeDuplicates) <|
      .cons rfl rfl (.bool c.parallel) .nil)
    rfl

theorem depth_toJson_le (c : FeaturizerConfig) : c.toJson.depth ≤ 1 :=
  depth_object_cons_le (depth_ofOption_le fun _ _ => Nat.le_refl 0) <|
    depth_object_cons_le (Nat.le_refl 0) <|
    depth_object_cons_le (Nat.le_refl 0) depth_object_nil_le

end FeaturizerConfig

theorem EncoderConfig.decodes (c : EncoderConfig) : Decodes decode c.toJson c :=
  .record (.cons rfl rfl (.natural "u64" c.cacheCapacity) .nil) rfl

theorem ObservabilityConfig.decodes (c : ObservabilityConfig) : Decodes decode c.toJson c :=
  .record
    (.cons rfl rfl (.string c.logLevel) <|
      .cons rfl rfl (.bool c.jsonLogs) .nil)
    rfl

namespace Config

/-- The history bound and the capacity fit in 64 bits. -/
structure Fits (c : Config) : Prop where
  maxHistory : ∀ n ∈ c.featurizer.maxHistory, n < 0x10000000000000000
  cacheCapacity : c.encoder.cacheCapacity < 0x10000000000000000

variable {c : Config}

theorem Fits.exact (h : c.Fits) : Exact c.toJson :=
  exact_object_cons (FeaturizerConfig.exact_toJson h.maxHistory) <|
    exact_object_cons (exact_object_cons (exact_ofNat h.cacheCapacity) exact_object_nil) <|
    exact_object_cons
      (exact_object_cons (.string c.observability.logLevel) <|
        exact_object_cons (.bool c.observability.jsonLogs) exact_object_nil)
      exact_object_nil

theorem decodes (c : Config) : Decodes decode c.toJson c :=
  .record
    (.cons rfl rfl c.featurizer.decodes <|
      .cons rfl rfl c.encoder.decodes <|
      .cons rfl rfl c.observability.decodes .nil)
    rfl

theorem depth_toJson_le (c : Config) : c.toJson.depth ≤ 2 :=
  depth_object_cons_le c.featurizer.depth_toJson_le <|
    depth_object_cons_le (depth_object_cons_le (Nat.le_refl 0) depth_object_nil_le) <|
    depth_object_cons_le
      (depth_object_cons_le (Nat.le_refl 0) <|
        depth_object_cons_le (Nat.le_refl 0) depth_object_nil_le)
      depth_object_nil_le

theorem roundTrips : RoundTrips decode toJson Fits :=
  .of_decodes (fun _ h => h.exact) (fun c _ => c.depth_toJson_le.trans (by decide))
    fun c _ => c.decodes

end Config

/-! ### Round trips -/

/-- Every value is read back from its text, and a state with its digest. -/
theorem values_roundTrip :
    RoundTrips State.decode State.toJson (fun _ => True) ∧
      RoundTrips Window.decode Window.toJson (fun _ => True) ∧
      RoundTrips Turn.decode Turn.toJson Turn.Fits ∧
      RoundTrips Domain.decode Domain.toJson (fun _ => True) ∧
      RoundTrips Config.decode Config.toJson Config.Fits ∧
      ∀ (digest : String → String) (s : State), ∃ t : State,
        Json.Decoder.ofText State.decode s.toJson.compact = .ok t ∧
          t.contentHash digest = s.contentHash digest := by
  refine ⟨State.roundTrips, Window.roundTrips, Turn.roundTrips, Domain.roundTrips,
    Config.roundTrips, fun digest s => ?_⟩
  exact ⟨s, State.roundTrips.ofText s trivial, rfl⟩

theorem values_roundTrip_awkward :
    let s : State := ⟨some .empty,
      some ⟨[("", .names []), ("a\"\\\n", .literal "[]"), ("b", .text "[]")], by decide +kernel⟩,
      none, none⟩
    let t : Turn := ⟨0xffffffffffffffff, some "", s, true, false, true,
      some ⟨none, [⟨"\x00", none, 0, 7⟩], none⟩⟩
    Json.Decoder.ofText State.decode s.toJson.compact = .ok s ∧
      Json.Decoder.ofText Turn.decode t.toJson.compact = .ok t ∧
      Json.Decoder.ofText Config.decode Config.default.toJson.compact = .ok .default := by
  intro s t
  have hspans : ∀ u ∈ t.utterance, u.Fits := by
    rintro u ⟨⟩
    exact List.forall_mem_singleton.2 ⟨by decide, by decide⟩
  exact ⟨values_roundTrip.1.ofText s trivial, values_roundTrip.2.2.1.ofText t ⟨by decide, hspans⟩,
    values_roundTrip.2.2.2.2.1.ofText .default ⟨nofun, by decide⟩⟩

end DialogueWindows
