import DialogueWindows.Event.Json
import DialogueWindows.Proofs.Decoding

/-! # The log is read back

Reading undoes writing for events and dialogues (`log_roundTrips`). What a text may not keep is
numbers: the value of a slot has to be exact, and an action to have no confidence. An event is
written with its kind as the first member, and no kind has a member of that name itself
(`Event.name_ne_event`), so the rest of the event is decoded as its kind writes it. -/

namespace DialogueWindows

open Json (Exact exact_object_nil exact_object_cons exact_ofNat exact_ofOption exact_ofList)
open Json.Decoder (Decodes RoundTrips)

/-! ### Messages -/

namespace EntitySpan

/-- The offsets fit in 64 bits. -/
structure Fits (s : EntitySpan) : Prop where
  start : s.start < 0x10000000000000000
  stop : s.stop < 0x10000000000000000

theorem Fits.exact {s : EntitySpan} (h : s.Fits) : Exact s.toJson :=
  exact_object_cons (.string s.entity) <|
    exact_object_cons (exact_ofOption fun v _ => .string v) <|
    exact_object_cons (exact_ofNat h.start) <|
    exact_object_cons (exact_ofNat h.stop) exact_object_nil

theorem decodes (s : EntitySpan) : Decodes decode s.toJson s :=
  .record
    (.cons rfl rfl (.string s.entity) <|
      .cons rfl rfl (.option (fun _ _ => nofun) fun v _ => .string v) <|
      .cons rfl rfl (.size s.start) <|
      .cons rfl rfl (.size s.stop) .nil)
    rfl

end EntitySpan

namespace Utterance

/-- All its offsets fit in 64 bits. -/
def Fits (u : Utterance) : Prop :=
  ∀ s ∈ u.entities, s.Fits

theorem Fits.exact {u : Utterance} (h : u.Fits) : Exact u.toJson :=
  exact_object_cons (exact_ofOption fun i _ => .string i) <|
    exact_object_cons (exact_ofList fun s hs => (h s hs).exact) <|
    exact_object_cons (exact_ofOption fun t _ => .string t) exact_object_nil

theorem decodes (u : Utterance) : Decodes decode u.toJson u :=
  .record
    (.cons rfl rfl (.option (fun _ _ => nofun) fun i _ => .string i) <|
      .cons rfl rfl (.list fun s _ => s.decodes) <|
      .cons rfl rfl (.option (fun _ _ => nofun) fun t _ => .string t) .nil)
    rfl

end Utterance

/-! ### Executed actions -/

namespace Execution
variable {a : Execution}

theorem exact (h : a.confidence = none) : Exact a.toJson := by
  have hconfidence : Exact (.ofOption .ofBinary a.confidence) := by
    rw [h]
    exact .null
  exact exact_object_cons (.string a.name) <|
    exact_object_cons hconfidence <|
    exact_object_cons (.bool a.hideRuleTurn) <|
    exact_object_cons (.bool a.unpredictable) exact_object_nil

theorem decodes (h : a.confidence = none) : Decodes decode a.toJson a := by
  have hconfidence : Decodes (.option .double) (.ofOption .ofBinary a.confidence) a.confidence := by
    rw [h]
    exact .option nofun nofun
  exact .record
    (.cons rfl rfl (.string a.name) <|
      .cons rfl rfl hconfidence <|
      .cons rfl rfl (.bool a.hideRuleTurn) <|
      .cons rfl rfl (.bool a.unpredictable) .nil)
    rfl

end Execution

/-! ### Events -/

namespace Event
variable {e : Event}

/-- A text keeps the event's numbers: the offsets of a message fit in 64 bits, an action has no
confidence, and the value of a slot is exact. The objects in it are sorted, as in every value that
`Decoder.json` makes. -/
def Plain : Event → Prop
  | userUttered u => u.Fits
  | actionExecuted a => a.confidence = none
  | slotSet _ value => value.Exact ∧ value.Sorted
  | activeLoop _ | restarted => True

theorem kind_mem_kinds (e : Event) : e.kind ∈ kinds := by
  cases e <;> exact List.contains_iff_mem.1 rfl

/-- The member that names the kind is the only one of its name. -/
theorem name_ne_event {m : String × Json} (h : m ∈ e.members) : m.1 ≠ "event" := by
  have hnames : "event" ∉ e.members.map (·.1) := by
    cases e <;> simp [members, Utterance.members, Execution.members]
  exact fun heq => hnames (heq ▸ List.mem_map_of_mem h)

theorem Plain.exact (h : e.Plain) : Exact e.toJson := by
  refine exact_object_cons (.string e.kind) ?_
  cases e with
  | userUttered u => exact h.exact
  | actionExecuted a => exact Execution.exact h
  | slotSet name value =>
    exact exact_object_cons (.string name) <| exact_object_cons h.1 exact_object_nil
  | activeLoop name =>
    exact exact_object_cons (exact_ofOption fun n _ => .string n) exact_object_nil
  | restarted => exact exact_object_nil

/-- Without the tag, the members are those of the kind's own record. -/
theorem Plain.decodes_members (h : e.Plain) : Decodes (decodeKind e.kind) (.object e.members) e := by
  cases e with
  | userUttered u => exact u.decodes.fmap userUttered
  | actionExecuted a => exact (Execution.decodes h).fmap actionExecuted
  | slotSet name value =>
    exact .record (.cons rfl rfl (.string name) <| .cons rfl rfl (.json h.2) .nil) rfl
  | activeLoop name =>
    exact .record (.cons rfl rfl (.option (fun _ _ => nofun) fun n _ => .string n) .nil) rfl
  | restarted => exact .unit restarted []

/-- The value is the event's object, in which the kind may stand anywhere among the members. -/
def WrittenAs (e : Event) (j : Json) : Prop :=
  ∃ before behind, before ++ behind = e.members ∧
    j = .object (before ++ ("event", .string e.kind) :: behind)

theorem writtenAs_toJson (e : Event) : e.WrittenAs e.toJson :=
  ⟨[], e.members, rfl, rfl⟩

theorem WrittenAs.exact {j : Json} (hj : e.WrittenAs j) (h : e.Plain) : Exact j := by
  obtain ⟨before, behind, hmembers, rfl⟩ := hj
  have hexact := Json.exact_object_iff.1 h.exact
  refine Json.exact_object_iff.2 fun m hm => hexact m ?_
  rw [← hmembers]
  exact (List.perm_middle.mem_iff).1 hm

theorem WrittenAs.decodes {j : Json} (hj : e.WrittenAs j) (h : e.Plain) : Decodes decode j e := by
  obtain ⟨before, behind, hmembers, rfl⟩ := hj
  have hdecodes := h.decodes_members
  rw [← hmembers] at hdecodes
  refine .tagged e.kind_mem_kinds (fun m hm => name_ne_event (e := e) ?_) hdecodes
  rwa [← hmembers]

theorem roundTrips : RoundTrips decode toJson fun e => e.Plain ∧ e.toJson.depth ≤ 127 :=
  .of_decodes (fun _ h => h.1.exact) (fun _ h => h.2) fun e h => e.writtenAs_toJson.decodes h.1

end Event

/-! ### Dialogues -/

namespace Dialogue
variable {d : Dialogue}

theorem exact (h : ∀ e ∈ d.events, e.Plain) : Exact d.toJson :=
  exact_object_cons (.string d.id) <|
    exact_object_cons (exact_ofList fun e he => (h e he).exact) exact_object_nil

theorem decodes (h : ∀ e ∈ d.events, e.Plain) : Decodes decode d.toJson d :=
  .record
    (.cons rfl rfl (.string d.id) <|
      .cons rfl rfl (.list fun e he => e.writtenAs_toJson.decodes (h e he)) .nil)
    rfl

theorem roundTrips :
    RoundTrips decode toJson fun d => (∀ e ∈ d.events, e.Plain) ∧ d.toJson.depth ≤ 127 :=
  .of_decodes (fun _ h => exact h.1) (fun _ h => h.2) fun _ h => decodes h.1

end Dialogue

/-! ### The log -/

/-- Events and dialogues are read back as they were written, an event of any kind also if its kind
stands elsewhere among its members. -/
theorem log_roundTrips :
    RoundTrips Event.decode Event.toJson (fun e => e.Plain ∧ e.toJson.depth ≤ 127) ∧
      RoundTrips Dialogue.decode Dialogue.toJson
        (fun d => (∀ e ∈ d.events, e.Plain) ∧ d.toJson.depth ≤ 127) ∧
      ∀ (e : Event) (j : Json), e.Plain → e.WrittenAs j → j.depth ≤ 127 →
        Json.Decoder.ofText Event.decode j.compact = .ok e := by
  refine ⟨Event.roundTrips, Dialogue.roundTrips, fun e j h hj hdepth => ?_⟩
  exact (hj.decodes h).ofText_compact (hj.exact h) hdepth

theorem log_roundTrips_absent :
    let d : Dialogue := ⟨"d", [.userUttered ⟨none, [⟨"city", none, 0, 4⟩], none⟩,
      .actionExecuted ⟨"restarted", none, true, false⟩,
      .slotSet "event" (.array [.null, .number (.int (-2))]), .activeLoop none, .restarted]⟩
    let j : Json := .object [("name", .string "restarted"), ("value", .null),
      ("event", .string "slot_set")]
    Json.Decoder.ofText Dialogue.decode d.toJson.compact = .ok d ∧
      Json.Decoder.ofText Event.decode j.compact = .ok (.slotSet "restarted" .null) := by
  intro d j
  have hitems : ∀ i ∈ [Json.null, .number (.int (-2))], Exact i ∧ i.Sorted := by
    simp only [List.forall_mem_cons]
    exact ⟨⟨.null, .null⟩, ⟨.int (by decide) (by decide), .number _⟩, nofun⟩
  have hplain : ∀ e ∈ d.events, e.Plain := by
    simp only [d, List.forall_mem_cons]
    exact ⟨List.forall_mem_singleton.2 ⟨by decide, by decide⟩, rfl,
      ⟨.array fun i hi => (hitems i hi).1, .array fun i hi => (hitems i hi).2⟩, trivial, trivial,
      nofun⟩
  refine ⟨log_roundTrips.2.1.ofText d ⟨hplain, by decide⟩, ?_⟩
  have hj : (Event.slotSet "restarted" .null).WrittenAs j :=
    ⟨[("name", .string "restarted"), ("value", .null)], [], rfl, rfl⟩
  exact log_roundTrips.2.2 _ j ⟨.null, .null⟩ hj (by decide)

end DialogueWindows
