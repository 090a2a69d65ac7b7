import DialogueWindows.Proofs.Distinct
import DialogueWindows.Proofs.Log
import DialogueWindows.Proofs.State
import DialogueWindows.Segmentation

/-! # What a log tells about the state

`Log.known` says attribute by attribute what the events of a log tell, the last event that says
something deciding. The running state of a segmentation is that description: each event changes
both in the same way. -/

namespace DialogueWindows

/-- The names of a message's entities, sorted, each once. -/
def Utterance.entityNames (u : Utterance) : List String :=
  (u.entities.map (·.entity)).toFinset.sort (· ≤ ·)

/-- What a message tells: its intent or else its text, and its entities if it has any. -/
def Utterance.told (u : Utterance) (key : String) : Option AttributeValue :=
  if key = Attribute.intent then u.intent.map .text
  else if key = Attribute.text then if u.intent.isSome then none else u.text.map .text
  else if key = Attribute.entities then
    if u.entities = [] then none else some (.names u.entityNames)
  else none

theorem Utterance.get?_subState (u : Utterance) (key : String) :
    u.subState.get? key = u.told key := by
  have hsort : Distinct.sort (u.entities.map (·.entity)) = u.entityNames :=
    Distinct.sort_eq_toFinset_sort _
  have hempty : u.entityNames.isEmpty = true ↔ u.entities = [] := by
    rw [List.isEmpty_iff, entityNames, ← List.length_eq_zero_iff, Finset.length_sort,
      Finset.card_eq_zero, List.toFinset_eq_empty_iff, List.map_eq_nil_iff]
  unfold subState told
  simp only [hsort, hempty]
  obtain ⟨intent, entities, text⟩ := u
  by_cases he : entities = []
  · simp only [he, ↓reduceIte]
    cases intent with
    | some intent => simp [Attribute.intent, Attribute.text]
    | none => cases text <;> simp [Attribute.intent, Attribute.text]; grind
  · simp only [he, ↓reduceIte]
    cases intent with
    | some intent => simp [Attribute.intent, Attribute.text, Attribute.entities]; grind
    | none => cases text <;> simp [Attribute.intent, Attribute.text, Attribute.entities] <;> grind

/-- What a slot shows after it has been set to a value: nothing for null, a text as it is, and any
other value as the literal of its compact text. -/
def Json.shown : Json → Option AttributeValue
  | .null => none
  | .string s => some (.text s)
  | value => some (.literal value.compact)

theorem Json.shown_eq {value : Json} (h : value ≠ .null) : value.shown = some value.slotValue := by
  cases value with
  | null => exact absurd rfl h
  | bool | number | string | array | object => rfl

namespace Log
variable {a : Option Execution} {events : List Event} {s t : State}

/-- What the events of a log tell about an attribute, `a` being the action executed last. -/
def known (a : Option Execution) (events : List Event) : Role → String → Option AttributeValue
  | .previousAction, key =>
    if key = Attribute.actionName then a.map fun a => .text a.name else none
  | .user, key => (last? Event.utterance? events).bind (·.told key)
  | .slots, key => (last? (Event.slot? key) events).bind (·.shown)
  | .activeLoop, key =>
    if key = Attribute.loopName then (last? Event.loop? events).join.map .text else none

/-- The state holds what the events tell and nothing else. -/
structure Knows (a : Option Execution) (events : List Event) (s : State) : Prop where
  populated : s.Populated
  get? : ∀ role key, s.get? role key = known a events role key

namespace Knows

theorem nil : Knows none [] .empty :=
  ⟨.empty, fun role key => by cases role <;> simp [known]⟩

theorem unique (hs : Knows a events s) (ht : Knows a events t) : s = t :=
  hs.populated.ext_get? ht.populated fun role key =>
    (hs.get? role key).trans (ht.get? role key).symm

theorem execute (h : Knows a events s) (b : Execution) :
    Knows (some b) (events ++ [.actionExecuted b])
      (s.set .previousAction Attribute.actionName (.text b.name)) := by
  refine ⟨h.populated.set _, fun role key => ?_⟩
  rw [State.get?_set, h.get?]
  cases role with
  | previousAction => by_cases hk : key = Attribute.actionName <;> simp [known, hk]
  | user | slots | activeLoop =>
    simp [known, last?_concat, Event.utterance?, Event.slot?, Event.loop?]

theorem utter (h : Knows a events s) (u : Utterance) :
    Knows a (events ++ [.userUttered u]) (s.replace .user u.subState) := by
  refine ⟨h.populated.replace _, fun role key => ?_⟩
  rw [State.get?_replace, h.get?, Utterance.get?_subState]
  cases role <;> simp [known, last?_concat, Event.utterance?, Event.slot?, Event.loop?]

theorem setSlot (h : Knows a events s) (name : String) (value : Json) :
    Knows a (events ++ [.slotSet name value])
      (match value with
        | .null => s.remove .slots name
        | value => s.set .slots name value.slotValue) := by
  have hget : ∀ t : State, t.Populated →
      (∀ role key, t.get? role key =
        if role = .slots ∧ key = name then value.shown else s.get? role key) →
      Knows a (events ++ [.slotSet name value]) t := by
    refine fun t ht hg => ⟨ht, fun role key => ?_⟩
    rw [hg, h.get?]
    cases role with
    | slots =>
      by_cases hk : key = name
      · simp [known, last?_concat, Event.slot?, hk]
      · simp [known, last?_concat, Event.slot?, hk, Ne.symm hk]
    | user | previousAction | activeLoop =>
      simp [known, last?_concat, Event.utterance?, Event.loop?]
  split
  · exact hget _ h.populated.remove fun role key => State.get?_remove
  · rename_i hne
    refine hget _ (h.populated.set _) fun role key => ?_
    rw [State.get?_set, Json.shown_eq hne]

theorem setLoop (h : Knows a events s) (name : Option String) :
    Knows a (events ++ [.activeLoop name])
      (match name with
        | some name =>
          s.replace .activeLoop (Dictionary.empty.insert Attribute.loopName (.text name))
        | none => s.clear .activeLoop) := by
  cases name with
  | none =>
    refine ⟨h.populated.clear, fun role key => ?_⟩
    rw [State.get?_clear, h.get?]
    cases role <;> simp [known, last?_concat, Event.utterance?, Event.slot?, Event.loop?]
  | some name =>
    refine ⟨h.populated.replace _, fun role key => ?_⟩
    rw [State.get?_replace, h.get?]
    cases role <;> simp [known, last?_concat, Event.utterance?, Event.slot?, Event.loop?]

end Knows

end Log

end DialogueWindows
