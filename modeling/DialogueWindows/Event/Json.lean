import DialogueWindows.Event
import DialogueWindows.Json.Decoder

/-! # Events as JSON

An event is an object with its kind as the member `event`. What is absent is written as null. -/

namespace DialogueWindows

open Floating (Binary)
open Json (Decoder)

/-! ### Entity spans -/

namespace EntitySpan

def toJson (s : EntitySpan) : Json :=
  .object [("entity", .string s.entity), ("value", .ofOption .string s.value),
    ("start", .ofNat s.start), ("end", .ofNat s.stop)]

structure Draft where
  entity : Option String := none
  value : Option (Option String) := none
  start : Option Nat := none
  stop : Option Nat := none

def fields : List (Decoder.Field Draft) :=
  [.of "entity" (·.entity) (fun d a => { d with entity := some a }) .string false,
    .of "value" (·.value) (fun d a => { d with value := some a }) (.option .string) true,
    .of "start" (·.start) (fun d a => { d with start := some a }) .size false,
    .of "end" (·.stop) (fun d a => { d with stop := some a }) .size false]

def decode : Decoder EntitySpan :=
  .record "struct EntitySpan" fields {} fun d => do
    let entity ← Decoder.require "entity" d.entity
    let start ← Decoder.require "start" d.start
    let stop ← Decoder.require "end" d.stop
    return { entity, value := d.value.getD none, start, stop }

end EntitySpan

/-! ### Messages -/

namespace Utterance

def members (u : Utterance) : List (String × Json) :=
  [("intent", .ofOption .string u.intent), ("entities", .ofList EntitySpan.toJson u.entities),
    ("text", .ofOption .string u.text)]

def toJson (u : Utterance) : Json :=
  .object u.members

structure Draft where
  intent : Option (Option String) := none
  entities : Option (List EntitySpan) := none
  text : Option (Option String) := none

def fields : List (Decoder.Field Draft) :=
  [.of "intent" (·.intent) (fun d a => { d with intent := some a }) (.option .string) true,
    .of "entities" (·.entities) (fun d a => { d with entities := some a })
      (.list EntitySpan.decode) true,
    .of "text" (·.text) (fun d a => { d with text := some a }) (.option .string) true]

def decode : Decoder Utterance :=
  .record "struct UserUtterance" fields {} fun d =>
    .ok { intent := d.intent.getD none, entities := d.entities.getD [], text := d.text.getD none }

end Utterance

/-! ### Executed actions -/

namespace Execution

def members (a : Execution) : List (String × Json) :=
  [("name", .string a.name), ("confidence", .ofOption .ofBinary a.confidence),
    ("hide_rule_turn", .bool a.hideRuleTurn), ("unpredictable", .bool a.unpredictable)]

def toJson (a : Execution) : Json :=
  .object a.members

structure Draft where
  name : Option String := none
  confidence : Option (Option Binary) := none
  hideRuleTurn : Option Bool := none
  unpredictable : Option Bool := none

def fields : List (Decoder.Field Draft) :=
  [.of "name" (·.name) (fun d a => { d with name := some a }) .string false,
    .of "confidence" (·.confidence) (fun d a => { d with confidence := some a })
      (.option .double) true,
    .of "hide_rule_turn" (·.hideRuleTurn) (fun d a => { d with hideRuleTurn := some a }) .bool true,
    .of "unpredictable" (·.unpredictable) (fun d a => { d with unpredictable := some a })
      .bool true]

def decode : Decoder Execution :=
  .record "struct ActionExecution" fields {} fun d => do
    let name ← Decoder.require "name" d.name
    return {
      name
      confidence := d.confidence.getD none
      hideRuleTurn := d.hideRuleTurn.getD false
      unpredictable := d.unpredictable.getD false }

end Execution

/-! ### Events -/

namespace Event

/-- The kinds of events. -/
def kinds : List String :=
  ["user_uttered", "action_executed", "slot_set", "active_loop", "restarted"]

def members : Event → List (String × Json)
  | userUttered u => u.members
  | actionExecuted a => a.members
  | slotSet name value => [("name", .string name), ("value", value)]
  | activeLoop name => [("name", .ofOption .string name)]
  | restarted => []

def toJson (e : Event) : Json :=
  .object (("event", .string e.kind) :: e.members)

structure SlotDraft where
  name : Option String := none
  value : Option Json := none

def slotFields : List (Decoder.Field SlotDraft) :=
  [.of "name" (·.name) (fun d a => { d with name := some a }) .string false,
    .of "value" (·.value) (fun d a => { d with value := some a }) .json true]

def decodeSlot : Decoder Event :=
  .record "struct variant Event::SlotSet" slotFields {} fun d => do
    return slotSet (← Decoder.require "name" d.name) (d.value.getD .null)

def loopFields : List (Decoder.Field (Option (Option String))) :=
  [.of "name" id (fun _ a => some a) (.option .string) true]

def decodeLoop : Decoder Event :=
  .record "struct variant Event::ActiveLoop" loopFields none fun d => .ok (activeLoop (d.getD none))

/-- The decoder of the rest of an event of some kind. -/
def decodeKind (kind : String) : Decoder Event := fun source r =>
  match kind with
  | "user_uttered" => do return userUttered (← Utterance.decode source r)
  | "action_executed" => do return actionExecuted (← Execution.decode source r)
  | "slot_set" => decodeSlot source r
  | "active_loop" => decodeLoop source r
  | _ => Decoder.unit restarted source r

def decode : Decoder Event :=
  .tagged "Event" "event" kinds decodeKind

end Event

/-! ### Dialogues -/

namespace Dialogue

def toJson (d : Dialogue) : Json :=
  .object [("id", .string d.id), ("events", .ofList Event.toJson d.events)]

structure Draft where
  id : Option String := none
  events : Option (List Event) := none

def fields : List (Decoder.Field Draft) :=
  [.of "id" (·.id) (fun d a => { d with id := some a }) .string false,
    .of "events" (·.events) (fun d a => { d with events := some a }) (.list Event.decode) false]

def decode : Decoder Dialogue :=
  .record "struct Dialogue" fields {} fun d => do
    let id ← Decoder.require "id" d.id
    let events ← Decoder.require "events" d.events
    return { id, events }

end Dialogue

end DialogueWindows
