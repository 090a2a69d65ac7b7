import DialogueWindows.Event.Json
import DialogueWindows.State.Json
import DialogueWindows.Turn

/-! # Turns as JSON

A turn is an object of all its fields; on reading only the action and the message may be left out.
-/

namespace DialogueWindows.Turn

open Json (Decoder)

def members (t : Turn) : List (String × Json) :=
  [("index", .ofNat t.index), ("action", .ofOption .string t.action), ("state", t.state.toJson),
    ("is_rule_only", .bool t.isRuleOnly), ("is_unlikely_intent", .bool t.isUnlikelyIntent),
    ("unpredictable", .bool t.unpredictable), ("utterance", .ofOption Utterance.toJson t.utterance)]

def toJson (t : Turn) : Json :=
  .object t.members

structure Draft where
  index : Option Nat := none
  action : Option (Option String) := none
  state : Option State := none
  isRuleOnly : Option Bool := none
  isUnlikelyIntent : Option Bool := none
  unpredictable : Option Bool := none
  utterance : Option (Option Utterance) := none

def fields : List (Decoder.Field Draft) :=
  [.of "index" (·.index) (fun d a => { d with index := some a }) .size false,
    .of "action" (·.action) (fun d a => { d with action := some a }) (.option .string) false,
    .of "state" (·.state) (fun d a => { d with state := some a }) State.decode false,
    .of "is_rule_only" (·.isRuleOnly) (fun d a => { d with isRuleOnly := some a }) .bool false,
    .of "is_unlikely_intent" (·.isUnlikelyIntent)
      (fun d a => { d with isUnlikelyIntent := some a }) .bool false,
    .of "unpredictable" (·.unpredictable) (fun d a => { d with unpredictable := some a })
      .bool false,
    .of "utterance" (·.utterance) (fun d a => { d with utterance := some a })
      (.option Utterance.decode) false]

def decode : Decoder Turn :=
  .record "struct Turn" fields {} fun d => do
    let index ← Decoder.require "index" d.index
    let state ← Decoder.require "state" d.state
    let isRuleOnly ← Decoder.require "is_rule_only" d.isRuleOnly
    let isUnlikelyIntent ← Decoder.require "is_unlikely_intent" d.isUnlikelyIntent
    let unpredictable ← Decoder.require "unpredictable" d.unpredictable
    return {
      index
      action := d.action.getD none
      state
      isRuleOnly
      isUnlikelyIntent
      unpredictable
      utterance := d.utterance.getD none }

end DialogueWindows.Turn
