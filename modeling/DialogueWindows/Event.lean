import DialogueWindows.Json.Basic

/-! # Events

What a dialogue's log records: messages of the user, executed actions, changes of slots and of the
active loop, and restarts. -/

namespace DialogueWindows

open Floating (Binary)

/-- An entity recognised at the characters `start ≤ p < stop` of a message. -/
structure EntitySpan where
  entity : String
  value : Option String
  start : Nat
  stop : Nat
deriving DecidableEq, Repr

/-- A message of the user as it was recognised. -/
structure Utterance where
  intent : Option String
  entities : List EntitySpan
  text : Option String
deriving DecidableEq, Repr

/-- A message that carries its text in place of an intent. -/
def Utterance.isEndToEnd (u : Utterance) : Bool :=
  u.intent.isNone && u.text.isSome

structure Execution where
  name : String
  confidence : Option Binary
  /-- A rule chose the action, so the turn it was chosen from is hidden from learned policies. -/
  hideRuleTurn : Bool
  /-- The action is never used as a label. -/
  unpredictable : Bool
deriving DecidableEq, Repr

inductive Event where
  | userUttered (utterance : Utterance)
  | actionExecuted (execution : Execution)
  | slotSet (name : String) (value : Json)
  | activeLoop (name : Option String)
  | restarted
deriving DecidableEq, Repr

/-- The name of an event's kind. -/
def Event.kind : Event → String
  | userUttered _ => "user_uttered"
  | actionExecuted _ => "action_executed"
  | slotSet .. => "slot_set"
  | activeLoop _ => "active_loop"
  | restarted => "restarted"

/-- A conversation: its id and its log. -/
structure Dialogue where
  id : String
  events : List Event
deriving DecidableEq, Repr

def Dialogue.isEmpty (d : Dialogue) : Bool :=
  d.events.isEmpty

end DialogueWindows
