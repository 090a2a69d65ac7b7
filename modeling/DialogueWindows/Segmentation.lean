import DialogueWindows.Dictionary
import DialogueWindows.Failure
import DialogueWindows.Json.Printer
import DialogueWindows.Turn

/-! # Segmentation

`segment` splits a log into turns. The first turn is always empty, every executed action closes the
open turn and opens the next. Messages, slots and loops accumulate in one running state, of which a
turn keeps what it was when the turn closed. A restart forgets all that came before. -/

namespace DialogueWindows

/-- What a message tells about the user: its intent or else its text, and the names of its
entities. -/
def Utterance.subState (u : Utterance) : SubState :=
  let sub : SubState :=
    match u.intent, u.text with
    | some intent, _ => Dictionary.empty.insert Attribute.intent (.text intent)
    | none, some text => Dictionary.empty.insert Attribute.text (.text text)
    | none, none => .empty
  let names := Distinct.sort (u.entities.map (·.entity))
  if names.isEmpty then sub else sub.insert Attribute.entities (.names names)

/-- A slot's value as an attribute: a text as it is, any other value by its JSON text. -/
def Json.slotValue : Json → AttributeValue
  | .string s => .text s
  | j => .literal j.compact

/-- A log that has been read up to some event. -/
structure Segmentation where
  /-- The turns that are closed. -/
  closed : List Turn
  /-- The turn that is open; its state is filled in when it closes. -/
  current : Turn
  /-- The running state. -/
  state : State
  /-- A message has been received since the last action. -/
  answered : Bool

namespace Segmentation

def start : Segmentation :=
  ⟨[], .opening 0, .empty, false⟩

/-- The open turn as it closes. The opening turn stays empty whatever came before the first action.
-/
def closing (s : Segmentation) : Turn :=
  { s.current with
    index := s.closed.length
    state := if s.current.action.isSome then s.state else s.current.state }

def turns (s : Segmentation) : List Turn :=
  s.closed ++ [s.closing]

/-- The turn that an action opens. -/
def opened (fallback : String) (a : Execution) : Turn :=
  { Turn.opening 0 with
    action := some a.name
    isUnlikelyIntent := a.name == fallback
    unpredictable := a.unpredictable }

/-- An action that a rule chose marks the turn it was chosen from. -/
def execute (fallback : String) (s : Segmentation) (a : Execution) : Segmentation :=
  let isRuleOnly := s.current.isRuleOnly || a.hideRuleTurn
  { closed := { s with current := { s.current with isRuleOnly } }.turns
    current := opened fallback a
    state := s.state.set .previousAction Attribute.actionName (.text a.name)
    answered := false }

def utter (s : Segmentation) (u : Utterance) : Segmentation :=
  { s with
    current := { s.current with utterance := some u }
    state := s.state.replace .user u.subState
    answered := true }

def setSlot (s : Segmentation) (name : String) (value : Json) : Segmentation :=
  { s with
    state :=
      match value with
      | .null => s.state.remove .slots name
      | value => s.state.set .slots name value.slotValue }

def setLoop (s : Segmentation) (name : Option String) : Segmentation :=
  { s with
    state :=
      match name with
      | some name =>
        s.state.replace .activeLoop (Dictionary.empty.insert Attribute.loopName (.text name))
      | none => s.state.clear .activeLoop }

/-- Reads the event at a position. Only a message that follows another without an action or a
restart between them is refused. -/
def step (fallback : String) (s : Segmentation) (position : Nat) :
    Event → Except Failure Segmentation
  | .actionExecuted a => .ok (s.execute fallback a)
  | .userUttered u =>
    if s.answered then .error (.malformedEvents position Failure.repeatedUtterance)
    else .ok (s.utter u)
  | .slotSet name value => .ok (s.setSlot name value)
  | .activeLoop name => .ok (s.setLoop name)
  | .restarted => .ok start

/-- Reads the events from a position on. -/
def run (fallback : String) (s : Segmentation) (position : Nat) :
    List Event → Except Failure Segmentation
  | [] => .ok s
  | e :: rest => do run fallback (← s.step fallback position e) (position + 1) rest

end Segmentation

/-- The turns of a log, `fallback` being the action whose turns are marked as such. -/
def segment (events : List Event) (fallback : String) : Except Failure (List Turn) := do
  return (← Segmentation.start.run fallback 0 events).turns

end DialogueWindows
