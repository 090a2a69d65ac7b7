import DialogueWindows.Event
import DialogueWindows.Proofs.Positions
import Mathlib.Data.List.DropRight

/-! # Logs by position

The parts of a log that its turns are made of: the events that count after a restart, the executed
actions with their positions, the events before an action and those between two actions. All of them
are described event by event from the front, so each lemma says what one more event changes. -/

namespace DialogueWindows

namespace Event

def execution? : Event → Option Execution
  | actionExecuted a => some a
  | _ => none

def utterance? : Event → Option Utterance
  | userUttered u => some u
  | _ => none

/-- The value that the event gives to a slot, null if it empties the slot. -/
def slot? (name : String) : Event → Option Json
  | slotSet name' value => if name' = name then some value else none
  | _ => none

/-- The loop that the event activates, or none at all. -/
def loop? : Event → Option (Option String)
  | activeLoop name => some name
  | _ => none

def isRestart : Event → Bool
  | restarted => true
  | _ => false

end Event

namespace Log
variable {events : List Event} {e : Event} {a : Execution} {i : Nat}

/-- The events after the last restart, all of them if there is none. -/
def applied (events : List Event) : List Event :=
  events.rtakeWhile fun e => !e.isRestart

theorem applied_concat (events : List Event) (e : Event) :
    applied (events ++ [e]) = if e.isRestart then [] else applied events ++ [e] := by
  rw [applied, List.rtakeWhile_concat]
  cases e.isRestart <;> rfl

/-- What the last event that says something says. -/
def last? {α : Type} (f : Event → Option α) (events : List Event) : Option α :=
  (events.filterMap f).getLast?

@[simp] theorem last?_nil {α : Type} (f : Event → Option α) : last? f [] = none := rfl

theorem last?_concat {α : Type} (f : Event → Option α) (events : List Event) (e : Event) :
    last? f (events ++ [e]) = (f e).or (last? f events) := by
  rw [last?, List.filterMap_append]
  cases h : f e with
  | none => rw [List.filterMap_cons_none h, List.filterMap_nil, List.append_nil]; rfl
  | some b => rw [List.filterMap_cons_some h, List.filterMap_nil, List.getLast?_concat]; rfl

/-! ### Executed actions -/

/-- The executed actions, each with its position. -/
def executions (events : List Event) : List (Nat × Execution) :=
  positions Event.execution? events

@[simp] theorem executions_nil : executions [] = [] := rfl

theorem executions_concat_of_none (h : e.execution? = none) :
    executions (events ++ [e]) = executions events := by
  rw [executions, positions_concat, h, Option.map_none, Option.toList_none, List.append_nil]
  rfl

@[simp] theorem executions_concat_action :
    executions (events ++ [.actionExecuted a]) = executions events ++ [(events.length, a)] :=
  positions_concat _ events _

theorem lt_of_mem_executions {x : Nat × Execution} (h : x ∈ executions events) :
    x.1 < events.length :=
  lt_of_mem_positions h

/-! ### Turns -/

/-- The action that opens a turn, none for turn 0. -/
def opener (events : List Event) : Nat → Option Execution
  | 0 => none
  | i + 1 => (executions events)[i]?.map (·.2)

/-- The events before the action that closes a turn, all of them if no action does. -/
def upTo (events : List Event) (i : Nat) : List Event :=
  match (executions events)[i]? with
  | some x => events.take x.1
  | none => events

/-- The position behind the action that opens a turn. -/
def start (events : List Event) : Nat → Nat
  | 0 => 0
  | i + 1 => ((executions events)[i]?.map (·.1 + 1)).getD 0

/-- The events between the actions that open and close a turn. -/
def during (events : List Event) (i : Nat) : List Event :=
  (upTo events i).drop (start events i)

theorem getElem?_executions_concat (h : i < (executions events).length) (e : Event) :
    (executions (events ++ [e]))[i]? = (executions events)[i]? := by
  rw [executions, positions_concat]
  exact List.getElem?_append_left h

theorem opener_concat (h : i ≤ (executions events).length) (e : Event) :
    opener (events ++ [e]) i = opener events i := by
  cases i with
  | zero => rfl
  | succ i => rw [opener, opener, getElem?_executions_concat h]

theorem start_concat (h : i ≤ (executions events).length) (e : Event) :
    start (events ++ [e]) i = start events i := by
  cases i with
  | zero => rfl
  | succ i => rw [start, start, getElem?_executions_concat h]

theorem start_le (events : List Event) (i : Nat) : start events i ≤ events.length := by
  cases i with
  | zero => exact Nat.zero_le _
  | succ i =>
    rw [start]
    cases h : (executions events)[i]? with
    | none => exact Nat.zero_le _
    | some x => exact lt_of_mem_executions (List.mem_of_getElem? h)

/-- The events before an action do not change when the log grows. -/
theorem upTo_concat (h : i < (executions events).length) (e : Event) :
    upTo (events ++ [e]) i = upTo events i := by
  rw [upTo, upTo, getElem?_executions_concat h, List.getElem?_eq_getElem h]
  exact List.take_append_of_le_length (lt_of_mem_executions (List.getElem_mem h)).le

theorem upTo_length (events : List Event) : upTo events (executions events).length = events := by
  rw [upTo, List.getElem?_eq_none (le_refl _)]

theorem upTo_concat_action (events : List Event) (a : Execution) :
    upTo (events ++ [.actionExecuted a]) (executions events).length = events := by
  rw [upTo, executions_concat_action, List.getElem?_concat_length]
  exact List.take_left

theorem during_concat (h : i < (executions events).length) (e : Event) :
    during (events ++ [e]) i = during events i := by
  rw [during, during, upTo_concat h, start_concat h.le]

theorem during_concat_action (events : List Event) (a : Execution) :
    during (events ++ [.actionExecuted a]) (executions events).length =
      during events (executions events).length := by
  rw [during, during, upTo_concat_action, start_concat (le_refl _), upTo_length]

/-- An event that is no action belongs to the turn that is open. -/
theorem during_concat_of_none (h : e.execution? = none) :
    during (events ++ [e]) (executions events).length =
      during events (executions events).length ++ [e] := by
  rw [during, during, start_concat (le_refl _), upTo_length]
  have := upTo_length (events ++ [e])
  rw [executions_concat_of_none h] at this
  rw [this, List.drop_append_of_le_length (start_le _ _)]

theorem opener_concat_action (events : List Event) (a : Execution) :
    opener (events ++ [.actionExecuted a]) ((executions events).length + 1) = some a := by
  rw [opener, executions_concat_action, List.getElem?_concat_length, Option.map_some]

/-- Nothing has happened yet in the turn that the last event opens. -/
theorem during_concat_action_succ (events : List Event) (a : Execution) :
    during (events ++ [.actionExecuted a]) ((executions events).length + 1) = [] := by
  rw [during, start, executions_concat_action, List.getElem?_concat_length]
  refine List.drop_eq_nil_of_le ?_
  rw [upTo, executions_concat_action, List.getElem?_eq_none (by simp)]
  simp

theorem opener_length_succ (events : List Event) :
    opener events ((executions events).length + 1) = none := by
  rw [opener, List.getElem?_eq_none (le_refl _), Option.map_none]

end Log

end DialogueWindows
