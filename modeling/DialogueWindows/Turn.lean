import DialogueWindows.Event
import DialogueWindows.State

/-! # Turns

A turn is one step of a dialogue: the action that opened it and the state it left behind. -/

namespace DialogueWindows

structure Turn where
  /-- The position among the turns of the dialogue. -/
  index : Nat
  /-- The action that opened the turn, none for the opening turn. -/
  action : Option String
  state : State
  /-- The action chosen from this turn's state came from a rule. -/
  isRuleOnly : Bool
  /-- The turn was opened by the fallback action. -/
  isUnlikelyIntent : Bool
  /-- The turn's action must not be used as a label. -/
  unpredictable : Bool
  /-- The message received during the turn. -/
  utterance : Option Utterance
deriving DecidableEq

namespace Turn

/-- The empty turn that a dialogue starts from. -/
def opening (index : Nat) : Turn :=
  { index, action := none, state := .empty, isRuleOnly := false, isUnlikelyIntent := false,
    unpredictable := false, utterance := none }

/-- The action that the turn contributes as a label. -/
def label? (t : Turn) : Option String :=
  if t.unpredictable then none else t.action

end Turn

end DialogueWindows
