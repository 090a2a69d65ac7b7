/-! # Fixed names

The names that a release fixes, on which stored data and its readers rely: the built-in actions, the
attributes of a state, the activities that are traced. -/

namespace DialogueWindows

/-! ### Built-in actions

Every domain knows them. They come first in its vocabulary, so that the action that hands control to
the user has index 0. -/

namespace Action

/-- Hands control to the user. -/
def listen : String := "action_listen"

/-- Marks that the intent recognised last is too unlikely to be trusted. -/
def unlikelyIntent : String := "action_unlikely_intent"

/-- The built-in actions in the order of the vocabulary. -/
def builtIn : List String :=
  [listen, "action_restart", "action_session_start", "action_default_fallback",
    "action_deactivate_loop", "action_revert_fallback_events", "action_default_ask_affirmation",
    "action_default_ask_rephrase", "action_two_stage_fallback", unlikelyIntent, "action_back",
    "..."]

theorem nodup_builtIn : builtIn.Nodup := by decide

end Action

/-! ### Attributes

The names under which the parts of a state are kept and their features are reported. -/

namespace Attribute

def intent : String := "intent"
def text : String := "text"
def entities : String := "entities"
def actionName : String := "action_name"
def slots : String := "slots"
def activeLoop : String := "active_loop"
def loopName : String := "name"

end Attribute

/-! ### The library -/

namespace Release

def version : String := "0.1.0"

/-- The names of the activities: a batch in training, a batch in prediction, one dialogue. -/
def activities : List String :=
  ["tracker.featurize", "tracker.predict", "tracker.segment"]

end Release

end DialogueWindows
