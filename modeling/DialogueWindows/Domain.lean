import DialogueWindows.Dictionary
import DialogueWindows.Failure
import DialogueWindows.Release

/-! # Vocabularies and domains

A vocabulary gives actions their indices, which are the labels of training examples. A domain
declares the intents, entities, slots, forms and actions of an assistant. Its vocabulary starts with
the built-in actions, the declared ones follow in increasing order. -/

namespace DialogueWindows

structure Vocabulary where
  index? : String → Option Nat
  /-- The actions in the order of their indices. -/
  names : List String
  /-- The action that hands control to the user. -/
  listen : String
  /-- The action that marks an intent too unlikely to be trusted. -/
  fallback : String

namespace Vocabulary

/-- The index of an action that has to be known. -/
def label (v : Vocabulary) (action : String) : Except Failure Nat :=
  match v.index? action with
  | some i => .ok i
  | none => .error (.unknownAction action)

/-- The vocabulary of a list, each name at its first position. -/
def ofNames (names : List String) (fallback : String) : Vocabulary where
  index? name := names.idxOf? name
  names
  listen := Action.listen
  fallback

end Vocabulary

/-! ### Domains -/

structure Domain where
  intents : List String
  entities : List String
  slots : List String
  forms : List String
  actions : List String
deriving DecidableEq, Repr

namespace Domain

def empty : Domain :=
  ⟨[], [], [], [], []⟩

/-- The declared actions that are not built in, each once. -/
def ownActions (d : Domain) : List String :=
  Distinct.sort (d.actions.filter fun a => a ∉ Action.builtIn)

/-- All actions in the order of their indices. -/
def actionNames (d : Domain) : List String :=
  Action.builtIn ++ d.ownActions

def vocabulary (d : Domain) : Vocabulary :=
  .ofNames d.actionNames Action.unlikelyIntent

end Domain

end DialogueWindows
