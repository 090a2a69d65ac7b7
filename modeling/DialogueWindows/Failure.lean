import DialogueWindows.Json.Decoder

/-! # Failures and batches

Why a dialogue could not be featurized, a configuration not be used or a text not be decoded, and
the messages that say so. A batch is what an operation over many dialogues yields: the data of those
that succeeded and, in order, the failures of the others. -/

namespace DialogueWindows

inductive ConfigFailure where
  | fileNotFound (path : String)
  | unparsable (path message : String)
  | invalid (field message : String)
deriving DecidableEq, Repr

def ConfigFailure.message : ConfigFailure → String
  | fileNotFound path => "config file not found: " ++ path
  | unparsable path message => "failed to parse config " ++ path ++ ": " ++ message
  | invalid field message => "invalid value for " ++ field ++ ": " ++ message

inductive Failure where
  | unknownAction (action : String)
  | malformedEvents (position : Nat) (reason : String)
  | dialogueNotFound (id : String)
  | config (failure : ConfigFailure)
deriving DecidableEq, Repr

namespace Failure

def message : Failure → String
  | unknownAction action =>
    "unknown action '" ++ action ++ "' is not part of the action vocabulary"
  | malformedEvents position reason =>
    "malformed event sequence at event " ++ toString position ++ ": " ++ reason
  | dialogueNotFound id => "dialogue not found: " ++ id
  | config failure => "configuration error: " ++ failure.message

/-- The reason for which two messages in a row are refused. -/
def repeatedUtterance : String :=
  "two consecutive user utterances without an intervening action"

end Failure

/-- A dialogue that failed, with the reason. -/
structure DialogueFailure where
  dialogueId : String
  failure : Failure
deriving DecidableEq, Repr

/-! ### Batches -/

structure Batch (α : Type) where
  data : α
  failures : List DialogueFailure
deriving DecidableEq

namespace Batch
variable {α β : Type}

def ofData (data : α) : Batch α :=
  ⟨data, []⟩

def addFailure (b : Batch α) (dialogueId : String) (failure : Failure) : Batch α :=
  { b with failures := b.failures ++ [⟨dialogueId, failure⟩] }

/-- Every dialogue succeeded. -/
def isClean (b : Batch α) : Bool :=
  b.failures.isEmpty

def failureCount (b : Batch α) : Nat :=
  b.failures.length

def map (f : α → β) (b : Batch α) : Batch β :=
  ⟨f b.data, b.failures⟩

/-- Sorts the outcomes of named tasks into the values of those that succeeded and the failures of
the others, both in order. -/
def collect : List (String × Except Failure α) → Batch (List α)
  | [] => ofData []
  | (id, outcome) :: rest =>
    let b := collect rest
    match outcome with
    | .ok a => { b with data := a :: b.data }
    | .error failure => { b with failures := ⟨id, failure⟩ :: b.failures }

end Batch

end DialogueWindows
