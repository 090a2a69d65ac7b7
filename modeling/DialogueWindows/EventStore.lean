import DialogueWindows.Event
import DialogueWindows.Failure

/-! # Event stores

A store keeps the logs of dialogues by id. `append` adds to a log or begins one, `insert` puts a log
in the place of what was there. -/

namespace DialogueWindows

structure EventStore where
  logs : Dictionary (List Event)
deriving DecidableEq

namespace EventStore

def empty : EventStore :=
  ⟨.empty⟩

def append (s : EventStore) (id : String) (events : List Event) : EventStore :=
  ⟨s.logs.insert id ((s.logs.get? id).getD [] ++ events)⟩

def insert (s : EventStore) (d : Dialogue) : EventStore :=
  ⟨s.logs.insert d.id d.events⟩

def size (s : EventStore) : Nat :=
  s.logs.size

def isEmpty (s : EventStore) : Bool :=
  s.logs.isEmpty

/-- The log of a dialogue. -/
def replay (s : EventStore) (id : String) : Except Failure (List Event) :=
  match s.logs.get? id with
  | some events => .ok events
  | none => .error (.dialogueNotFound id)

/-- The dialogues of some ids, in order; ids that are not found become failures. -/
def replayDialogues (s : EventStore) (ids : List String) : Batch (List Dialogue) :=
  Batch.collect (ids.map fun id => (id, (s.replay id).map fun events => ⟨id, events⟩))

end EventStore

end DialogueWindows
