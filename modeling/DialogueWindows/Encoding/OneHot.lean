import DialogueWindows.Domain
import DialogueWindows.Feature
import DialogueWindows.State

/-! # One-hot encoding

Each attribute of a state is encoded as the indicator of the names it shows, over the names that the
domain declares. What the user said is shown only in a state that was reached by listening. -/

namespace DialogueWindows

/-- The name under which the encoder's features are reported. -/
def OneHot.name : String := "single_state"

/-- The declared names of one attribute. -/
structure Lookup where
  names : List String
deriving DecidableEq, Repr

namespace Lookup

/-- The last position of a name in a list. -/
def lastIndex? (name : String) : List String → Option Nat
  | [] => none
  | n :: rest =>
    match lastIndex? name rest with
    | some i => some (i + 1)
    | none => if n = name then some 0 else none

/-- The index of a name; of a repeated name the last position counts. -/
def index? (l : Lookup) (name : String) : Option Nat :=
  lastIndex? name l.names

/-- The number of different names. -/
def dim (l : Lookup) : Nat :=
  (Distinct.sort l.names).length

end Lookup

/-- The declared names of a domain by attribute. -/
structure OneHot where
  actions : Lookup
  intents : Lookup
  entities : Lookup
  slots : Lookup
  loops : Lookup
deriving DecidableEq, Repr

namespace OneHot

def ofDomain (d : Domain) : OneHot where
  actions := ⟨d.actionNames⟩
  intents := ⟨d.intents⟩
  entities := ⟨d.entities⟩
  slots := ⟨d.slots⟩
  loops := ⟨d.forms⟩

/-- The feature of the known ones among some names, if there is one. -/
def feature? (key : String) (lookup : Lookup) (names : List String) : Option Feature :=
  let indices := names.filterMap lookup.index?
  if indices.isEmpty then none
  else some ⟨key, name, .sentence, .multiHot lookup.dim indices⟩

/-- The names that a state has at an attribute. -/
def namesAt (s : State) (role : Role) (key : String) : List String :=
  ((s.get? role key).map (·.toNames)).getD []

/-- The names that an attribute of the user shows: none unless the state was reached by listening.
-/
def userNames (s : State) (key : String) : List String :=
  if s.isListening then namesAt s .user key else []

/-- The features of a state, in the order in which they are made. -/
def features (e : OneHot) (s : State) : List Feature :=
  [feature? Attribute.actionName e.actions (namesAt s .previousAction Attribute.actionName),
    feature? Attribute.intent e.intents (userNames s Attribute.intent),
    feature? Attribute.entities e.entities (userNames s Attribute.entities),
    feature? Attribute.slots e.slots (((s.role? .slots).map (·.keys)).getD []),
    feature? Attribute.activeLoop e.loops (namesAt s .activeLoop Attribute.loopName)].filterMap id

def encode (e : OneHot) (s : State) : EncodedState :=
  .ofList ((e.features s).map fun f => (f.key, [f]))

end OneHot

end DialogueWindows
