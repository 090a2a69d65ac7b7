import DialogueWindows.Dictionary
import DialogueWindows.Release

/-! # States

A state is what is known at one point of a dialogue: for each of four roles a dictionary of
attributes. The operations never leave a role without attributes behind, so a state they built is
determined by what `get?` returns. -/

namespace DialogueWindows

inductive Role where
  | user
  | previousAction
  | slots
  | activeLoop
deriving DecidableEq, Repr

namespace Role

/-- The roles in the order in which a state lists them. -/
def all : List Role :=
  [user, previousAction, slots, activeLoop]

def name : Role → String
  | user => "user"
  | previousAction => "prev_action"
  | slots => "slots"
  | activeLoop => "active_loop"

end Role

/-- The value of an attribute. A slot value other than a text is kept as its JSON text, apart from a
text that reads the same. -/
inductive AttributeValue where
  | text (s : String)
  | names (names : List String)
  | literal (json : String)
deriving DecidableEq, Repr

namespace AttributeValue

def text? : AttributeValue → Option String
  | text s => some s
  | names _ | literal _ => none

/-- All the names that a value carries. -/
def toNames : AttributeValue → List String
  | text s => [s]
  | names ns => ns
  | literal json => [json]

end AttributeValue

/-- The attributes of one role. -/
abbrev SubState := Dictionary AttributeValue

structure State where
  user : Option SubState
  previousAction : Option SubState
  slots : Option SubState
  activeLoop : Option SubState
deriving DecidableEq

namespace State

/-- Nothing is known. -/
def empty : State :=
  ⟨none, none, none, none⟩

instance : Inhabited State := ⟨empty⟩

def role? (s : State) : Role → Option SubState
  | .user => s.user
  | .previousAction => s.previousAction
  | .slots => s.slots
  | .activeLoop => s.activeLoop

/-- The state with one role as given. -/
def withRole (s : State) (role : Role) (sub : Option SubState) : State :=
  match role with
  | .user => { s with user := sub }
  | .previousAction => { s with previousAction := sub }
  | .slots => { s with slots := sub }
  | .activeLoop => { s with activeLoop := sub }

@[simp] theorem role?_withRole_self (s : State) (role : Role) (sub : Option SubState) :
    (s.withRole role sub).role? role = sub := by
  cases role <;> rfl

theorem role?_withRole_of_ne (s : State) {role role' : Role} (sub : Option SubState)
    (h : role' ≠ role) : (s.withRole role sub).role? role' = s.role? role' := by
  cases role <;> cases role' <;> simp_all [withRole, role?]

@[ext] theorem ext_role? {s t : State} (h : ∀ role, s.role? role = t.role? role) : s = t := by
  cases s; cases t
  simpa using ⟨h .user, h .previousAction, h .slots, h .activeLoop⟩

/-- The roles that are present, in order. -/
def roles (s : State) : List (Role × SubState) :=
  Role.all.filterMap fun role => (s.role? role).map (role, ·)

def size (s : State) : Nat :=
  s.roles.length

def isEmpty (s : State) : Bool :=
  s.roles.isEmpty

def get? (s : State) (role : Role) (key : String) : Option AttributeValue :=
  (s.role? role).bind (·.get? key)

def set (s : State) (role : Role) (key : String) (value : AttributeValue) : State :=
  s.withRole role (((s.role? role).getD .empty).insert key value)

/-- Removes an attribute, and with its last attribute the role. -/
def remove (s : State) (role : Role) (key : String) : State :=
  match s.role? role with
  | none => s
  | some sub =>
    let rest := sub.erase key
    s.withRole role (if rest.isEmpty then none else some rest)

/-- Replaces a whole role; without attributes it is removed. -/
def replace (s : State) (role : Role) (sub : SubState) : State :=
  s.withRole role (if sub.isEmpty then none else some sub)

def clear (s : State) (role : Role) : State :=
  s.withRole role none

def intent? (s : State) : Option String :=
  (s.get? .user Attribute.intent).bind (·.text?)

def previousAction? (s : State) : Option String :=
  (s.get? .previousAction Attribute.actionName).bind (·.text?)

/-- Whether the state was reached by handing control to the user. -/
def isListening (s : State) : Bool :=
  s.previousAction? == some Action.listen

end State

/-- The states before a decision, the oldest first. -/
abbrev Window := List State

end DialogueWindows
