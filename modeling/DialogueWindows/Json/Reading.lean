import DialogueWindows.Json.Basic

/-! # Readings

A reading is what a text holds as far as it is JSON: a value, parts of which may be cut off by the
fault that stopped the reader. Who decodes a reading from front to back meets the first problem of
the text first, be it a fault of the text or a value of the wrong shape. Some parts can be skipped
but not read: a number beyond the doubles, a string with a surrogate that stands alone. -/

namespace DialogueWindows.Json

/-- Why a text is not JSON: it ended too early, or goes on with what cannot stand there. -/
inductive Fault where
  | ended
  | malformed
deriving DecidableEq, Repr

/-- The name of a member. Where none can be read the member is `absent` and its value is the fault.
-/
inductive Name where
  | text (s : String)
  | unreadable
  | absent
deriving DecidableEq, Repr

inductive Reading where
  | null
  | bool (b : Bool)
  | number (n : Number)
  | string (s : String)
  /-- A number or a string that denotes no value. -/
  | unreadable
  | array (items : List Reading)
  | object (members : List (Name × Reading))
  /-- A value that breaks off, with the fault for who reads it, who skips it, and who wants a name:
  to the last a word or a number is malformed from its first character on. -/
  | broken (read skipped named : Fault)
  /-- No value, because neither a comma nor the closing bracket follows the one before. -/
  | unclosed (fault : Fault)
deriving Repr, Inhabited

namespace Reading

/-- No value, or a string that breaks off: the fault is the same for everyone. -/
def fault (f : Fault) : Reading :=
  .broken f f f

mutual

/-- The fault that a value skipped unread still shows, if any. -/
def skip : Reading → Except Fault Unit
  | array items => skipItems items
  | object members => skipMembers members
  | broken _ skipped _ => .error skipped
  | unclosed fault => .error fault
  | null | bool _ | number _ | string _ | unreadable => .ok ()
termination_by structural r => r

def skipItems : List Reading → Except Fault Unit
  | [] => .ok ()
  | r :: rest => do
    skip r
    skipItems rest
termination_by structural items => items

def skipMembers : List (Name × Reading) → Except Fault Unit
  | [] => .ok ()
  | (_, r) :: rest => do
    skip r
    skipMembers rest
termination_by structural members => members

end

mutual

/-- The value of a reading without faults. With a `limit` on the depth, arrays and objects nested
deeper are faults too. -/
def value (limit : Option Nat) : Reading → Except Fault Json
  | null => .ok .null
  | bool b => .ok (.bool b)
  | number n => .ok (.number n)
  | string s => .ok (.string s)
  | unreadable => .error .malformed
  | array items =>
    match limit with
    | some 0 => .error .malformed
    | some (n + 1) => do return .array (← itemValues (some n) items)
    | none => do return .array (← itemValues none items)
  | object members =>
    match limit with
    | some 0 => .error .malformed
    | some (n + 1) => do return .object (← memberValues (some n) members)
    | none => do return .object (← memberValues none members)
  | broken read _ _ => .error read
  | unclosed fault => .error fault
termination_by structural r => r

def itemValues (limit : Option Nat) : List Reading → Except Fault (List Json)
  | [] => .ok []
  | r :: rest => do
    let j ← value limit r
    return j :: (← itemValues limit rest)
termination_by structural items => items

def memberValues (limit : Option Nat) : List (Name × Reading) → Except Fault (List (String × Json))
  | [] => .ok []
  | (.text k, r) :: rest => do
    let j ← value limit r
    return (k, j) :: (← memberValues limit rest)
  | (.unreadable, _) :: _ => .error .malformed
  | (.absent, r) :: rest => do
    let _ ← value limit r
    memberValues limit rest
termination_by structural members => members

end

end Reading

end DialogueWindows.Json
