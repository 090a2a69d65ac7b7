import DialogueWindows.Json.Basic
import DialogueWindows.Floating.Shortest

/-! # Compact JSON text

`Json.render` writes a value without blanks. A string escapes the quote, the backslash and the
control characters below the blank, all else stands as it is; members stand in the order of the
value. -/

namespace DialogueWindows.Json

def hexDigit (n : Nat) : Char :=
  Nat.digitChar n

/-- A character as it stands in a string. -/
def escapeChar (c : Char) : List Char :=
  if c = '"' then ['\\', '"']
  else if c = '\\' then ['\\', '\\']
  else if 0x20 ≤ c.toNat then [c]
  else if c.toNat = 0x08 then ['\\', 'b']
  else if c.toNat = 0x09 then ['\\', 't']
  else if c.toNat = 0x0a then ['\\', 'n']
  else if c.toNat = 0x0c then ['\\', 'f']
  else if c.toNat = 0x0d then ['\\', 'r']
  else ['\\', 'u', '0', '0', hexDigit (c.toNat / 16), hexDigit (c.toNat % 16)]

def escape (cs : List Char) : List Char :=
  cs.flatMap escapeChar

def renderString (s : String) : List Char :=
  '"' :: (escape s.toList ++ ['"'])

/-- An integer in decimal, without a plus sign or leading zeros. -/
def renderInt (n : Int) : List Char :=
  if n < 0 then '-' :: Nat.toDigits 10 n.natAbs else Nat.toDigits 10 n.natAbs

namespace Number

def render : Number → List Char
  | int n => renderInt n
  | float x => if x.isFinite then x.toChars else ['n', 'u', 'l', 'l']

end Number

mutual

def render : Json → List Char
  | null => ['n', 'u', 'l', 'l']
  | bool true => ['t', 'r', 'u', 'e']
  | bool false => ['f', 'a', 'l', 's', 'e']
  | number n => n.render
  | string s => renderString s
  | array items => '[' :: renderItems items
  | object members => '{' :: renderMembers members
termination_by structural j => j

/-- The items of an array up to the bracket that closes it. -/
def renderItems : List Json → List Char
  | [] => [']']
  | j :: rest => render j ++ renderMore rest
termination_by structural items => items

/-- Further items, each after a comma. -/
def renderMore : List Json → List Char
  | [] => [']']
  | j :: rest => ',' :: (render j ++ renderMore rest)
termination_by structural items => items

/-- The members of an object up to the brace that closes it. -/
def renderMembers : List (String × Json) → List Char
  | [] => ['}']
  | (k, j) :: rest => renderString k ++ ':' :: (render j ++ renderMoreMembers rest)
termination_by structural members => members

/-- Further members, each after a comma. -/
def renderMoreMembers : List (String × Json) → List Char
  | [] => ['}']
  | (k, j) :: rest => ',' :: (renderString k ++ ':' :: (render j ++ renderMoreMembers rest))
termination_by structural members => members

end

/-- The compact text of a value. -/
def compact (j : Json) : String :=
  String.ofList (render j)

end DialogueWindows.Json
