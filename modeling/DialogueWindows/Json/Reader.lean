import DialogueWindows.Json.Reading
import DialogueWindows.Floating.Decimal

/-! # Reading JSON text

`Json.readText` gives the reading of a text. The reader keeps to the grammar: blanks are the space,
the tab and the line ends, a number has no needless zeros, a string no raw control characters, and
nothing but blanks may follow the value. -/

namespace DialogueWindows.Json

/-- What is read, and the rest of the text unless a fault stopped the reader. -/
abbrev Step (α : Type) := α × Option (List Char)

def isSpace (c : Char) : Bool :=
  c = ' ' || c = '\n' || c = '\t' || c = '\r'

def skipSpace (cs : List Char) : List Char :=
  cs.dropWhile isSpace

def stop (fault : Fault) : Step Reading :=
  (.fault fault, none)

/-- Reads one of the words `null`, `true` and `false`. -/
def readWord (value : Reading) : List Char → List Char → Step Reading
  | [], cs => (value, some cs)
  | _ :: _, [] => (.broken .ended .ended .malformed, none)
  | w :: ws, c :: cs => if c = w then readWord value ws cs else stop .malformed

/-! ### Numbers -/

def digitValue (c : Char) : Nat :=
  c.toNat - '0'.toNat

/-- The digits at the front, by value, and the rest. -/
def spanDigits (cs : List Char) : List Nat × List Char :=
  ((cs.takeWhile Char.isDigit).map digitValue, cs.dropWhile Char.isDigit)

def ofDigits (digits : List Nat) : Nat :=
  digits.foldl (fun n d => n * 10 + d) 0

/-- An integer that fits in 64 bits, except for the negative zero, which is a double. -/
def integer? (negative : Bool) (n : Nat) : Option Number :=
  if negative then
    if n ≠ 0 ∧ n ≤ 0x8000000000000000 then some (.int (-n)) else none
  else if n < UInt64.size then some (.int n)
  else none

def numberReading : Option Number → Reading
  | some n => .number n
  | none => .unreadable

/-- A number that the text ends in, which only who reads it takes for ended. -/
def endedNumber : Step Reading :=
  (.broken .ended .malformed .malformed, none)

/-- Reads the exponent behind its letter. -/
def readExponent (negative : Bool) (whole fraction : List Nat) (cs : List Char) : Step Reading :=
  let signed := match cs with
    | '+' :: rest => (false, rest)
    | '-' :: rest => (true, rest)
    | _ => (false, cs)
  match signed.2 with
  | [] => endedNumber
  | c :: _ =>
    if c.isDigit then
      let digits := spanDigits signed.2
      let e : Int := ofDigits digits.1
      let x := Floating.readDecimal negative whole fraction (if signed.1 then -e else e)
      (numberReading (x.map .float), some digits.2)
    else stop .malformed

/-- Reads what may follow the digits before the point. -/
def readFraction (negative : Bool) (whole : List Nat) : List Char → Step Reading
  | '.' :: cs =>
    match cs with
    | [] => endedNumber
    | c :: _ =>
      if c.isDigit then
        let digits := spanDigits cs
        match digits.2 with
        | 'e' :: rest | 'E' :: rest => readExponent negative whole digits.1 rest
        | rest =>
          (numberReading ((Floating.readDecimal negative whole digits.1 0).map .float), some rest)
      else stop .malformed
  | 'e' :: cs | 'E' :: cs => readExponent negative whole [] cs
  | cs =>
    let n := (integer? negative (ofDigits whole)).orElse fun _ =>
      (Floating.readDecimal negative whole [] 0).map .float
    (numberReading n, some cs)

/-- Reads a number behind its sign. -/
def readNumber (negative : Bool) : List Char → Step Reading
  | [] => endedNumber
  | '0' :: c :: cs =>
    if c.isDigit then stop .malformed else readFraction negative [0] (c :: cs)
  | c :: cs =>
    if c.isDigit then
      let digits := spanDigits (c :: cs)
      readFraction negative digits.1 digits.2
    else stop .malformed

/-! ### Strings -/

def hexValue? (c : Char) : Option Nat :=
  if c.isDigit then some (digitValue c)
  else if 'a' ≤ c ∧ c ≤ 'f' then some (c.toNat - 'a'.toNat + 10)
  else if 'A' ≤ c ∧ c ≤ 'F' then some (c.toNat - 'A'.toNat + 10)
  else none

/-- The character after a backslash, other than `u`. -/
def unescape? : Char → Option Char
  | '"' => some '"'
  | '\\' => some '\\'
  | '/' => some '/'
  | 'b' => some '\x08'
  | 'f' => some '\x0c'
  | 'n' => some '\n'
  | 'r' => some '\r'
  | 't' => some '\t'
  | _ => none

/-- Where the reader of a string stands. -/
inductive Mode where
  | plain
  /-- Behind a backslash. -/
  | escape
  /-- Behind `digits` hexadecimal digits of an escape, of that value. -/
  | hex (digits value : Nat)

/-- A string being read: its characters in reverse, whether all of them can be read, and the high
surrogate that waits for its low one. -/
structure Scan where
  chars : List Char
  readable : Bool
  high : Option Nat
  mode : Mode

namespace Scan

def start : Scan :=
  ⟨[], true, none, .plain⟩

def isHigh (n : Nat) : Bool :=
  0xd800 ≤ n && n < 0xdc00

def isLow (n : Nat) : Bool :=
  0xdc00 ≤ n && n < 0xe000

/-- Adds a character; a high surrogate in front of it stands alone. -/
def push (s : Scan) (c : Char) : Scan :=
  { chars := c :: s.chars, readable := s.readable && s.high.isNone, high := none, mode := .plain }

/-- Adds the code unit of a complete escape. -/
def pushUnit (s : Scan) (n : Nat) : Scan :=
  match s.high with
  | some h =>
    if isLow n then
      { s with
        chars := Char.ofNat (0x10000 + (h - 0xd800) * 0x400 + (n - 0xdc00)) :: s.chars
        high := none
        mode := .plain }
    else { s with readable := false, high := none, mode := .plain }
  | none =>
    if isHigh n then { s with high := some n, mode := .plain }
    else if isLow n then { s with readable := false, mode := .plain }
    else s.push (Char.ofNat n)

def result (s : Scan) : Reading :=
  if s.readable && s.high.isNone then .string (String.ofList s.chars.reverse) else .unreadable

/-- Breaks off. Who reads has met the surrogate that stands alone before. -/
def fail (s : Scan) (fault : Fault) : Step Reading :=
  let read := if s.readable then fault else .malformed
  (.broken read fault read, none)

end Scan

/-- Whether fewer than `n` bytes of the text are left. -/
def shorterThan (n : Nat) (cs : List Char) : Bool :=
  (String.ofList (cs.take n)).utf8ByteSize < n

/-- Reads a string behind its opening quote. Four bytes have to follow the letter of a hexadecimal
escape, otherwise the text counts as ended there. -/
def readString (s : Scan) : List Char → Step Reading
  | [] => s.fail .ended
  | c :: cs =>
    match s.mode with
    | .plain =>
      if c = '"' then (s.result, some cs)
      else if c = '\\' then readString { s with mode := .escape } cs
      else if c.toNat < 0x20 then s.fail .malformed
      else readString (s.push c) cs
    | .escape =>
      if c = 'u' then readString { s with mode := .hex 0 0 } cs
      else
        match unescape? c with
        | some d => readString (s.push d) cs
        | none => s.fail .malformed
    | .hex digits value =>
      match hexValue? c with
      | some d =>
        if digits = 3 then readString (s.pushUnit (value * 16 + d)) cs
        else readString { s with mode := .hex (digits + 1) (value * 16 + d) } cs
      | none => s.fail (if shorterThan (4 - digits) (c :: cs) then .ended else .malformed)

/-! ### Values -/

mutual

/-- Reads a value. Of two calls in a row one takes a character off the text, so that twice its
length and one more is fuel enough. -/
def readValue (fuel : Nat) (cs : List Char) : Step Reading :=
  match fuel with
  | 0 => stop .malformed
  | fuel + 1 =>
    match skipSpace cs with
    | [] => stop .ended
    | 'n' :: rest => readWord .null ['u', 'l', 'l'] rest
    | 't' :: rest => readWord (.bool true) ['r', 'u', 'e'] rest
    | 'f' :: rest => readWord (.bool false) ['a', 'l', 's', 'e'] rest
    | '"' :: rest => readString .start rest
    | '[' :: rest =>
      let r := readItems fuel true rest
      (.array r.1, r.2)
    | '{' :: rest =>
      let r := readMembers fuel true rest
      (.object r.1, r.2)
    | '-' :: rest => readNumber true rest
    | c :: rest => if c.isDigit then readNumber false (c :: rest) else stop .malformed

/-- Reads the items of an array, from behind the opening bracket or behind an item. -/
def readItems (fuel : Nat) (first : Bool) (cs : List Char) : Step (List Reading) :=
  match fuel with
  | 0 => ([.unclosed .malformed], none)
  | fuel + 1 =>
    let item (cs : List Char) : Step (List Reading) :=
      match readValue fuel cs with
      | (r, none) => ([r], none)
      | (r, some rest) =>
        let more := readItems fuel false rest
        (r :: more.1, more.2)
    match skipSpace cs with
    | [] => ([.unclosed .ended], none)
    | ']' :: rest => ([], some rest)
    | c :: rest =>
      if first then item (c :: rest)
      else if c = ',' then
        match skipSpace rest with
        | [] => ([.fault .ended], none)
        | ']' :: _ => ([.fault .malformed], none)
        | rest => item rest
      else ([.unclosed .malformed], none)

/-- Reads the members of an object, from behind the opening brace or behind a member. -/
def readMembers (fuel : Nat) (first : Bool) (cs : List Char) : Step (List (Name × Reading)) :=
  match fuel with
  | 0 => ([(.absent, .unclosed .malformed)], none)
  | fuel + 1 =>
    let member (cs : List Char) : Step (List (Name × Reading)) :=
      match readString .start cs with
      | (r, none) => ([(.absent, r)], none)
      | (r, some rest) =>
        let name := match r with
          | .string s => Name.text s
          | _ => .unreadable
        match skipSpace rest with
        | [] => ([(name, .fault .ended)], none)
        | ':' :: rest =>
          match readValue fuel rest with
          | (v, none) => ([(name, v)], none)
          | (v, some rest) =>
            let more := readMembers fuel false rest
            ((name, v) :: more.1, more.2)
        | _ => ([(name, .fault .malformed)], none)
    match skipSpace cs with
    | [] => ([(.absent, .unclosed .ended)], none)
    | '}' :: rest => ([], some rest)
    | c :: rest =>
      if first then
        if c = '"' then member rest
        else ([(.absent, .fault .malformed)], none)
      else if c = ',' then
        match skipSpace rest with
        | [] => ([(.absent, .fault .ended)], none)
        | '"' :: rest => member rest
        | _ => ([(.absent, .fault .malformed)], none)
      else ([(.absent, .unclosed .malformed)], none)

end

/-- The reading of a text and whether nothing but blanks follows it. -/
structure Document where
  root : Reading
  complete : Bool

def readChars (cs : List Char) : Document :=
  match readValue (2 * cs.length + 1) cs with
  | (r, none) => ⟨r, true⟩
  | (r, some rest) => ⟨r, (skipSpace rest).isEmpty⟩

def readText (text : String) : Document :=
  readChars text.toList

end DialogueWindows.Json
