import DialogueWindows.Floating.Shortest
import DialogueWindows.Toml.Basic

/-! # TOML strings, numbers and dates

Each reader takes what it reads off the front of the text and fails with none. Numbers are integers
of 64 bits, decimal or in base 16, 8 or 2, and decimals within the doubles; underscores stand
between digits only. -/

namespace DialogueWindows.Toml

/-! ### Blanks -/

def isSpace (c : Char) : Bool :=
  c = ' ' || c = '\t'

def skipSpace (cs : List Char) : List Char :=
  cs.dropWhile isSpace

/-- The characters that may stand on a line: no control characters but the tab. -/
def isLineChar (c : Char) : Bool :=
  c = '\t' || (0x20 ≤ c.toNat && c.toNat ≠ 0x7f)

/-- The text behind a line end. -/
def newline? : List Char → Option (List Char)
  | '\n' :: rest => some rest
  | '\r' :: '\n' :: rest => some rest
  | _ => none

/-- Skips spaces and a comment. -/
def skipComment (cs : List Char) : List Char :=
  match skipSpace cs with
  | '#' :: rest => rest.dropWhile isLineChar
  | rest => rest

/-- What follows a line on which nothing more may stand but a comment. -/
def lineEnd? (cs : List Char) : Option (List Char) :=
  match skipComment cs with
  | [] => some []
  | rest => newline? rest

/-! ### Strings -/

def hexValue? (c : Char) : Option Nat :=
  if c.isDigit then some (c.toNat - '0'.toNat)
  else if 'a' ≤ c ∧ c ≤ 'f' then some (c.toNat - 'a'.toNat + 10)
  else if 'A' ≤ c ∧ c ≤ 'F' then some (c.toNat - 'A'.toNat + 10)
  else none

/-- The character with a code point of `n` hexadecimal digits. -/
def codePoint? (n : Nat) (cs : List Char) : Option (Char × List Char) := do
  let digits ← (cs.take n).mapM hexValue?
  if digits.length ≠ n then none
  else
    let value := digits.foldl (fun v d => v * 16 + d) 0
    if value.isValidChar then some (Char.ofNat value, cs.drop n) else none

/-- An escape behind its backslash. -/
def escape? : List Char → Option (Char × List Char)
  | 'b' :: rest => some ('\x08', rest)
  | 't' :: rest => some ('\t', rest)
  | 'n' :: rest => some ('\n', rest)
  | 'f' :: rest => some ('\x0c', rest)
  | 'r' :: rest => some ('\r', rest)
  | '"' :: rest => some ('"', rest)
  | '\\' :: rest => some ('\\', rest)
  | 'u' :: rest => codePoint? 4 rest
  | 'U' :: rest => codePoint? 8 rest
  | _ => none

/-- A string on one line, from behind its opening quote. Every call takes a character off. -/
def basicString (fuel : Nat) (chars : List Char) (cs : List Char) : Option (String × List Char) :=
  match fuel, cs with
  | 0, _ | _, [] => none
  | fuel + 1, c :: rest =>
    if c = '"' then some (String.ofList chars.reverse, rest)
    else if c = '\\' then do
      let e ← escape? rest
      basicString fuel (e.1 :: chars) e.2
    else if isLineChar c then basicString fuel (c :: chars) rest
    else none

/-- A string on one line without escapes, from behind its opening quote. -/
def literalString (cs : List Char) : Option (String × List Char) :=
  let chars := cs.takeWhile fun c => isLineChar c && c ≠ '\''
  match cs.drop chars.length with
  | '\'' :: rest => some (String.ofList chars, rest)
  | _ => none

/-- The text behind a backslash at the end of a line and the blanks and line ends after it. -/
def foldLine? (cs : List Char) : Option (List Char) := do
  let rest ← newline? (skipSpace cs)
  return skipBlanks rest
where
  skipBlanks : List Char → List Char
    | '\r' :: '\n' :: rest => skipBlanks rest
    | c :: rest => if isSpace c || c = '\n' then skipBlanks rest else c :: rest
    | [] => []

/-- The end of a string over several lines, behind its first three quotes: up to two more belong to
the string. -/
def closeQuotes (quote : Char) (chars : List Char) (cs : List Char) : String × List Char :=
  let extra := ((cs.take 2).takeWhile (· = quote)).length
  (String.ofList (chars.reverse ++ List.replicate extra quote), cs.drop extra)

/-- A string over several lines, from behind its opening quotes and the line end after them. Line
ends become line feeds; only between double quotes are there escapes. -/
def multilineString (quote : Char) (fuel : Nat) (chars : List Char) (cs : List Char) :
    Option (String × List Char) :=
  match fuel with
  | 0 => none
  | fuel + 1 =>
    match newline? cs with
    | some rest => multilineString quote fuel ('\n' :: chars) rest
    | none =>
      match cs with
      | [] => none
      | c :: rest =>
        if c = quote then
          match rest with
          | d :: e :: rest' =>
            if d = quote ∧ e = quote then some (closeQuotes quote chars rest')
            else multilineString quote fuel (c :: chars) rest
          | _ => none
        else if c = '\\' ∧ quote = '"' then
          match foldLine? rest with
          | some rest => multilineString quote fuel chars rest
          | none => do
            let e ← escape? rest
            multilineString quote fuel (e.1 :: chars) e.2
        else if isLineChar c then multilineString quote fuel (c :: chars) rest
        else none

/-- The text without a line end in front. -/
def trimNewline (cs : List Char) : List Char :=
  (newline? cs).getD cs

/-- A string of any form, from its opening quote on. -/
def string? : List Char → Option (String × List Char)
  | '"' :: '"' :: '"' :: rest => multilineString '"' (rest.length + 1) [] (trimNewline rest)
  | '"' :: rest => basicString (rest.length + 1) [] rest
  | '\'' :: '\'' :: '\'' :: rest => multilineString '\'' (rest.length + 1) [] (trimNewline rest)
  | '\'' :: rest => literalString rest
  | _ => none

/-! ### Numbers -/

/-- Digits of a class with single underscores between them, by value. -/
def digits? (value? : Char → Option Nat) : List Char → Option (List Nat × List Char)
  | [] => none
  | [c] => do return ([← value? c], [])
  | c :: '_' :: rest => do
    let d ← value? c
    let more ← digits? value? rest
    return (d :: more.1, more.2)
  | c :: next :: rest => do
    let d ← value? c
    if (value? next).isSome then
      let more ← digits? value? (next :: rest)
      return (d :: more.1, more.2)
    else return ([d], next :: rest)

def decimalValue? (c : Char) : Option Nat :=
  if c.isDigit then some (c.toNat - '0'.toNat) else none

/-- A value below a base. -/
def digitBelow? (base : Nat) (c : Char) : Option Nat :=
  (hexValue? c).filter (· < base)

def ofDigits (base : Nat) (digits : List Nat) : Nat :=
  digits.foldl (fun n d => n * base + d) 0

/-- The digits before the point of a decimal: no needless zeros in front. -/
def whole? : List Char → Option (List Nat × List Char)
  | '0' :: rest => some ([0], rest)
  | cs => digits? decimalValue? cs

/-- The least natural number that is no signed integer of 64 bits. -/
def signBit : Nat := 0x8000000000000000

/-- Whether a decimal, `digits` times `10 ^ exponent`, lies beyond the doubles. -/
def exceedsDoubles (digits : List Nat) (exponent : Int) : Bool :=
  let n := ofDigits 10 digits
  let places : Int := Floating.digitCount n + exponent
  if n = 0 ∨ places < 300 then false
  else if 310 < places then true
  else
    let r := Floating.scaleByTen n 1 exponent
    !(Floating.Binary.round .double false r.1 r.2).isFinite

/-- The exponent of a decimal behind its letter. -/
def exponent? (cs : List Char) : Option (Int × List Char) := do
  let signed := match cs with
    | '+' :: rest => (false, rest)
    | '-' :: rest => (true, rest)
    | cs => (false, cs)
  let digits ← digits? decimalValue? signed.2
  let e : Int := ofDigits 10 digits.1
  return (if signed.1 then -e else e, digits.2)

/-- A decimal with a fraction or an exponent, or an integer, behind its sign. A negative decimal may
lie beyond the doubles. -/
def decimal? (negative : Bool) (cs : List Char) : Option (Toml × List Char) := do
  let whole ← whole? cs
  let float (fraction : List Nat) (exponent : Int) (rest : List Char) : Option (Toml × List Char) :=
    if !negative && exceedsDoubles (whole.1 ++ fraction) (exponent - fraction.length) then none
    else some (.float (String.ofList (cs.take (cs.length - rest.length))), rest)
  match whole.2 with
  | '.' :: rest =>
    let fraction ← digits? decimalValue? rest
    match fraction.2 with
    | 'e' :: rest | 'E' :: rest =>
      let e ← exponent? rest
      float fraction.1 e.1 e.2
    | rest => float fraction.1 0 rest
  | 'e' :: rest | 'E' :: rest =>
    let e ← exponent? rest
    float [] e.1 e.2
  | rest =>
    let n := ofDigits 10 whole.1
    if negative then
      if n ≤ signBit then some (.integer (-n), rest) else none
    else if n < signBit then some (.integer n, rest)
    else none

/-- An integer in some base behind what tells the base. -/
def based? (base : Nat) (cs : List Char) : Option (Toml × List Char) := do
  let digits ← digits? (digitBelow? base) cs
  let n := ofDigits base digits.1
  if n < signBit then some (.integer n, digits.2) else none

/-- A number behind its sign. -/
def signed? (negative : Bool) : List Char → Option (Toml × List Char)
  | 'i' :: 'n' :: 'f' :: rest => some (.float "inf", rest)
  | 'n' :: 'a' :: 'n' :: rest => some (.float "nan", rest)
  | cs => decimal? negative cs

def number? : List Char → Option (Toml × List Char)
  | '0' :: 'x' :: rest => based? 16 rest
  | '0' :: 'o' :: rest => based? 8 rest
  | '0' :: 'b' :: rest => based? 2 rest
  | '+' :: rest => signed? false rest
  | '-' :: rest => signed? true rest
  | cs => signed? false cs

/-! ### Dates -/

/-- A number of `n` digits up to `greatest`. -/
def fixed? (n greatest : Nat) (cs : List Char) : Option (Nat × List Char) := do
  let digits ← (cs.take n).mapM decimalValue?
  let value := ofDigits 10 digits
  if digits.length = n ∧ value ≤ greatest then some (value, cs.drop n) else none

def expect? (c : Char) : List Char → Option (List Char)
  | d :: rest => if d = c then some rest else none
  | [] => none

def isLeapYear (year : Nat) : Bool :=
  year % 4 = 0 && (year % 100 ≠ 0 || year % 400 = 0)

def daysIn (year month : Nat) : Nat :=
  if month = 2 then (if isLeapYear year then 29 else 28)
  else if month ∈ [4, 6, 9, 11] then 30
  else 31

/-- The text behind a date. -/
def date? (cs : List Char) : Option (List Char) := do
  let year ← fixed? 4 9999 cs
  let month ← fixed? 2 12 (← expect? '-' year.2)
  let day ← fixed? 2 31 (← expect? '-' month.2)
  if 1 ≤ month.1 ∧ 1 ≤ day.1 ∧ day.1 ≤ daysIn year.1 month.1 then some day.2 else none

/-- The text behind the fraction of a second, if there is one. -/
def skipFraction : List Char → List Char
  | '.' :: c :: rest => if c.isDigit then rest.dropWhile Char.isDigit else '.' :: c :: rest
  | cs => cs

/-- The text behind a time of day. -/
def time? (cs : List Char) : Option (List Char) := do
  let hour ← fixed? 2 23 cs
  let minute ← fixed? 2 59 (← expect? ':' hour.2)
  let second ← fixed? 2 60 (← expect? ':' minute.2)
  return skipFraction second.2

/-- The text behind an offset from universal time, which may be missing. -/
def skipOffset (cs : List Char) : List Char :=
  match cs with
  | 'Z' :: rest | 'z' :: rest => rest
  | '+' :: rest | '-' :: rest =>
    ((do
      let hour ← fixed? 2 23 rest
      let minute ← fixed? 2 59 (← expect? ':' hour.2)
      return minute.2) : Option (List Char)).getD cs
  | cs => cs

/-- A date, a time, or both with or without an offset. -/
def datetime? (cs : List Char) : Option (Toml × List Char) :=
  let rest : Option (List Char) :=
    match date? cs with
    | none => time? cs
    | some rest =>
      let timed := match rest with
        | 'T' :: r | 't' :: r | ' ' :: r => (time? r).map skipOffset
        | _ => none
      some (timed.getD rest)
  rest.map fun rest => (.datetime (String.ofList (cs.take (cs.length - rest.length))), rest)

end DialogueWindows.Toml
