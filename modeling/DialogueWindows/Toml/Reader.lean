import DialogueWindows.Toml.Scalar

/-! # Reading TOML

`Toml.parse?` reads a document: lines with a key and its value, headers of tables and of arrays of
tables, blank lines and comments. Arrays and inline tables nest, and keys are dotted, less than
eighty levels deep. -/

namespace DialogueWindows.Toml

/-- The depth that neither values nor dotted keys reach. -/
def maxDepth : Nat := 80

/-! ### Keys -/

def isBareKeyChar (c : Char) : Bool :=
  c.isAlphanum || c = '-' || c = '_'

/-- One part of a dotted key. -/
def simpleKey? (cs : List Char) : Option (String × List Char) :=
  match cs with
  | '"' :: rest => basicString (rest.length + 1) [] rest
  | '\'' :: rest => literalString rest
  | cs =>
    let key := cs.takeWhile isBareKeyChar
    if key.isEmpty then none else some (String.ofList key, cs.drop key.length)

/-- The parts of a dotted key, with blanks around each. Every call takes a character off. -/
def keyParts? (fuel : Nat) (cs : List Char) : Option (List String × List Char) :=
  match fuel with
  | 0 => none
  | fuel + 1 => do
    let part ← simpleKey? (skipSpace cs)
    match skipSpace part.2 with
    | '.' :: rest =>
      let more ← keyParts? fuel rest
      return (part.1 :: more.1, more.2)
    | rest => return ([part.1], rest)

/-- A dotted key as the path to its table and its last part. -/
def key? (cs : List Char) : Option ((List String × String) × List Char) := do
  let parts ← keyParts? (cs.length + 1) cs
  if parts.1.length < maxDepth then
    let last ← parts.1.getLast?
    return ((parts.1.dropLast, last), parts.2)
  else none

/-! ### Values -/

/-- The text behind a word. -/
def word? : List Char → List Char → Option (List Char)
  | [], cs => some cs
  | _ :: _, [] => none
  | w :: ws, c :: cs => if c = w then word? ws cs else none

/-- Skips blanks, line ends and comments. A comment here ends with its line. Every call takes a
character off. -/
def skipLines (fuel : Nat) (cs : List Char) : Option (List Char) :=
  match fuel with
  | 0 => none
  | fuel + 1 =>
    match skipSpace cs with
    | '#' :: rest => do skipLines fuel (← newline? (rest.dropWhile isLineChar))
    | c :: rest =>
      if c = '\n' ∨ c = '\r' then do skipLines fuel (← newline? (c :: rest))
      else some (c :: rest)
    | [] => some []

mutual

/-- Reads a value at a depth. Of two calls in a row one takes a character off the text, so that
twice its length and one more is fuel enough. -/
def value? (fuel depth : Nat) (cs : List Char) : Option (Toml × List Char) :=
  match fuel with
  | 0 => none
  | fuel + 1 =>
    match cs with
    | '"' :: _ | '\'' :: _ => (string? cs).map fun r => (.string r.1, r.2)
    | '[' :: rest =>
      if depth + 1 < maxDepth then
        (items? fuel (depth + 1) rest).map fun r => (.array r.1, r.2)
      else none
    | '{' :: rest =>
      if depth + 1 < maxDepth then
        match skipSpace rest with
        | '}' :: rest => some (.table [], rest)
        | _ => do
          let r ← members? fuel (depth + 1) [] rest
          return (.table (Item.entriesToToml r.1), r.2)
      else none
    | 't' :: rest => (word? ['r', 'u', 'e'] rest).map fun r => (.boolean true, r)
    | 'f' :: rest => (word? ['a', 'l', 's', 'e'] rest).map fun r => (.boolean false, r)
    | cs => (datetime? cs).orElse fun _ => number? cs

/-- Reads the items of an array up to its closing bracket. A comma may stand behind the last. -/
def items? (fuel depth : Nat) (cs : List Char) : Option (List Toml × List Char) :=
  match fuel with
  | 0 => none
  | fuel + 1 => do
    match ← skipLines (cs.length + 1) cs with
    | ']' :: rest => return ([], rest)
    | cs =>
      let v ← value? fuel depth cs
      match ← skipLines (v.2.length + 1) v.2 with
      | ',' :: rest =>
        let more ← items? fuel depth rest
        return (v.1 :: more.1, more.2)
      | ']' :: rest => return ([v.1], rest)
      | _ => none

/-- Reads the members of an inline table up to its closing brace. -/
def members? (fuel depth : Nat) (entries : Items) (cs : List Char) : Option (Items × List Char) :=
  match fuel with
  | 0 => none
  | fuel + 1 => do
    let key ← key? cs
    let v ← value? fuel depth (skipSpace (← expect? '=' key.2))
    let entries ← Items.addValue key.1.1 key.1.2 v.1 .header entries
    match skipSpace v.2 with
    | ',' :: rest => members? fuel depth entries rest
    | '}' :: rest => return (entries, rest)
    | _ => none

end

/-! ### Documents -/

/-- A document that has been read up to some line: its items, and the path of the table that lines
with a key add to. -/
structure Document where
  items : Items
  path : List String

namespace Document

/-- Reads a header behind its bracket. -/
def header? (d : Document) (cs : List Char) : Option (Document × List Char) := do
  match cs with
  | '[' :: rest =>
    let key ← key? rest
    let rest ← lineEnd? (← expect? ']' (← expect? ']' key.2))
    let items ← Items.addElement key.1.1 key.1.2 d.items
    return (⟨items, key.1.1 ++ [key.1.2]⟩, rest)
  | cs =>
    let key ← key? cs
    let rest ← lineEnd? (← expect? ']' key.2)
    let items ← Items.addTable key.1.1 key.1.2 d.items
    return (⟨items, key.1.1 ++ [key.1.2]⟩, rest)

/-- Reads a line with a key and its value. -/
def keyValue? (d : Document) (cs : List Char) : Option (Document × List Char) := do
  let key ← key? cs
  let cs := skipSpace (← expect? '=' key.2)
  let v ← value? (2 * cs.length + 1) 0 cs
  let rest ← lineEnd? v.2
  let items ← Items.update false (Items.addValue key.1.1 key.1.2 v.1) d.path .header d.items
  return (⟨items, d.path⟩, rest)

/-- Reads the lines of a document. Every call takes a character off. -/
def lines? (fuel : Nat) (d : Document) (cs : List Char) : Option Document :=
  match fuel with
  | 0 => none
  | fuel + 1 =>
    match skipSpace cs with
    | [] => some d
    | '#' :: rest => do lines? fuel d (← lineEnd? ('#' :: rest))
    | '[' :: rest => do
      let r ← d.header? rest
      lines? fuel r.1 r.2
    | c :: rest =>
      if c = '\n' ∨ c = '\r' then do lines? fuel d (← newline? (c :: rest))
      else do
        let r ← d.keyValue? (c :: rest)
        lines? fuel r.1 r.2

end Document

/-- The table of a document, a byte order mark in front being ignored. -/
def parse? (text : String) : Option Toml :=
  let cs := match text.toList with
    | '\ufeff' :: cs => cs
    | cs => cs
  (Document.lines? (cs.length + 1) ⟨[], []⟩ cs).map fun d => .table (Item.entriesToToml d.items)

end DialogueWindows.Toml
