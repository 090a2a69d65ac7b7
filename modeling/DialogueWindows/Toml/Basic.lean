import DialogueWindows.Dictionary

/-! # TOML values and tables

A document grows a tree of items. Where its keys meet, the rules of TOML decide: a key is defined
once, a table is defined by one header at most, and dotted keys only extend tables that dotted keys
made. -/

namespace DialogueWindows

/-- A TOML value. Floats and dates are kept as they are written. -/
inductive Toml where
  | string (s : String)
  | integer (n : Int)
  | float (text : String)
  | boolean (b : Bool)
  | datetime (text : String)
  | array (items : List Toml)
  | table (entries : List (String × Toml))
deriving Repr, Inhabited

namespace Toml

/-- What brought a table about. -/
inductive Origin where
  /-- A header of its own. -/
  | header
  /-- The header of a table inside it. -/
  | implied
  /-- A dotted key. -/
  | dotted
deriving DecidableEq, Repr

/-- What stands under a key of a document. -/
inductive Item where
  | value (v : Toml)
  | table (origin : Origin) (entries : List (String × Item))
  | tables (elements : List (List (String × Item)))
deriving Inhabited

abbrev Items := List (String × Item)

namespace Item

mutual

def toToml : Item → Toml
  | value v => v
  | table _ entries => .table (entriesToToml entries)
  | tables elements => .array (elementsToToml elements)
termination_by structural i => i

def entriesToToml : List (String × Item) → List (String × Toml)
  | [] => []
  | (k, i) :: rest => (k, toToml i) :: entriesToToml rest
termination_by structural entries => entries

def elementsToToml : List (List (String × Item)) → List Toml
  | [] => []
  | entries :: rest => .table (entriesToToml entries) :: elementsToToml rest
termination_by structural elements => elements

end

end Item

namespace Items

/-- Puts an item under a key, in place of the one that is there. -/
def set (key : String) (item : Item) : Items → Items
  | [] => [(key, item)]
  | e :: rest => if e.1 = key then (key, item) :: rest else e :: set key item rest

/-- Changes the table at a path below a table of some origin. Tables that are missing on the way are
made; of an array of tables the last is meant. A dotted path does not lead through tables that have
a header. -/
def update (dotted : Bool) (change : Origin → Items → Option Items) :
    List String → Origin → Items → Option Items
  | [], origin, items => change origin items
  | key :: path, _, items =>
    match Entries.find? key items with
    | none => do
      let origin := if dotted then Origin.dotted else .implied
      return items ++ [(key, .table origin (← update dotted change path origin []))]
    | some (.value _) => none
    | some (.table origin inner) =>
      if dotted && origin = .header then none
      else do return set key (.table origin (← update dotted change path origin inner)) items
    | some (.tables elements) =>
      match elements.getLast? with
      | none => none
      | some last => do
        let last ← update dotted change path .header last
        return set key (.tables (elements.dropLast ++ [last])) items

/-- Adds a value under a dotted key, given as the path to its table and its last part. The key has
to be new, and the path has to end in a table that dotted keys made. -/
def addValue (path : List String) (key : String) (v : Toml) (origin : Origin) (items : Items) :
    Option Items :=
  update true (fun origin items =>
    if (origin = .dotted) = path.isEmpty then none
    else
      match Entries.find? key items with
      | some _ => none
      | none => some (items ++ [(key, .value v)])) path origin items

/-- Opens the table of a header: a new one, or one that a header inside it has implied. -/
def addTable (path : List String) (key : String) (items : Items) : Option Items :=
  update false (fun _ items =>
    match Entries.find? key items with
    | none => some (items ++ [(key, .table .header [])])
    | some (.table .implied inner) => some (set key (.table .header inner) items)
    | some _ => none) path .header items

/-- Adds an empty table to the array of tables of a header. -/
def addElement (path : List String) (key : String) (items : Items) : Option Items :=
  update false (fun _ items =>
    match Entries.find? key items with
    | none => some (items ++ [(key, .tables [[]])])
    | some (.tables elements) => some (set key (.tables (elements ++ [[]])) items)
    | some _ => none) path .header items

end Items

end Toml

end DialogueWindows
