import DialogueWindows.Json.Reader
import DialogueWindows.Floating.Shortest
import DialogueWindows.Text.Quoted

/-! # Decoding readings

A decoder takes a reading to a value of some type and stops at the first problem in the order of the
text: a fault of the text, or a value of the wrong shape. Missing members are found at the end of an
object. A record may also be given as an array of its fields. -/

namespace DialogueWindows.Json

open Floating (Binary)

/-! ### Problems -/

/-- What is wrong with a value of the wrong shape. -/
inductive Problem where
  | missingField (name : String)
  | duplicateField (name : String)
  | unknownVariant (name : String) (known : List String)
  | invalidType (found expected : String)
  | invalidValue (n : Int) (expected : String)
  | invalidLength (length : Nat) (expected : String)
  | noVariant (type : String)
deriving DecidableEq, Repr

inductive Error where
  | fault (fault : Fault)
  | problem (problem : Problem)
deriving DecidableEq, Repr

namespace Problem

def tick (s : String) : String :=
  "`" ++ s ++ "`"

/-- The names that were expected: two joined by `or`, more as a list. -/
def oneOf (names : List String) : String :=
  match names with
  | [] => "there are no variants"
  | [a] => "expected " ++ tick a
  | [a, b] => "expected " ++ tick a ++ " or " ++ tick b
  | _ => "expected one of " ++ String.intercalate ", " (names.map tick)

def message : Problem → String
  | missingField name => "missing field " ++ tick name
  | duplicateField name => "duplicate field " ++ tick name
  | unknownVariant name known => "unknown variant " ++ tick name ++ ", " ++ oneOf known
  | invalidType found expected => "invalid type: " ++ found ++ ", expected " ++ expected
  | invalidValue n expected =>
    "invalid value: integer " ++ tick (toString n) ++ ", expected " ++ expected
  | invalidLength length expected =>
    "invalid length " ++ toString length ++ ", expected " ++ expected
  | noVariant type => "data did not match any variant of untagged enum " ++ type

end Problem

/-! ### Decoders -/

/-- Where a reading comes from: it is decoded while the text is read, with so many levels of nesting
left, or the text of it has been read whole before. -/
inductive Source where
  | text (depthLeft : Nat)
  | held
deriving DecidableEq, Repr

/-- A text may nest 127 arrays and objects. -/
def Source.start : Source := .text 127

/-- The source for the parts of an array or an object. -/
def Source.enter : Source → Except Error Source
  | text 0 => .error (.fault .malformed)
  | text (n + 1) => .ok (text n)
  | held => .ok held

def Source.limit : Source → Option Nat
  | text n => some n
  | held => none

abbrev Decoder (α : Type) := Source → Reading → Except Error α

def liftFault {α : Type} : Except Fault α → Except Error α
  | .ok a => .ok a
  | .error f => .error (.fault f)

/-- A reading where something else was expected. -/
def mismatch {α : Type} (expected : String) : Reading → Except Error α
  | .null => invalid "null"
  | .bool b => invalid ("boolean " ++ Problem.tick (if b then "true" else "false"))
  | .number (.int n) => invalid ("integer " ++ Problem.tick (toString n))
  | .number (.float x) => invalid ("floating point " ++ Problem.tick (String.ofList x.toChars))
  | .string s => invalid ("string " ++ Text.quoted s)
  | .array _ => invalid "sequence"
  | .object _ => invalid "map"
  | .unreadable => .error (.fault .malformed)
  | .broken read _ _ => .error (.fault read)
  | .unclosed fault => .error (.fault fault)
where
  invalid (found : String) : Except Error α := .error (.problem (.invalidType found expected))

namespace Decoder

def string : Decoder String
  | _, .string s => .ok s
  | _, r => mismatch "a string" r

def bool : Decoder Bool
  | _, .bool b => .ok b
  | _, r => mismatch "a boolean" r

/-- A natural number of 64 bits, `type` being its name in messages. -/
def natural (type : String) : Decoder Nat
  | _, .number (.int n) =>
    if n < 0 then .error (.problem (.invalidValue n type)) else .ok n.toNat
  | _, r => mismatch type r

def size : Decoder Nat := natural "usize"

/-- A number of a binary format, integers rounded to it. -/
def binary (format : Floating.Format) (type : String) : Decoder Binary
  | _, .number (.int n) => .ok (.ofInt format n)
  | _, .number (.float x) => .ok (x.convert format)
  | _, r => mismatch type r

def double : Decoder Binary := binary .double "f64"

def single : Decoder Binary := binary .single "f32"

def option {α : Type} (decode : Decoder α) : Decoder (Option α)
  | _, .null => .ok none
  | source, r => do return some (← decode source r)

/-- Any value, its objects sorted. -/
def json : Decoder Json := fun source r => do
  return (← liftFault (r.value source.limit)).canonical

/-! ### Arrays and maps -/

def items {α : Type} (decode : Decoder α) (source : Source) : List Reading → Except Error (List α)
  | [] => .ok []
  | r :: rest => do
    let a ← decode source r
    return a :: (← items decode source rest)

def list {α : Type} (decode : Decoder α) : Decoder (List α)
  | source, .array rs => do items decode (← source.enter) rs
  | _, r => mismatch "a sequence" r

/-- The entries of a map in the order of the text, each key decoded before its value. -/
def entries {κ α : Type} (key : String → Except Error κ) (decode : Decoder α) (source : Source) :
    List (Name × Reading) → Except Error (List (κ × α))
  | [] => .ok []
  | (.text k, r) :: rest => do
    let k ← key k
    let a ← decode source r
    return (k, a) :: (← entries key decode source rest)
  | (.unreadable, _) :: _ => .error (.fault .malformed)
  | (.absent, r) :: _ => mismatch "a map" r

def map {κ α : Type} (key : String → Except Error κ) (decode : Decoder α) : Decoder (List (κ × α))
  | source, .object members => do entries key decode (← source.enter) members
  | _, r => mismatch "a map" r

/-- A map from texts; of two values under one key the later counts. -/
def dictionary {α : Type} (decode : Decoder α) : Decoder (Dictionary α) := fun source r => do
  return Dictionary.ofList (← map .ok decode source r)

/-! ### Records -/

/-- A field of a record that is being decoded into a draft `σ`. -/
structure Field (σ : Type) where
  name : String
  seen : σ → Bool
  read : Source → Reading → σ → Except Error σ
  /-- Whether an array of the fields may end before this one. -/
  omissible : Bool

/-- A field that is decoded by `decode` and kept by `set`. -/
def Field.of {σ α : Type} (name : String) (get : σ → Option α) (set : σ → α → σ)
    (decode : Decoder α) (omissible : Bool) : Field σ where
  name
  seen s := (get s).isSome
  read source r s := do return set s (← decode source r)
  omissible

/-- Decodes the members of an object. Members of other names are skipped. -/
def members {σ : Type} (fields : List (Field σ)) (source : Source) :
    List (Name × Reading) → σ → Except Error σ
  | [], s => .ok s
  | (.text k, r) :: rest, s =>
    match fields.find? (·.name = k) with
    | some f =>
      if f.seen s then .error (.problem (.duplicateField k))
      else do members fields source rest (← f.read source r s)
    | none => do
      liftFault r.skip
      members fields source rest s
  | (.unreadable, _) :: _, _ => .error (.fault .malformed)
  | (.absent, r) :: _, _ => mismatch "a map" r

def countOf (n : Nat) : String :=
  if n = 1 then "1 element" else toString n ++ " elements"

/-- What may follow the fields of a record in an array: nothing. -/
def close (source : Source) (count : Nat) (rest : List Reading) : Except Error Unit :=
  match source, rest with
  | _, [] => .ok ()
  | .text _, .unclosed fault :: _ => .error (.fault fault)
  | .text _, _ => .error (.fault .malformed)
  | .held, rest =>
    .error (.problem (.invalidLength (count + rest.length) (countOf count ++ " in sequence")))

/-- Decodes the fields of a record from the items of an array, in order. -/
def positions {σ : Type} (type : String) (count : Nat) (source : Source) :
    Nat → List (Field σ) → List Reading → σ → Except Error σ
  | _, [], rest, s => do
    close source count rest
    return s
  | n, f :: fields, [], s =>
    if f.omissible then positions type count source (n + 1) fields [] s
    else .error (.problem (.invalidLength n (type ++ " with " ++ countOf count)))
  | n, f :: fields, r :: rest, s => do
    positions type count source (n + 1) fields rest (← f.read source r s)

/-- A record called `type` in messages. -/
def record {σ α : Type} (type : String) (fields : List (Field σ)) (draft : σ)
    (finish : σ → Except Error α) : Decoder α
  | source, .array rs => do
    finish (← positions type fields.length (← source.enter) 0 fields rs draft)
  | source, .object ms => do
    finish (← members fields (← source.enter) ms draft)
  | _, r => mismatch type r

def require {α : Type} (name : String) : Option α → Except Error α
  | some a => .ok a
  | none => .error (.problem (.missingField name))

/-! ### Variants -/

def variant (known : List String) (name : String) : Except Error String :=
  if name ∈ known then .ok name else .error (.problem (.unknownVariant name known))

/-- The name of a variant where it stands as a tag. -/
def tag (known : List String) : Reading → Except Error String
  | .string s => variant known s
  | r => mismatch "variant identifier" r

/-- Takes the tag out of the members of an object, all of which have to be readable. -/
def takeTag (name : String) (known : List String) (source : Source) :
    Option String → List (Name × Reading) → Except Error (String × List (Name × Reading))
  | found, [] => do return (← require name found, [])
  | found, (.text k, r) :: rest =>
    if k = name then
      match found with
      | some _ => .error (.problem (.duplicateField name))
      | none => do takeTag name known source (some (← tag known r)) rest
    else do
      let _ ← liftFault (r.value source.limit)
      let t ← takeTag name known source found rest
      return (t.1, (.text k, r) :: t.2)
  | _, (.unreadable, _) :: _ => .error (.fault .malformed)
  | _, (.absent, r) :: _ => mismatch "a map" r

/-- A variant that one of its members names, or the first item of an array. It is read whole before
the rest of it is decoded. -/
def tagged {α : Type} (type name : String) (known : List String) (decode : String → Decoder α) :
    Decoder α
  | source, .object ms => do
    let t ← takeTag name known (← source.enter) none ms
    decode t.1 .held (.object t.2)
  | source, .array rs => do
    let source ← source.enter
    match rs with
    | [] => .error (.problem (.missingField name))
    | r :: rest =>
      let t ← tag known r
      let _ ← liftFault (Reading.itemValues source.limit rest)
      decode t .held (.array rest)
  | _, r => mismatch ("internally tagged enum " ++ type) r

/-- A variant without content: what else its object holds does not matter. -/
def unit {α : Type} (a : α) : Decoder α
  | source, .array rs => do
    close source 0 rs
    return a
  | _, _ => .ok a

/-- A variant that is only a name: a string, or the one member of an object, with the value null.
Anything else is a fault of the text. -/
def enumerated {α : Type} (known : List (String × α)) : Decoder α := fun source r => do
  let find (name : String) : Except Error α :=
    match known.find? (·.1 = name) with
    | some v => .ok v.2
    | none => .error (.problem (.unknownVariant name (known.map (·.1))))
  match r with
  | .string s => find s
  | .object ms =>
    let source ← source.enter
    match ms with
    | (.text k, v) :: rest =>
      let a ← find k
      match v with
      | .null => pure ()
      | v => mismatch "unit" v
      match rest, source with
      | [], _ => return a
      | (.absent, .unclosed fault) :: _, _ => .error (.fault fault)
      | _, _ => .error (.fault .malformed)
    | (.absent, v) :: _ => mismatch "variant identifier" v
    | _ => .error (.fault .malformed)
  | .broken _ _ named => .error (.fault named)
  | .unclosed fault => .error (.fault fault)
  | _ => .error (.fault .malformed)

/-! ### Texts -/

/-- Decodes a text. What follows the value is a fault only after the value has been decoded. -/
def ofText {α : Type} (decode : Decoder α) (text : String) : Except Error α := do
  let document := readText text
  let a ← decode .start document.root
  if document.complete then return a else .error (.fault .malformed)

end Decoder

end DialogueWindows.Json
