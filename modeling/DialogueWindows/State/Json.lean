import DialogueWindows.Json.Decoder
import DialogueWindows.Json.Printer
import DialogueWindows.State

/-! # States as JSON

A state is an object of its roles, each an object of attributes. A text is a string, names are an
array, and a literal is an object that holds its JSON text. -/

namespace DialogueWindows

open Json (Decoder)

namespace AttributeValue

def toJson : AttributeValue → Json
  | text s => .string s
  | names ns => .ofStrings ns
  | literal json => .object [("json", .string json)]

/-- The draft of a literal is its text. -/
def literalFields : List (Decoder.Field (Option String)) :=
  [.of "json" id (fun _ s => some s) .string false]

def decodeLiteral : Decoder AttributeValue :=
  .record "struct variant AttributeValue::Literal" literalFields none fun s => do
    return literal (← Decoder.require "json" s)

/-- Reads the value whole, then takes the first of the three forms that fits. -/
def decode : Decoder AttributeValue := fun source r => do
  let _ ← Json.liftFault (r.value source.limit)
  match Decoder.string .held r with
  | .ok s => return text s
  | .error _ =>
    match Decoder.list .string .held r with
    | .ok ns => return names ns
    | .error _ =>
      match decodeLiteral .held r with
      | .ok v => return v
      | .error _ => .error (.problem (.noVariant "AttributeValue"))

end AttributeValue

namespace SubState

def toJson (sub : SubState) : Json :=
  .ofDictionary AttributeValue.toJson sub

def decode : Decoder SubState :=
  .dictionary AttributeValue.decode

end SubState

namespace Role

def named : List (String × Role) :=
  all.map fun role => (role.name, role)

def ofName (name : String) : Except Json.Error Role :=
  match named.find? (·.1 = name) with
  | some r => .ok r.2
  | none => .error (.problem (.unknownVariant name (named.map (·.1))))

end Role

namespace State

def toJson (s : State) : Json :=
  .object (s.roles.map fun r => (r.1.name, SubState.toJson r.2))

/-- A role without attributes is kept. -/
def decode : Decoder State := fun source r => do
  let roles ← Decoder.map Role.ofName SubState.decode source r
  return roles.foldl (fun s r => s.withRole r.1 (some r.2)) .empty

/-- The digest of the state's compact text. -/
def contentHash (digest : String → String) (s : State) : String :=
  digest s.toJson.compact

end State

namespace Window

def toJson (w : Window) : Json :=
  .ofList State.toJson w

def decode : Decoder Window :=
  .list State.decode

end Window

end DialogueWindows
