import DialogueWindows.Domain
import DialogueWindows.Json.Decoder

/-! # Domains as JSON

A domain is an object of five lists of names, each of which may be left out. -/

namespace DialogueWindows.Domain

open Json (Decoder)

def toJson (d : Domain) : Json :=
  .object [("intents", .ofStrings d.intents), ("entities", .ofStrings d.entities),
    ("slots", .ofStrings d.slots), ("forms", .ofStrings d.forms), ("actions", .ofStrings d.actions)]

structure Draft where
  intents : Option (List String) := none
  entities : Option (List String) := none
  slots : Option (List String) := none
  forms : Option (List String) := none
  actions : Option (List String) := none

def fields : List (Decoder.Field Draft) :=
  [.of "intents" (·.intents) (fun d a => { d with intents := some a }) (.list .string) true,
    .of "entities" (·.entities) (fun d a => { d with entities := some a }) (.list .string) true,
    .of "slots" (·.slots) (fun d a => { d with slots := some a }) (.list .string) true,
    .of "forms" (·.forms) (fun d a => { d with forms := some a }) (.list .string) true,
    .of "actions" (·.actions) (fun d a => { d with actions := some a }) (.list .string) true]

def decode : Decoder Domain :=
  .record "struct DomainSpec" fields {} fun d =>
    .ok {
      intents := d.intents.getD []
      entities := d.entities.getD []
      slots := d.slots.getD []
      forms := d.forms.getD []
      actions := d.actions.getD [] }

end DialogueWindows.Domain
