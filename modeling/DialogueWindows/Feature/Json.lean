import DialogueWindows.Feature
import DialogueWindows.Json.Decoder

/-! # Features as JSON

The values of a feature are an object whose member `kind` tells dense from sparse. Numbers are those
of the single format. -/

namespace DialogueWindows

open Floating (Binary)
open Json (Decoder)

namespace FeatureType

def named : List (String × FeatureType) :=
  [("sequence", sequence), ("sentence", sentence)]

def toJson : FeatureType → Json
  | sequence => .string "sequence"
  | sentence => .string "sentence"

def decode : Decoder FeatureType :=
  .enumerated named

end FeatureType

namespace FeatureValues

def toJson : FeatureValues → Json
  | dense values => .object [("kind", .string "dense"), ("values", .ofList .ofBinary values)]
  | sparse dim indices values =>
    .object [("kind", .string "sparse"), ("dim", .ofNat dim), ("indices", .ofList .ofNat indices),
      ("values", .ofList .ofBinary values)]

def denseFields : List (Decoder.Field (Option (List Binary))) :=
  [.of "values" id (fun _ a => some a) (.list .single) false]

def decodeDense : Decoder FeatureValues :=
  .record "struct variant FeatureValues::Dense" denseFields none fun d => do
    return dense (← Decoder.require "values" d)

structure SparseDraft where
  dim : Option Nat := none
  indices : Option (List Nat) := none
  values : Option (List Binary) := none

def sparseFields : List (Decoder.Field SparseDraft) :=
  [.of "dim" (·.dim) (fun d a => { d with dim := some a }) .size false,
    .of "indices" (·.indices) (fun d a => { d with indices := some a }) (.list .size) false,
    .of "values" (·.values) (fun d a => { d with values := some a }) (.list .single) false]

def decodeSparse : Decoder FeatureValues :=
  .record "struct variant FeatureValues::Sparse" sparseFields {} fun d => do
    let dim ← Decoder.require "dim" d.dim
    let indices ← Decoder.require "indices" d.indices
    let values ← Decoder.require "values" d.values
    return sparse dim indices values

def decodeKind (kind : String) : Decoder FeatureValues :=
  if kind = "dense" then decodeDense else decodeSparse

def decode : Decoder FeatureValues :=
  .tagged "FeatureValues" "kind" ["dense", "sparse"] decodeKind

end FeatureValues

namespace Feature

def toJson (f : Feature) : Json :=
  .object [("attribute", .string f.key), ("origin", .string f.origin),
    ("feature_type", f.type.toJson), ("values", f.values.toJson)]

structure Draft where
  key : Option String := none
  origin : Option String := none
  type : Option FeatureType := none
  values : Option FeatureValues := none

def fields : List (Decoder.Field Draft) :=
  [.of "attribute" (·.key) (fun d a => { d with key := some a }) .string false,
    .of "origin" (·.origin) (fun d a => { d with origin := some a }) .string false,
    .of "feature_type" (·.type) (fun d a => { d with type := some a }) FeatureType.decode false,
    .of "values" (·.values) (fun d a => { d with values := some a }) FeatureValues.decode false]

def decode : Decoder Feature :=
  .record "struct Feature" fields {} fun d => do
    let key ← Decoder.require "attribute" d.key
    let origin ← Decoder.require "origin" d.origin
    let type ← Decoder.require "feature_type" d.type
    let values ← Decoder.require "values" d.values
    return { key, origin, type, values }

end Feature

def EncodedState.toJson (e : EncodedState) : Json :=
  .ofDictionary (.ofList Feature.toJson) e

end DialogueWindows
