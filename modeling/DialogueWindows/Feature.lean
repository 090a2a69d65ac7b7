import DialogueWindows.Dictionary
import DialogueWindows.Floating.Binary

/-! # Features

The numeric vector of one attribute of a state, dense or sparse. `multiHot` is the indicator of a
set of indices; `toDense` writes a sparse vector out, of two values for one index the later, and
drops indices beyond its dimension. -/

namespace DialogueWindows

open Floating (Binary)

/-- Whether a feature describes a sequence of tokens or a whole attribute. -/
inductive FeatureType where
  | sequence
  | sentence
deriving DecidableEq, Repr

inductive FeatureValues where
  | dense (values : List Binary)
  | sparse (dim : Nat) (indices : List Nat) (values : List Binary)
deriving DecidableEq, Repr

namespace FeatureValues

/-- The sparse vector that is 1 at the given indices. -/
def multiHot (dim : Nat) (indices : List Nat) : FeatureValues :=
  let indices := Distinct.sort indices
  sparse dim indices (List.replicate indices.length .one)

def dim : FeatureValues → Nat
  | dense values => values.length
  | sparse dim _ _ => dim

/-- All entries of the vector. -/
def toDense : FeatureValues → List Binary
  | dense values => values
  | sparse dim indices values =>
    (indices.zip values).foldl (fun entries e => entries.set e.1 e.2) (List.replicate dim .zero)

end FeatureValues

structure Feature where
  /-- The attribute that the feature encodes. -/
  key : String
  /-- The name of the encoder that made it. -/
  origin : String
  type : FeatureType
  values : FeatureValues
deriving DecidableEq, Repr

/-- The features of a state by attribute. An attribute with nothing to encode is absent. -/
abbrev EncodedState := Dictionary (List Feature)

end DialogueWindows
