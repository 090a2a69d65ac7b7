import DialogueWindows.Dictionary
import DialogueWindows.Floating.Binary

/-! # JSON values

A number is an integer of 64 bits, signed or not, or a double. `canonical` puts the members of every
object in order of their names and keeps the last value of a name that is repeated; values that
differ only in that are the same JSON value. -/

namespace DialogueWindows

open Floating (Binary)

namespace Json

/-- Whole numbers that fit in 64 bits are kept apart from doubles. -/
inductive Number where
  | int (n : Int)
  | float (x : Binary)
deriving DecidableEq, Repr, Inhabited

end Json

inductive Json where
  | null
  | bool (b : Bool)
  | number (n : Json.Number)
  | string (s : String)
  | array (items : List Json)
  | object (members : List (String × Json))
deriving Repr, Inhabited

namespace Json

mutual

def decEq : (a b : Json) → Decidable (a = b)
  | null, null => isTrue rfl
  | bool a, bool b => decidable_of_iff (a = b) (by simp)
  | number a, number b => decidable_of_iff (a = b) (by simp)
  | string a, string b => decidable_of_iff (a = b) (by simp)
  | array a, array b => @decidable_of_iff _ (a = b) (by simp) (decEqItems a b)
  | object a, object b => @decidable_of_iff _ (a = b) (by simp) (decEqMembers a b)
  | null, bool _ | null, number _ | null, string _ | null, array _ | null, object _
  | bool _, null | bool _, number _ | bool _, string _ | bool _, array _ | bool _, object _
  | number _, null | number _, bool _ | number _, string _ | number _, array _ | number _, object _
  | string _, null | string _, bool _ | string _, number _ | string _, array _ | string _, object _
  | array _, null | array _, bool _ | array _, number _ | array _, string _ | array _, object _
  | object _, null | object _, bool _ | object _, number _ | object _, string _
  | object _, array _ => isFalse (by simp)
termination_by structural a => a

def decEqItems : (a b : List Json) → Decidable (a = b)
  | [], [] => isTrue rfl
  | [], _ :: _ | _ :: _, [] => isFalse (by simp)
  | a :: as, b :: bs =>
    @decidable_of_iff _ (a = b ∧ as = bs) (by simp)
      (@instDecidableAnd _ _ (decEq a b) (decEqItems as bs))
termination_by structural a => a

def decEqMembers : (a b : List (String × Json)) → Decidable (a = b)
  | [], [] => isTrue rfl
  | [], _ :: _ | _ :: _, [] => isFalse (by simp)
  | (k, a) :: as, (l, b) :: bs =>
    @decidable_of_iff _ ((k = l ∧ a = b) ∧ as = bs) (by simp)
      (@instDecidableAnd _ _ (@instDecidableAnd _ _ _ (decEq a b)) (decEqMembers as bs))
termination_by structural a => a

end

instance : DecidableEq Json := decEq

mutual

/-- The same value with the members of every object sorted by name, each name once. -/
def canonical : Json → Json
  | array items => array (canonicalItems items)
  | object members => object (Entries.sort (canonicalMembers members))
  | null => null
  | bool b => bool b
  | number n => number n
  | string s => string s
termination_by structural j => j

def canonicalItems : List Json → List Json
  | [] => []
  | j :: rest => canonical j :: canonicalItems rest
termination_by structural items => items

def canonicalMembers : List (String × Json) → List (String × Json)
  | [] => []
  | (k, j) :: rest => (k, canonical j) :: canonicalMembers rest
termination_by structural members => members

end

/-! ### Values of other types -/

def ofNat (n : Nat) : Json :=
  number (.int n)

/-- A double; an infinity, which JSON cannot write, is null. -/
def ofBinary (x : Binary) : Json :=
  if x.isFinite then number (.float x) else null

def ofOption {α : Type} (f : α → Json) : Option α → Json
  | none => null
  | some a => f a

def ofStrings (names : List String) : Json :=
  array (names.map string)

def ofList {α : Type} (f : α → Json) (items : List α) : Json :=
  array (items.map f)

def ofDictionary {α : Type} (f : α → Json) (d : Dictionary α) : Json :=
  object (d.entries.map fun e => (e.1, f e.2))

end Json

end DialogueWindows
