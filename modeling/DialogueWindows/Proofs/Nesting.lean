import DialogueWindows.Json.Reading
import Mathlib.Logic.Function.Basic

/-! # How deep a value nests

A text may nest arrays and objects only so deep. `depth` counts the levels of a value; the reading
that holds a value and no fault has that value as long as the limit leaves room for them
(`Reading.value_ofJson`). -/

namespace DialogueWindows.Json

mutual

/-- The number of arrays and objects of the value that lie in each other. -/
def depth : Json → Nat
  | array items => itemsDepth items + 1
  | object members => membersDepth members + 1
  | null | bool _ | number _ | string _ => 0
termination_by structural j => j

def itemsDepth : List Json → Nat
  | [] => 0
  | j :: rest => max (depth j) (itemsDepth rest)
termination_by structural items => items

def membersDepth : List (String × Json) → Nat
  | [] => 0
  | (_, j) :: rest => max (depth j) (membersDepth rest)
termination_by structural members => members

end

theorem itemsDepth_le_iff {n : Nat} {items : List Json} :
    itemsDepth items ≤ n ↔ ∀ j ∈ items, j.depth ≤ n := by
  induction items with
  | nil => simp [itemsDepth]
  | cons j rest ih => rw [itemsDepth, Nat.max_le, ih, List.forall_mem_cons]

theorem membersDepth_le_iff {n : Nat} {members : List (String × Json)} :
    membersDepth members ≤ n ↔ ∀ m ∈ members, m.2.depth ≤ n := by
  induction members with
  | nil => simp [membersDepth]
  | cons m rest ih => rw [membersDepth, Nat.max_le, ih, List.forall_mem_cons]

theorem depth_array_le_iff {n : Nat} {items : List Json} :
    (array items).depth ≤ n + 1 ↔ ∀ j ∈ items, j.depth ≤ n := by
  rw [depth, Nat.add_le_add_iff_right, itemsDepth_le_iff]

theorem depth_object_le_iff {n : Nat} {members : List (String × Json)} :
    (object members).depth ≤ n + 1 ↔ ∀ m ∈ members, m.2.depth ≤ n := by
  rw [depth, Nat.add_le_add_iff_right, membersDepth_le_iff]

section Parts
variable {α : Type} {f : α → Json} {n : Nat}

theorem depth_object_nil_le : (object []).depth ≤ n + 1 :=
  Nat.succ_le_succ (Nat.zero_le n)

theorem depth_object_cons_le {k : String} {j : Json} {members : List (String × Json)}
    (hj : j.depth ≤ n) (h : (object members).depth ≤ n + 1) :
    (object ((k, j) :: members)).depth ≤ n + 1 :=
  depth_object_le_iff.2 (List.forall_mem_cons.2 ⟨hj, depth_object_le_iff.1 h⟩)

theorem depth_ofOption_le {o : Option α} (h : ∀ a ∈ o, (f a).depth ≤ n) :
    (ofOption f o).depth ≤ n := by
  cases o with
  | none => exact Nat.zero_le n
  | some a => exact h a rfl

theorem depth_ofList_le {items : List α} (h : ∀ a ∈ items, (f a).depth ≤ n) :
    (ofList f items).depth ≤ n + 1 :=
  depth_array_le_iff.2 (List.forall_mem_map.2 h)

theorem depth_ofStrings_le (names : List String) : (ofStrings names).depth ≤ 1 :=
  depth_ofList_le fun _ _ => Nat.le_refl 0

theorem depth_ofDictionary_le {d : Dictionary α} (h : ∀ e ∈ d.entries, (f e.2).depth ≤ n) :
    (ofDictionary f d).depth ≤ n + 1 :=
  depth_object_le_iff.2 (List.forall_mem_map.2 h)

end Parts

/-- The limit leaves room for so many levels. -/
def Within : Option Nat → Nat → Prop
  | none, _ => True
  | some levels, n => n ≤ levels

section Within
variable {limit : Option Nat} {m n : Nat}

theorem Within.mono (h : Within limit n) (hm : m ≤ n) : Within limit m := by
  cases limit with
  | none => trivial
  | some levels => exact Nat.le_trans hm h

theorem Within.left (h : Within limit (max m n)) : Within limit m :=
  h.mono (Nat.le_max_left m n)

theorem Within.right (h : Within limit (max m n)) : Within limit n :=
  h.mono (Nat.le_max_right m n)

end Within

namespace Reading

mutual

/-- The reading of a text that holds the value and no fault. -/
def ofJson : Json → Reading
  | .null => null
  | .bool b => bool b
  | .number n => number n
  | .string s => string s
  | .array items => array (ofItems items)
  | .object members => object (ofMembers members)
termination_by structural j => j

def ofItems : List Json → List Reading
  | [] => []
  | j :: rest => ofJson j :: ofItems rest
termination_by structural items => items

def ofMembers : List (String × Json) → List (Name × Reading)
  | [] => []
  | (k, j) :: rest => (.text k, ofJson j) :: ofMembers rest
termination_by structural members => members

end

mutual

theorem value_ofJson : ∀ (j : Json) (limit : Option Nat), Within limit j.depth →
    (ofJson j).value limit = .ok j
  | .null, _, _ => rfl
  | .bool _, _, _ => rfl
  | .number _, _, _ => rfl
  | .string _, _, _ => rfl
  | .array items, none, _ => by
    rw [ofJson, value, itemValues_ofItems items none trivial]
    rfl
  | .array _, some 0, h => absurd h (Nat.not_succ_le_zero _)
  | .array items, some (levels + 1), h => by
    rw [ofJson, value, itemValues_ofItems items (some levels) (Nat.le_of_succ_le_succ h)]
    rfl
  | .object members, none, _ => by
    rw [ofJson, value, memberValues_ofMembers members none trivial]
    rfl
  | .object _, some 0, h => absurd h (Nat.not_succ_le_zero _)
  | .object members, some (levels + 1), h => by
    rw [ofJson, value, memberValues_ofMembers members (some levels) (Nat.le_of_succ_le_succ h)]
    rfl

theorem itemValues_ofItems : ∀ (items : List Json) (limit : Option Nat),
    Within limit (itemsDepth items) → itemValues limit (ofItems items) = .ok items
  | [], _, _ => rfl
  | j :: rest, limit, h => by
    rw [itemsDepth] at h
    rw [ofItems, itemValues, value_ofJson j limit h.left, itemValues_ofItems rest limit h.right]
    rfl

theorem memberValues_ofMembers : ∀ (members : List (String × Json)) (limit : Option Nat),
    Within limit (membersDepth members) → memberValues limit (ofMembers members) = .ok members
  | [], _, _ => rfl
  | (k, j) :: rest, limit, h => by
    rw [membersDepth] at h
    rw [ofMembers, memberValues, value_ofJson j limit h.left,
      memberValues_ofMembers rest limit h.right]
    rfl

end

theorem ofJson_injective : Function.Injective ofJson := by
  intro a b h
  have ha := value_ofJson a none trivial
  rw [h, value_ofJson b none trivial] at ha
  exact (Except.ok.inj ha).symm

end Reading

end DialogueWindows.Json
