import DialogueWindows.Json.Basic
import DialogueWindows.Proofs.Overwriting

/-! # The same JSON value

`Json.Same` says of two values that they differ in nothing but the order of their objects' members
and in members that later ones of the same name replace. Sorting the members chooses one of all the
values that are the same (`canonical_eq_iff`). -/

namespace DialogueWindows

section Overwriting
variable {κ α β : Type} [DecidableEq κ] {key : κ} {value : α} {entries : List (κ × α)}

theorem mem_of_lastUnder (h : lastUnder key entries = some value) : (key, value) ∈ entries := by
  obtain ⟨e, he, hvalue⟩ := List.mem_filterMap.1 (List.mem_of_getLast? h)
  split at hvalue
  · rename_i hkey
    obtain rfl := Option.some.inj hvalue
    exact hkey ▸ he
  · cases hvalue

theorem lastUnder_map (f : α → β) (entries : List (κ × α)) :
    lastUnder key (entries.map fun e => (e.1, f e.2)) = (lastUnder key entries).map f := by
  induction entries using List.reverseRecOn with
  | nil => rfl
  | append_singleton entries e ih =>
    rw [List.map_append, List.map_singleton, lastUnder_concat, lastUnder_concat, ih]
    split <;> rfl

theorem Entries.find?_sort (key : String) (entries : List (String × α)) :
    find? key (sort entries) = lastUnder key entries :=
  Dictionary.get?_ofList key entries

/-- Sorted entries are determined by the last value under each key. -/
theorem Entries.sort_eq_sort_iff {entries entries' : List (String × α)} :
    sort entries = sort entries' ↔ ∀ key, lastUnder key entries = lastUnder key entries' := by
  constructor
  · intro h key
    rw [← find?_sort, h, find?_sort]
  · intro h
    refine ext_find? (increasing_sort _) (increasing_sort _) fun key => ?_
    rw [find?_sort, find?_sort, h]

end Overwriting

namespace Json
variable {a b : Json} {as bs : List Json} {ms ns : List (String × Json)}

/-- The members of an object may stand in any order, and a later one replaces one of its name. -/
inductive Same : Json → Json → Prop
  | null : Same null null
  | bool (b : Bool) : Same (bool b) (bool b)
  | number (n : Number) : Same (number n) (number n)
  | string (s : String) : Same (string s) (string s)
  | array {as bs : List Json} (hlength : as.length = bs.length)
    (h : ∀ (i : Nat) a b, as[i]? = some a → bs[i]? = some b → Same a b) :
    Same (array as) (array bs)
  | object {ms ns : List (String × Json)}
    (hnames : ∀ name, (lastUnder name ms).isSome = (lastUnder name ns).isSome)
    (h : ∀ name a b, lastUnder name ms = some a → lastUnder name ns = some b → Same a b) :
    Same (object ms) (object ns)

theorem canonicalItems_eq_map (items : List Json) :
    canonicalItems items = items.map canonical := by
  induction items with
  | nil => rfl
  | cons j rest ih => rw [canonicalItems, ih, List.map_cons]

theorem canonicalMembers_eq_map (members : List (String × Json)) :
    canonicalMembers members = members.map fun m => (m.1, m.2.canonical) := by
  induction members with
  | nil => rfl
  | cons m rest ih => rw [canonicalMembers, ih, List.map_cons]

theorem canonical_array_eq_iff :
    (array as).canonical = (array bs).canonical ↔ as.map canonical = bs.map canonical := by
  rw [canonical, canonical, array.injEq, canonicalItems_eq_map, canonicalItems_eq_map]

theorem canonical_object_eq_iff :
    (object ms).canonical = (object ns).canonical ↔
      ∀ name, (lastUnder name ms).map canonical = (lastUnder name ns).map canonical := by
  rw [canonical, canonical, object.injEq, canonicalMembers_eq_map, canonicalMembers_eq_map,
    Entries.sort_eq_sort_iff]
  simp only [lastUnder_map]

theorem Same.canonical_eq (h : Same a b) : a.canonical = b.canonical := by
  induction h with
  | null | bool | number | string => rfl
  | @array as bs hlength _ ih =>
    refine canonical_array_eq_iff.2 (List.ext_getElem (by simpa using hlength) fun i hi hi' => ?_)
    rw [List.length_map] at hi hi'
    rw [List.getElem_map, List.getElem_map]
    exact ih i _ _ (List.getElem?_eq_getElem hi) (List.getElem?_eq_getElem hi')
  | @object ms ns hnames _ ih =>
    refine canonical_object_eq_iff.2 fun name => ?_
    have hname := hnames name
    cases ha : lastUnder name ms with
    | none =>
      rw [ha, eq_comm, Option.isSome_none, Option.isSome_eq_false_iff, Option.isNone_iff_eq_none]
        at hname
      rw [hname]
    | some a =>
      rw [ha, Option.isSome_some, eq_comm, Option.isSome_iff_exists] at hname
      obtain ⟨b, hb⟩ := hname
      rw [hb]
      exact congrArg some (ih name a b ha hb)

mutual

theorem same_of_canonical_eq : ∀ a b : Json, a.canonical = b.canonical → Same a b
  | .null, b, h => by
    cases b <;> simp only [canonical, reduceCtorEq] at h
    exact .null
  | .bool x, b, h => by
    cases b <;> simp only [canonical, reduceCtorEq] at h
    exact h ▸ .bool x
  | .number n, b, h => by
    cases b <;> simp only [canonical, reduceCtorEq] at h
    exact h ▸ .number n
  | .string s, b, h => by
    cases b <;> simp only [canonical, reduceCtorEq] at h
    exact h ▸ .string s
  | .array as, b, h => by
    cases b with
    | array bs =>
      have hmap := canonical_array_eq_iff.1 h
      refine .array (by simpa using congrArg List.length hmap) fun i x y hx hy => ?_
      have hi := congrArg (·[i]?) hmap
      rw [List.getElem?_map, List.getElem?_map, hx, hy] at hi
      exact same_of_mem_items as x (List.mem_of_getElem? hx) y (Option.some.inj hi)
    | _ => simp only [canonical, reduceCtorEq] at h
  | .object ms, b, h => by
    cases b with
    | object ns =>
      have hlast := canonical_object_eq_iff.1 h
      refine .object (fun name => ?_) fun name x y hx hy => ?_
      · simpa using congrArg Option.isSome (hlast name)
      · have hname := hlast name
        rw [hx, hy] at hname
        exact same_of_mem_members ms _ (mem_of_lastUnder hx) y (Option.some.inj hname)
    | _ => simp only [canonical, reduceCtorEq] at h

theorem same_of_mem_items : ∀ as : List Json, ∀ a ∈ as, ∀ b, a.canonical = b.canonical → Same a b
  | [] => List.forall_mem_nil _
  | a :: rest => List.forall_mem_cons.2 ⟨same_of_canonical_eq a, same_of_mem_items rest⟩

theorem same_of_mem_members : ∀ ms : List (String × Json), ∀ m ∈ ms, ∀ b,
    m.2.canonical = b.canonical → Same m.2 b
  | [] => List.forall_mem_nil _
  | (_, a) :: rest => List.forall_mem_cons.2 ⟨same_of_canonical_eq a, same_of_mem_members rest⟩

end

theorem canonical_eq_iff : a.canonical = b.canonical ↔ Same a b :=
  ⟨same_of_canonical_eq a b, Same.canonical_eq⟩

end Json

end DialogueWindows
