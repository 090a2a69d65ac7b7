/-! # Sorted lists and dictionaries

`Distinct.sort` lists the elements of a list in strictly increasing order, each once. A dictionary
holds values under texts, its entries in strictly increasing order of the keys, by code point. So
two dictionaries with the same entries are equal, in whatever order they were filled. -/

namespace DialogueWindows

/-! ### Lists without repetition -/

namespace Distinct
variable {α : Type} [LT α] [DecidableLT α]

/-- Adds an element to a strictly increasing list unless it is there. -/
def insert (a : α) : List α → List α
  | [] => [a]
  | b :: rest => if a < b then a :: b :: rest else if b < a then b :: insert a rest else b :: rest

def sort (xs : List α) : List α :=
  xs.foldr insert []

end Distinct

/-! ### Entries -/

/-- Entries in strictly increasing order of their keys. -/
def Increasing {α : Type} (entries : List (String × α)) : Prop :=
  entries.Pairwise fun a b => a.1 < b.1

instance {α : Type} (entries : List (String × α)) : Decidable (Increasing entries) :=
  inferInstanceAs (Decidable (List.Pairwise _ _))

namespace Entries
variable {α : Type}

/-- Puts a value under a key, in place of the one that is there. -/
def put (key : String) (value : α) : List (String × α) → List (String × α)
  | [] => [(key, value)]
  | e :: rest =>
    if key < e.1 then (key, value) :: e :: rest
    else if e.1 < key then e :: put key value rest
    else (key, value) :: rest

theorem mem_put {key : String} {value : α} {entries : List (String × α)} {x : String × α}
    (h : x ∈ put key value entries) : x = (key, value) ∨ x ∈ entries := by
  induction entries with
  | nil => simpa [put] using h
  | cons e rest ih =>
    unfold put at h
    split at h
    · simpa using h
    · split at h
      · rcases List.mem_cons.1 h with rfl | h
        · exact .inr (List.mem_cons_self ..)
        · exact (ih h).imp id (List.mem_cons_of_mem _)
      · rcases List.mem_cons.1 h with rfl | h
        · exact .inl rfl
        · exact .inr (List.mem_cons_of_mem _ h)

theorem increasing_put (key : String) (value : α) {entries : List (String × α)}
    (h : Increasing entries) : Increasing (put key value entries) := by
  induction entries with
  | nil => exact List.pairwise_singleton _ _
  | cons e rest ih =>
    obtain ⟨he, hr⟩ := List.pairwise_cons.1 h
    unfold put
    split
    · rename_i hlt
      refine List.pairwise_cons.2 ⟨fun x hx => ?_, h⟩
      rcases List.mem_cons.1 hx with rfl | hx
      · exact hlt
      · exact String.lt_trans hlt (he x hx)
    · split
      · rename_i hgt
        refine List.pairwise_cons.2 ⟨fun x hx => ?_, ih hr⟩
        rcases mem_put hx with rfl | hx
        · exact hgt
        · exact he x hx
      · rename_i hlt hgt
        have hk : key = e.1 := String.le_antisymm (String.not_lt.1 hgt) (String.not_lt.1 hlt)
        exact List.pairwise_cons.2 ⟨fun x hx => hk ▸ he x hx, hr⟩

/-- The first value under a key. -/
def find? (key : String) : List (String × α) → Option α
  | [] => none
  | e :: rest => if e.1 = key then some e.2 else find? key rest

/-- The entries under other keys. -/
def erase (key : String) (entries : List (String × α)) : List (String × α) :=
  entries.filter fun e => e.1 ≠ key

theorem increasing_erase (key : String) {entries : List (String × α)} (h : Increasing entries) :
    Increasing (erase key entries) :=
  h.filter _

/-- Sorted entries with one value a key, of two under one key the later. -/
def sort (entries : List (String × α)) : List (String × α) :=
  entries.foldl (fun sorted e => put e.1 e.2 sorted) []

theorem increasing_foldl_put (entries : List (String × α)) {sorted : List (String × α)}
    (h : Increasing sorted) :
    Increasing (entries.foldl (fun sorted e => put e.1 e.2 sorted) sorted) := by
  induction entries generalizing sorted with
  | nil => exact h
  | cons e rest ih => exact ih (increasing_put e.1 e.2 h)

theorem increasing_sort (entries : List (String × α)) : Increasing (sort entries) :=
  increasing_foldl_put entries .nil

end Entries

/-! ### Dictionaries -/

structure Dictionary (α : Type) where
  entries : List (String × α)
  increasing : Increasing entries
deriving DecidableEq

namespace Dictionary
variable {α : Type}

def empty : Dictionary α :=
  ⟨[], .nil⟩

instance : Inhabited (Dictionary α) := ⟨empty⟩

def isEmpty (d : Dictionary α) : Bool :=
  d.entries.isEmpty

def size (d : Dictionary α) : Nat :=
  d.entries.length

def keys (d : Dictionary α) : List String :=
  d.entries.map (·.1)

def get? (d : Dictionary α) (key : String) : Option α :=
  Entries.find? key d.entries

def insert (d : Dictionary α) (key : String) (value : α) : Dictionary α :=
  ⟨Entries.put key value d.entries, Entries.increasing_put key value d.increasing⟩

def erase (d : Dictionary α) (key : String) : Dictionary α :=
  ⟨Entries.erase key d.entries, Entries.increasing_erase key d.increasing⟩

/-- The dictionary of some entries, of two under one key the later. -/
def ofList (entries : List (String × α)) : Dictionary α :=
  ⟨Entries.sort entries, Entries.increasing_sort entries⟩

end Dictionary

end DialogueWindows
