import DialogueWindows.Proofs.Dictionary
import DialogueWindows.Proofs.Positions
import Mathlib.Data.List.Induction
import Mathlib.Data.List.Nodup
import Mathlib.Data.Nat.SuccPred
import Mathlib.Order.SuccPred.Archimedean

/-! # Entries that overwrite each other

Where entries are written one after the other, the last one under a key decides. `lastUnder` is its
value; a dictionary made of a list shows it under each key (`Dictionary.get?_ofList`). -/

namespace DialogueWindows
variable {κ α : Type} [DecidableEq κ] {key : κ} {value : α} {entries : List (κ × α)}

/-- The value of the last entry under a key. -/
def lastUnder (key : κ) (entries : List (κ × α)) : Option α :=
  (entries.filterMap fun e => if e.1 = key then some e.2 else none).getLast?

@[simp] theorem lastUnder_nil : lastUnder key ([] : List (κ × α)) = none := rfl

theorem lastUnder_concat (entries : List (κ × α)) (e : κ × α) :
    lastUnder key (entries ++ [e]) = if e.1 = key then some e.2 else lastUnder key entries := by
  by_cases h : e.1 = key <;> simp [lastUnder, h]

/-- Under keys that do not repeat there is nothing to overwrite. -/
theorem lastUnder_eq_some_iff (h : (entries.map (·.1)).Nodup) :
    lastUnder key entries = some value ↔ (key, value) ∈ entries := by
  induction entries using List.reverseRecOn with
  | nil => simp
  | append_singleton entries e ih =>
    rw [List.map_append, List.map_singleton, ← List.concat_eq_append, List.nodup_concat] at h
    rw [lastUnder_concat, List.mem_append, List.mem_singleton, ← ih h.2]
    split
    · rename_i he
      -- no earlier entry has the key
      have hnone : lastUnder key entries ≠ some value := fun hv =>
        h.1 (he ▸ List.mem_map_of_mem ((ih h.2).1 hv))
      rw [or_iff_right hnone, Option.some.injEq, Prod.ext_iff]
      exact ⟨fun hv => ⟨he.symm, hv.symm⟩, fun hv => hv.2.symm⟩
    · rename_i he
      exact (or_iff_left fun hkey => he (congrArg Prod.fst hkey).symm).symm

/-- The positions at which there is an entry under a key. -/
def positionsUnder (key : κ) (entries : List (κ × α)) : Set Nat :=
  {k | ∃ value, entries[k]? = some (key, value)}

omit [DecidableEq κ] in
theorem lt_of_mem_positionsUnder {k : Nat} (h : k ∈ positionsUnder key entries) :
    k < entries.length := by
  obtain ⟨value, hk⟩ := h
  exact (List.getElem?_eq_some_iff.1 hk).1

omit [DecidableEq κ] in
theorem exists_isGreatest_positionsUnder (h : (positionsUnder key entries).Nonempty) :
    ∃ k, IsGreatest (positionsUnder key entries) k :=
  BddAbove.exists_isGreatest_of_nonempty
    ⟨entries.length, fun _ hk => (lt_of_mem_positionsUnder hk).le⟩ h

omit [DecidableEq κ] in
theorem mem_positionsUnder_concat {e : κ × α} {k : Nat} :
    k ∈ positionsUnder key (entries ++ [e]) ↔
      k ∈ positionsUnder key entries ∨ k = entries.length ∧ e.1 = key := by
  simp only [positionsUnder, Set.mem_ofPred_eq, getElem?_concat_eq_some_iff, exists_or]
  refine or_congr_right ⟨?_, ?_⟩
  · rintro ⟨value, hk, rfl⟩
    exact ⟨hk, rfl⟩
  · rintro ⟨hk, rfl⟩
    exact ⟨e.2, hk, rfl⟩

theorem lastUnder_of_isGreatest {k : Nat} (h : IsGreatest (positionsUnder key entries) k) :
    lastUnder key entries = entries[k]?.map (·.2) := by
  induction entries using List.reverseRecOn with
  | nil => exact absurd (lt_of_mem_positionsUnder h.1) (Nat.not_lt_zero k)
  | append_singleton entries e ih =>
    rw [lastUnder_concat]
    split
    · rename_i he
      have hlast := h.2 (mem_positionsUnder_concat.2 (.inr ⟨rfl, he⟩))
      have hlt := lt_of_mem_positionsUnder h.1
      rw [List.length_append, List.length_singleton] at hlt
      obtain rfl : k = entries.length := by omega
      rw [List.getElem?_concat_length, Option.map_some]
    · rename_i he
      have hsame : positionsUnder key (entries ++ [e]) = positionsUnder key entries := by
        ext l
        simp [mem_positionsUnder_concat, he]
      rw [hsame] at h
      rw [ih h, List.getElem?_append_left (lt_of_mem_positionsUnder h.1)]

theorem lastUnder_of_empty (h : positionsUnder key entries = ∅) : lastUnder key entries = none := by
  induction entries using List.reverseRecOn with
  | nil => rfl
  | append_singleton entries e ih =>
    have hnone := Set.eq_empty_iff_forall_notMem.1 h
    simp only [mem_positionsUnder_concat, not_or] at hnone
    have he : e.1 ≠ key := fun he => (hnone entries.length).2 ⟨rfl, he⟩
    rw [lastUnder_concat, if_neg he, ih (Set.eq_empty_iff_forall_notMem.2 fun k => (hnone k).1)]

theorem lastUnder_map_const (keys : List κ) (value : α) :
    lastUnder key (keys.map fun k => (k, value)) = if key ∈ keys then some value else none := by
  induction keys using List.reverseRecOn with
  | nil => rfl
  | append_singleton keys k ih =>
    rw [List.map_append, List.map_singleton, lastUnder_concat, ih]
    by_cases hk : k = key
    · rw [if_pos hk, if_pos (by simp [hk])]
    · simp only [hk, List.mem_append, List.mem_singleton, Ne.symm hk, or_false, ↓reduceIte]

theorem Entries.find?_foldl_put (key : String) (entries sorted : List (String × α)) :
    find? key (entries.foldl (fun sorted e => put e.1 e.2 sorted) sorted) =
      (lastUnder key entries).or (find? key sorted) := by
  induction entries using List.reverseRecOn with
  | nil => rfl
  | append_singleton entries e ih =>
    rw [List.foldl_concat, find?_put, ih, lastUnder_concat]
    by_cases he : key = e.1
    · rw [if_pos he, if_pos he.symm, Option.some_or]
    · rw [if_neg he, if_neg (Ne.symm he)]

theorem Dictionary.get?_ofList (key : String) (entries : List (String × α)) :
    (ofList entries).get? key = lastUnder key entries :=
  (Entries.find?_foldl_put key entries []).trans (Option.or_none ..)

/-- Under keys that do not repeat a dictionary shows all that it was made of. -/
theorem Dictionary.get?_ofList_eq_some_iff {entries : List (String × α)} {key : String}
    (h : (entries.map (·.1)).Nodup) :
    (ofList entries).get? key = some value ↔ (key, value) ∈ entries := by
  rw [get?_ofList, lastUnder_eq_some_iff h]

end DialogueWindows
