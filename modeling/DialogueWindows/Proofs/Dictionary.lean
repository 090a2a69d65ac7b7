import DialogueWindows.Dictionary
import Mathlib.Data.List.Nodup
import Mathlib.Data.String.Basic

/-! # Looking up in dictionaries

What `get?` returns after each operation, and that a dictionary is determined by what it returns
(`ext_get?`). The order of the entries never shows otherwise. -/

namespace DialogueWindows

namespace Entries
variable {α : Type} {key : String} {value : α} {entries : List (String × α)}

@[simp] theorem find?_nil : find? key ([] : List (String × α)) = none := rfl

theorem find?_cons (e : String × α) :
    find? key (e :: entries) = if e.1 = key then some e.2 else find? key entries := rfl

theorem find?_put (key' : String) :
    find? key' (put key value entries) = if key' = key then some value else find? key' entries := by
  induction entries with
  | nil => simp only [put, find?_cons, find?_nil, eq_comm]
  | cons e rest ih =>
    unfold put
    split
    · simp only [find?_cons, eq_comm]
    · split
      · rename_i _ hlt
        rw [find?_cons, find?_cons, ih]
        by_cases he : e.1 = key'
        · have hne : key' ≠ key := fun h => by rw [he, h] at hlt; exact String.lt_irrefl _ hlt
          simp only [he, hne, ↓reduceIte]
        · simp only [he, ↓reduceIte]
      · rename_i h₁ h₂
        have he : e.1 = key := String.le_antisymm (String.not_lt.1 h₁) (String.not_lt.1 h₂)
        simp only [find?_cons, he, eq_comm (a := key)]
        split <;> rfl

theorem find?_erase (key' : String) :
    find? key' (erase key entries) = if key' = key then none else find? key' entries := by
  induction entries with
  | nil => simp [erase]
  | cons e rest ih =>
    unfold erase at ih ⊢
    by_cases he : e.1 = key
    · rw [List.filter_cons_of_neg (by simp [he]), ih, find?_cons, he]
      by_cases hk : key' = key
      · simp only [hk, ↓reduceIte]
      · simp only [hk, Ne.symm hk, ↓reduceIte]
    · rw [List.filter_cons_of_pos (by simp [he]), find?_cons, find?_cons, ih]
      by_cases hk : e.1 = key'
      · have : key' ≠ key := hk ▸ he
        simp only [hk, this, ↓reduceIte]
      · simp only [hk, ↓reduceIte]

theorem mem_of_find? (h : find? key entries = some value) : (key, value) ∈ entries := by
  induction entries with
  | nil => simp at h
  | cons e rest ih =>
    rw [find?_cons] at h
    split at h
    · rename_i he
      obtain rfl := Option.some.inj h
      exact he ▸ List.mem_cons_self ..
    · exact List.mem_cons_of_mem _ (ih h)

theorem find?_eq_none_iff : find? key entries = none ↔ key ∉ entries.map (·.1) := by
  induction entries with
  | nil => simp
  | cons e rest ih =>
    rw [find?_cons, List.map_cons, List.mem_cons, not_or, ← ih]
    by_cases he : e.1 = key
    · simp [he]
    · simp [he, Ne.symm he]

/-- A key below all others is not found. -/
theorem find?_eq_none (h : ∀ e ∈ entries, key < e.1) : find? key entries = none := by
  cases hf : find? key entries with
  | none => rfl
  | some v => exact absurd (h _ (mem_of_find? hf)) (String.lt_irrefl _)

theorem ext_find? {entries' : List (String × α)} (h : Increasing entries)
    (h' : Increasing entries') (heq : ∀ key, find? key entries = find? key entries') :
    entries = entries' := by
  induction entries generalizing entries' with
  | nil =>
    cases entries' with
    | nil => rfl
    | cons e rest => simpa [find?_cons] using heq e.1
  | cons e rest ih =>
    cases entries' with
    | nil => simpa [find?_cons] using heq e.1
    | cons e' rest' =>
      obtain ⟨hlt, hr⟩ := List.pairwise_cons.1 h
      obtain ⟨hlt', hr'⟩ := List.pairwise_cons.1 h'
      have hfirst := heq e.1
      have hfirst' := heq e'.1
      rw [find?_cons, find?_cons, if_pos rfl] at hfirst hfirst'
      -- the lesser of the two first keys is found in one list only
      have hkey : e.1 = e'.1 := by
        rcases lt_trichotomy e.1 e'.1 with hk | hk | hk
        · rw [if_neg hk.ne', find?_eq_none fun x hx => hk.trans (hlt' x hx)] at hfirst
          cases hfirst
        · exact hk
        · rw [if_neg hk.ne', find?_eq_none fun x hx => hk.trans (hlt x hx)] at hfirst'
          cases hfirst'
      rw [if_pos hkey.symm] at hfirst
      have he : e = e' := Prod.ext hkey (Option.some.inj hfirst)
      subst he
      have hrest : rest = rest' := ih hr hr' fun key => by
        by_cases hk : e.1 = key
        · rw [find?_eq_none fun x hx => hk ▸ hlt x hx, find?_eq_none fun x hx => hk ▸ hlt' x hx]
        · have := heq key
          rwa [find?_cons, find?_cons, if_neg hk, if_neg hk] at this
      rw [hrest]

theorem put_of_forall_lt (h : ∀ e ∈ entries, e.1 < key) :
    put key value entries = entries ++ [(key, value)] := by
  induction entries with
  | nil => rfl
  | cons e rest ih =>
    obtain ⟨he, hrest⟩ := List.forall_mem_cons.1 h
    rw [put, if_neg (String.lt_asymm he), if_pos he, ih hrest, List.cons_append]

theorem foldl_put_of_increasing {sorted : List (String × α)} (h : Increasing (sorted ++ entries)) :
    entries.foldl (fun sorted e => put e.1 e.2 sorted) sorted = sorted ++ entries := by
  induction entries generalizing sorted with
  | nil => exact (List.append_nil sorted).symm
  | cons e rest ih =>
    have hlt := (List.pairwise_append.1 h).2.2
    rw [List.append_cons] at h ⊢
    rw [List.foldl_cons, put_of_forall_lt fun x hx => hlt x hx e (List.mem_cons_self ..)]
    exact ih h

/-- Where the keys increase already there is nothing to sort. -/
theorem sort_of_increasing (h : Increasing entries) : sort entries = entries :=
  foldl_put_of_increasing h

end Entries

namespace Dictionary
variable {α : Type} {d : Dictionary α}

@[simp] theorem get?_empty (key : String) : (empty : Dictionary α).get? key = none := rfl

@[simp] theorem get?_insert (key key' : String) (value : α) :
    (d.insert key value).get? key' = if key' = key then some value else d.get? key' :=
  Entries.find?_put key'

@[simp] theorem get?_erase (key key' : String) :
    (d.erase key).get? key' = if key' = key then none else d.get? key' :=
  Entries.find?_erase key'

theorem ext_get? {d' : Dictionary α} (h : ∀ key, d.get? key = d'.get? key) : d = d' := by
  obtain ⟨entries, hd⟩ := d
  obtain ⟨entries', hd'⟩ := d'
  have : entries = entries' := Entries.ext_find? hd hd' h
  subst this
  rfl

theorem ofList_entries (d : Dictionary α) : ofList d.entries = d := by
  obtain ⟨entries, h⟩ := d
  exact (mk.injEq ..).mpr (Entries.sort_of_increasing h)

theorem mem_keys {key : String} : key ∈ d.keys ↔ d.get? key ≠ none :=
  (not_iff_comm.1 Entries.find?_eq_none_iff.symm).symm

theorem nodup_keys (d : Dictionary α) : d.keys.Nodup :=
  List.pairwise_map.2 (d.increasing.imp fun h => h.ne)

theorem length_keys (d : Dictionary α) : d.keys.length = d.size :=
  List.length_map ..

theorem isEmpty_iff_get? : d.isEmpty = true ↔ ∀ key, d.get? key = none := by
  obtain ⟨entries, hd⟩ := d
  cases entries with
  | nil => simp [isEmpty, get?]
  | cons e rest =>
    simp only [isEmpty, List.isEmpty_cons, Bool.false_eq_true, false_iff, not_forall]
    exact ⟨e.1, by simp [get?, Entries.find?_cons]⟩

end Dictionary

end DialogueWindows
