import DialogueWindows.Dictionary
import Mathlib.Data.Finset.Sort
import Mathlib.Data.String.Basic

/-! # Sorting without repetition

`Distinct.sort` lists a finite set: it is strictly increasing and has the elements of the list. -/

namespace DialogueWindows.Distinct
variable {α : Type} [LinearOrder α] {a b : α} {xs : List α}

theorem mem_insert : b ∈ insert a xs ↔ b = a ∨ b ∈ xs := by
  induction xs with
  | nil => simp [insert]
  | cons x rest ih =>
    unfold insert
    split
    · exact List.mem_cons
    · split
      · rw [List.mem_cons, ih, List.mem_cons, or_left_comm]
      · rename_i h₁ h₂
        have : a = x := le_antisymm (not_lt.1 h₂) (not_lt.1 h₁)
        rw [this, List.mem_cons, or_self_left]

theorem pairwise_insert (h : xs.Pairwise (· < ·)) : (insert a xs).Pairwise (· < ·) := by
  induction xs with
  | nil => exact List.pairwise_singleton _ _
  | cons x rest ih =>
    obtain ⟨hx, hr⟩ := List.pairwise_cons.1 h
    unfold insert
    split
    · rename_i hlt
      refine List.pairwise_cons.2 ⟨fun y hy => ?_, h⟩
      rcases List.mem_cons.1 hy with rfl | hy
      · exact hlt
      · exact hlt.trans (hx y hy)
    · split
      · rename_i hgt
        refine List.pairwise_cons.2 ⟨fun y hy => ?_, ih hr⟩
        rcases mem_insert.1 hy with rfl | hy
        · exact hgt
        · exact hx y hy
      · exact h

@[simp] theorem mem_sort : b ∈ sort xs ↔ b ∈ xs := by
  induction xs with
  | nil => rfl
  | cons x rest ih =>
    show b ∈ insert x (sort rest) ↔ _
    rw [mem_insert, ih, List.mem_cons]

theorem pairwise_sort (xs : List α) : (sort xs).Pairwise (· < ·) := by
  induction xs with
  | nil => exact .nil
  | cons x rest ih => exact pairwise_insert ih

theorem sort_eq_toFinset_sort (xs : List α) : sort xs = xs.toFinset.sort (· ≤ ·) := by
  have hset : xs.toFinset = (sort xs).toFinset := by
    ext b
    rw [List.mem_toFinset, List.mem_toFinset, mem_sort]
  have hlt := pairwise_sort xs
  rw [hset]
  exact ((List.toFinset_sort (· ≤ ·) (hlt.imp ne_of_lt)).2 (hlt.imp le_of_lt)).symm

theorem sort_eq_sort_iff {ys : List α} : sort xs = sort ys ↔ ∀ b, b ∈ xs ↔ b ∈ ys := by
  constructor
  · intro h b
    rw [← mem_sort, h, mem_sort]
  · intro h
    have hset : xs.toFinset = ys.toFinset := by
      ext b
      rw [List.mem_toFinset, List.mem_toFinset, h]
    rw [sort_eq_toFinset_sort, sort_eq_toFinset_sort, hset]

end DialogueWindows.Distinct
