/-! # What a list says, by position

`positions f xs` lists what `f` reads off the elements of `xs`, each with the position of its
element. It is described from the front: one more element adds at most one entry. -/

namespace DialogueWindows
variable {α β : Type} {f : α → Option β} {xs : List α}

theorem getElem?_concat_eq_some_iff {x y : α} {i : Nat} :
    (xs ++ [x])[i]? = some y ↔ xs[i]? = some y ∨ i = xs.length ∧ x = y := by
  grind

def positionsFrom (f : α → Option β) (start : Nat) (xs : List α) : List (Nat × β) :=
  (xs.zipIdx start).filterMap fun x => (f x.1).map (x.2, ·)

/-- What `f` reads off the elements, with their positions. -/
def positions (f : α → Option β) (xs : List α) : List (Nat × β) :=
  positionsFrom f 0 xs

theorem positionsFrom_cons (f : α → Option β) (start : Nat) (x : α) (xs : List α) :
    positionsFrom f start (x :: xs) =
      ((f x).map (start, ·)).toList ++ positionsFrom f (start + 1) xs := by
  rw [positionsFrom, List.zipIdx_cons]
  cases h : f x with
  | none => rw [List.filterMap_cons_none (by simp [h])]; rfl
  | some b => rw [List.filterMap_cons_some (b := (start, b)) (by simp [h])]; rfl

theorem positions_concat (f : α → Option β) (xs : List α) (x : α) :
    positions f (xs ++ [x]) = positions f xs ++ ((f x).map (xs.length, ·)).toList := by
  have hlast : positionsFrom f xs.length [x] = ((f x).map (xs.length, ·)).toList := by
    rw [positionsFrom_cons]
    exact List.append_nil _
  rw [← hlast, positions, positionsFrom, List.zipIdx_append, List.filterMap_append, Nat.zero_add]
  rfl

theorem exists_of_mem_positions {p : Nat} {b : β} (h : (p, b) ∈ positions f xs) :
    ∃ x, xs[p]? = some x ∧ f x = some b := by
  obtain ⟨⟨x, q⟩, hx, hq⟩ := List.mem_filterMap.1 h
  obtain ⟨c, hc, hpb⟩ := Option.map_eq_some_iff.1 hq
  obtain ⟨rfl, rfl⟩ := Prod.mk.inj hpb
  exact ⟨x, List.mk_mem_zipIdx_iff_getElem?.1 hx, hc⟩

theorem lt_of_mem_positions {x : Nat × β} (h : x ∈ positions f xs) : x.1 < xs.length := by
  obtain ⟨_, hx, _⟩ := exists_of_mem_positions (p := x.1) (b := x.2) h
  exact (List.getElem?_eq_some_iff.1 hx).1

theorem pairwise_positions (f : α → Option β) (xs : List α) :
    (positions f xs).Pairwise fun x y => x.1 < y.1 := by
  have hindices : (xs.zipIdx 0).Pairwise fun x y => x.2 < y.2 := by
    rw [← List.pairwise_map (f := Prod.snd), List.zipIdx_map_snd]
    exact List.pairwise_lt_range' ..
  refine hindices.filterMap _ fun x y hxy a ha b hb => ?_
  obtain ⟨_, -, rfl⟩ := Option.map_eq_some_iff.1 ha
  obtain ⟨_, -, rfl⟩ := Option.map_eq_some_iff.1 hb
  exact hxy

end DialogueWindows
