import DialogueWindows.Feature
import DialogueWindows.Proofs.Distinct
import DialogueWindows.Proofs.Overwriting

/-! # Sparse vectors written out

Each entry of a dense vector is what the last sparse entry for its index says, else 0
(`toDense_eq_iff`); sparse entries beyond the dimension are dropped. A 1 at each of some indices
makes the indicator of those below the dimension (`toDense_ones`), so nothing is lost exactly if all
of them are. A multi-hot vector is such an indicator, and knows of its indices only which they are
(`multiHot_indicates`). -/

namespace DialogueWindows.FeatureValues

open Floating (Binary)

section Writing
variable {α : Type}

theorem length_foldl_set (entries : List (Nat × α)) (xs : List α) :
    (entries.foldl (fun xs e => xs.set e.1 e.2) xs).length = xs.length := by
  induction entries generalizing xs with
  | nil => rfl
  | cons e rest ih => rw [List.foldl_cons, ih, List.length_set]

theorem getElem?_foldl_set (entries : List (Nat × α)) (xs : List α) (i : Nat) :
    (entries.foldl (fun xs e => xs.set e.1 e.2) xs)[i]? =
      xs[i]?.map fun x => (lastUnder i entries).getD x := by
  induction entries using List.reverseRecOn with
  | nil => simp
  | append_singleton entries e ih =>
    rw [List.foldl_concat, List.getElem?_set, ih, lastUnder_concat, length_foldl_set]
    by_cases he : e.1 = i
    · by_cases hi : i < xs.length <;> simp [he, hi]
    · simp [he]

end Writing

variable {dim : Nat} {indices : List Nat} {values : List Binary}

theorem length_toDense : (sparse dim indices values).toDense.length = dim := by
  rw [toDense, length_foldl_set, List.length_replicate]

theorem getElem?_toDense {i : Nat} (h : i < dim) :
    (sparse dim indices values).toDense[i]? =
      some ((lastUnder i (indices.zip values)).getD .zero) := by
  rw [toDense, getElem?_foldl_set, List.getElem?_replicate_of_lt h, Option.map_some]

/-- A 1 at each of some indices, written out. -/
theorem toDense_ones (dim : Nat) (indices : List Nat) :
    (sparse dim indices (List.replicate indices.length .one)).toDense =
      (List.range dim).map fun i => if i ∈ indices then .one else .zero := by
  refine List.ext_getElem? fun i => ?_
  by_cases hi : i < dim
  · have hzip : indices.zip (List.replicate indices.length Binary.one) =
        indices.map fun i => (i, .one) := by
      rw [← List.map_const', ← List.map_prod_left_eq_zip]
    rw [getElem?_toDense hi, hzip, lastUnder_map_const, List.getElem?_map, List.getElem?_range hi,
      Option.map_some]
    split <;> rfl
  · rw [List.getElem?_eq_none (by rw [length_toDense]; omega),
      List.getElem?_eq_none (by rw [List.length_map, List.length_range]; omega)]

theorem mem_indices_iff {i : Nat} (h : i < dim) :
    i ∈ indices ↔
      (sparse dim indices (List.replicate indices.length .one)).toDense[i]? = some .one := by
  rw [toDense_ones, List.getElem?_map, List.getElem?_range h, Option.map_some]
  split <;> simp [*, Binary.one, Binary.zero]

/-- The indices that a multi-hot vector shows when it is written out. -/
theorem count_one_toDense (dim : Nat) (indices : List Nat) :
    (sparse dim indices (List.replicate indices.length .one)).toDense.count .one =
      (indices.toFinset.filter (· < dim)).card := by
  have hset : indices.toFinset.filter (· < dim) =
      ((List.range dim).filter (· ∈ indices)).toFinset := by
    ext i
    simp [and_comm]
  rw [hset, List.toFinset_card_of_nodup (List.nodup_range.filter _), toDense_ones, List.count,
    List.countP_map, List.countP_eq_length_filter]
  refine congrArg List.length (List.filter_congr fun i _ => ?_)
  by_cases hi : i ∈ indices <;> simp [hi, Binary.one, Binary.zero]

/-- Strictly increasing indices below the dimension, and a 1 at each. -/
def IsIndicator : FeatureValues → Prop
  | dense _ => False
  | sparse dim indices values =>
    indices.Pairwise (· < ·) ∧ (∀ i ∈ indices, i < dim) ∧
      values = List.replicate indices.length .one

/-! ### Any sparse vector -/

/-- The vector that sparse entries write: each entry is the value of the last pair for its index, of
the pairs that have both an index and a value, or 0 if there is none. -/
structure WritesOut (dim : Nat) (indices : List Nat) (values dense : List Binary) : Prop where
  length : dense.length = dim
  last : ∀ i < dim, ∀ k,
    IsGreatest {k | k < min indices.length values.length ∧ indices[k]? = some i} k →
      dense[i]? = values[k]?
  absent : ∀ i < dim, (∀ k < min indices.length values.length, indices[k]? ≠ some i) →
    dense[i]? = some .zero

theorem positionsUnder_zip (i : Nat) (indices : List Nat) (values : List Binary) :
    positionsUnder i (indices.zip values) =
      {k | k < min indices.length values.length ∧ indices[k]? = some i} := by
  ext k
  simp only [positionsUnder, Set.mem_ofPred_eq, List.getElem?_zip_eq_some]
  constructor
  · rintro ⟨value, hi, hvalue⟩
    have hindices := (List.getElem?_eq_some_iff.1 hi).1
    have hvalues := (List.getElem?_eq_some_iff.1 hvalue).1
    exact ⟨lt_min hindices hvalues, hi⟩
  · rintro ⟨hlt, hi⟩
    have hvalues : k < values.length := hlt.trans_le (min_le_right _ _)
    exact ⟨values[k], hi, List.getElem?_eq_getElem hvalues⟩

theorem writesOut_toDense (dim : Nat) (indices : List Nat) (values : List Binary) :
    WritesOut dim indices values (sparse dim indices values).toDense where
  length := length_toDense
  last i hi k hk := by
    have hvalues : k < values.length := hk.1.1.trans_le (min_le_right _ _)
    have hindices : k < indices.length := hk.1.1.trans_le (min_le_left _ _)
    rw [← positionsUnder_zip] at hk
    rw [getElem?_toDense hi, lastUnder_of_isGreatest hk]
    simp [hindices, hvalues]
  absent i hi h := by
    have hempty : positionsUnder i (indices.zip values) = ∅ := by
      rw [positionsUnder_zip, Set.eq_empty_iff_forall_notMem]
      exact fun k hk => h k hk.1 hk.2
    rw [getElem?_toDense hi, lastUnder_of_empty hempty, Option.getD_none]

theorem WritesOut.unique {dense dense' : List Binary} (h : WritesOut dim indices values dense)
    (h' : WritesOut dim indices values dense') : dense = dense' := by
  refine List.ext_getElem? fun i => ?_
  by_cases hi : i < dim
  · rcases Set.eq_empty_or_nonempty (positionsUnder i (indices.zip values)) with hempty | hne
    · rw [positionsUnder_zip, Set.eq_empty_iff_forall_notMem] at hempty
      have hnone : ∀ k < min indices.length values.length, indices[k]? ≠ some i :=
        fun k hk hik => hempty k ⟨hk, hik⟩
      rw [h.absent i hi hnone, h'.absent i hi hnone]
    · obtain ⟨k, hk⟩ := exists_isGreatest_positionsUnder hne
      rw [positionsUnder_zip] at hk
      rw [h.last i hi k hk, h'.last i hi k hk]
  · rw [List.getElem?_eq_none (by rw [h.length]; omega),
      List.getElem?_eq_none (by rw [h'.length]; omega)]

theorem toDense_eq_iff {dense : List Binary} :
    (sparse dim indices values).toDense = dense ↔ WritesOut dim indices values dense :=
  ⟨fun h => h ▸ writesOut_toDense dim indices values, (writesOut_toDense _ _ _).unique⟩

/-! ### Multi-hot vectors -/

theorem multiHot_eq_iff {dim' : Nat} {indices' : List Nat} :
    multiHot dim' indices' = multiHot dim indices ↔
      dim' = dim ∧ ∀ i, i ∈ indices' ↔ i ∈ indices := by
  simp only [multiHot, sparse.injEq, ← Distinct.sort_eq_sort_iff]
  constructor
  · exact fun ⟨hdim, hsort, _⟩ => ⟨hdim, hsort⟩
  · exact fun ⟨hdim, hsort⟩ => ⟨hdim, hsort, by rw [hsort]⟩

theorem toDense_multiHot (dim : Nat) (indices : List Nat) :
    (multiHot dim indices).toDense =
      (List.range dim).map fun i => if i ∈ indices then .one else .zero := by
  rw [multiHot, toDense_ones]
  simp only [Distinct.mem_sort]

/-- A multi-hot vector is the indicator of a set of indices, in whatever list they come. What is
written out of any other sparse vector are the last values for its indices. -/
theorem multiHot_indicates (dim : Nat) (indices : List Nat) :
    (∃ sorted, multiHot dim indices = sparse dim sorted (List.replicate sorted.length .one) ∧
      sorted.Pairwise (· < ·) ∧ ∀ i, i ∈ sorted ↔ i ∈ indices) ∧
    (∀ dim' indices', multiHot dim' indices' = multiHot dim indices ↔
      dim' = dim ∧ ∀ i, i ∈ indices' ↔ i ∈ indices) ∧
    (multiHot dim indices).toDense =
      (List.range dim).map (fun i => if i ∈ indices then .one else .zero) ∧
    ∀ values dense, (sparse dim indices values).toDense = dense ↔
      WritesOut dim indices values dense :=
  ⟨⟨Distinct.sort indices, rfl, Distinct.pairwise_sort indices, fun _ => Distinct.mem_sort⟩,
    fun _ _ => multiHot_eq_iff, toDense_multiHot dim indices, fun _ _ => toDense_eq_iff⟩

-- of two values for one index the later counts, an index beyond the dimension and one without a
-- value do not
example : (sparse 3 [2, 0, 7, 2, 1] [.one, .one, .one, .zero]).toDense = [.one, .zero, .zero] := by
  decide

end DialogueWindows.FeatureValues
