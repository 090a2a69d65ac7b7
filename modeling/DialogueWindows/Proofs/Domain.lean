import DialogueWindows.Domain
import DialogueWindows.Proofs.Distinct

/-! # The actions of a domain

The built-in actions and the own ones of a domain are apart, and none of them repeats. So the index
of an action is the one position where it is listed. -/

namespace DialogueWindows.Domain
variable {d : Domain} {action : String}

theorem mem_ownActions : action ∈ d.ownActions ↔ action ∈ d.actions ∧ action ∉ Action.builtIn := by
  rw [ownActions, Distinct.mem_sort, List.mem_filter, decide_eq_true_eq]

theorem nodup_actionNames (d : Domain) : d.actionNames.Nodup := by
  refine List.Nodup.append Action.nodup_builtIn ?_ fun a hbuiltIn hown => ?_
  · exact (Distinct.pairwise_sort _).imp ne_of_lt
  · exact (mem_ownActions.1 hown).2 hbuiltIn

theorem mem_actionNames :
    action ∈ d.actionNames ↔ action ∈ Action.builtIn ∨ action ∈ d.actions := by
  rw [actionNames, List.mem_append, mem_ownActions]
  by_cases h : action ∈ Action.builtIn
  · exact iff_of_true (.inl h) (.inl h)
  · rw [and_iff_left h]

/-- The index of an action is its position. -/
theorem index?_eq_some_iff {i : Nat} :
    d.vocabulary.index? action = some i ↔ d.actionNames[i]? = some action := by
  show d.actionNames.idxOf? action = some i ↔ _
  constructor
  · intro h
    obtain ⟨hi, heq, -⟩ := List.idxOf?_eq_some_iff.1 h
    rw [List.getElem?_eq_getElem hi, heq]
  · intro h
    obtain ⟨hi, heq⟩ := List.getElem?_eq_some_iff.1 h
    refine List.idxOf?_eq_some_iff.2 ⟨hi, heq, fun j hj hname => hj.ne ?_⟩
    exact d.nodup_actionNames.getElem_inj_iff.1 (hname.trans heq.symm)

end DialogueWindows.Domain
