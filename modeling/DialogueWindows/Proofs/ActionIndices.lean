import DialogueWindows.Proofs.Domain
import DialogueWindows.Proofs.Overwriting
import DialogueWindows.Proofs.ValueReading

/-! # Indices of actions

No name is listed twice among the actions of a domain. So an action has one index, and a table that
is filled name by name loses none (`get?_actionTable`). Which actions a domain adds depends on the
set of the declared ones only, so neither their order nor repetitions show in the indices
(`actions_numbered`). -/

namespace DialogueWindows.Domain
variable {d d' : Domain} {n : String}

/-! ### Positions and indices -/

theorem existsUnique_index?_iff :
    (∃! i, d.vocabulary.index? n = some i) ↔ n ∈ Action.builtIn ∨ n ∈ d.actions := by
  rw [← mem_actionNames, List.mem_iff_getElem?]
  simp only [← index?_eq_some_iff]
  refine ⟨ExistsUnique.exists, fun ⟨i, hi⟩ => ⟨i, hi, fun j hj => ?_⟩⟩
  exact Option.some.inj (hj.symm.trans hi)

/-- The table of the actions, filled in their order with their positions. -/
def actionTable (d : Domain) : Dictionary Nat :=
  .ofList d.actionNames.zipIdx

theorem get?_actionTable (d : Domain) (n : String) :
    d.actionTable.get? n = d.vocabulary.index? n := by
  have hkeys : (d.actionNames.zipIdx.map (·.1)).Nodup := by
    rw [List.zipIdx_map_fst]
    exact d.nodup_actionNames
  refine Option.ext fun i => ?_
  rw [actionTable, Dictionary.get?_ofList_eq_some_iff hkeys, List.mk_mem_zipIdx_iff_getElem?,
    index?_eq_some_iff]

/-! ### Declared actions -/

theorem ownActions_congr (h : ∀ a, a ∉ Action.builtIn → (a ∈ d.actions ↔ a ∈ d'.actions)) :
    d.ownActions = d'.ownActions := by
  rw [ownActions, ownActions, Distinct.sort_eq_toFinset_sort, Distinct.sort_eq_toFinset_sort]
  congr 1
  ext a
  rw [List.mem_toFinset, List.mem_toFinset, List.mem_filter, List.mem_filter, decide_eq_true_eq]
  exact and_congr_left (h a)

/-- The built-in actions come first, the others follow by code point, and each has its position for
an index. -/
structure NumbersActions (d : Domain) : Prop where
  names : d.actionNames = Action.builtIn ++ d.ownActions
  increasing : d.ownActions.Pairwise (· < ·)
  mem_own : ∀ a, a ∈ d.ownActions ↔ a ∈ d.actions ∧ a ∉ Action.builtIn
  index : ∀ n i, d.vocabulary.index? n = some i ↔
    ∃ h : i < d.actionNames.length, d.actionNames[i] = n
  table : ∀ n, d.vocabulary.index? n = d.actionTable.get? n
  known : ∀ n, (∃! i, d.vocabulary.index? n = some i) ↔ n ∈ Action.builtIn ∨ n ∈ d.actions
  unknown : ∀ n, d.vocabulary.index? n = none ↔ n ∉ Action.builtIn ∧ n ∉ d.actions

theorem numbersActions (d : Domain) : d.NumbersActions := by
  refine ⟨rfl, Distinct.pairwise_sort _, fun a => mem_ownActions, fun n i => ?_,
    fun n => (d.get?_actionTable n).symm, fun n => existsUnique_index?_iff, fun n => ?_⟩
  · rw [index?_eq_some_iff, List.getElem?_eq_some_iff]
  · show d.actionNames.idxOf? n = none ↔ _
    rw [List.idxOf?_eq_none_iff, mem_actionNames, not_or]

/-- The actions of a domain are numbered one to one, by the set of the declared ones alone. A domain
that is read back from its text numbers them in the same way. -/
theorem actions_numbered :
    (∀ d : Domain, d.NumbersActions) ∧
    (∀ d d' : Domain, (∀ a, a ∉ Action.builtIn → (a ∈ d.actions ↔ a ∈ d'.actions)) →
      d.actionNames = d'.actionNames ∧ d.vocabulary = d'.vocabulary) ∧
    ∀ d : Domain, ∃ d', Json.Decoder.ofText decode d.toJson.compact = .ok d' ∧
      d' = d ∧ d'.actionNames = d.actionNames ∧ d'.vocabulary = d.vocabulary := by
  refine ⟨numbersActions, fun d d' h => ?_, fun d => ⟨d, roundTrips.ofText d trivial, rfl, rfl, rfl⟩⟩
  have hnames : d.actionNames = d'.actionNames := congrArg (Action.builtIn ++ ·) (ownActions_congr h)
  exact ⟨hnames, congrArg (Vocabulary.ofNames · Action.unlikelyIntent) hnames⟩

/-- Declared twice, out of order and next to built-in actions. -/
theorem actions_numbered_shuffled :
    let d : Domain := { empty with actions := ["utter_b", "action_back", "utter_a", "utter_b"] }
    let d' : Domain := { empty with actions := ["utter_a", "utter_b", "action_listen"] }
    d.actionNames = Action.builtIn ++ ["utter_a", "utter_b"] ∧ d.vocabulary = d'.vocabulary := by
  intro d d'
  have hnames : d.actionNames = Action.builtIn ++ ["utter_a", "utter_b"] := by decide +kernel
  refine ⟨hnames, (actions_numbered.2.1 d d' fun a ha => ?_).2⟩
  have hlisten : a ≠ "action_listen" := by
    rintro rfl
    exact ha (by decide)
  have hback : a ≠ "action_back" := by
    rintro rfl
    exact ha (by decide)
  simp only [d, d', List.mem_cons, List.not_mem_nil, or_false, hlisten, hback, false_or]
  tauto

end DialogueWindows.Domain
