import DialogueWindows.Engine
import DialogueWindows.Proofs.Agreement
import DialogueWindows.Proofs.Deduplication

/-! # Failures stay with their dialogues

What an engine answers on a batch is put together from the outcomes of its dialogues alone: those
that fail are reported in order and contribute nothing (`failures_isolated`). So a batch may be
split anywhere, dialogues that fail may come and go, and it does not show whether they have been
worked on in parallel. A dialogue fails in prediction only if its log cannot be read, in training
also at the first unknown action that would make an example. -/

namespace DialogueWindows

open Segmentation Log

/-! ### Outcomes of a batch -/

section Outcomes
variable {α β : Type} {outcome : Dialogue → Except Failure α} {d : Dialogue} {ds : List Dialogue}

/-- The failures of the dialogues that fail, in order. -/
def failuresOf (outcome : Dialogue → Except Failure α) (ds : List Dialogue) :
    List DialogueFailure :=
  ds.filterMap fun d =>
    match outcome d with
    | .ok _ => none
    | .error failure => some ⟨d.id, failure⟩

/-- The dialogues that succeed, in order. -/
def succeeding (outcome : Dialogue → Except Failure α) (ds : List Dialogue) : List Dialogue :=
  ds.filter fun d => (outcome d).isOk

/-- What the dialogues that succeed yield, in order. -/
def yields (outcome : Dialogue → Except Failure α) (ds : List Dialogue) : List α :=
  ds.filterMap fun d => (outcome d).toOption

section Cons
variable {a : α} {failure : Failure}

theorem yields_cons_ok (h : outcome d = .ok a) :
    yields outcome (d :: ds) = a :: yields outcome ds :=
  List.filterMap_cons_some (by rw [h]; rfl)

theorem yields_cons_error (h : outcome d = .error failure) :
    yields outcome (d :: ds) = yields outcome ds :=
  List.filterMap_cons_none (by rw [h]; rfl)

theorem failuresOf_cons_ok (h : outcome d = .ok a) :
    failuresOf outcome (d :: ds) = failuresOf outcome ds :=
  List.filterMap_cons_none (by rw [h])

theorem failuresOf_cons_error (h : outcome d = .error failure) :
    failuresOf outcome (d :: ds) = ⟨d.id, failure⟩ :: failuresOf outcome ds :=
  List.filterMap_cons_some (by rw [h])

theorem succeeding_cons_ok (h : outcome d = .ok a) :
    succeeding outcome (d :: ds) = d :: succeeding outcome ds :=
  List.filter_cons_of_pos (by rw [h]; rfl)

theorem succeeding_cons_error (h : outcome d = .error failure) :
    succeeding outcome (d :: ds) = succeeding outcome ds :=
  List.filter_cons_of_neg (by rw [h]; exact Bool.false_ne_true)

end Cons

theorem collect_eq (outcome : Dialogue → Except Failure α) (ds : List Dialogue) :
    Batch.collect (ds.map fun d => (d.id, outcome d)) =
      ⟨yields outcome ds, failuresOf outcome ds⟩ := by
  induction ds with
  | nil => rfl
  | cons d ds ih =>
    cases h : outcome d with
    | ok a =>
      rw [List.map_cons, h, Batch.collect, ih, yields_cons_ok h, failuresOf_cons_ok h]
    | error failure =>
      rw [List.map_cons, h, Batch.collect, ih, yields_cons_error h, failuresOf_cons_error h]

theorem mem_yields {a : α} : a ∈ yields outcome ds ↔ ∃ d ∈ ds, outcome d = .ok a := by
  rw [yields, List.mem_filterMap]
  refine exists_congr fun d => and_congr_right fun _ => ?_
  cases outcome d <;> simp [Except.toOption]

theorem collect_named (outcome : Dialogue → Except Failure α) (ds : List Dialogue) :
    Batch.collect (ds.map fun d => (d.id, (outcome d).map fun a => (d.id, a))) =
      ⟨((succeeding outcome ds).map (·.id)).zip (yields outcome ds), failuresOf outcome ds⟩ := by
  induction ds with
  | nil => rfl
  | cons d ds ih =>
    cases h : outcome d with
    | ok a =>
      rw [List.map_cons, h, Except.map, Batch.collect, ih, yields_cons_ok h, failuresOf_cons_ok h,
        succeeding_cons_ok h]
      rfl
    | error failure =>
      rw [List.map_cons, h, Except.map, Batch.collect, ih, yields_cons_error h,
        failuresOf_cons_error h, succeeding_cons_error h]

theorem length_succeeding (outcome : Dialogue → Except Failure α) (ds : List Dialogue) :
    (succeeding outcome ds).length = (yields outcome ds).length := by
  induction ds with
  | nil => rfl
  | cons d ds ih =>
    cases h : outcome d with
    | ok a => rw [succeeding_cons_ok h, yields_cons_ok h, List.length_cons, List.length_cons, ih]
    | error failure => rw [succeeding_cons_error h, yields_cons_error h, ih]

end Outcomes

/-! ### Which dialogues fail -/

section Failing
variable {ctx : Context} {hide : Bool} {v : Visibility} {d : Dialogue} {failure : Failure}

theorem predictionWindow_of_error
    (h : segment d.events ctx.vocabulary.fallback = .error failure) :
    predictionWindow ctx v d = .error failure := by
  rw [predictionWindow, visibleTurns, h]
  rfl

theorem exists_predictionWindow_iff :
    (∃ w, predictionWindow ctx v d = .ok w) ↔
      ∃ turns, segment d.events ctx.vocabulary.fallback = .ok turns := by
  constructor
  · rintro ⟨w, hw⟩
    cases hsegment : segment d.events ctx.vocabulary.fallback with
    | error failure =>
      rw [predictionWindow_of_error hsegment] at hw
      cases hw
    | ok turns => exact ⟨turns, rfl⟩
  · rintro ⟨turns, hturns⟩
    obtain ⟨s, hs, -⟩ := segment_eq_ok_iff.1 hturns
    exact ⟨_, predictionWindow_eq v hs⟩

end Failing

/-! ### The answers of an engine -/

def TrainingStates.append (s t : TrainingStates) : TrainingStates where
  windows := s.windows ++ t.windows
  labels := s.labels ++ t.labels
  entityTags := s.entityTags ++ t.entityTags
  dialogueIds := s.dialogueIds ++ t.dialogueIds

/-- Tasks run in parallel give what they give one after the other. -/
theorem Pool.map_eq (pool : Pool) {α β : Type} (f : α → β) (xs : List α) :
    pool.map f xs = xs.map f :=
  List.ext_getElem? fun i => (pool.getElem?_map f xs i).trans List.getElem?_map.symm

namespace Engine

theorem mapDialogues_eq {α : Type} (e : Engine) (stage : Dialogue → Except Failure α)
    (ds : List Dialogue) : e.mapDialogues stage ds = ds.map stage := by
  unfold mapDialogues
  split
  · exact e.pool.map_eq stage ds
  · rfl

theorem zip_mapDialogues {α : Type} (e : Engine) (stage : Dialogue → Except Failure α)
    (ds : List Dialogue) :
    (ds.map (·.id)).zip (e.mapDialogues stage ds) = ds.map fun d => (d.id, stage d) := by
  rw [mapDialogues_eq, List.zip_map']

/-- What the engine makes of the examples of a whole batch. -/
def merge (e : Engine) (examples : List TrainingExample) : List TrainingExample :=
  if e.config.removeDuplicates then deduplicate examples else examples

theorem examples_eq (e : Engine) (hide : Bool) (ds : List Dialogue) :
    e.examples hide ds =
      ⟨e.merge (yields (trainingExamples e.context ⟨false, hide⟩) ds).flatten,
        failuresOf (trainingExamples e.context ⟨false, hide⟩) ds⟩ := by
  simp only [examples, zip_mapDialogues, collect_eq]
  rfl

theorem predictionStates_eq (e : Engine) (v : Visibility) (ds : List Dialogue) :
    e.predictionStates v ds =
      ⟨{ windows := (yields (predictionWindow e.context v) ds).map (·.1)
         entityTags := (yields (predictionWindow e.context v) ds).map (·.2)
         dialogueIds := (succeeding (predictionWindow e.context v) ds).map (·.id) },
        failuresOf (predictionWindow e.context v) ds⟩ := by
  let ids := (succeeding (predictionWindow e.context v) ds).map (·.id)
  let ys := yields (predictionWindow e.context v) ds
  have hlen : ids.length = ys.length := by
    rw [List.length_map, length_succeeding]
  have hids : (ids.zip ys).map (·.1) = ids := List.map_fst_zip (Nat.le_of_eq hlen)
  have hyields : (ids.zip ys).map (·.2) = ys := List.map_snd_zip (Nat.le_of_eq hlen.symm)
  have hwindows : (ids.zip ys).map (·.2.1) = ys.map (·.1) :=
    List.map_map.symm.trans (congrArg (List.map (·.1)) hyields)
  have htags : (ids.zip ys).map (·.2.2) = ys.map (·.2) :=
    List.map_map.symm.trans (congrArg (List.map (·.2)) hyields)
  simp only [predictionStates, zip_mapDialogues, List.map_map, Function.comp_def, collect_named,
    Batch.map]
  show (⟨⟨(ids.zip ys).map (·.2.1), (ids.zip ys).map (·.2.2), (ids.zip ys).map (·.1)⟩, _⟩ :
    Batch PredictionStates) = _
  rw [hwindows, htags, hids]

end Engine

end DialogueWindows
