import DialogueWindows.Proofs.Alignment
import DialogueWindows.Proofs.Visibility

/-! # What ignoring the fallback action removes

A turn of a log is marked as one of the fallback action exactly if its state names that action, so
the filter on turns is a filter on states (`Turn.Marked`). Ignoring the fallback action takes its
labels away, and from every window its states with their tags (`ignoring_removes`). The empty state
names no action and stays. -/

namespace DialogueWindows

open Segmentation Log

/-- What is left of a window and its tags without the states that an action led to. -/
def withoutAction (action : String) (x : Window × List (List String)) :
    Window × List (List String) :=
  (x.1.filter fun s => s.previousAction? ≠ some action,
    ((x.1.zip x.2).filter fun y => y.1.previousAction? ≠ some action).map (·.2))

/-- What is left of an example in this way. -/
def TrainingExample.withoutAction (digest : String → String) (action : String)
    (e : TrainingExample) : TrainingExample :=
  let left := DialogueWindows.withoutAction action (e.window, e.entityTags)
  { e with
    window := left.1
    entityTags := left.2
    contentHash := exampleHash digest left.1 e.labelAction }

/-! ### Marks -/

/-- The state names the turn's action, and the mark tells whether that is the fallback action. -/
structure Turn.Marked (fallback : String) (t : Turn) : Prop where
  previousAction? : t.state.previousAction? = t.action
  isUnlikelyIntent : t.isUnlikelyIntent = true ↔ t.action = some fallback

section Marks
variable {fallback : String} {events : List Event} {turns : List Turn} {t : Turn} {i : Nat}
  {v : Visibility}

theorem Turn.marked_opening (index : Nat) : (opening index).Marked fallback :=
  ⟨rfl, nofun, nofun⟩

theorem IsTurn.marked (h : IsTurn fallback events i t) : t.Marked fallback := by
  have hmark := h.isUnlikelyIntent
  refine ⟨?_, ?_⟩
  · rw [h.action]
    cases ho : opener events i with
    | none => rw [h.state_opening ho]; rfl
    | some a =>
      have hname := (h.state a ho).get? .previousAction Attribute.actionName
      rw [State.previousAction?, hname, known, if_pos rfl]
      rfl
  · rw [hmark, h.action, Option.map_eq_some_iff]

theorem IsHistory.marked (h : IsHistory fallback events turns) :
    ∀ t ∈ turns, t.Marked fallback := by
  intro t ht
  obtain ⟨i, hi⟩ := List.mem_iff_getElem?.1 ht
  exact (h.isTurn i t hi).marked

theorem marked_of_mem_visible (h : ∀ t ∈ turns, t.Marked fallback) (ht : t ∈ visible v turns) :
    t.Marked fallback := by
  rcases mem_or_opening_of_mem_visible ht with ht | ⟨index, rfl⟩
  · exact h t ht
  · exact Turn.marked_opening index

theorem Turn.Marked.kept_eq (h : t.Marked fallback) :
    (!t.isUnlikelyIntent) = decide (t.state.previousAction? ≠ some fallback) := by
  rw [Bool.eq_iff_iff, Bool.not_eq_true', decide_eq_true_eq, h.previousAction?, ne_eq,
    ← h.isUnlikelyIntent, Bool.not_eq_true]

end Marks

/-! ### Windows -/

section Windows
variable {ctx : Context} {turns : List Turn} {fallback : String}

theorem recent_none {α : Type} (xs : List α) : recent none xs = xs :=
  recent_eq_ending none xs

theorem withoutAction_map (action : String) (tags : Turn → List String) (turns : List Turn) :
    withoutAction action (turns.map (·.state), turns.map tags) =
      ((turns.filter fun t => t.state.previousAction? ≠ some action).map (·.state),
        (turns.filter fun t => t.state.previousAction? ≠ some action).map tags) := by
  rw [withoutAction, List.zip_map', List.filter_map, List.filter_map, List.map_map]
  rfl

theorem endOf_removeUnlikelyIntent (hbound : ctx.maxHistory = none)
    (h : ∀ t ∈ turns, t.Marked fallback) :
    endOf ctx (removeUnlikelyIntent turns) = withoutAction fallback (endOf ctx turns) := by
  have hkept : removeUnlikelyIntent turns =
      turns.filter fun t => t.state.previousAction? ≠ some fallback :=
    List.filter_congr fun t ht => (h t ht).kept_eq
  rw [endOf_eq, endOf_eq, hbound, recent_none, recent_none, recent_none, recent_none,
    withoutAction_map, hkept]

/-- The labels that are left are those of other actions, each with what is left of its window. -/
theorem labelled_removeUnlikelyIntent (hbound : ctx.maxHistory = none)
    (h : ∀ t ∈ turns, t.Marked fallback) :
    labelled ctx (removeUnlikelyIntent turns) =
      ((labelled ctx turns).filter fun y => y.1 ≠ fallback).map fun y =>
        (y.1, withoutAction fallback y.2) := by
  induction turns using List.reverseRecOn with
  | nil => rfl
  | append_singleton turns t ih =>
    rw [List.forall_mem_append, List.forall_mem_singleton] at h
    obtain ⟨hturns, ht⟩ := h
    have hconcat : removeUnlikelyIntent (turns ++ [t]) = removeUnlikelyIntent turns ++
        if t.isUnlikelyIntent then [] else [t] := @visible_concat true turns t
    have hlabel : ∀ l ∈ t.label?, t.action = some l := by
      intro l hl
      unfold Turn.label? at hl
      split at hl
      · cases hl
      · exact hl
    rw [hconcat, labelled_concat, List.filter_append, List.map_append, ← ih hturns]
    split
    · rename_i hunlikely
      -- the turn contributes no label, or that of the fallback action
      rw [List.append_nil, List.filter_eq_nil_iff.2, List.map_nil, List.append_nil]
      intro y hy
      obtain ⟨l, hl, rfl⟩ := Option.map_eq_some_iff.1 (Option.mem_toList.1 hy)
      have haction := (ht.isUnlikelyIntent.1 hunlikely).symm.trans (hlabel l hl)
      rw [decide_eq_true_eq, not_not]
      exact (Option.some.inj haction).symm
    · rename_i hlikely
      rw [labelled_concat, endOf_removeUnlikelyIntent hbound hturns]
      congr 1
      cases hl : t.label? with
      | none => rfl
      | some l =>
        have hne : l ≠ fallback := by
          rintro rfl
          exact hlikely (ht.isUnlikelyIntent.2 (hlabel l hl))
        rw [Option.map_some, Option.map_some, Option.toList_some, Option.toList_some,
          List.filter_cons_of_pos (by rw [decide_eq_true_eq]; exact hne)]
        rfl

end Windows

/-! ### Answers -/

section Answers
variable {ctx : Context} {d : Dialogue}

theorem ofDraft_withoutAction {y : String × Window × List (List String)} {e : TrainingExample}
    (h : TrainingExample.ofDraft ctx d.id y = .ok e) (action : String) :
    e.labelAction = y.1 ∧
      TrainingExample.ofDraft ctx d.id (y.1, withoutAction action y.2) =
        .ok (e.withoutAction ctx.digest action) := by
  obtain ⟨label, hlabel, he⟩ := exists_ok_of_bind h
  obtain rfl := Except.ok.inj he
  refine ⟨rfl, ?_⟩
  rw [TrainingExample.ofDraft, hlabel]
  rfl

theorem trainingExamples_ignoring (hbound : ctx.maxHistory = none) {examples : List TrainingExample}
    (h : trainingExamples ctx ⟨false, false⟩ d = .ok examples) :
    trainingExamples ctx ⟨false, true⟩ d =
      .ok ((examples.filter fun e => e.labelAction ≠ ctx.vocabulary.fallback).map
        (·.withoutAction ctx.digest ctx.vocabulary.fallback)) := by
  obtain ⟨visible, hvisible, -⟩ := exists_ok_of_bind h
  obtain ⟨turns, hturns, -⟩ := exists_ok_of_bind hvisible
  obtain ⟨s, hs, -⟩ := segment_eq_ok_iff.1 hturns
  have hmarked := (Reads.of_run hs).isHistory.marked
  rw [trainingExamples_eq _ hs, mapM_eq_ok_iff] at h
  have hleft : DialogueWindows.visible ⟨false, true⟩ s.turns = removeUnlikelyIntent s.turns := rfl
  have hall : DialogueWindows.visible ⟨false, false⟩ s.turns = s.turns := rfl
  rw [trainingExamples_eq _ hs, hleft, labelled_removeUnlikelyIntent hbound hmarked, mapM_eq_ok_iff,
    List.forall₂_map_left_iff, List.forall₂_map_right_iff]
  have hdrafts := h.imp fun y e he => ofDraft_withoutAction he ctx.vocabulary.fallback
  refine (List.rel_filter (fun y e hy => ?_) hdrafts).imp fun y e hy => hy.2
  show decide (y.1 ≠ _) = true ↔ decide (e.labelAction ≠ _) = true
  rw [hy.1]

theorem predictionWindow_ignoring (hbound : ctx.maxHistory = none) (rules : Bool) :
    predictionWindow ctx ⟨rules, true⟩ d =
      (predictionWindow ctx ⟨rules, false⟩ d).map (withoutAction ctx.vocabulary.fallback) := by
  cases hsegment : segment d.events ctx.vocabulary.fallback with
  | error failure =>
    rw [predictionWindow_of_error hsegment, predictionWindow_of_error hsegment]
    rfl
  | ok turns =>
    obtain ⟨s, hs, -⟩ := segment_eq_ok_iff.1 hsegment
    have hleft : visible ⟨rules, true⟩ s.turns =
        removeUnlikelyIntent (visible ⟨rules, false⟩ s.turns) := rfl
    have hmarked := (Reads.of_run hs).isHistory.marked
    rw [predictionWindow_eq _ hs, predictionWindow_eq _ hs, hleft,
      endOf_removeUnlikelyIntent hbound fun t ht => marked_of_mem_visible hmarked ht]
    rfl

/-- A window that starts with the empty state, with tags for each of its states. -/
structure Opens (x : Window × List (List String)) : Prop where
  head? : x.1.head? = some .empty
  tags : x.2.length = x.1.length

theorem opens_of_mem_trainingExamples {hide : Bool} (hbound : ctx.maxHistory = none)
    {examples : List TrainingExample} (h : trainingExamples ctx ⟨false, hide⟩ d = .ok examples)
    {e : TrainingExample} (he : e ∈ examples) : Opens (e.window, e.entityTags) := by
  have hground := TrainingExample.grounded_of_mem (by rw [hbound]; nofun) h he
  exact ⟨hground.window.head? hbound, hground.entityTags⟩

theorem opens_predictionWindow {v : Visibility} (hbound : ctx.maxHistory = none)
    {x : Window × List (List String)} (h : predictionWindow ctx v d = .ok x) : Opens x := by
  obtain ⟨hwindow, htags⟩ := wellFormed_predictionWindow (by rw [hbound]; nofun) h
  exact ⟨hwindow.head? hbound, htags⟩

end Answers

/-- Without a bound on the history, ignoring the fallback action takes its labels away, and from all
windows its states with their tags. The empty state stays in front. -/
theorem ignoring_removes (ctx : Context) (hbound : ctx.maxHistory = none) (d : Dialogue) :
    (∀ examples, trainingExamples ctx ⟨false, false⟩ d = .ok examples →
      trainingExamples ctx ⟨false, true⟩ d =
        .ok ((examples.filter fun e => e.labelAction ≠ ctx.vocabulary.fallback).map
          (·.withoutAction ctx.digest ctx.vocabulary.fallback))) ∧
    (∀ rules, predictionWindow ctx ⟨rules, true⟩ d =
      (predictionWindow ctx ⟨rules, false⟩ d).map (withoutAction ctx.vocabulary.fallback)) ∧
    (∀ hide examples, trainingExamples ctx ⟨false, hide⟩ d = .ok examples →
      ∀ e ∈ examples, Opens (e.window, e.entityTags)) ∧
    ∀ v x, predictionWindow ctx v d = .ok x → Opens x :=
  ⟨fun _ => trainingExamples_ignoring hbound, predictionWindow_ignoring hbound,
    fun _ _ h _ => opens_of_mem_trainingExamples hbound h,
    fun _ _ => opens_predictionWindow hbound⟩

/-- The fallback action comes between a message and the actions that follow it. -/
theorem ignoring_removes_mumbled :
    let ctx : Context := ⟨.ofNames ["listen", "greet", "fallback"] "fallback",
      some (spanTagger true), none, Blake3.hexDigest⟩
    let act (name : String) : Event := .actionExecuted ⟨name, none, false, false⟩
    let d : Dialogue := ⟨"d", [act "listen", .userUttered ⟨none, [⟨"name", none, 0, 3⟩], some "Ada"⟩,
      act "fallback", act "greet", act "listen"]⟩
    ctx.maxHistory = none ∧
      ∃ examples, trainingExamples ctx ⟨false, false⟩ d = .ok examples ∧
        examples.map (fun e => (e.labelAction, e.entityTags)) = [("listen", [[]]),
          ("fallback", [[], ["name"]]), ("greet", [[], ["name"], []]),
          ("listen", [[], ["name"], [], []])] ∧
        ∃ left, trainingExamples ctx ⟨false, true⟩ d = .ok left ∧
          left.map (fun e => (e.labelAction, e.entityTags)) = [("listen", [[]]),
            ("greet", [[], ["name"]]), ("listen", [[], ["name"], []])] := by
  intro ctx act d
  have hall : ∃ examples, trainingExamples ctx ⟨false, false⟩ d = .ok examples := ⟨_, rfl⟩
  obtain ⟨examples, hexamples⟩ := hall
  refine ⟨rfl, examples, hexamples, ?_, _, (ignoring_removes ctx rfl d).1 examples hexamples, ?_⟩
  all_goals
    cases hexamples
    decide +kernel

end DialogueWindows
