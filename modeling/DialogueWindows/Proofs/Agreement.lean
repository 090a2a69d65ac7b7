import DialogueWindows.Digest.Blake3
import DialogueWindows.Example
import DialogueWindows.Proofs.Log
import DialogueWindows.Proofs.Run
import DialogueWindows.Proofs.Windows
import Mathlib.Data.List.Forall2
import Mathlib.Data.List.ModifyLast

/-! # Training agrees with prediction

A training example shows what a prediction would have seen just before its action was executed
(`trainingExamples_agree`): its window is the prediction window of the events before the action.

The induction is on the log. An action closes the open turn and opens the next, so the one window
that it adds ends with the turns of the events before it; all other events change nothing but the
turn that is open, which no window holds yet. Closing a turn still marks it if a rule chose the
action, and a prediction comes too early for that mark. So the tags are those of the prediction as
long as no rule chose the action or the tagger does not look at the mark. -/

namespace DialogueWindows

open Segmentation Log

/-- A tagger tags the message of a turn: the rule that chooses the next action is no part of it. -/
def EntityTagger.IgnoresRules (tagger : EntityTagger) : Prop :=
  ∀ (t : Turn) (isRuleOnly : Bool), tagger { t with isRuleOnly } = tagger t

theorem spanTagger_ignoresRules (endToEndOnly : Bool) : (spanTagger endToEndOnly).IgnoresRules :=
  fun _ _ => rfl

/-! ### Decisions -/

/-- An action that makes a training example. -/
def Execution.Counts (a : Execution) (v : Visibility) (fallback : String) : Prop :=
  a.unpredictable = false ∧ ¬ (v.ignoreUnlikelyIntent = true ∧ a.name = fallback)

instance (a : Execution) (v : Visibility) (fallback : String) : Decidable (a.Counts v fallback) :=
  inferInstanceAs (Decidable (_ ∧ _))

/-- The actions after the last restart that make training examples, with their positions. -/
def Log.decisions (v : Visibility) (fallback : String) (events : List Event) :
    List (Nat × Execution) :=
  (executions events).filter fun x =>
    (∀ e ∈ events.drop x.1, e.isRestart = false) ∧ x.2.Counts v fallback

section Decisions
variable {v : Visibility} {fallback : String} {events : List Event}

theorem lt_of_mem_decisions {x : Nat × Execution} (h : x ∈ decisions v fallback events) :
    x.1 < events.length :=
  lt_of_mem_executions (List.mem_of_mem_filter h)

theorem decisions_concat_restart : decisions v fallback (events ++ [.restarted]) = [] := by
  refine List.filter_eq_nil_iff.2 fun x hx => ?_
  rw [executions_concat_of_none rfl] at hx
  have hmem : Event.restarted ∈ (events ++ [Event.restarted]).drop x.1 := by
    rw [List.drop_append_of_le_length (lt_of_mem_executions hx).le]
    exact List.mem_append_right _ (List.mem_singleton_self _)
  rw [decide_eq_true_eq]
  intro h
  cases h.1 _ hmem

theorem decisions_concat {e : Event} (he : e.isRestart = false) :
    decisions v fallback (events ++ [e]) = decisions v fallback events ++
      (e.execution?.toList.filter fun a => a.Counts v fallback).map (events.length, ·) := by
  rw [decisions, executions, positions_concat, List.filter_append, ← executions]
  congr 1
  · refine List.filter_congr fun x hx => ?_
    refine decide_eq_decide.2 (and_congr_left' ?_)
    rw [List.drop_append_of_le_length (lt_of_mem_executions hx).le, List.forall_mem_append,
      List.forall_mem_singleton]
    exact and_iff_left he
  · cases e.execution? with
    | none => rfl
    | some a => by_cases ha : a.Counts v fallback <;> simp [ha, he]

end Decisions

/-! ### Windows with tags -/

/-- The window at the end of some turns with the tags of its turns. -/
def endOf (ctx : Context) (turns : List Turn) : Window × List (List String) :=
  (finalWindow turns ctx.maxHistory,
    entityTags ctx.tagger ((finalSpan turns ctx.maxHistory).slice turns))

/-- The labels of some turns, each with the window before it and the tags of its turns. -/
def labelled (ctx : Context) (turns : List Turn) : List (String × Window × List (List String)) :=
  (labelledWindows turns ctx.maxHistory).map fun w =>
    (w.label, w.window, entityTags ctx.tagger (w.span.slice turns))

section Windows
variable {ctx : Context} {turns : List Turn} {t t' : Turn} {hide : Bool}

theorem labelled_concat (ctx : Context) (turns : List Turn) (t : Turn) :
    labelled ctx (turns ++ [t]) =
      labelled ctx turns ++ (t.label?.map fun l => (l, endOf ctx turns)).toList := by
  rw [labelled, labelledWindows_concat, List.map_append]
  congr 1
  · refine List.map_congr_left fun w hw => ?_
    rw [Span.slice_append (stop_le_of_mem_labelledWindows hw)]
  · cases t.label? with
    | none => rfl
    | some l =>
      have hslice : (finalSpan turns ctx.maxHistory).slice (turns ++ [t]) =
          (finalSpan turns ctx.maxHistory).slice turns := Span.slice_append (Nat.le_refl turns.length)
      show [(l, _, entityTags ctx.tagger _)] = _
      rw [hslice]
      rfl

theorem visible_concat (turns : List Turn) (t : Turn) :
    visible ⟨false, hide⟩ (turns ++ [t]) =
      visible ⟨false, hide⟩ turns ++ if hide && t.isUnlikelyIntent then [] else [t] := by
  cases hide with
  | false => rfl
  | true =>
    show removeUnlikelyIntent (turns ++ [t]) = removeUnlikelyIntent turns ++ _
    rw [removeUnlikelyIntent, List.filter_append]
    cases h : t.isUnlikelyIntent <;> simp [removeUnlikelyIntent, h]

/-- The last turn counts by its label alone. -/
theorem labelled_visible_concat (hlabel : t'.label? = t.label?)
    (hunlikely : t'.isUnlikelyIntent = t.isUnlikelyIntent) :
    labelled ctx (visible ⟨false, hide⟩ (turns ++ [t'])) =
      labelled ctx (visible ⟨false, hide⟩ (turns ++ [t])) := by
  rw [visible_concat, visible_concat, hunlikely]
  split
  · rfl
  · rw [labelled_concat, labelled_concat, hlabel]

theorem endOf_eq (ctx : Context) (turns : List Turn) :
    endOf ctx turns = (recent ctx.maxHistory (turns.map (·.state)),
      recent ctx.maxHistory (turns.map fun t => (ctx.tagger.map (· t)).getD [])) := by
  rw [recent_map, recent_map]
  rfl

/-- The mark on the last turn shows in nothing but its tags. -/
theorem endOf_visible_concat (t t' : Turn) (hunlikely : t'.isUnlikelyIntent = t.isUnlikelyIntent)
    (hstate : t'.state = t.state) :
    (endOf ctx (visible ⟨false, hide⟩ (turns ++ [t']))).1 =
        (endOf ctx (visible ⟨false, hide⟩ (turns ++ [t]))).1 ∧
      ((∀ tagger, ctx.tagger = some tagger → tagger t' = tagger t) →
        endOf ctx (visible ⟨false, hide⟩ (turns ++ [t'])) =
          endOf ctx (visible ⟨false, hide⟩ (turns ++ [t]))) := by
  have hmap : ∀ {β : Type} (f : Turn → β), f t' = f t →
      (visible ⟨false, hide⟩ (turns ++ [t'])).map f =
        (visible ⟨false, hide⟩ (turns ++ [t])).map f := by
    intro β f hf
    rw [visible_concat, visible_concat, hunlikely, List.map_append, List.map_append]
    split
    · rfl
    · rw [List.map_singleton, List.map_singleton, hf]
  rw [endOf_eq, endOf_eq, hmap _ hstate]
  refine ⟨rfl, fun htag => ?_⟩
  rw [hmap]
  cases h : ctx.tagger with
  | none => rfl
  | some tagger => exact htag tagger h

end Windows

/-! ### The windows of a log -/

variable {ctx : Context} {hide : Bool} {events : List Event} {s : Segmentation}

/-- What an action that comes after some events makes of them: its name and the window at their end,
the rule that chose the action being marked. -/
def draft (ctx : Context) (v : Visibility) (events : List Event) (a : Execution) :
    Except Failure (String × Window × List (List String)) := do
  let s ← Segmentation.start.run ctx.vocabulary.fallback 0 events
  return (a.name, endOf ctx (visible v (s.execute ctx.vocabulary.fallback a).closed))

theorem labelled_execute (a : Execution) :
    labelled ctx (visible ⟨false, hide⟩ (s.execute ctx.vocabulary.fallback a).turns) =
      labelled ctx (visible ⟨false, hide⟩ s.turns) ++
        ([a].filter fun a => a.Counts ⟨false, hide⟩ ctx.vocabulary.fallback).map fun a =>
          (a.name, endOf ctx (visible ⟨false, hide⟩
            (s.execute ctx.vocabulary.fallback a).closed)) := by
  have hclosed : labelled ctx (visible ⟨false, hide⟩ (s.execute ctx.vocabulary.fallback a).closed) =
      labelled ctx (visible ⟨false, hide⟩ s.turns) :=
    labelled_visible_concat rfl rfl
  rw [turns, visible_concat]
  have hlabel : (s.execute ctx.vocabulary.fallback a).closing.label? =
      if a.unpredictable then none else some a.name := rfl
  have hunlikely : (s.execute ctx.vocabulary.fallback a).closing.isUnlikelyIntent =
      (a.name == ctx.vocabulary.fallback) := rfl
  have hcounts : a.Counts ⟨false, hide⟩ ctx.vocabulary.fallback ↔
      a.unpredictable = false ∧ ¬ (hide && a.name == ctx.vocabulary.fallback) = true := by
    rw [Execution.Counts, Bool.and_eq_true, beq_iff_eq]
  rw [hunlikely]
  by_cases hhide : (hide && a.name == ctx.vocabulary.fallback) = true
  · rw [if_pos hhide, List.append_nil, hclosed, List.filter_cons_of_neg (by simp [hcounts, hhide])]
    exact (List.append_nil _).symm
  · rw [if_neg hhide, labelled_concat, hclosed, hlabel]
    congr 1
    cases hp : a.unpredictable with
    | true => rw [List.filter_cons_of_neg (by simp [hcounts, hp])]; rfl
    | false => rw [List.filter_cons_of_pos (by simp [hcounts, hp, hhide])]; rfl

/-- The labelled windows of a log are the drafts of its actions. -/
theorem labelled_of_run (hide : Bool)
    (h : Segmentation.start.run ctx.vocabulary.fallback 0 events = .ok s) :
    (labelled ctx (visible ⟨false, hide⟩ s.turns)).map .ok =
      (decisions ⟨false, hide⟩ ctx.vocabulary.fallback events).map fun x =>
        draft ctx ⟨false, hide⟩ (events.take x.1) x.2 := by
  refine run_induction (P := fun events s =>
    (labelled ctx (visible ⟨false, hide⟩ s.turns)).map .ok =
      (decisions ⟨false, hide⟩ ctx.vocabulary.fallback events).map fun x =>
        draft ctx ⟨false, hide⟩ (events.take x.1) x.2) ?_ ?_ h
  · cases hide <;> rfl
  · intro events s e s' hrun ih hs
    by_cases he : e.isRestart = true
    · cases hs with
      | restart =>
        rw [decisions_concat_restart]
        cases hide <;> rfl
      | _ => cases he
    have hprefix : ((decisions ⟨false, hide⟩ ctx.vocabulary.fallback events).map fun x =>
        draft ctx ⟨false, hide⟩ ((events ++ [e]).take x.1) x.2) =
        (labelled ctx (visible ⟨false, hide⟩ s.turns)).map .ok := by
      rw [ih]
      refine List.map_congr_left fun x hx => ?_
      rw [List.take_append_of_le_length (lt_of_mem_decisions hx).le]
    rw [decisions_concat (Bool.eq_false_iff.2 he), List.map_append, hprefix]
    cases hs with
    | execute a =>
      rw [labelled_execute, List.map_append]
      congr 1
      rw [List.map_map, List.map_map]
      refine List.map_congr_left fun b hb => ?_
      obtain rfl := List.mem_singleton.1 (List.mem_of_mem_filter hb)
      show _ = draft ctx _ ((events ++ [_]).take events.length) b
      rw [List.take_left, draft, hrun]
      rfl
    | restart => exact absurd rfl he
    | utter | setSlot | setLoop =>
      -- only the open turn changes, and it keeps its label
      exact List.append_nil _ ▸ congrArg _ (labelled_visible_concat rfl rfl)

theorem forall₂_draft (hide : Bool)
    (h : Segmentation.start.run ctx.vocabulary.fallback 0 events = .ok s) :
    List.Forall₂ (fun x y => draft ctx ⟨false, hide⟩ (events.take x.1) x.2 = .ok y)
      (decisions ⟨false, hide⟩ ctx.vocabulary.fallback events)
      (labelled ctx (visible ⟨false, hide⟩ s.turns)) := by
  have hdrafts := labelled_of_run hide h
  rw [← List.forall₂_eq_eq_eq, List.forall₂_map_left_iff, List.forall₂_map_right_iff] at hdrafts
  exact hdrafts.flip.imp fun x y hxy => hxy.symm

/-! ### Examples -/

variable {d : Dialogue}

/-- The example of a draft; fails if its action is not in the vocabulary. -/
def TrainingExample.ofDraft (ctx : Context) (dialogueId : String)
    (x : String × Window × List (List String)) : Except Failure TrainingExample := do
  let label ← ctx.vocabulary.label x.1
  return {
    dialogueId
    window := x.2.1
    labelAction := x.1
    label
    entityTags := x.2.2
    contentHash := exampleHash ctx.digest x.2.1 x.1 }

theorem mapM_ofWindow (ctx : Context) (dialogueId : String) (turns : List Turn) :
    (labelledWindows turns ctx.maxHistory).mapM (TrainingExample.ofWindow ctx dialogueId turns) =
      (labelled ctx turns).mapM (TrainingExample.ofDraft ctx dialogueId) := by
  rw [labelled, List.mapM_map]
  rfl

theorem trainingExamples_eq (v : Visibility)
    (h : Segmentation.start.run ctx.vocabulary.fallback 0 d.events = .ok s) :
    trainingExamples ctx v d =
      (labelled ctx (visible v s.turns)).mapM (TrainingExample.ofDraft ctx d.id) := by
  rw [← mapM_ofWindow, trainingExamples, visibleTurns, segment, h]
  rfl

theorem predictionWindow_eq (v : Visibility)
    (h : Segmentation.start.run ctx.vocabulary.fallback 0 d.events = .ok s) :
    predictionWindow ctx v d = .ok (endOf ctx (visible v s.turns)) := by
  rw [predictionWindow, visibleTurns, segment, h]
  rfl

/-- The turns of a log as its next action leaves them: a rule that chose it marks the last. -/
def Execution.mark (a : Execution) (turns : List Turn) : List Turn :=
  turns.modifyLast fun t => { t with isRuleOnly := t.isRuleOnly || a.hideRuleTurn }

theorem Segmentation.mark_turns (s : Segmentation) (a : Execution) :
    a.mark s.turns =
      s.closed ++ [{ s.closing with isRuleOnly := s.closing.isRuleOnly || a.hideRuleTurn }] :=
  List.modifyLast_concat _ s.closing s.closed

/-- The mark shows in no window, and in the tags only to a tagger that looks at it. -/
theorem Segmentation.endOf_mark (ctx : Context) (hide : Bool) (s : Segmentation) (a : Execution) :
    (endOf ctx (visible ⟨false, hide⟩ (a.mark s.turns))).1 =
        (endOf ctx (visible ⟨false, hide⟩ s.turns)).1 ∧
      (a.hideRuleTurn = false ∨ (∀ tagger, ctx.tagger = some tagger → tagger.IgnoresRules) →
        endOf ctx (visible ⟨false, hide⟩ (a.mark s.turns)) =
          endOf ctx (visible ⟨false, hide⟩ s.turns)) := by
  rw [mark_turns, Segmentation.turns]
  obtain ⟨hwindow, htags⟩ := endOf_visible_concat s.closing
    { s.closing with isRuleOnly := s.closing.isRuleOnly || a.hideRuleTurn } rfl rfl
  refine ⟨hwindow, fun hmark => htags fun tagger htagger => ?_⟩
  rcases hmark with hrule | hignores
  · rw [hrule, Bool.or_false]
  · exact hignores tagger htagger s.closing _

/-- `e` is the example of the action `x.2` that was executed at the position `x.1`. -/
structure Anticipated (ctx : Context) (v : Visibility) (d : Dialogue) (x : Nat × Execution)
    (e : TrainingExample) : Prop where
  /-- The window is the prediction window of the events before the action. -/
  window : ∃ tags,
    predictionWindow ctx v { d with events := d.events.take x.1 } = .ok (e.window, tags)
  /-- The tags are those of the same turns, the last of them as the action leaves it. -/
  entityTags : ∃ turns, segment (d.events.take x.1) ctx.vocabulary.fallback = .ok turns ∧
    e.entityTags = (endOf ctx (visible v (x.2.mark turns))).2
  labelAction : e.labelAction = x.2.name
  label : ctx.vocabulary.index? x.2.name = some e.label
  contentHash : e.contentHash = exampleHash ctx.digest e.window e.labelAction
  dialogueId : e.dialogueId = d.id

/-- Where the mark does not count, the tags are those of the prediction. -/
theorem Anticipated.prediction {x : Nat × Execution} {e : TrainingExample}
    (h : Anticipated ctx ⟨false, hide⟩ d x e)
    (hmark : x.2.hideRuleTurn = false ∨
      ∀ tagger, ctx.tagger = some tagger → tagger.IgnoresRules) :
    predictionWindow ctx ⟨false, hide⟩ { d with events := d.events.take x.1 } =
      .ok (e.window, e.entityTags) := by
  obtain ⟨tags, hwindow⟩ := h.window
  obtain ⟨turns, hturns, htags⟩ := h.entityTags
  obtain ⟨s, hs, rfl⟩ := segment_eq_ok_iff.1 hturns
  have hend := (s.endOf_mark ctx hide x.2).2 hmark
  have hprediction := predictionWindow_eq ⟨false, hide⟩
    (d := { d with events := d.events.take x.1 }) hs
  rw [hwindow, Except.ok.injEq] at hprediction
  rw [hwindow, htags, hend, ← hprediction]

theorem anticipated_of_draft {x : Nat × Execution} {y : String × Window × List (List String)}
    {e : TrainingExample} (hdraft : draft ctx ⟨false, hide⟩ (d.events.take x.1) x.2 = .ok y)
    (he : TrainingExample.ofDraft ctx d.id y = .ok e) : Anticipated ctx ⟨false, hide⟩ d x e := by
  obtain ⟨s, hs, hy⟩ := exists_ok_of_bind hdraft
  obtain ⟨label, hlabel, he⟩ := exists_ok_of_bind he
  obtain rfl := Except.ok.inj hy
  obtain rfl := Except.ok.inj he
  have hwindow := (s.endOf_mark ctx hide x.2).1
  rw [s.mark_turns] at hwindow
  refine ⟨⟨(endOf ctx (visible ⟨false, hide⟩ s.turns)).2, ?_⟩,
    ⟨s.turns, segment_eq_ok_iff.2 ⟨s, hs, rfl⟩, ?_⟩, rfl, ?_, rfl, rfl⟩
  · rw [predictionWindow_eq _ hs]
    exact congrArg Except.ok (Prod.ext hwindow.symm rfl)
  · rw [s.mark_turns]
    rfl
  · unfold Vocabulary.label at hlabel
    split at hlabel
    · rename_i i hi
      rw [hi, Except.ok.inj hlabel]
    · cases hlabel

theorem ofDraft_eq {x : Nat × Execution} {y : String × Window × List (List String)} {v : Visibility}
    (hdraft : draft ctx v (d.events.take x.1) x.2 = .ok y) :
    TrainingExample.ofDraft ctx d.id y = (ctx.vocabulary.label x.2.name).map fun label =>
      { dialogueId := d.id, window := y.2.1, labelAction := x.2.name, label, entityTags := y.2.2,
        contentHash := exampleHash ctx.digest y.2.1 x.2.name } := by
  obtain ⟨s, -, hy⟩ := exists_ok_of_bind hdraft
  obtain rfl := Except.ok.inj hy
  unfold TrainingExample.ofDraft
  cases ctx.vocabulary.label x.2.name <;> rfl

theorem Vocabulary.label_eq_ok (v : Vocabulary) {action : String}
    (h : (v.index? action).isSome = true) : ∃ i, v.label action = .ok i := by
  obtain ⟨i, hi⟩ := Option.isSome_iff_exists.1 h
  exact ⟨i, by rw [label, hi]⟩

theorem mapM_ofDraft_eq_ok {xs : List (Nat × Execution)}
    {ys : List (String × Window × List (List String))}
    (h : List.Forall₂ (fun x y => draft ctx ⟨false, hide⟩ (d.events.take x.1) x.2 = .ok y) xs ys)
    (hknown : ∀ x ∈ xs, (ctx.vocabulary.index? x.2.name).isSome = true) :
    ∃ examples, ys.mapM (TrainingExample.ofDraft ctx d.id) = .ok examples ∧
      List.Forall₂ (Anticipated ctx ⟨false, hide⟩ d) xs examples := by
  induction h with
  | nil => exact ⟨[], rfl, .nil⟩
  | @cons x y xs ys hxy _ ih =>
    obtain ⟨label, hlabel⟩ := ctx.vocabulary.label_eq_ok (hknown x (List.mem_cons_self ..))
    obtain ⟨examples, hexamples, hall⟩ := ih fun x hx => hknown x (List.mem_cons_of_mem _ hx)
    have he := ofDraft_eq hxy
    rw [hlabel] at he
    refine ⟨_ :: examples, ?_, .cons (anticipated_of_draft hxy he) hall⟩
    rw [mapM_cons_eq, he, hexamples]
    rfl

theorem mapM_ofDraft_eq_error {before after : List (Nat × Execution)} {x : Nat × Execution}
    {ys : List (String × Window × List (List String))}
    (h : List.Forall₂ (fun x y => draft ctx ⟨false, hide⟩ (d.events.take x.1) x.2 = .ok y)
      (before ++ x :: after) ys)
    (hknown : ∀ y ∈ before, (ctx.vocabulary.index? y.2.name).isSome = true)
    (hx : ctx.vocabulary.index? x.2.name = none) :
    ys.mapM (TrainingExample.ofDraft ctx d.id) = .error (.unknownAction x.2.name) := by
  induction before generalizing ys with
  | nil =>
    obtain ⟨y, ys, hxy, -, rfl⟩ := List.forall₂_cons_left_iff.1 h
    rw [mapM_cons_eq, ofDraft_eq hxy, Vocabulary.label, hx]
    rfl
  | cons z before ih =>
    obtain ⟨y, ys, hzy, hrest, rfl⟩ := List.forall₂_cons_left_iff.1 h
    obtain ⟨label, hlabel⟩ := ctx.vocabulary.label_eq_ok (hknown z (List.mem_cons_self ..))
    rw [mapM_cons_eq, ofDraft_eq hzy, hlabel,
      ih hrest fun y hy => hknown y (List.mem_cons_of_mem _ hy)]
    rfl

/-- Each action that makes an example makes the one that the prediction before it anticipates, tags
and all unless a rule chose the action and the tagger looks at that. The first action that is not in
the vocabulary fails the dialogue. -/
theorem trainingExamples_agree (ctx : Context) (hide : Bool) (d : Dialogue) {turns : List Turn}
    (h : segment d.events ctx.vocabulary.fallback = .ok turns) :
    ((∀ x ∈ decisions ⟨false, hide⟩ ctx.vocabulary.fallback d.events,
        (ctx.vocabulary.index? x.2.name).isSome = true) →
      ∃ examples, trainingExamples ctx ⟨false, hide⟩ d = .ok examples ∧
        List.Forall₂ (Anticipated ctx ⟨false, hide⟩ d)
          (decisions ⟨false, hide⟩ ctx.vocabulary.fallback d.events) examples ∧
        List.Forall₂ (fun x e => x.2.hideRuleTurn = false ∨
            (∀ tagger, ctx.tagger = some tagger → tagger.IgnoresRules) →
          predictionWindow ctx ⟨false, hide⟩ { d with events := d.events.take x.1 } =
            .ok (e.window, e.entityTags))
          (decisions ⟨false, hide⟩ ctx.vocabulary.fallback d.events) examples) ∧
      ∀ before x after,
        decisions ⟨false, hide⟩ ctx.vocabulary.fallback d.events = before ++ x :: after →
        (∀ y ∈ before, (ctx.vocabulary.index? y.2.name).isSome = true) →
        ctx.vocabulary.index? x.2.name = none →
        trainingExamples ctx ⟨false, hide⟩ d = .error (.unknownAction x.2.name) := by
  obtain ⟨s, hs, rfl⟩ := segment_eq_ok_iff.1 h
  have hdrafts := forall₂_draft hide hs
  rw [trainingExamples_eq _ hs]
  refine ⟨fun hknown => ?_, fun before x after hsplit hknown hx => ?_⟩
  · obtain ⟨examples, hexamples, hall⟩ := mapM_ofDraft_eq_ok hdrafts hknown
    exact ⟨examples, hexamples, hall, hall.imp fun x e hxe => hxe.prediction⟩
  · rw [hsplit] at hdrafts
    exact mapM_ofDraft_eq_error hdrafts hknown hx

/-- A restart, an action that a rule chose, and a fallback action that is ignored. -/
theorem trainingExamples_agree_restarted :
    let ctx : Context := ⟨.ofNames ["listen", "greet"] "fallback", some (spanTagger true), some 2,
      Blake3.hexDigest⟩
    let listen : Execution := ⟨"listen", none, false, false⟩
    let greet : Execution := ⟨"greet", none, true, false⟩
    let d : Dialogue := ⟨"d", [.actionExecuted greet, .restarted, .actionExecuted listen,
      .userUttered ⟨none, [⟨"name", none, 0, 3⟩], some "Ada"⟩,
      .actionExecuted ⟨"fallback", none, false, false⟩, .actionExecuted greet]⟩
    ∃ examples, trainingExamples ctx ⟨false, true⟩ d = .ok examples ∧
      List.Forall₂ (Anticipated ctx ⟨false, true⟩ d) [(2, listen), (5, greet)] examples ∧
      List.Forall₂ (fun x e =>
        predictionWindow ctx ⟨false, true⟩ { d with events := d.events.take x.1 } =
          .ok (e.window, e.entityTags)) [(2, listen), (5, greet)] examples := by
  intro ctx listen greet d
  have hdecisions : decisions ⟨false, true⟩ ctx.vocabulary.fallback d.events =
      [(2, listen), (5, greet)] := by decide
  have hignores : ∀ tagger, ctx.tagger = some tagger → tagger.IgnoresRules := by
    intro tagger htagger
    rw [← Option.some.inj htagger]
    exact spanTagger_ignoresRules true
  obtain ⟨examples, hexamples, hall, hprediction⟩ :=
    (trainingExamples_agree ctx true d rfl).1 (by rw [hdecisions]; decide)
  rw [hdecisions] at hall hprediction
  exact ⟨examples, hexamples, hall, hprediction.imp fun x e h => h (.inr hignores)⟩

/-- A tagger that looks at the mark sees it in training only: the prediction is made before the rule
has chosen the action. -/
theorem trainingExamples_mark :
    let tagger : EntityTagger := fun t => if t.isRuleOnly then ["R"] else []
    let ctx : Context := ⟨.ofNames ["listen"] "fallback", some tagger, none, Blake3.hexDigest⟩
    let listen : Execution := ⟨"listen", none, true, false⟩
    let d : Dialogue := ⟨"d", [.actionExecuted listen]⟩
    decisions ⟨false, false⟩ ctx.vocabulary.fallback d.events = [(0, listen)] ∧
      (trainingExamples ctx ⟨false, false⟩ d).map (·.map fun e => (e.window, e.entityTags)) =
        .ok [([.empty], [["R"]])] ∧
      predictionWindow ctx ⟨false, false⟩ { d with events := d.events.take 0 } =
        .ok ([.empty], [[]]) := by
  intro tagger ctx listen d
  exact ⟨by decide, rfl, rfl⟩

end DialogueWindows
