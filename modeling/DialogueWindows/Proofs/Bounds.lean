import DialogueWindows.Proofs.Isolation

/-! # Bounds on the history

A bound on the history cuts every window, and its tags with it, to the last entries of what it would
be without a bound. Labels, dialogue ids and failures stay as they are, whatever is hidden
(`bound_cuts`). Cutting twice is cutting once, to the smaller bound (`recent_recent`). -/

namespace DialogueWindows

/-! ### Lists and turns -/

section Lists
variable {α : Type} {xs : List α}

theorem ending_some (k : Nat) (xs : List α) : ending (some k) xs = xs.drop (xs.length - k) :=
  rfl

theorem ending_ending (a b : Option Nat) (xs : List α) :
    ending b (ending a xs) = ending (Option.merge min a b) xs := by
  cases a with
  | none => cases b <;> rfl
  | some k =>
    cases b with
    | none => rfl
    | some l =>
      show ending (some l) (ending (some k) xs) = ending (some (min k l)) xs
      rw [ending_some, ending_some, ending_some, List.drop_drop, List.length_drop]
      congr 1
      omega

/-- Two bounds act like the smaller one, none being the greatest. -/
theorem recent_recent (a b : Option Nat) (xs : List α) :
    recent b (recent a xs) = recent (Option.merge min a b) xs := by
  rw [recent_eq_ending, recent_eq_ending, recent_eq_ending, ending_ending]

theorem Span.slice_before {stop : Nat} (h : stop ≤ xs.length) (maxHistory : Option Nat) :
    (before stop maxHistory).slice xs = ending maxHistory ((before stop none).slice xs) := by
  show (xs.take stop).drop _ = ending maxHistory (xs.take stop)
  cases maxHistory with
  | none => exact List.drop_zero
  | some k => rw [ending_some, List.length_take_of_le h]; rfl

theorem Span.start_le_stop (stop : Nat) (maxHistory : Option Nat) :
    (before stop maxHistory).start ≤ stop := by
  cases maxHistory with
  | none => exact Nat.zero_le _
  | some k => exact Nat.sub_le _ _

theorem ending_map {β : Type} (f : α → β) (maxHistory : Option Nat) (xs : List α) :
    ending maxHistory (xs.map f) = (ending maxHistory xs).map f := by
  rw [← recent_eq_ending, recent_map, recent_eq_ending]

end Lists

theorem mapM_eq_map_of_forall₂ {ε α β γ δ : Type} {f : α → Except ε γ} {f' : β → Except ε δ}
    {g : δ → γ} {xs : List α} {ys : List β}
    (h : List.Forall₂ (fun x y => f x = (f' y).map g) xs ys) :
    xs.mapM f = (ys.mapM f').map (List.map g) := by
  induction h with
  | nil => rfl
  | @cons x y xs ys hxy _ ih =>
    rw [mapM_cons_eq, mapM_cons_eq, hxy, ih]
    cases f' y with
    | error e => rfl
    | ok z => cases ys.mapM f' <;> rfl

/-- A labelled window is what is left of one without a bound. -/
structure LabelledWindow.CutOf (maxHistory : Option Nat) (turns : List Turn)
    (bounded unbounded : LabelledWindow) : Prop where
  label : bounded.label = unbounded.label
  stop : bounded.span.stop = unbounded.span.stop
  window : bounded.window = ending maxHistory unbounded.window
  within : bounded.span.start ≤ bounded.span.stop ∧ bounded.span.stop ≤ turns.length
  slice : bounded.span.slice turns = ending maxHistory (unbounded.span.slice turns)

theorem cutOf_windowOf {turns : List Turn} (maxHistory : Option Nat) {x : Nat × String}
    (h : x ∈ labels turns) :
    (windowOf turns maxHistory x).CutOf maxHistory turns (windowOf turns none x) := by
  have hx := (lt_of_mem_positions h).le
  have hslice := Span.slice_before hx maxHistory
  refine ⟨rfl, rfl, ?_, ⟨Span.start_le_stop _ _, hx⟩, hslice⟩
  show ((Span.before x.1 maxHistory).slice turns).map _ = _
  rw [hslice, ← ending_map]
  rfl

theorem labelledWindows_cutOf (turns : List Turn) (maxHistory : Option Nat) :
    List.Forall₂ (LabelledWindow.CutOf maxHistory turns) (labelledWindows turns maxHistory)
      (labelledWindows turns none) := by
  rw [labelledWindows_eq, labelledWindows_eq, List.forall₂_map_left_iff, List.forall₂_map_right_iff,
    List.forall₂_same]
  exact fun x hx => cutOf_windowOf maxHistory hx

/-! ### One dialogue -/

def Context.withBound (ctx : Context) (maxHistory : Option Nat) : Context :=
  { ctx with maxHistory }

/-- The example with its window and tags cut. -/
def TrainingExample.cut (digest : String → String) (maxHistory : Option Nat) (e : TrainingExample) :
    TrainingExample :=
  { e with
    window := ending maxHistory e.window
    entityTags := ending maxHistory e.entityTags
    contentHash := exampleHash digest (ending maxHistory e.window) e.labelAction }

theorem entityTags_ending (tagger : Option EntityTagger) (maxHistory : Option Nat)
    (turns : List Turn) :
    entityTags tagger (ending maxHistory turns) = ending maxHistory (entityTags tagger turns) :=
  (ending_map _ maxHistory turns).symm

theorem ofWindow_withBound {turns : List Turn} {maxHistory : Option Nat} {w w₀ : LabelledWindow}
    (h : w.CutOf maxHistory turns w₀) (ctx : Context) (id : String) :
    TrainingExample.ofWindow (ctx.withBound maxHistory) id turns w =
      (TrainingExample.ofWindow (ctx.withBound none) id turns w₀).map
        (·.cut ctx.digest maxHistory) := by
  unfold TrainingExample.ofWindow
  rw [h.label, h.window, h.slice, entityTags_ending]
  show (ctx.vocabulary.label w₀.label >>= _) = (ctx.vocabulary.label w₀.label >>= _).map _
  cases ctx.vocabulary.label w₀.label <;> rfl

theorem trainingExamples_withBound (ctx : Context) (maxHistory : Option Nat) (v : Visibility)
    (d : Dialogue) :
    trainingExamples (ctx.withBound maxHistory) v d =
      (trainingExamples (ctx.withBound none) v d).map
        (List.map (·.cut ctx.digest maxHistory)) := by
  have hturns (turns : List Turn) :
      (labelledWindows turns maxHistory).mapM
          (TrainingExample.ofWindow (ctx.withBound maxHistory) d.id turns) =
        ((labelledWindows turns none).mapM
          (TrainingExample.ofWindow (ctx.withBound none) d.id turns)).map
          (List.map (·.cut ctx.digest maxHistory)) :=
    mapM_eq_map_of_forall₂ ((labelledWindows_cutOf turns maxHistory).imp fun w w₀ h =>
      ofWindow_withBound h ctx d.id)
  show (visibleTurns ctx v d >>= _) = (visibleTurns ctx v d >>= _).map _
  cases visibleTurns ctx v d with
  | error failure => rfl
  | ok turns => exact hturns turns

theorem predictionWindow_withBound (ctx : Context) (maxHistory : Option Nat) (v : Visibility)
    (d : Dialogue) :
    predictionWindow (ctx.withBound maxHistory) v d =
      (predictionWindow (ctx.withBound none) v d).map
        (Prod.map (ending maxHistory) (ending maxHistory)) := by
  have hturns (turns : List Turn) :
      (windowAt turns (finalSpan turns maxHistory),
          entityTags ctx.tagger ((finalSpan turns maxHistory).slice turns)) =
        Prod.map (ending maxHistory) (ending maxHistory)
          (windowAt turns (finalSpan turns none),
            entityTags ctx.tagger ((finalSpan turns none).slice turns)) := by
    rw [windowAt, finalSpan, Span.slice_before (le_refl _), entityTags_ending, ← ending_map]
    rfl
  show (visibleTurns ctx v d >>= _) = (visibleTurns ctx v d >>= _).map _
  cases visibleTurns ctx v d with
  | error failure => rfl
  | ok turns => exact congrArg Except.ok (hturns turns)

/-! ### Batches -/

section Outcomes
variable {α β : Type} {outcome : Dialogue → Except Failure α} {g : α → β}

theorem yields_map (outcome : Dialogue → Except Failure α) (g : α → β) (ds : List Dialogue) :
    yields (fun d => (outcome d).map g) ds = (yields outcome ds).map g := by
  rw [yields, yields, List.map_filterMap]
  refine List.filterMap_congr fun d _ => ?_
  cases outcome d <;> rfl

theorem failuresOf_map (outcome : Dialogue → Except Failure α) (g : α → β) (ds : List Dialogue) :
    failuresOf (fun d => (outcome d).map g) ds = failuresOf outcome ds := by
  refine List.filterMap_congr fun d _ => ?_
  beta_reduce
  cases outcome d <;> rfl

theorem succeeding_map (outcome : Dialogue → Except Failure α) (g : α → β) (ds : List Dialogue) :
    succeeding (fun d => (outcome d).map g) ds = succeeding outcome ds := by
  refine List.filter_congr fun d _ => ?_
  beta_reduce
  cases outcome d <;> rfl

end Outcomes

def TrainingStates.cut (maxHistory : Option Nat) (s : TrainingStates) : TrainingStates :=
  { s with
    windows := s.windows.map (ending maxHistory)
    entityTags := s.entityTags.map (ending maxHistory) }

def PredictionStates.cut (maxHistory : Option Nat) (s : PredictionStates) : PredictionStates :=
  { s with
    windows := s.windows.map (ending maxHistory)
    entityTags := s.entityTags.map (ending maxHistory) }

theorem TrainingStates.ofExamples_cut (digest : String → String) (maxHistory : Option Nat)
    (xs : List TrainingExample) :
    ofExamples (xs.map (·.cut digest maxHistory)) = (ofExamples xs).cut maxHistory := by
  unfold ofExamples cut
  simp only [List.map_map]
  rfl

namespace Engine

def withBound (e : Engine) (maxHistory : Option Nat) : Engine :=
  { e with config := { e.config with maxHistory } }

theorem trainingStates_withBound {e : Engine} (h : e.config.removeDuplicates = false)
    (maxHistory : Option Nat) (hide : Bool) (ds : List Dialogue) :
    (e.withBound maxHistory).trainingStates hide ds =
      ((e.withBound none).trainingStates hide ds).map (·.cut maxHistory) := by
  have hmerge (bound : Option Nat) (xs : List TrainingExample) :
      (e.withBound bound).merge xs = xs := if_neg (by rw [Bool.not_eq_true]; exact h)
  have houtcome : trainingExamples (e.withBound maxHistory).context ⟨false, hide⟩ = fun d =>
      (trainingExamples (e.withBound none).context ⟨false, hide⟩ d).map
        (List.map (·.cut e.encoder.digest maxHistory)) :=
    funext fun d => trainingExamples_withBound e.context maxHistory ⟨false, hide⟩ d
  rw [trainingStates, trainingStates, examples_eq, examples_eq, hmerge, hmerge, houtcome,
    yields_map, failuresOf_map, ← List.map_flatten, Batch.map, TrainingStates.ofExamples_cut]
  rfl

theorem predictionStates_withBound (e : Engine) (maxHistory : Option Nat) (v : Visibility)
    (ds : List Dialogue) :
    (e.withBound maxHistory).predictionStates v ds =
      ((e.withBound none).predictionStates v ds).map (·.cut maxHistory) := by
  have houtcome : predictionWindow (e.withBound maxHistory).context v = fun d =>
      (predictionWindow (e.withBound none).context v d).map
        (Prod.map (ending maxHistory) (ending maxHistory)) :=
    funext fun d => predictionWindow_withBound e.context maxHistory v d
  rw [predictionStates_eq, predictionStates_eq, houtcome, yields_map, failuresOf_map,
    succeeding_map, List.map_map, List.map_map]
  simp only [Batch.map, PredictionStates.cut, List.map_map]
  rfl

end Engine

/-- In every answer a bound cuts the windows and their tags and does nothing else: for batches, for
single dialogues, and for the windows of any list of turns. -/
theorem bound_cuts (maxHistory : Option Nat) :
    (∀ (e : Engine) (hide : Bool) (ds : List Dialogue), e.config.removeDuplicates = false →
      (e.withBound maxHistory).trainingStates hide ds =
        ((e.withBound none).trainingStates hide ds).map (·.cut maxHistory)) ∧
    (∀ (e : Engine) (v : Visibility) (ds : List Dialogue),
      (e.withBound maxHistory).predictionStates v ds =
        ((e.withBound none).predictionStates v ds).map (·.cut maxHistory)) ∧
    (∀ (ctx : Context) (v : Visibility) (d : Dialogue),
      trainingExamples (ctx.withBound maxHistory) v d =
        (trainingExamples (ctx.withBound none) v d).map
          (List.map (·.cut ctx.digest maxHistory)) ∧
      predictionWindow (ctx.withBound maxHistory) v d =
        (predictionWindow (ctx.withBound none) v d).map
          (Prod.map (ending maxHistory) (ending maxHistory))) ∧
    (∀ turns : List Turn,
      List.Forall₂ (LabelledWindow.CutOf maxHistory turns) (labelledWindows turns maxHistory)
        (labelledWindows turns none)) ∧
    ∀ (α : Type) (b : Option Nat) (xs : List α),
      recent b (recent maxHistory xs) = recent (Option.merge min maxHistory b) xs :=
  ⟨fun _ _ _ h => Engine.trainingStates_withBound h maxHistory _ _,
    fun e => e.predictionStates_withBound maxHistory,
    fun ctx v d => ⟨trainingExamples_withBound ctx maxHistory v d,
      predictionWindow_withBound ctx maxHistory v d⟩,
    fun turns => labelledWindows_cutOf turns maxHistory,
    fun _ b xs => recent_recent maxHistory b xs⟩

/-- One of two dialogues fails, and the message of the other is cut off with the turn it is in. -/
theorem bound_cuts_to_one :
    let e : Engine := ⟨{ FeaturizerConfig.default with removeDuplicates := false },
      .ofNames ["listen", "greet"] "fallback", some (spanTagger true),
      ⟨.ofDomain .empty, Blake3.hexDigest, none⟩, .inOrder⟩
    let listen : Execution := ⟨"listen", none, false, false⟩
    let ds : List Dialogue := [⟨"a", [.actionExecuted ⟨"leave", none, false, false⟩]⟩,
      ⟨"b", [.actionExecuted listen, .userUttered ⟨none, [⟨"name", none, 0, 3⟩], some "Ada"⟩,
        .actionExecuted ⟨"greet", none, false, false⟩, .actionExecuted listen]⟩]
    e.config.removeDuplicates = false ∧
      (e.withBound (some 1)).trainingStates false ds =
        ((e.withBound none).trainingStates false ds).map (·.cut (some 1)) ∧
      ((e.withBound none).trainingStates false ds).data.entityTags =
        [[[]], [[], ["name"]], [[], ["name"], []]] ∧
      ((e.withBound (some 1)).trainingStates false ds).data.entityTags =
        [[[]], [["name"]], [[]]] := by
  intro e listen ds
  have htags : ((e.withBound none).trainingStates false ds).data.entityTags =
      [[[]], [[], ["name"]], [[], ["name"], []]] := rfl
  have hcut := (bound_cuts (some 1)).1 e false ds rfl
  refine ⟨rfl, hcut, htags, ?_⟩
  rw [hcut]
  show ((e.withBound none).trainingStates false ds).data.entityTags.map _ = _
  rw [htags]
  rfl

end DialogueWindows
