import DialogueWindows.Proofs.Calls
import DialogueWindows.Proofs.Domain
import DialogueWindows.Proofs.Isolation
import DialogueWindows.Proofs.Shown

/-! # Answers stay aligned

Windows, tags, labels and features are made in different places and returned as lists side by side.
In every answer of an engine they belong together entry by entry, and each window is as the history
bound wants it (`Engine.answersAligned_after`).

The visible turns always start with the empty state, so neither hiding turns nor cutting a window
leaves a window empty. Repeated examples are dropped from the list of all of them, which leaves of
each dialogue's examples a sublist, still behind those of the dialogue before. -/

namespace DialogueWindows

open Segmentation Log

/-! ### Windows -/

theorem FeaturizerConfig.maxHistory_ne_of_validate {c : FeaturizerConfig}
    (h : c.validate = .ok ()) : c.maxHistory ≠ some 0 := by
  intro h0
  rw [validate, if_pos h0] at h
  cases h

/-- At least one state, no more than the bound allows, and without a bound all of them from the
empty one on. -/
structure Window.WellFormed (maxHistory : Option Nat) (w : Window) : Prop where
  length_pos : 0 < w.length
  length_le : ∀ k, maxHistory = some k → w.length ≤ k
  head? : maxHistory = none → w.head? = some .empty

theorem Window.wellFormed_recent {maxHistory : Option Nat} {states : List State}
    (hbound : maxHistory ≠ some 0) (h : states.head? = some .empty) :
    WellFormed maxHistory (recent maxHistory states) := by
  have hpos : 0 < states.length := by
    cases states with
    | nil => cases h
    | cons => exact Nat.succ_pos _
  rw [recent_eq_ending]
  cases maxHistory with
  | none => exact ⟨hpos, nofun, fun _ => h⟩
  | some k =>
    have hk : k ≠ 0 := fun h0 => hbound (congrArg some h0)
    have hlen : (ending (some k) states).length = states.length - (states.length - k) :=
      List.length_drop
    refine ⟨by omega, ?_, nofun⟩
    rintro _ ⟨⟩
    omega

theorem Log.head?_shown (v : Visibility) (fallback : String) (events : List Event) :
    (shown v fallback events).head? = some 0 := by
  have hremaining : ∃ rest, remaining v events = 0 :: rest := by
    unfold remaining
    split
    · exact ⟨_, List.range_succ_eq_map⟩
    · exact ⟨_, rfl⟩
  obtain ⟨rest, hrest⟩ := hremaining
  -- no action opens turn 0, so it is never hidden with the fallback action's turns
  have hkeep : (!(v.ignoreUnlikelyIntent && isFallback fallback events 0)) = true := by
    rw [isFallback, opener, Option.any_none, Bool.and_false, Bool.not_false]
  rw [shown, hrest, List.filter_cons, if_pos hkeep, List.head?_cons]

section Turns
variable {ctx : Context} {v : Visibility} {d : Dialogue} {s : Segmentation}

theorem head?_visible
    (h : Segmentation.start.run ctx.vocabulary.fallback 0 d.events = .ok s) (v : Visibility) :
    ((visible v s.turns).map (·.state)).head? = some .empty := by
  obtain ⟨f, hf, hdisplays⟩ := (Reads.of_run h).isHistory.visible_displays v
  have hhead := head?_shown v ctx.vocabulary.fallback (applied d.events)
  rw [hf, List.map_map, List.head?_map, hhead, Option.map_some, Function.comp_apply,
    (hdisplays 0 (List.mem_of_head? hhead)).state_opening rfl]

theorem length_endOf (ctx : Context) (turns : List Turn) :
    (endOf ctx turns).2.length = (endOf ctx turns).1.length := by
  rw [endOf_eq, recent_map, recent_map, List.length_map, List.length_map]

theorem wellFormed_predictionWindow (hbound : ctx.maxHistory ≠ some 0)
    {w : Window} {tags : List (List String)} (h : predictionWindow ctx v d = .ok (w, tags)) :
    w.WellFormed ctx.maxHistory ∧ tags.length = w.length := by
  obtain ⟨turns, hturns⟩ := exists_predictionWindow_iff.1 ⟨_, h⟩
  obtain ⟨s, hs, -⟩ := segment_eq_ok_iff.1 hturns
  rw [predictionWindow_eq v hs] at h
  have hend := Except.ok.inj h
  have hlen := length_endOf ctx (visible v s.turns)
  rw [hend] at hlen
  refine ⟨?_, hlen⟩
  rw [endOf_eq] at hend
  rw [← (Prod.mk.inj hend).1]
  exact Window.wellFormed_recent hbound (head?_visible hs v)

end Turns

/-! ### Examples -/

theorem Log.mem_applied_of_mem_decisions {v : Visibility} {fallback : String} {events : List Event}
    {x : Nat × Execution} (h : x ∈ decisions v fallback events) :
    .actionExecuted x.2 ∈ applied events := by
  induction events using List.reverseRecOn with
  | nil => cases h
  | append_singleton events e ih =>
    rw [applied_concat]
    cases he : e.isRestart with
    | true =>
      cases e with
      | restarted =>
        rw [decisions_concat_restart] at h
        cases h
      | _ => cases he
    | false =>
      rw [if_neg Bool.false_ne_true, List.mem_append]
      rw [decisions_concat he, List.mem_append] at h
      rcases h with h | h
      · exact .inl (ih h)
      · obtain ⟨a, ha, rfl⟩ := List.mem_map.1 h
        have ha := List.mem_of_mem_filter ha
        cases e with
        | actionExecuted b =>
          obtain rfl := List.mem_singleton.1 ha
          exact .inr (List.mem_singleton_self _)
        | _ => cases ha

/-- What holds of every example that a dialogue makes. -/
structure TrainingExample.Grounded (ctx : Context) (d : Dialogue) (x : TrainingExample) : Prop where
  window : x.window.WellFormed ctx.maxHistory
  entityTags : x.entityTags.length = x.window.length
  label : ∃ a, .actionExecuted a ∈ applied d.events ∧ ctx.vocabulary.index? a.name = some x.label
  dialogueId : x.dialogueId = d.id

theorem TrainingExample.grounded_of_mem {ctx : Context} {hide : Bool} {d : Dialogue}
    {examples : List TrainingExample} {x : TrainingExample} (hbound : ctx.maxHistory ≠ some 0)
    (h : trainingExamples ctx ⟨false, hide⟩ d = .ok examples) (hx : x ∈ examples) :
    x.Grounded ctx d := by
  obtain ⟨visible, hvisible, -⟩ := exists_ok_of_bind h
  obtain ⟨turns, hturns, -⟩ := exists_ok_of_bind hvisible
  obtain ⟨s, hs, -⟩ := segment_eq_ok_iff.1 hturns
  rw [trainingExamples_eq _ hs] at h
  obtain ⟨y, hy, hxy⟩ := exists_of_mem_mapM h hx
  -- the window is the draft of an action of the log
  have hmem := List.mem_map_of_mem (f := Except.ok (ε := Failure)) hy
  rw [labelled_of_run hide hs] at hmem
  obtain ⟨z, hz, hdraft⟩ := List.mem_map.1 hmem
  have hanticipated := anticipated_of_draft hdraft hxy
  obtain ⟨tags, hprediction⟩ := hanticipated.window
  refine ⟨(wellFormed_predictionWindow hbound hprediction).1, ?_,
    ⟨z.2, mem_applied_of_mem_decisions hz, hanticipated.label⟩, hanticipated.dialogueId⟩
  obtain ⟨s', -, hy'⟩ := exists_ok_of_bind hdraft
  obtain ⟨label, -, hx'⟩ := exists_ok_of_bind hxy
  cases hy'
  cases hx'
  exact length_endOf ctx _

/-! ### Encodings -/

namespace Encoder

theorem length_encodeWindow (e : Encoder) (w : Window) : (e.encodeWindow w).1.length = w.length := by
  induction w generalizing e with
  | nil => rfl
  | cons s rest ih => rw [encodeWindow, List.length_cons, ih, List.length_cons]

theorem forall₂_encodeWindows (e : Encoder) (ws : List Window) :
    List.Forall₂ (fun w encoded => encoded.length = w.length) ws (e.encodeWindows ws).1 := by
  induction ws generalizing e with
  | nil => exact .nil
  | cons w rest ih => exact .cons (e.length_encodeWindow w) (ih _)

/-- A window gets as many encodings as it has asked for. -/
theorem Asks.forall₂_encodeAsked {asked : List (Nat × State)} {ws : List Window} (h : Asks asked ws)
    (e : Encoder) : List.Forall₂ (fun w encoded => encoded.length = w.length) ws
      (e.encodeAsked ws.length asked).1 := by
  let answers := (asked.map (·.1)).zip (e.encodeWindow (asked.map (·.2))).1
  have hfst : answers.map (·.1) = asked.map (·.1) := by
    refine List.map_fst_zip (Nat.le_of_eq ?_)
    rw [length_encodeWindow, List.length_map, List.length_map]
  have hlength : ∀ i, ((answers.filter (·.1 == i)).map (·.2)).length = (ws[i]?.getD []).length := by
    intro i
    calc ((answers.filter (·.1 == i)).map (·.2)).length
        = ((answers.map (·.1)).filter (· == i)).length := by
          rw [List.length_map, List.filter_map, List.length_map]
          rfl
      _ = ((asked.filter (·.1 == i)).map (·.2)).length := by
          rw [hfst, List.filter_map, List.length_map, List.length_map]
          rfl
      _ = (ws[i]?.getD []).length := by rw [h i]
  refine List.forall₂_map_right_iff.2 (List.forall₂_iff_get.2 ⟨List.length_range.symm, ?_⟩)
  intro i hi hi'
  have hget : (List.range ws.length).get ⟨i, hi'⟩ = i := List.getElem_range _
  show ((answers.filter (·.1 == (List.range ws.length).get ⟨i, hi'⟩)).map (·.2)).length = _
  rw [hget, hlength, List.getElem?_eq_getElem hi]
  rfl

end Encoder

theorem Engine.forall₂_encodeWindows (e : Engine) (ws : List Window) :
    List.Forall₂ (fun w encoded => encoded.length = w.length) ws (e.encodeWindows ws).1 := by
  unfold encodeWindows
  split
  · exact (e.asks_interleave ws).forall₂_encodeAsked e.encoder
  · exact e.encoder.forall₂_encodeWindows ws

/-! ### Blocks of a batch -/

/-- Where a list of blocks is deduplicated, something of each block is left. -/
theorem exists_deduplicateFrom_flatten (seen : List String) (blocks : List (List TrainingExample)) :
    ∃ kept, deduplicateFrom seen blocks.flatten = kept.flatten ∧
      List.Forall₂ List.Sublist kept blocks := by
  induction blocks generalizing seen with
  | nil => exact ⟨[], rfl, .nil⟩
  | cons block rest ih =>
    obtain ⟨kept, hkept, hsub⟩ := ih (hashes block ++ seen)
    refine ⟨deduplicateFrom seen block :: kept, ?_, .cons (deduplicateFrom_sublist seen block) hsub⟩
    rw [List.flatten_cons, deduplicateFrom_append, hkept, List.flatten_cons]

theorem flatten_yields {α : Type} (outcome : Dialogue → Except Failure (List α))
    (ds : List Dialogue) :
    (yields outcome ds).flatten = (ds.map fun d => (outcome d).toOption.getD []).flatten := by
  induction ds with
  | nil => rfl
  | cons d ds ih =>
    rw [List.map_cons, List.flatten_cons, ← ih]
    cases h : outcome d with
    | ok a => rw [yields_cons_ok h]; rfl
    | error failure => rw [yields_cons_error h]; rfl

/-! ### Answers -/

/-- Lists side by side, one entry for each window. -/
structure Aligned (maxHistory : Option Nat) (windows : List Window)
    (entityTags : List (List (List String))) (dialogueIds : List String)
    (features : List (List EncodedState)) : Prop where
  wellFormed : ∀ w ∈ windows, w.WellFormed maxHistory
  tags : List.Forall₂ (fun w tags => tags.length = w.length) windows entityTags
  encoded : List.Forall₂ (fun w encoded => encoded.length = w.length) windows features
  ids : dialogueIds.length = windows.length

theorem Aligned.of_forall {α : Type} {maxHistory : Option Nat} {xs : List α} {window : α → Window}
    {tags : α → List (List String)} {dialogueIds : List String}
    (h : ∀ x ∈ xs, (window x).WellFormed maxHistory ∧ (tags x).length = (window x).length)
    (hids : dialogueIds.length = xs.length) (e : Engine) :
    Aligned maxHistory (xs.map window) (xs.map tags) dialogueIds
      (e.encodeWindows (xs.map window)).1 := by
  refine ⟨List.forall_mem_map.2 fun x hx => (h x hx).1, ?_, e.forall₂_encodeWindows _, ?_⟩
  · refine List.forall₂_map_left_iff.2 (List.forall₂_map_right_iff.2 (List.forall₂_same.2 ?_))
    exact fun x hx => (h x hx).2
  · rw [List.length_map, hids]

/-- The label is the index of an action that a dialogue of this id has executed after its last
restart. -/
def Labels (domain : Domain) (ds : List Dialogue) (dialogueId : String) (label : Nat) : Prop :=
  label < domain.actionNames.length ∧
    ∃ d ∈ ds, d.id = dialogueId ∧
      ∃ a, .actionExecuted a ∈ applied d.events ∧ domain.actionNames[label]? = some a.name

namespace Engine
variable {e : Engine} {domain : Domain} {hide : Bool} {v : Visibility} {ds : List Dialogue}

/-- The examples of a dialogue, none if it fails. -/
def ownExamples (e : Engine) (hide : Bool) (d : Dialogue) : List TrainingExample :=
  (trainingExamples e.context ⟨false, hide⟩ d).toOption.getD []

/-- What an answer keeps of a dialogue's examples: all of them unless it drops repeated ones. -/
structure Keeps (e : Engine) (config : FeaturizerConfig) (hide : Bool) (d : Dialogue)
    (block : List TrainingExample) : Prop where
  sublist : block.Sublist (e.ownExamples hide d)
  eq : config.removeDuplicates = false → block = e.ownExamples hide d
  dialogueId : ∀ x ∈ block, x.dialogueId = d.id

/-- The answers to one batch, list by list. -/
structure AnswersAligned (e : Engine) (config : FeaturizerConfig) (domain : Domain) (hide : Bool)
    (v : Visibility) (ds : List Dialogue) : Prop where
  training : Aligned config.maxHistory (e.featurize hide ds).1.data.states.windows
    (e.featurize hide ds).1.data.states.entityTags (e.featurize hide ds).1.data.states.dialogueIds
    (e.featurize hide ds).1.data.features
  labels : List.Forall₂ (Labels domain ds) (e.featurize hide ds).1.data.states.dialogueIds
    (e.featurize hide ds).1.data.states.labels
  /-- The examples of each dialogue lie together, in order. -/
  blocks : ∃ blocks, List.Forall₂ (e.Keeps config hide) ds blocks ∧
    (e.featurize hide ds).1.data.states = .ofExamples blocks.flatten
  prediction : Aligned config.maxHistory (e.predictionStates v ds).data.windows
    (e.predictionStates v ds).data.entityTags (e.predictionStates v ds).data.dialogueIds
    (e.stateFeatures v ds).1.data

theorem grounded_of_mem_ownExamples (hbound : e.config.maxHistory ≠ some 0) {d : Dialogue}
    {x : TrainingExample} (hx : x ∈ e.ownExamples hide d) : x.Grounded e.context d := by
  unfold ownExamples at hx
  cases h : trainingExamples e.context ⟨false, hide⟩ d with
  | error failure =>
    rw [h] at hx
    cases hx
  | ok examples =>
    rw [h] at hx
    exact TrainingExample.grounded_of_mem hbound h hx

theorem examples_data (e : Engine) (hide : Bool) (ds : List Dialogue) :
    (e.examples hide ds).data = e.merge (ds.map (e.ownExamples hide)).flatten := by
  rw [examples_eq, flatten_yields]
  rfl

theorem exists_blocks (e : Engine) (hide : Bool) (ds : List Dialogue) :
    ∃ blocks, (e.examples hide ds).data = blocks.flatten ∧
      List.Forall₂ (fun d block => block.Sublist (e.ownExamples hide d) ∧
        (e.config.removeDuplicates = false → block = e.ownExamples hide d)) ds blocks := by
  rw [examples_data, merge]
  split
  · rename_i hdedup
    obtain ⟨kept, hkept, hsub⟩ :=
      exists_deduplicateFrom_flatten [] (ds.map (e.ownExamples hide))
    -- what is kept of a block depends on the blocks before it, but comes from the block
    rw [List.forall₂_map_right_iff] at hsub
    refine ⟨kept, hkept, hsub.flip.imp fun d block hblock => ⟨hblock, fun h => ?_⟩⟩
    rw [h] at hdedup
    cases hdedup
  · refine ⟨_, rfl, ?_⟩
    rw [List.forall₂_map_right_iff, List.forall₂_same]
    exact fun d _ => ⟨.refl _, fun _ => rfl⟩

theorem merge_sublist (e : Engine) (xs : List TrainingExample) : (e.merge xs).Sublist xs := by
  unfold merge
  split
  · exact deduplicateFrom_sublist [] xs
  · exact .refl xs

theorem exists_grounded (hbound : e.config.maxHistory ≠ some 0) {x : TrainingExample}
    (hx : x ∈ (e.examples hide ds).data) : ∃ d ∈ ds, x.Grounded e.context d := by
  rw [examples_data] at hx
  obtain ⟨_, hown, hx⟩ := List.mem_flatten.1 ((e.merge_sublist _).subset hx)
  obtain ⟨d, hd, rfl⟩ := List.mem_map.1 hown
  exact ⟨d, hd, grounded_of_mem_ownExamples hbound hx⟩

theorem labels_of_grounded (hvocabulary : e.vocabulary = domain.vocabulary) {d : Dialogue}
    (hd : d ∈ ds) {x : TrainingExample} (hx : x.Grounded e.context d) :
    Labels domain ds x.dialogueId x.label := by
  obtain ⟨a, ha, hindex⟩ := hx.label
  have hname : domain.actionNames[x.label]? = some a.name := by
    refine Domain.index?_eq_some_iff.1 ?_
    rw [← hvocabulary]
    exact hindex
  exact ⟨(List.getElem?_eq_some_iff.1 hname).1, d, hd, hx.dialogueId.symm, a, ha, hname⟩

theorem answersAligned (hbound : e.config.maxHistory ≠ some 0)
    (hvocabulary : e.vocabulary = domain.vocabulary) : e.AnswersAligned e.config domain hide v ds := by
  have hwindows : ∀ y ∈ yields (predictionWindow e.context v) ds,
      y.1.WellFormed e.config.maxHistory ∧ y.2.length = y.1.length := by
    intro y hy
    obtain ⟨d, -, hd⟩ := mem_yields.1 hy
    exact wellFormed_predictionWindow hbound hd
  refine ⟨?_, ?_, ?_, ?_⟩
  · refine Aligned.of_forall (fun x hx => ?_) (List.length_map _) e
    obtain ⟨d, -, hd⟩ := exists_grounded hbound hx
    exact ⟨hd.window, hd.entityTags⟩
  · refine List.forall₂_map_left_iff.2 (List.forall₂_map_right_iff.2 (List.forall₂_same.2 ?_))
    intro x hx
    obtain ⟨d, hd, hground⟩ := exists_grounded hbound hx
    exact labels_of_grounded hvocabulary hd hground
  · obtain ⟨blocks, hblocks, hkept⟩ := e.exists_blocks hide ds
    refine ⟨blocks, hkept.imp fun d block h => ⟨h.1, h.2, fun x hx => ?_⟩,
      congrArg TrainingStates.ofExamples hblocks⟩
    exact (grounded_of_mem_ownExamples hbound (h.1.subset hx)).dialogueId
  · have hids : ((succeeding (predictionWindow e.context v) ds).map (·.id)).length =
        (yields (predictionWindow e.context v) ds).length := by
      rw [List.length_map, length_succeeding]
    have := Aligned.of_forall hwindows hids e
    rw [stateFeatures, predictionStates_eq]
    exact this

/-- Whatever an engine has been asked before, the lists of its answers belong together. -/
theorem answersAligned_after (runtime : Runtime) (config : Config) (domain : Domain)
    (tagger : Option EntityTagger) (h : ofDomain runtime config domain tagger = .ok e)
    (calls : List Call) (hide : Bool) (v : Visibility) (ds : List Dialogue) :
    (e.after calls).AnswersAligned config.featurizer domain hide v ds := by
  obtain ⟨hvalid, rfl⟩ := ofDomain_eq_ok_iff.1 h
  obtain ⟨cache, hcache⟩ := exists_after _ calls
  rw [hcache]
  exact answersAligned (FeaturizerConfig.maxHistory_ne_of_validate hvalid) rfl

/-- Three dialogues, of which one fails and one repeats the first. -/
theorem answersAligned_after_repeated :
    let config : Config := { Config.default with featurizer := .withMaxHistory (some 2) }
    let domain : Domain := { Domain.empty with actions := ["utter_greet"] }
    let events : List Event := [.userUttered ⟨some "greet", [], none⟩,
      .actionExecuted ⟨"utter_greet", none, false, false⟩]
    let ds : List Dialogue := [⟨"a", events⟩,
      ⟨"b", [.actionExecuted ⟨"utter_bye", none, false, false⟩]⟩, ⟨"c", events⟩]
    ∃ e, ofDomain .newest config domain none = .ok e ∧
      (e.after [.training false ds]).AnswersAligned config.featurizer domain false ⟨true, true⟩ ds ∧
      (e.trainingStates false ds).data.dialogueIds = ["a"] ∧
      (e.predictionStates ⟨true, true⟩ ds).data.dialogueIds = ["a", "b", "c"] := by
  intro config domain events ds
  obtain ⟨e, he⟩ : ∃ e, ofDomain .newest config domain none = .ok e := ⟨_, rfl⟩
  refine ⟨e, he, answersAligned_after .newest config domain none he [.training false ds]
    false ⟨true, true⟩ ds, ?_, ?_⟩
  all_goals
    obtain ⟨-, rfl⟩ := ofDomain_eq_ok_iff.1 he
    decide +kernel

end Engine

end DialogueWindows
