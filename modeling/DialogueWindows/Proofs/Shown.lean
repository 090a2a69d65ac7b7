import DialogueWindows.Digest.Blake3
import DialogueWindows.Proofs.Agreement
import DialogueWindows.Proofs.RuleRuns
import DialogueWindows.Proofs.Turns

/-! # What a prediction sees

The turns that stay visible are those of the log that `Log.shown` lists: behind the last action that a
rule chose, if rules are hidden, and without those that the fallback action opened, if these are.
A prediction sees the states of the last of them (`predictionWindow_shown`).

A rule marks the turn that it chose from, which is the one before the turn of its action. So the
dialogue starts anew at the action of the last mark, whatever that action is called. -/

namespace DialogueWindows

namespace Log

/-- The numbers of the actions that a rule chose. -/
def ruleChosen (events : List Event) : List Nat :=
  (List.range ((executions events).length + 1)).filter fun i =>
    (opener events i).any (·.hideRuleTurn)

/-- Where the dialogue starts anew: at the last action that a rule chose, if rules are hidden. -/
def cut? (v : Visibility) (events : List Event) : Option Nat :=
  if v.ignoreRuleOnlyTurns then (ruleChosen events).getLast? else none

/-- The turns that the rules leave, the first being the empty one in any case. -/
def remaining (v : Visibility) (events : List Event) : List Nat :=
  match cut? v events with
  | none => List.range ((executions events).length + 1)
  | some j => 0 :: List.range' j ((executions events).length + 1 - j)

def isFallback (fallback : String) (events : List Event) (i : Nat) : Bool :=
  (opener events i).any (·.name == fallback)

/-- The turns that stay visible. -/
def shown (v : Visibility) (fallback : String) (events : List Event) : List Nat :=
  (remaining v events).filter fun i => !(v.ignoreUnlikelyIntent && isFallback fallback events i)

/-- The message of a turn; one that starts the dialogue anew has none. -/
def message? (v : Visibility) (events : List Event) (i : Nat) : Option Utterance :=
  if i = 0 ∧ (cut? v events).isSome then none
  else ((during events i).filterMap Event.utterance?).head?

/-- `states i` is the state after action `i` and all that came before the next one. -/
structure Reaches (events : List Event) (states : Nat → State) : Prop where
  opening : states 0 = .empty
  after : ∀ i a, opener events i = some a → Knows (some a) (upTo events i) (states i)

variable {events : List Event} {v : Visibility} {fallback : String} {i j : Nat}

theorem le_of_opener {a : Execution} (h : opener events i = some a) :
    i ≤ (executions events).length := by
  cases i with
  | zero => exact Nat.zero_le _
  | succ i =>
    obtain ⟨x, hx, -⟩ := Option.map_eq_some_iff.1 h
    exact (List.getElem?_eq_some_iff.1 hx).1

theorem exists_opener (h : i < (executions events).length) :
    ∃ a, opener events (i + 1) = some a :=
  ⟨_, by rw [opener, List.getElem?_eq_getElem h, Option.map_some]⟩

/-- Turn 0 is opened by no action, and no action is chosen from the last turn. -/
theorem ruleChosen_eq (events : List Event) :
    ruleChosen events = ((List.range ((executions events).length + 1)).filter fun i =>
      (opener events (i + 1)).any (·.hideRuleTurn)).map (· + 1) := by
  have hlast : (opener events ((executions events).length + 1)).any (·.hideRuleTurn) = false := by
    rw [opener_length_succ]
    rfl
  rw [ruleChosen, List.range_succ_eq_map, List.filter_cons_of_neg (by simp [opener]),
    List.filter_map, ← List.range_succ_eq_map, List.range_succ, List.filter_append,
    List.filter_singleton, hlast]
  exact congrArg _ (List.append_nil _).symm

theorem cut?_eq_some_iff :
    cut? v events = some j ↔
      v.ignoreRuleOnlyTurns = true ∧ (ruleChosen events).getLast? = some j := by
  rw [cut?]
  cases v.ignoreRuleOnlyTurns <;> simp

theorem le_of_cut (h : cut? v events = some j) : j ≤ (executions events).length := by
  have hj := List.mem_of_getLast? (cut?_eq_some_iff.1 h).2
  exact Nat.lt_succ_iff.1 (List.mem_range.1 (List.mem_of_mem_filter hj))

theorem le_of_mem_remaining (h : i ∈ remaining v events) : i ≤ (executions events).length := by
  unfold remaining at h
  split at h
  · exact Nat.lt_succ_iff.1 (List.mem_range.1 h)
  · rename_i j hj
    have := le_of_cut hj
    rcases List.mem_cons.1 h with rfl | h
    · exact Nat.zero_le _
    · rw [List.mem_range'_1] at h
      omega

theorem le_of_mem_shown (h : i ∈ shown v fallback events) : i ≤ (executions events).length :=
  le_of_mem_remaining (List.mem_of_mem_filter h)

end Log

open Segmentation Log

variable {fallback : String} {events : List Event} {turns : List Turn} {t : Turn} {i j : Nat}
  {v : Visibility}

/-- `t` stands for turn `i` among the visible turns. -/
structure Displays (v : Visibility) (fallback : String) (events : List Event) (i : Nat) (t : Turn) :
    Prop where
  isUnlikelyIntent : t.isUnlikelyIntent = isFallback fallback events i
  utterance : t.utterance = message? v events i
  state_opening : opener events i = none → t.state = .empty
  state : ∀ a, opener events i = some a → Knows (some a) (upTo events i) t.state

theorem IsTurn.isRuleOnly_eq (h : IsTurn fallback events i t) :
    t.isRuleOnly = (opener events (i + 1)).any (·.hideRuleTurn) := by
  rw [h.isRuleOnly]
  cases opener events (i + 1) <;> rfl

theorem IsTurn.displays (h : IsTurn fallback events i t) (hcut : i = 0 → cut? v events = none) :
    Displays v fallback events i t := by
  refine ⟨?_, ?_, h.state_opening, h.state⟩
  · rw [Bool.eq_iff_iff, h.isUnlikelyIntent, isFallback, Option.any_eq_true]
    simp only [beq_iff_eq]
  · have hi : ¬ (i = 0 ∧ (cut? v events).isSome = true) := by
      rintro ⟨h0, hsome⟩
      rw [hcut h0] at hsome
      cases hsome
    rw [message?, if_neg hi, h.utterance, Option.head?_toList]

theorem displays_opening (hcut : cut? v events = some j) (index : Nat) :
    Displays v fallback events 0 (.opening index) := by
  refine ⟨rfl, ?_, fun _ => rfl, fun a ha => by cases ha⟩
  rw [message?, if_pos ⟨rfl, by rw [hcut]; rfl⟩]
  rfl

theorem Displays.state_eq {states : Nat → State} (h : Displays v fallback events i t)
    (hstates : Reaches events states) (hi : i ≤ (executions events).length) :
    t.state = states i := by
  cases i with
  | zero => rw [h.state_opening rfl, hstates.opening]
  | succ i =>
    obtain ⟨a, ha⟩ := exists_opener hi
    exact (h.state a ha).unique (hstates.after _ a ha)

theorem Displays.spanTagger_eq {endToEndOnly : Bool} (h : Displays v fallback events i t) :
    spanTagger endToEndOnly t = ((message? v events i).map (·.tags endToEndOnly)).getD [] := by
  rw [← h.utterance, spanTagger]
  cases t.utterance <;> rfl

namespace IsHistory

/-- The turns as a function of their numbers. -/
theorem exists_map (h : IsHistory fallback events turns) :
    ∃ f : Nat → Turn, turns = (List.range ((executions events).length + 1)).map f ∧
      ∀ i ≤ (executions events).length, IsTurn fallback events i (f i) := by
  have hsome : ∀ i ≤ (executions events).length,
      turns[i]? = some (turns[i]?.getD (.opening 0)) := by
    intro i hi
    rw [List.getElem?_eq_getElem (h.length ▸ Nat.lt_succ_of_le hi), Option.getD_some]
  refine ⟨fun i => turns[i]?.getD (.opening 0), ?_, fun i hi => h.isTurn i _ (hsome i hi)⟩
  refine List.ext_getElem ?_ fun i hi _ => ?_
  · rw [List.length_map, List.length_range, h.length]
  · rw [List.getElem_map, List.getElem_range, List.getElem?_eq_getElem hi, Option.getD_some]

theorem exists_reaches (h : IsHistory fallback events turns) :
    ∃ states, Reaches events states := by
  obtain ⟨f, -, hf⟩ := h.exists_map
  exact ⟨fun i => (f i).state, (hf 0 (Nat.zero_le _)).state_opening rfl,
    fun i a ha => (hf i (le_of_opener ha)).state a ha⟩

/-- The rule-only turns are those before the actions that a rule chose. -/
theorem ruleOnly_map_succ (h : IsHistory fallback events turns) :
    (ruleOnly turns).map (· + 1) = ruleChosen events := by
  obtain ⟨f, rfl, hf⟩ := h.exists_map
  rw [ruleOnly_map_range, ruleChosen_eq]
  congr 1
  refine List.filter_congr fun i hi => ?_
  exact (hf i (Nat.lt_succ_iff.1 (List.mem_range.1 hi))).isRuleOnly_eq

theorem getLast?_ruleChosen (h : IsHistory fallback events turns) :
    (ruleChosen events).getLast? = (ruleOnly turns).getLast?.map (· + 1) := by
  rw [← h.ruleOnly_map_succ, List.getLast?_map]

theorem collapse_displays (h : IsHistory fallback events turns) (v : Visibility) :
    ∃ f : Nat → Turn,
      (if v.ignoreRuleOnlyTurns then collapseRuleRuns turns else turns) =
          (remaining v events).map f ∧
        ∀ i ∈ remaining v events, Displays v fallback events i (f i) := by
  have hlast := h.getLast?_ruleChosen
  obtain ⟨f, hturns, hf⟩ := h.exists_map
  cases hcut : cut? v events with
  | none =>
    refine ⟨f, ?_, fun i hi => (hf i (le_of_mem_remaining hi)).displays fun _ => hcut⟩
    rw [remaining, hcut, ← hturns]
    split
    · rename_i hv
      rw [cut?, if_pos hv, hlast, Option.map_eq_none_iff] at hcut
      exact collapseRuleRuns_of_none hcut
    · rfl
  | some j =>
    obtain ⟨hv, hj⟩ := cut?_eq_some_iff.1 hcut
    obtain ⟨last, hend, rfl⟩ := Option.map_eq_some_iff.1 (hlast.symm.trans hj)
    -- the new opening turn takes the place of turn 0, the others keep theirs
    refine ⟨Function.update f 0 (.opening (f last).index), ?_, ?_⟩
    · rw [hturns] at hend
      rw [if_pos hv, hturns, collapseRuleRuns_map_range hend, remaining, hcut, List.map_cons,
        Function.update_self]
      congr 1
      refine List.map_congr_left fun i hi => ?_
      rw [List.mem_range'_1] at hi
      exact (Function.update_of_ne (by omega) _ f).symm
    · intro i hi
      by_cases h0 : i = 0
      · subst h0
        rw [Function.update_self]
        exact displays_opening hcut _
      · rw [Function.update_of_ne h0]
        exact (hf i (le_of_mem_remaining hi)).displays fun h => absurd h h0

theorem visible_displays (h : IsHistory fallback events turns) (v : Visibility) :
    ∃ f : Nat → Turn, visible v turns = (shown v fallback events).map f ∧
      ∀ i ∈ shown v fallback events, Displays v fallback events i (f i) := by
  obtain ⟨f, hf, hdisplays⟩ := h.collapse_displays v
  refine ⟨f, ?_, fun i hi => hdisplays i (List.mem_of_mem_filter hi)⟩
  rw [visible, hf, shown]
  cases v.ignoreUnlikelyIntent with
  | false => exact congrArg (List.map f) (List.filter_eq_self.2 fun i _ => rfl).symm
  | true =>
    rw [if_pos rfl, removeUnlikelyIntent, List.filter_map]
    congr 1
    refine List.filter_congr fun i hi => ?_
    rw [Function.comp_apply, (hdisplays i hi).isUnlikelyIntent, Bool.true_and]

end IsHistory

/-- A prediction sees the states of the last visible turns, and tags their messages. -/
theorem predictionWindow_shown (ctx : Context) (v : Visibility) (d : Dialogue) {turns : List Turn}
    (h : segment d.events ctx.vocabulary.fallback = .ok turns) :
    (∃ states, Reaches (applied d.events) states) ∧
      ∀ states, Reaches (applied d.events) states →
        ∃ tags,
          predictionWindow ctx v d = .ok
            (ending ctx.maxHistory
              ((shown v ctx.vocabulary.fallback (applied d.events)).map states), tags) ∧
          ∀ endToEndOnly, ctx.tagger = some (spanTagger endToEndOnly) →
            tags = ending ctx.maxHistory
              ((shown v ctx.vocabulary.fallback (applied d.events)).map fun i =>
                ((message? v (applied d.events) i).map (·.tags endToEndOnly)).getD []) := by
  obtain ⟨s, hs, rfl⟩ := segment_eq_ok_iff.1 h
  have hturns := (Reads.of_run hs).isHistory
  refine ⟨hturns.exists_reaches, fun states hstates => ?_⟩
  obtain ⟨f, hf, hdisplays⟩ := hturns.visible_displays v
  have hwindow : (shown v ctx.vocabulary.fallback (applied d.events)).map (fun i => (f i).state) =
      (shown v ctx.vocabulary.fallback (applied d.events)).map states :=
    List.map_congr_left fun i hi => (hdisplays i hi).state_eq hstates (le_of_mem_shown hi)
  rw [predictionWindow_eq v hs, endOf_eq, hf, List.map_map, List.map_map, recent_eq_ending,
    recent_eq_ending]
  refine ⟨_, congrArg (fun window => Except.ok (ending ctx.maxHistory window, _)) hwindow, ?_⟩
  intro endToEndOnly htagger
  congr 1
  refine List.map_congr_left fun i hi => ?_
  rw [Function.comp_apply, htagger]
  exact (hdisplays i hi).spanTagger_eq

/-- A rule decides for the fallback action: the dialogue starts anew at that action, and its turn is
dropped as well. -/
theorem predictionWindow_shown_restarted :
    let ctx : Context := ⟨.ofNames ["listen", "greet"] "fallback", some (spanTagger true), some 2,
      Blake3.hexDigest⟩
    let listen : Execution := ⟨"listen", none, false, false⟩
    let d : Dialogue := ⟨"d", [.userUttered ⟨some "stale", [], none⟩, .restarted,
      .actionExecuted ⟨"greet", none, true, false⟩, .actionExecuted listen,
      .userUttered ⟨some "mumble", [], none⟩, .actionExecuted ⟨"fallback", none, true, false⟩,
      .actionExecuted listen, .userUttered ⟨none, [⟨"name", none, 3, 6⟩], some "hi Ada"⟩]⟩
    (∃ states, Reaches (applied d.events) states) ∧
      ∀ states, Reaches (applied d.events) states →
        predictionWindow ctx ⟨true, true⟩ d =
          .ok ([states 0, states 4], [[], ["O", "name"]]) := by
  intro ctx listen d
  obtain ⟨hexists, hall⟩ := predictionWindow_shown ctx ⟨true, true⟩ d rfl
  have hshown : shown ⟨true, true⟩ ctx.vocabulary.fallback (applied d.events) = [0, 4] := by decide
  refine ⟨hexists, fun states hstates => ?_⟩
  obtain ⟨tags, hwindow, htags⟩ := hall states hstates
  have htags := htags true rfl
  rw [hshown] at hwindow htags
  rw [hwindow, htags]
  rfl

end DialogueWindows
