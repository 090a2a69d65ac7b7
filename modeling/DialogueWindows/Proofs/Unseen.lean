import DialogueWindows.Proofs.Agreement

/-! # What is not looked at

`Event.Alike` relates events that differ in nothing that somebody with a certain sight looks at. Two
logs of such events are read side by side: each event takes segmentations that are alike to ones
that are, or is refused on both sides (`Segmentation.Alike.step`), and what the turns then differ in
reaches neither a window nor its tags. `answers_alike` is the main statement: training does not see
rules, prediction does not see which actions may be labels. -/

namespace DialogueWindows

/-- What is looked at besides names and states: which actions a rule chose, which may be labels, and
the texts of messages with an intent together with the places of their entities. -/
structure Sight where
  rules : Bool
  labels : Bool
  texts : Bool

def Sight.training : Sight :=
  ⟨false, true, false⟩

def Sight.prediction : Sight :=
  ⟨true, false, true⟩

variable {sight : Sight}

/-- Spans that differ in their values, and in their places unless `placed`. -/
structure EntitySpan.Alike (placed : Prop) (e e' : EntitySpan) : Prop where
  entity : e.entity = e'.entity
  place : placed → e.start = e'.start ∧ e.stop = e'.stop

/-- The text is in sight, or it stands in for the intent. -/
def Utterance.ShowsText (sight : Sight) (u : Utterance) : Prop :=
  sight.texts = true ∨ u.intent = none

structure Utterance.Alike (sight : Sight) (u u' : Utterance) : Prop where
  intent : u.intent = u'.intent
  text : u.ShowsText sight → u.text = u'.text
  entities : List.Forall₂ (EntitySpan.Alike (u.ShowsText sight)) u.entities u'.entities

structure Execution.Alike (sight : Sight) (a a' : Execution) : Prop where
  name : a.name = a'.name
  hideRuleTurn : sight.rules = true → a.hideRuleTurn = a'.hideRuleTurn
  unpredictable : sight.labels = true → a.unpredictable = a'.unpredictable

inductive Event.Alike (sight : Sight) : Event → Event → Prop
  | userUttered {u u' : Utterance} (h : u.Alike sight u') :
    Event.Alike sight (.userUttered u) (.userUttered u')
  | actionExecuted {a a' : Execution} (h : a.Alike sight a') :
    Event.Alike sight (.actionExecuted a) (.actionExecuted a')
  | slotSet (name : String) (value : Json) :
    Event.Alike sight (.slotSet name value) (.slotSet name value)
  | activeLoop (name : Option String) : Event.Alike sight (.activeLoop name) (.activeLoop name)
  | restarted : Event.Alike sight .restarted .restarted

structure Turn.Alike (sight : Sight) (t t' : Turn) : Prop where
  index : t.index = t'.index
  action : t.action = t'.action
  state : t.state = t'.state
  isRuleOnly : sight.rules = true → t.isRuleOnly = t'.isRuleOnly
  isUnlikelyIntent : t.isUnlikelyIntent = t'.isUnlikelyIntent
  unpredictable : sight.labels = true → t.unpredictable = t'.unpredictable
  utterance : Option.Rel (Utterance.Alike sight) t.utterance t'.utterance

structure Segmentation.Alike (sight : Sight) (s s' : Segmentation) : Prop where
  closed : List.Forall₂ (Turn.Alike sight) s.closed s'.closed
  current : s.current.Alike sight s'.current
  state : s.state = s'.state
  answered : s.answered = s'.answered

/-! ### Lists and outcomes -/

section Outcomes
variable {ε α β : Type} {R : α → α → Prop}

theorem map_eq_map_of_forall₂ {f : α → β} {xs ys : List α}
    (h : List.Forall₂ (fun x y => f x = f y) xs ys) : xs.map f = ys.map f := by
  rwa [← List.forall₂_eq_eq_eq, List.forall₂_map_left_iff, List.forall₂_map_right_iff]

/-- Both fail for the same reason, or both succeed with results that are related. -/
inductive SameOutcome (R : α → α → Prop) : Except ε α → Except ε α → Prop
  | ok {a b : α} (h : R a b) : SameOutcome R (.ok a) (.ok b)
  | error (e : ε) : SameOutcome R (.error e) (.error e)

namespace SameOutcome
variable {x y : Except ε α}

theorem bind {S : β → β → Prop} {f g : α → Except ε β} (h : SameOutcome R x y)
    (hf : ∀ {a b}, R a b → SameOutcome S (f a) (g b)) : SameOutcome S (x >>= f) (y >>= g) := by
  cases h with
  | ok h => exact hf h
  | error e => exact .error e

theorem bind_eq {f g : α → Except ε β} (h : SameOutcome R x y) (hf : ∀ {a b}, R a b → f a = g b) :
    (x >>= f) = (y >>= g) := by
  cases h with
  | ok h => exact hf h
  | error e => rfl

end SameOutcome

end Outcomes

/-! ### Messages -/

theorem EntitySpan.tag_eq {placed : Prop} {spans spans' : List EntitySpan} (hplaced : placed)
    (h : List.Forall₂ (Alike placed) spans spans') (token : Text.Token) :
    tag spans token = tag spans' token := by
  induction h with
  | nil => rfl
  | @cons e e' spans spans' he _ ih =>
    have hoverlaps : e.overlaps token = e'.overlaps token := by
      rw [overlaps, overlaps, (he.place hplaced).1, (he.place hplaced).2]
    unfold tag at ih ⊢
    rw [List.find?_cons, List.find?_cons, hoverlaps]
    cases e'.overlaps token with
    | true => exact he.entity
    | false => exact ih

namespace Utterance
variable {u u' : Utterance}

theorem Alike.subState_eq (h : u.Alike sight u') : u.subState = u'.subState := by
  have hnames : u.entities.map (·.entity) = u'.entities.map (·.entity) :=
    map_eq_map_of_forall₂ (h.entities.imp fun _ _ he => he.entity)
  unfold subState
  rw [hnames, ← h.intent]
  cases hintent : u.intent with
  | some intent => rfl
  | none => rw [h.text (.inr hintent)]

/-- A tagger that leaves messages with an intent untagged does not see their texts. -/
theorem Alike.tags_eq (h : u.Alike sight u') {endToEndOnly : Bool}
    (hsees : sight.texts = true ∨ endToEndOnly = true) :
    u.tags endToEndOnly = u'.tags endToEndOnly := by
  by_cases hshows : u.ShowsText sight
  · have hempty : u.entities.isEmpty = u'.entities.isEmpty := by
      rw [Bool.eq_iff_iff, List.isEmpty_iff_length_eq_zero, h.entities.length_eq,
        List.isEmpty_iff_length_eq_zero]
    have htag : EntitySpan.tag u.entities = EntitySpan.tag u'.entities :=
      funext (EntitySpan.tag_eq hshows h.entities)
    unfold tags isEndToEnd
    rw [h.intent, h.text hshows, hempty, htag]
  · -- the message has an intent, and the tagger passes it over
    obtain ⟨htexts, hintent⟩ := not_or.1 hshows
    obtain rfl := hsees.resolve_left htexts
    have hpassed {w : Utterance} (hw : w.intent ≠ none) : w.tags true = [] := by
      cases hi : w.intent with
      | none => exact absurd hi hw
      | some intent => simp [tags, isEndToEnd, hi]
    rw [hpassed hintent, hpassed (h.intent ▸ hintent)]

end Utterance

/-! ### Turns -/

namespace Turn
variable {t t' : Turn} {turns turns' : List Turn}

theorem alike_opening (index : Nat) : (opening index).Alike sight (opening index) :=
  ⟨rfl, rfl, rfl, fun _ => rfl, rfl, fun _ => rfl, .none⟩

theorem Alike.label?_eq (h : t.Alike sight t') (hsight : sight.labels = true) :
    t.label? = t'.label? := by
  rw [label?, label?, h.unpredictable hsight, h.action]

theorem Alike.spanTagger_eq (h : t.Alike sight t') {endToEndOnly : Bool}
    (hsees : sight.texts = true ∨ endToEndOnly = true) :
    spanTagger endToEndOnly t = spanTagger endToEndOnly t' := by
  have hutterance := h.utterance
  unfold spanTagger
  generalize t.utterance = m at hutterance ⊢
  generalize t'.utterance = m' at hutterance ⊢
  cases hutterance with
  | none => rfl
  | some hu => exact hu.tags_eq hsees

theorem alike_removeUnlikelyIntent (h : List.Forall₂ (Alike sight) turns turns') :
    List.Forall₂ (Alike sight) (removeUnlikelyIntent turns) (removeUnlikelyIntent turns') :=
  List.rel_filter (fun t t' ht => by
    show (!t.isUnlikelyIntent) = true ↔ (!t'.isUnlikelyIntent) = true
    rw [ht.isUnlikelyIntent]) h

theorem scan_eq (h : List.Forall₂ (Alike sight) turns turns') (hsight : sight.rules = true)
    (runs : RuleRuns) (inside : Bool) (position : Nat) :
    runs.scan inside position turns = runs.scan inside position turns' := by
  induction h generalizing runs inside position with
  | nil => rfl
  | cons ht _ ih => rw [RuleRuns.scan, RuleRuns.scan, ht.isRuleOnly hsight, ih, ih]

theorem alike_collapseRuleRuns (h : List.Forall₂ (Alike sight) turns turns')
    (hsight : sight.rules = true) :
    List.Forall₂ (Alike sight) (collapseRuleRuns turns) (collapseRuleRuns turns') := by
  unfold collapseRuleRuns ruleRuns
  rw [scan_eq h hsight]
  cases (RuleRuns.scan ⟨none, 0⟩ false 0 turns').lastEnd with
  | none => exact h
  | some last =>
    have hrest := List.forall₂_drop last h
    dsimp only
    cases hd : turns.drop last with
    | nil =>
      rw [hd, List.forall₂_nil_left_iff] at hrest
      rw [hrest]
      exact h
    | cons t rest =>
      -- of the turn that a dialogue starts anew from only the index is kept
      rw [hd] at hrest
      obtain ⟨t', rest', ht, hmore, hd'⟩ := List.forall₂_cons_left_iff.1 hrest
      rw [hd']
      show List.Forall₂ _ (opening t.index :: rest) (opening t'.index :: rest')
      rw [ht.index]
      exact .cons (alike_opening _) hmore

theorem alike_visible {v : Visibility} (h : List.Forall₂ (Alike sight) turns turns')
    (hrules : sight.rules = true ∨ v.ignoreRuleOnlyTurns = false) :
    List.Forall₂ (Alike sight) (visible v turns) (visible v turns') := by
  have hcollapsed : List.Forall₂ (Alike sight)
      (if v.ignoreRuleOnlyTurns then collapseRuleRuns turns else turns)
      (if v.ignoreRuleOnlyTurns then collapseRuleRuns turns' else turns') := by
    split
    · rename_i hignore
      exact alike_collapseRuleRuns h (hrules.resolve_right (by rw [hignore]; decide))
    · exact h
  unfold visible
  dsimp only
  split
  · exact alike_removeUnlikelyIntent hcollapsed
  · exact hcollapsed

end Turn

/-! ### Reading side by side -/

namespace Segmentation
variable {s s' : Segmentation} {fallback : String}

theorem alike_start : start.Alike sight start :=
  ⟨.nil, Turn.alike_opening 0, rfl, rfl⟩

theorem Alike.turns (h : s.Alike sight s') :
    List.Forall₂ (Turn.Alike sight) s.turns s'.turns := by
  refine List.rel_append h.closed (.cons ⟨h.closed.length_eq, h.current.action, ?_,
    h.current.isRuleOnly, h.current.isUnlikelyIntent, h.current.unpredictable,
    h.current.utterance⟩ .nil)
  show (if s.current.action.isSome then s.state else s.current.state) =
    if s'.current.action.isSome then s'.state else s'.current.state
  rw [h.current.action, h.state, h.current.state]

theorem Alike.execute (h : s.Alike sight s') {a a' : Execution} (ha : a.Alike sight a') :
    (s.execute fallback a).Alike sight (s'.execute fallback a') where
  closed := by
    have hmark : sight.rules = true → (s.current.isRuleOnly || a.hideRuleTurn) =
        (s'.current.isRuleOnly || a'.hideRuleTurn) := fun hsight => by
      rw [h.current.isRuleOnly hsight, ha.hideRuleTurn hsight]
    exact Alike.turns ⟨h.closed, { h.current with isRuleOnly := hmark }, h.state, h.answered⟩
  current := {
    index := rfl
    action := congrArg some ha.name
    state := rfl
    isRuleOnly := fun _ => rfl
    isUnlikelyIntent := congrArg (· == fallback) ha.name
    unpredictable := ha.unpredictable
    utterance := .none }
  state := by simp only [Segmentation.execute, h.state, ha.name]
  answered := rfl

theorem Alike.utter (h : s.Alike sight s') {u u' : Utterance} (hu : u.Alike sight u') :
    (s.utter u).Alike sight (s'.utter u') where
  closed := h.closed
  current := { h.current with utterance := .some hu }
  state := by simp only [Segmentation.utter, h.state, hu.subState_eq]
  answered := rfl

theorem Alike.setSlot (h : s.Alike sight s') (name : String) (value : Json) :
    (s.setSlot name value).Alike sight (s'.setSlot name value) :=
  ⟨h.closed, h.current, by unfold Segmentation.setSlot; rw [h.state], h.answered⟩

theorem Alike.setLoop (h : s.Alike sight s') (name : Option String) :
    (s.setLoop name).Alike sight (s'.setLoop name) :=
  ⟨h.closed, h.current, by unfold Segmentation.setLoop; rw [h.state], h.answered⟩

theorem Alike.step (h : s.Alike sight s') {e e' : Event} (he : e.Alike sight e')
    (position : Nat) :
    SameOutcome (Alike sight) (s.step fallback position e) (s'.step fallback position e') := by
  cases he with
  | actionExecuted ha => exact .ok (h.execute ha)
  | userUttered hu =>
    unfold Segmentation.step
    dsimp only
    rw [h.answered]
    split
    · exact .error _
    · exact .ok (h.utter hu)
  | slotSet name value => exact .ok (h.setSlot name value)
  | activeLoop name => exact .ok (h.setLoop name)
  | restarted => exact .ok alike_start

theorem Alike.run (h : s.Alike sight s') {events events' : List Event}
    (hevents : List.Forall₂ (Event.Alike sight) events events') (position : Nat) :
    SameOutcome (Alike sight) (s.run fallback position events)
      (s'.run fallback position events') := by
  induction hevents generalizing s s' position with
  | nil => exact .ok h
  | cons he _ ih => exact (h.step he position).bind fun hs => ih hs (position + 1)

end Segmentation

theorem segment_alike {events events' : List Event}
    (h : List.Forall₂ (Event.Alike sight) events events') (fallback : String) :
    SameOutcome (List.Forall₂ (Turn.Alike sight)) (segment events fallback)
      (segment events' fallback) :=
  (Segmentation.alike_start.run h 0).bind fun hs => .ok hs.turns

/-! ### Answers -/

section Answers
variable {ctx ctx' : Context} {v : Visibility} {d d' : Dialogue} {turns turns' : List Turn}

theorem visibleTurns_alike (hevents : List.Forall₂ (Event.Alike sight) d.events d'.events)
    (hfallback : ctx.vocabulary.fallback = ctx'.vocabulary.fallback)
    (hrules : sight.rules = true ∨ v.ignoreRuleOnlyTurns = false) :
    SameOutcome (List.Forall₂ (Turn.Alike sight)) (visibleTurns ctx v d)
      (visibleTurns ctx' v d') := by
  unfold visibleTurns
  rw [hfallback]
  exact (segment_alike hevents _).bind fun hturns => .ok (Turn.alike_visible hturns hrules)

/-- The tagger sees no more than `sight`. -/
def TagsAlike (sight : Sight) (tagger : Option EntityTagger) : Prop :=
  ∀ t t' : Turn, t.Alike sight t' → (tagger.map (· t)).getD [] = (tagger.map (· t')).getD []

theorem tagsAlike_none : TagsAlike sight none :=
  fun _ _ _ => rfl

theorem tagsAlike_spanTagger {endToEndOnly : Bool}
    (hsees : sight.texts = true ∨ endToEndOnly = true) :
    TagsAlike sight (some (spanTagger endToEndOnly)) :=
  fun _ _ ht => ht.spanTagger_eq hsees

theorem endOf_alike (h : List.Forall₂ (Turn.Alike sight) turns turns')
    (htags : TagsAlike sight ctx.tagger) : endOf ctx turns = endOf ctx turns' := by
  rw [endOf_eq, endOf_eq, map_eq_map_of_forall₂ (h.imp fun _ _ ht => ht.state),
    map_eq_map_of_forall₂ (h.imp htags)]

theorem labelled_eq (ctx : Context) (turns : List Turn) :
    labelled ctx turns = (labels turns).map fun x =>
      (x.2, (Span.before x.1 ctx.maxHistory).slice (turns.map (·.state)),
        (Span.before x.1 ctx.maxHistory).slice
          (turns.map fun t => (ctx.tagger.map (· t)).getD [])) := by
  rw [labelled, labelledWindows_eq, List.map_map]
  simp only [Span.slice_map]
  rfl

theorem labels_alike (h : List.Forall₂ (Turn.Alike sight) turns turns')
    (hlabels : sight.labels = true) : labels turns = labels turns' := by
  have hfrom (start : Nat) : positionsFrom Turn.label? start turns =
      positionsFrom Turn.label? start turns' := by
    induction h generalizing start with
    | nil => rfl
    | cons ht _ ih => rw [positionsFrom_cons, positionsFrom_cons, ht.label?_eq hlabels, ih]
  exact hfrom 0

theorem labelled_alike (h : List.Forall₂ (Turn.Alike sight) turns turns')
    (hlabels : sight.labels = true) (htags : TagsAlike sight ctx.tagger) :
    labelled ctx turns = labelled ctx turns' := by
  rw [labelled_eq, labelled_eq, labels_alike h hlabels,
    map_eq_map_of_forall₂ (h.imp fun _ _ ht => ht.state), map_eq_map_of_forall₂ (h.imp htags)]

theorem predictionWindow_alike (hevents : List.Forall₂ (Event.Alike sight) d.events d'.events)
    (hfallback : ctx.vocabulary.fallback = ctx'.vocabulary.fallback)
    (htagger : ctx.tagger = ctx'.tagger) (hbound : ctx.maxHistory = ctx'.maxHistory)
    (hrules : sight.rules = true ∨ v.ignoreRuleOnlyTurns = false)
    (htags : TagsAlike sight ctx.tagger) :
    predictionWindow ctx v d = predictionWindow ctx' v d' := by
  refine (visibleTurns_alike hevents hfallback hrules).bind_eq fun {_ turns'} hturns => ?_
  have hcontext : endOf ctx turns' = endOf ctx' turns' := by
    rw [endOf_eq, endOf_eq, htagger, hbound]
  exact congrArg Except.ok ((endOf_alike hturns htags).trans hcontext)

theorem trainingExamples_alike (hevents : List.Forall₂ (Event.Alike sight) d.events d'.events)
    (hid : d.id = d'.id) (hlabels : sight.labels = true)
    (hrules : sight.rules = true ∨ v.ignoreRuleOnlyTurns = false)
    (htags : TagsAlike sight ctx.tagger) :
    trainingExamples ctx v d = trainingExamples ctx v d' := by
  refine (visibleTurns_alike hevents rfl hrules).bind_eq fun hturns => ?_
  rw [mapM_ofWindow, mapM_ofWindow, labelled_alike hturns hlabels htags, hid]

end Answers

/-- Training sees no rules, and no texts of messages with an intent; prediction sees no labels and
nothing of a vocabulary but the fallback action. Neither sees a confidence or the value of an
entity. -/
theorem answers_alike :
    (∀ (ctx : Context) (hide : Bool) (d d' : Dialogue),
      ctx.tagger ∈ [none, some (spanTagger true)] → d.id = d'.id →
      List.Forall₂ (Event.Alike .training) d.events d'.events →
      trainingExamples ctx ⟨false, hide⟩ d = trainingExamples ctx ⟨false, hide⟩ d' ∧
        predictionWindow ctx ⟨false, hide⟩ d = predictionWindow ctx ⟨false, hide⟩ d') ∧
    (∀ (ctx ctx' : Context) (v : Visibility) (d d' : Dialogue),
      ctx.vocabulary.fallback = ctx'.vocabulary.fallback → ctx.tagger = ctx'.tagger →
      ctx.maxHistory = ctx'.maxHistory →
      ctx.tagger ∈ [none, some (spanTagger true), some (spanTagger false)] →
      List.Forall₂ (Event.Alike .prediction) d.events d'.events →
      predictionWindow ctx v d = predictionWindow ctx' v d') := by
  constructor
  · intro ctx hide d d' htagger hid hevents
    have htags : TagsAlike .training ctx.tagger := by
      simp only [List.mem_cons, List.not_mem_nil, or_false] at htagger
      rcases htagger with htagger | htagger <;> rw [htagger]
      · exact tagsAlike_none
      · exact tagsAlike_spanTagger (.inr rfl)
    exact ⟨trainingExamples_alike hevents hid rfl (.inr rfl) htags,
      predictionWindow_alike hevents rfl rfl rfl (.inr rfl) htags⟩
  · intro ctx ctx' v d d' hfallback htagger hbound hmem hevents
    have htags : TagsAlike .prediction ctx.tagger := by
      simp only [List.mem_cons, List.not_mem_nil, or_false] at hmem
      rcases hmem with hmem | hmem | hmem <;> rw [hmem]
      · exact tagsAlike_none
      · exact tagsAlike_spanTagger (.inr rfl)
      · exact tagsAlike_spanTagger (.inl rfl)
    exact predictionWindow_alike hevents hfallback htagger hbound (.inl rfl) htags

/-- A rule and a text that training does not see; a label and a vocabulary that prediction does not
see. -/
theorem answers_alike_greeting :
    let ctx : Context := ⟨.ofNames ["listen", "greet"] "fallback", some (spanTagger true), some 2,
      Blake3.hexDigest⟩
    let log (u : Utterance) (hideRuleTurn unpredictable : Bool) : Dialogue :=
      ⟨"d", [.userUttered u, .actionExecuted ⟨"greet", none, hideRuleTurn, unpredictable⟩]⟩
    let said : Utterance := ⟨some "hi", [⟨"name", some "Ada", 0, 3⟩], some "Ada"⟩
    let heard : Utterance := ⟨some "hi", [⟨"name", none, 4, 9⟩], none⟩
    trainingExamples ctx ⟨false, true⟩ (log said true false) =
        trainingExamples ctx ⟨false, true⟩ (log heard false false) ∧
      predictionWindow ctx ⟨false, true⟩ (log said true false) =
        predictionWindow ctx ⟨false, true⟩ (log heard false false) ∧
      predictionWindow ctx ⟨true, true⟩ (log said true false) =
        predictionWindow { ctx with vocabulary := .ofNames [] "fallback" } ⟨true, true⟩
          (log said true true) := by
  intro ctx log said heard
  have hmessage : said.Alike .training heard := by
    have hhidden : ¬ said.ShowsText .training := by
      rintro (h | h) <;> cases h
    exact ⟨rfl, fun h => absurd h hhidden, .cons ⟨rfl, fun h => absurd h hhidden⟩ .nil⟩
  have hsame : said.Alike .prediction said :=
    ⟨rfl, fun _ => rfl, .cons ⟨rfl, fun _ => ⟨rfl, rfl⟩⟩ .nil⟩
  have htraining := answers_alike.1 ctx true (log said true false) (log heard false false)
    (.tail _ (.head _)) rfl
    (.cons (.userUttered hmessage) (.cons (.actionExecuted ⟨rfl, nofun, fun _ => rfl⟩) .nil))
  exact ⟨htraining.1, htraining.2, answers_alike.2 ctx
    { ctx with vocabulary := .ofNames [] "fallback" } ⟨true, true⟩ (log said true false)
    (log said true true) rfl rfl rfl (.tail _ (.head _))
    (.cons (.userUttered hsame) (.cons (.actionExecuted ⟨rfl, fun _ => rfl, nofun⟩) .nil))⟩

end DialogueWindows
