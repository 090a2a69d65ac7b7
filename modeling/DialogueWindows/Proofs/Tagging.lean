import DialogueWindows.EntityTag
import DialogueWindows.Proofs.Tokens
import Mathlib.Data.List.Forall2

/-! # Tags and spans

A token gets the entity of the first span that it shares a character with, as long as every span has
a character. A span whose end is not behind its start has none, yet it counts for the token that has
both ends inside it (`EntitySpan.overlaps_iff`). `spanTagger_tags` describes the tags of every turn,
`spanTagger_hollow` is such a span. -/

namespace DialogueWindows

open Text (Token)

namespace EntitySpan
variable {span : EntitySpan} {token : Token}

/-- The span has the character at a position. -/
def Covers (span : EntitySpan) (p : Nat) : Prop :=
  span.start ≤ p ∧ p < span.stop

/-- Some character lies in the token and in the span. -/
def Shares (span : EntitySpan) (token : Token) : Prop :=
  ∃ p, token.Covers p ∧ span.Covers p

/-- The span has no characters, and its ends lie inside the token. -/
def HollowIn (span : EntitySpan) (token : Token) : Prop :=
  token.start < span.stop ∧ span.stop ≤ span.start ∧ span.start < token.stop

theorem overlaps_iff (h : token.start < token.stop) :
    span.overlaps token = true ↔ span.Shares token ∨ span.HollowIn token := by
  have hends : span.overlaps token = true ↔
      token.start < span.stop ∧ span.start < token.stop := by
    rw [overlaps, Bool.and_eq_true, decide_eq_true_iff, decide_eq_true_iff]
  rw [hends]
  constructor
  · rintro ⟨hstop, hstart⟩
    rcases Nat.lt_or_ge span.start span.stop with hproper | hhollow
    · -- the later of the two starts lies in both
      refine .inl ⟨max token.start span.start, ⟨le_max_left _ _, max_lt h hstart⟩,
        ⟨le_max_right _ _, max_lt hstop hproper⟩⟩
    · exact .inr ⟨hstop, hhollow, hstart⟩
  · rintro (⟨p, htoken, hspan⟩ | ⟨hstop, -, hstart⟩)
    · exact ⟨htoken.1.trans_lt hspan.2, hspan.1.trans_lt htoken.2⟩
    · exact ⟨hstop, hstart⟩

theorem not_hollowIn (h : span.start < span.stop) : ¬ span.HollowIn token :=
  fun hhollow => absurd h (Nat.not_lt.2 hhollow.2.1)

/-- The entity of the first of some spans for which `P` holds, or the tag for none. -/
inductive FirstTag (P : EntitySpan → Prop) (spans : List EntitySpan) : String → Prop
  | found {before after : List EntitySpan} {span : EntitySpan}
    (hspans : spans = before ++ span :: after) (hbefore : ∀ s ∈ before, ¬ P s) (h : P span) :
    FirstTag P spans span.entity
  | absent (h : ∀ s ∈ spans, ¬ P s) : FirstTag P spans noEntity

theorem firstTag_iff {P : EntitySpan → Prop} {spans : List EntitySpan} {tag' : String}
    (hP : ∀ s ∈ spans, P s ↔ s.overlaps token = true) :
    FirstTag P spans tag' ↔ tag spans token = tag' := by
  have hfalse {s : EntitySpan} (hs : s ∈ spans) : ¬ P s ↔ s.overlaps token = false := by
    rw [hP s hs, Bool.not_eq_true]
  constructor
  · rintro (⟨hspans, hbefore, h⟩ | h)
    · have hfind : spans.find? (·.overlaps token) = some _ :=
        List.find?_eq_some_iff_append.2 ⟨(hP _ (by simp [hspans])).1 h, _, _, hspans,
          fun s hs => by simp [(hfalse (by simp [hspans, hs])).1 (hbefore s hs)]⟩
      rw [tag, hfind]
    · have hfind : spans.find? (·.overlaps token) = none :=
        List.find?_eq_none.2 fun s hs => by simp [(hfalse hs).1 (h s hs)]
      rw [tag, hfind]
  · rintro rfl
    cases hfind : spans.find? (·.overlaps token) with
    | none =>
      rw [tag, hfind]
      exact .absent fun s hs => mt (hP s hs).1 (List.find?_eq_none.1 hfind s hs)
    | some span =>
      obtain ⟨h, before, after, hspans, hbefore⟩ := List.find?_eq_some_iff_append.1 hfind
      rw [tag, hfind]
      refine .found hspans (fun s hs => (hfalse (by simp [hspans, hs])).2 ?_)
        ((hP span (by simp [hspans])).2 h)
      simpa using hbefore s hs

end EntitySpan

namespace Turn
variable {endToEndOnly : Bool} {t : Turn} {tags : List String}

/-- Why a turn has no tags. -/
inductive Untagged (endToEndOnly : Bool) (t : Turn) : Prop
  | silent (h : t.utterance = none)
  | intent {u : Utterance} (hu : t.utterance = some u) (honly : endToEndOnly = true)
    (h : u.intent ≠ none)
  | textless {u : Utterance} (hu : t.utterance = some u) (h : u.text = none)
  | plain {u : Utterance} (hu : t.utterance = some u) (h : u.entities = [])

/-- The tags of a turn if `P` tells which spans count for a token. -/
inductive Tagged (P : EntitySpan → Token → Prop) (endToEndOnly : Bool) (t : Turn) :
    List String → Prop
  | untagged (h : t.Untagged endToEndOnly) : Tagged P endToEndOnly t []
  | tagged {u : Utterance} {text : String} {tags : List String} (hu : t.utterance = some u)
    (hintent : endToEndOnly = true → u.intent = none) (htext : u.text = some text)
    (hentities : u.entities ≠ [])
    (h : List.Forall₂ (fun token tag => EntitySpan.FirstTag (P · token) u.entities tag)
      (Text.tokens text) tags) : Tagged P endToEndOnly t tags

theorem spanTagger_of_untagged (h : t.Untagged endToEndOnly) : spanTagger endToEndOnly t = [] := by
  unfold spanTagger
  cases h with
  | silent h => rw [h]
  | intent hu honly h =>
    rw [hu]
    simp [Utterance.tags, Utterance.isEndToEnd, honly, h]
  | textless hu h =>
    rw [hu]
    simp [Utterance.tags, h]
  | @plain u hu h =>
    rw [hu]
    cases htext : u.text <;> simp [Utterance.tags, htext, h]

theorem spanTagger_of_text {u : Utterance} {text : String} (hu : t.utterance = some u)
    (hintent : endToEndOnly = true → u.intent = none) (htext : u.text = some text)
    (hentities : u.entities ≠ []) :
    spanTagger endToEndOnly t = (Text.tokens text).map (EntitySpan.tag u.entities) := by
  have hguard : (endToEndOnly && !u.isEndToEnd) = false := by
    rw [Utterance.isEndToEnd, htext]
    cases endToEndOnly with
    | false => rfl
    | true => rw [hintent rfl]; rfl
  have hentities : u.entities.isEmpty = false := by rwa [List.isEmpty_eq_false_iff]
  unfold spanTagger
  rw [hu]
  show u.tags endToEndOnly = _
  rw [Utterance.tags, hguard, htext]
  simp only [hentities, Bool.false_eq_true, ↓reduceIte]

theorem untagged_or_text (endToEndOnly : Bool) (t : Turn) :
    t.Untagged endToEndOnly ∨ ∃ u text, t.utterance = some u ∧
      (endToEndOnly = true → u.intent = none) ∧ u.text = some text ∧ u.entities ≠ [] := by
  cases hu : t.utterance with
  | none => exact .inl (.silent hu)
  | some u =>
    cases htext : u.text with
    | none => exact .inl (.textless hu htext)
    | some text =>
      by_cases hentities : u.entities = []
      · exact .inl (.plain hu hentities)
      by_cases hintent : endToEndOnly = true → u.intent = none
      · exact .inr ⟨u, text, rfl, hintent, htext, hentities⟩
      · obtain ⟨honly, h⟩ := Classical.not_imp.1 hintent
        exact .inl (.intent hu honly h)

/-- The tagger tags by whatever tells the overlapping spans of the turn's message. -/
theorem tagged_iff {P : EntitySpan → Token → Prop}
    (hP : ∀ u text, t.utterance = some u → ∀ token ∈ Text.tokens text, ∀ span ∈ u.entities,
      P span token ↔ span.overlaps token = true) :
    t.Tagged P endToEndOnly tags ↔ spanTagger endToEndOnly t = tags := by
  have hfirst {u : Utterance} (text : String) (hu : t.utterance = some u) (token : Token)
      (htoken : token ∈ Text.tokens text) (tag : String) :
      EntitySpan.FirstTag (P · token) u.entities tag ↔ EntitySpan.tag u.entities token = tag :=
    EntitySpan.firstTag_iff (hP u text hu token htoken)
  constructor
  · rintro (h | ⟨hu, hintent, htext, hentities, h⟩)
    · exact spanTagger_of_untagged h
    · have hmem := (List.forall₂_and_left (p := (· ∈ Text.tokens _)) _ _).2 ⟨fun _ h => h, h⟩
      rw [spanTagger_of_text hu hintent htext hentities, ← List.forall₂_eq_eq_eq,
        List.forall₂_map_left_iff]
      exact hmem.imp fun token tag ⟨htoken, htag⟩ => (hfirst _ hu token htoken tag).1 htag
  · rintro rfl
    rcases untagged_or_text endToEndOnly t with h | ⟨u, text, hu, hintent, htext, hentities⟩
    · rw [spanTagger_of_untagged h]
      exact .untagged h
    · refine .tagged hu hintent htext hentities ?_
      rw [spanTagger_of_text hu hintent htext hentities, List.forall₂_map_right_iff,
        List.forall₂_same]
      exact fun token htoken => (hfirst text hu token htoken _).2 rfl

end Turn

/-- Of every turn: the tags are those of the first spans that share a character with the token, or
that are hollow and lie inside it. Where no span is hollow only the former count. -/
theorem spanTagger_tags (endToEndOnly : Bool) (t : Turn) (tags : List String) :
    (t.Tagged (fun span token => span.Shares token ∨ span.HollowIn token) endToEndOnly tags ↔
      spanTagger endToEndOnly t = tags) ∧
    ((∀ u, t.utterance = some u → ∀ span ∈ u.entities, span.start < span.stop) →
      (t.Tagged EntitySpan.Shares endToEndOnly tags ↔ spanTagger endToEndOnly t = tags)) := by
  have hproper {text : String} {token : Token} (h : token ∈ Text.tokens text) :
      token.start < token.stop := (Token.bounds_scan 0 text.toList token h).2.1
  refine ⟨Turn.tagged_iff fun u text _ token htoken span _ => ?_, fun h =>
    Turn.tagged_iff fun u text hu token htoken span hspan => ?_⟩
  · exact (EntitySpan.overlaps_iff (hproper htoken)).symm
  · rw [EntitySpan.overlaps_iff (hproper htoken),
      or_iff_left (EntitySpan.not_hollowIn (h u hu span hspan))]

/-- A span of no characters inside a word: the word gets its entity, though they share nothing. -/
theorem spanTagger_hollow :
    let span : EntitySpan := ⟨"city", none, 2, 2⟩
    let t : Turn := { Turn.opening 1 with utterance := some ⟨none, [span], some "Rome"⟩ }
    Text.tokens "Rome" = [⟨0, 4⟩] ∧ ¬ span.Shares ⟨0, 4⟩ ∧ spanTagger true t = ["city"] ∧
      t.Tagged EntitySpan.Shares true ["O"] ∧
      ¬ t.Tagged EntitySpan.Shares true (spanTagger true t) := by
  intro span t
  have htokens : Text.tokens "Rome" = [⟨0, 4⟩] := by decide
  have hshares : ¬ span.Shares ⟨0, 4⟩ := fun ⟨_, _, hp⟩ =>
    absurd (hp.1.trans_lt hp.2) (Nat.lt_irrefl 2)
  have htags : spanTagger true t = ["city"] := by decide
  refine ⟨htokens, hshares, htags, ?_, ?_⟩
  · refine .tagged rfl (fun _ => rfl) rfl (List.cons_ne_nil _ _) ?_
    rw [htokens]
    exact .cons (.absent (List.forall_mem_singleton.2 hshares)) .nil
  · rw [htags]
    rintro (_ | ⟨hu, -, htext, -, h⟩)
    obtain rfl := Option.some.inj hu
    obtain rfl := Option.some.inj htext
    rw [htokens] at h
    obtain ⟨hfirst, -⟩ := List.forall₂_cons.1 h
    generalize htag : "city" = tag at hfirst
    cases hfirst with
    | @found before after span' hspans _ hspan =>
      have hmem : span' ∈ [span] := by
        rw [show [span] = before ++ span' :: after from hspans]
        simp
      exact hshares (List.mem_singleton.1 hmem ▸ hspan)
    | absent => exact absurd htag (by decide)

end DialogueWindows
