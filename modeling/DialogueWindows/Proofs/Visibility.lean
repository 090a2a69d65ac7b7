import DialogueWindows.Proofs.RuleRuns
import Mathlib.Data.List.Induction
import Mathlib.Data.Set.Card
import Mathlib.Order.Bounds.Basic

/-! # What the filters leave of any turns

The turns need not be those of a log. A scan finds the last rule-only turn and counts the runs of
such turns (`scans_ruleRuns`), each where it starts. What collapsing leaves depends on the turns
behind the last rule-only one alone (`collapseRuleRuns_append`). No turn that a filter hides is left
and no other is changed (`filters_visible`), so filtering twice is filtering once. -/

namespace DialogueWindows
variable {turns before after : List Turn} {t : Turn} {p first last : Nat}

/-! ### Rule-only positions -/

theorem mem_ruleOnly : p ∈ ruleOnly turns ↔ ∃ t, turns[p]? = some t ∧ t.isRuleOnly = true := by
  rw [ruleOnly, ruleOnlyFrom, List.mem_map]
  constructor
  · rintro ⟨⟨t, q⟩, hmem, rfl⟩
    obtain ⟨hx, ht⟩ := List.mem_filter.1 hmem
    exact ⟨t, List.mk_mem_zipIdx_iff_getElem?.1 hx, ht⟩
  · rintro ⟨t, hp, ht⟩
    exact ⟨(t, p), List.mem_filter.2 ⟨List.mk_mem_zipIdx_iff_getElem?.2 hp, ht⟩, rfl⟩

theorem lt_of_mem_ruleOnly (h : p ∈ ruleOnly turns) : p < turns.length := by
  obtain ⟨t, ht, -⟩ := mem_ruleOnly.1 h
  exact (List.getElem?_eq_some_iff.1 ht).1

theorem ruleOnlyFrom_append (position : Nat) (xs ys : List Turn) :
    ruleOnlyFrom position (xs ++ ys) =
      ruleOnlyFrom position xs ++ ruleOnlyFrom (position + xs.length) ys := by
  rw [ruleOnlyFrom, List.zipIdx_append, List.filter_append, List.map_append]
  rfl

theorem ruleOnly_concat (turns : List Turn) (t : Turn) :
    ruleOnly (turns ++ [t]) = ruleOnly turns ++ if t.isRuleOnly then [turns.length] else [] := by
  rw [ruleOnly, ruleOnlyFrom_append, ruleOnlyFrom_cons, Nat.zero_add]
  rfl

theorem ruleOnlyFrom_eq_nil {position : Nat} (h : ∀ t ∈ turns, t.isRuleOnly = false) :
    ruleOnlyFrom position turns = [] := by
  refine List.map_eq_nil_iff.2 (List.filter_eq_nil_iff.2 fun x hx => ?_)
  rw [h x.1 (List.fst_mem_of_mem_zipIdx hx)]
  exact Bool.false_ne_true

theorem pairwise_ruleOnly (turns : List Turn) : (ruleOnly turns).Pairwise (· < ·) := by
  have hsub : (ruleOnly turns).Sublist (turns.zipIdx.map (·.2)) := List.filter_sublist.map _
  rw [List.zipIdx_map_snd] at hsub
  exact List.Pairwise.sublist hsub (List.pairwise_lt_range' ..)

theorem getLast?_eq_some_iff_isGreatest {positions : List Nat} (h : positions.Pairwise (· < ·)) :
    positions.getLast? = some p ↔ IsGreatest {q | q ∈ positions} p := by
  have hgreatest {q : Nat} (hq : positions.getLast? = some q) :
      IsGreatest {q | q ∈ positions} q := by
    obtain ⟨front, rfl⟩ := List.getLast?_eq_some_iff.1 hq
    refine ⟨List.mem_concat_self, fun r hr => ?_⟩
    rcases List.mem_append.1 hr with hr | hr
    · exact ((List.pairwise_append.1 h).2.2 r hr q (List.mem_singleton_self q)).le
    · exact (List.mem_singleton.1 hr).le
  refine ⟨hgreatest, fun hp => ?_⟩
  obtain ⟨q, hq⟩ := Option.isSome_iff_exists.1 (List.getLast?_isSome.2 (List.ne_nil_of_mem hp.1))
  rw [hq, hp.unique (hgreatest hq)]

/-! ### Counting runs -/

/-- The turns from `first` to `last` are rule-only, and neither the turn before them nor the one
behind them is. -/
structure IsRuleRun (turns : List Turn) (first last : Nat) : Prop where
  le : first ≤ last
  inside : ∀ p, first ≤ p → p ≤ last → p ∈ ruleOnly turns
  before : ∀ p ∈ ruleOnly turns, p + 1 ≠ first
  behind : last + 1 ∉ ruleOnly turns

/-- The positions at which a run of rule-only turns starts. -/
def runStarts (turns : List Turn) : List Nat :=
  (ruleOnly turns).filter fun p => ∀ q ∈ ruleOnly turns, q + 1 ≠ p

theorem mem_runStarts :
    p ∈ runStarts turns ↔ p ∈ ruleOnly turns ∧ ∀ q ∈ ruleOnly turns, q + 1 ≠ p := by
  rw [runStarts, List.mem_filter, decide_eq_true_eq]

theorem nodup_runStarts (turns : List Turn) : (runStarts turns).Nodup :=
  ((pairwise_ruleOnly turns).imp ne_of_lt).filter _

/-- The last turn is rule-only. -/
def endsRuleOnly (turns : List Turn) : Bool :=
  turns.getLast?.any (·.isRuleOnly)

theorem endsRuleOnly_iff :
    endsRuleOnly turns = true ↔ ∃ q ∈ ruleOnly turns, q + 1 = turns.length := by
  rw [endsRuleOnly, Option.any_eq_true, List.getLast?_eq_getElem?]
  constructor
  · rintro ⟨t, ht, hrule⟩
    have hlt := (List.getElem?_eq_some_iff.1 ht).1
    exact ⟨_, mem_ruleOnly.2 ⟨t, ht, hrule⟩, by omega⟩
  · rintro ⟨q, hq, hlast⟩
    obtain ⟨t, ht, hrule⟩ := mem_ruleOnly.1 hq
    exact ⟨t, by rw [← hlast]; exact ht, hrule⟩

theorem runStarts_concat (turns : List Turn) (t : Turn) :
    runStarts (turns ++ [t]) =
      runStarts turns ++ if t.isRuleOnly && !endsRuleOnly turns then [turns.length] else [] := by
  rw [runStarts, ruleOnly_concat]
  cases ht : t.isRuleOnly with
  | false => simp [runStarts]
  | true =>
    rw [if_pos rfl, List.filter_append]
    congr 1
    · refine List.filter_congr fun p hp => decide_eq_decide.2 ?_
      have hlt := lt_of_mem_ruleOnly hp
      rw [List.forall_mem_append, List.forall_mem_singleton]
      exact and_iff_left (by omega)
    · have hstart : (∀ q ∈ ruleOnly turns ++ [turns.length], q + 1 ≠ turns.length) ↔
          ¬ endsRuleOnly turns = true := by
        rw [endsRuleOnly_iff, List.forall_mem_append, List.forall_mem_singleton]
        simp
      by_cases hends : endsRuleOnly turns = true
      · rw [List.filter_cons_of_neg (by simp only [hstart, hends]; decide), hends]
        rfl
      · rw [List.filter_cons_of_pos (by simp only [hstart, hends]; decide), if_pos (by simp [hends])]
        rfl

theorem RuleRuns.scan_append (runs : RuleRuns) (inside : Bool) (position : Nat)
    (xs ys : List Turn) :
    runs.scan inside position (xs ++ ys) =
      (runs.scan inside position xs).scan ((xs.getLast?.map (·.isRuleOnly)).getD inside)
        (position + xs.length) ys := by
  induction xs generalizing runs inside position with
  | nil => rfl
  | cons t rest ih =>
    have hinside (b : Bool) (hb : t.isRuleOnly = b) :
        (rest.getLast?.map (·.isRuleOnly)).getD b =
          (((t :: rest).getLast?).map (·.isRuleOnly)).getD inside := by
      rw [List.getLast?_cons]
      cases rest.getLast? with
      | none => exact hb.symm
      | some u => rfl
    rw [List.cons_append, scan, scan, List.length_cons, ← Nat.add_assoc, Nat.add_right_comm]
    split
    · rename_i ht
      rw [ih, hinside _ ht]
    · rename_i ht
      rw [ih, hinside _ (Bool.eq_false_iff.2 ht)]

theorem count_ruleRuns (turns : List Turn) : (ruleRuns turns).count = (runStarts turns).length := by
  induction turns using List.reverseRecOn with
  | nil => rfl
  | append_singleton turns t ih =>
    have hinside : (turns.getLast?.map (·.isRuleOnly)).getD false = endsRuleOnly turns := by
      rw [endsRuleOnly]
      cases turns.getLast? <;> rfl
    rw [ruleRuns, RuleRuns.scan_append, hinside, ← ruleRuns, runStarts_concat, List.length_append,
      ← ih, RuleRuns.scan, RuleRuns.scan, RuleRuns.scan]
    cases t.isRuleOnly <;> cases endsRuleOnly turns <;> rfl

/-- A run goes on up to the first turn that is not rule-only. -/
theorem exists_isRuleRun (h : first ∈ runStarts turns) : ∃ last, IsRuleRun turns first last := by
  obtain ⟨hfirst, hbefore⟩ := mem_runStarts.1 h
  have hstop : ∃ p, first < p ∧ p ∉ ruleOnly turns :=
    ⟨turns.length, lt_of_mem_ruleOnly hfirst, fun hp => (lt_of_mem_ruleOnly hp).false⟩
  obtain ⟨hlt, hstopped⟩ := Nat.find_spec hstop
  refine ⟨Nat.find hstop - 1, by omega, fun p hp hlast => ?_, hbefore, ?_⟩
  · rcases hp.eq_or_lt with rfl | hp
    · exact hfirst
    · by_contra hnot
      exact Nat.find_min hstop (by omega) ⟨hp, hnot⟩
  · rwa [Nat.sub_add_cancel (by omega)]

theorem IsRuleRun.mem_runStarts (h : IsRuleRun turns first last) : first ∈ runStarts turns :=
  DialogueWindows.mem_runStarts.2 ⟨h.inside first (le_refl first) h.le, h.before⟩

theorem IsRuleRun.last_le {last' : Nat} (h : IsRuleRun turns first last)
    (h' : IsRuleRun turns first last') : last ≤ last' := by
  by_contra hlt
  exact h'.behind (h.inside _ (h'.le.trans (Nat.le_succ _)) (by omega))

theorem ncard_isRuleRun (turns : List Turn) :
    {run : Nat × Nat | IsRuleRun turns run.1 run.2}.ncard = (runStarts turns).length := by
  have hinj : Set.InjOn Prod.fst {run : Nat × Nat | IsRuleRun turns run.1 run.2} := by
    rintro ⟨first, last⟩ h ⟨_, last'⟩ h' rfl
    exact Prod.ext rfl (le_antisymm (h.last_le h') (h'.last_le h))
  have himage : Prod.fst '' {run : Nat × Nat | IsRuleRun turns run.1 run.2} =
      ((runStarts turns).toFinset : Set Nat) := by
    ext first
    rw [Set.mem_image, Finset.mem_coe, List.mem_toFinset]
    constructor
    · rintro ⟨run, hrun, rfl⟩
      exact hrun.mem_runStarts
    · intro h
      obtain ⟨last, hlast⟩ := exists_isRuleRun h
      exact ⟨(first, last), hlast, rfl⟩
  rw [← hinj.ncard_image, himage, Set.ncard_coe_finset,
    List.toFinset_card_of_nodup (nodup_runStarts turns)]

/-- What a scan of turns is to report. -/
structure Scans (turns : List Turn) (runs : RuleRuns) : Prop where
  lastEnd : ∀ p, runs.lastEnd = some p ↔ IsGreatest {q | q ∈ ruleOnly turns} p
  lastEnd_none : runs.lastEnd = none ↔ ∀ t ∈ turns, t.isRuleOnly = false
  count : runs.count = {run : Nat × Nat | IsRuleRun turns run.1 run.2}.ncard

theorem ruleOnly_eq_nil_iff : ruleOnly turns = [] ↔ ∀ t ∈ turns, t.isRuleOnly = false := by
  refine ⟨fun h t ht => ?_, ruleOnlyFrom_eq_nil⟩
  obtain ⟨p, hp⟩ := List.mem_iff_getElem?.1 ht
  by_contra hrule
  have hmem := mem_ruleOnly.2 ⟨t, hp, Bool.not_eq_false _ ▸ hrule⟩
  rw [h] at hmem
  cases hmem

theorem not_exists_isRuleOnly (h : ∀ t ∈ turns, t.isRuleOnly = false) :
    ¬ ∃ t ∈ turns, t.isRuleOnly = true := by
  rintro ⟨t, hmem, ht⟩
  rw [h t hmem] at ht
  cases ht

theorem scans_ruleRuns (turns : List Turn) : Scans turns (ruleRuns turns) := by
  refine ⟨fun p => ?_, ?_, ?_⟩
  · rw [lastEnd_ruleRuns, getLast?_eq_some_iff_isGreatest (pairwise_ruleOnly turns)]
  · rw [lastEnd_ruleRuns, List.getLast?_eq_none_iff, ruleOnly_eq_nil_iff]
  · rw [count_ruleRuns, ncard_isRuleRun]

/-! ### Collapsing -/

theorem exists_last_ruleOnly (turns : List Turn) :
    (∀ t ∈ turns, t.isRuleOnly = false) ∨
      ∃ before t after, turns = before ++ t :: after ∧ t.isRuleOnly = true ∧
        ∀ u ∈ after, u.isRuleOnly = false := by
  induction turns with
  | nil => exact .inl fun t ht => absurd ht List.not_mem_nil
  | cons t rest ih =>
    rcases ih with hrest | ⟨before, u, after, rfl, hu, hafter⟩
    · cases ht : t.isRuleOnly with
      | false => exact .inl (List.forall_mem_cons.2 ⟨ht, hrest⟩)
      | true => exact .inr ⟨[], t, rest, rfl, ht, hrest⟩
    · exact .inr ⟨t :: before, u, after, rfl, hu, hafter⟩

theorem collapseRuleRuns_of_forall (h : ∀ t ∈ turns, t.isRuleOnly = false) :
    collapseRuleRuns turns = turns := by
  refine collapseRuleRuns_of_none ?_
  rw [ruleOnly_eq_nil_iff.2 h, List.getLast?_nil]

/-- Nothing before the last rule-only turn counts. -/
theorem collapseRuleRuns_of_behind (before : List Turn) (ht : t.isRuleOnly = true)
    (h : ∀ u ∈ after, u.isRuleOnly = false) :
    collapseRuleRuns (before ++ t :: after) = .opening t.index :: after := by
  have hlast : (ruleOnly (before ++ t :: after)).getLast? = some before.length := by
    rw [ruleOnly, ruleOnlyFrom_append, ruleOnlyFrom_cons, if_pos ht, ruleOnlyFrom_eq_nil h,
      List.getLast?_concat, Nat.zero_add]
  have hget : (before ++ t :: after)[before.length]? = some t := by
    rw [List.getElem?_append_right (Nat.le_refl _), Nat.sub_self, List.getElem?_cons_zero]
  rw [collapseRuleRuns_of_last hlast hget, List.drop_append, List.drop_eq_nil_of_le (by omega),
    Nat.add_sub_cancel_left]
  rfl

theorem collapseRuleRuns_append (xs ys : List Turn) :
    collapseRuleRuns (xs ++ ys) =
      if ∃ t ∈ ys, t.isRuleOnly = true then collapseRuleRuns ys else collapseRuleRuns xs ++ ys := by
  rcases exists_last_ruleOnly ys with hys | ⟨before, t, after, rfl, ht, hafter⟩
  · rw [if_neg (not_exists_isRuleOnly hys)]
    rcases exists_last_ruleOnly xs with hxs | ⟨before, t, after, rfl, ht, hafter⟩
    · rw [collapseRuleRuns_of_forall hxs,
        collapseRuleRuns_of_forall (List.forall_mem_append.2 ⟨hxs, hys⟩)]
    · rw [collapseRuleRuns_of_behind before ht hafter, List.append_assoc, List.cons_append,
        collapseRuleRuns_of_behind before ht (List.forall_mem_append.2 ⟨hafter, hys⟩),
        List.cons_append]
  · rw [if_pos ⟨t, List.mem_append_right _ (List.mem_cons_self ..), ht⟩, ← List.append_assoc,
      collapseRuleRuns_of_behind _ ht hafter, collapseRuleRuns_of_behind _ ht hafter]

theorem isRuleOnly_collapseRuleRuns (h : t ∈ collapseRuleRuns turns) : t.isRuleOnly = false := by
  rcases exists_last_ruleOnly turns with hnone | ⟨before, u, after, rfl, hu, hafter⟩
  · rw [collapseRuleRuns_of_forall hnone] at h
    exact hnone t h
  · rw [collapseRuleRuns_of_behind before hu hafter] at h
    rcases List.mem_cons.1 h with rfl | h
    · rfl
    · exact hafter t h

/-- What collapsing is to make of turns. -/
structure Collapses (turns collapsed : List Turn) : Prop where
  unmarked : (∀ t ∈ turns, t.isRuleOnly = false) → collapsed = turns
  marked : ∀ last t, IsGreatest {q | q ∈ ruleOnly turns} last → turns[last]? = some t →
    collapsed = .opening t.index :: turns.drop (last + 1)

theorem collapses_collapseRuleRuns (turns : List Turn) :
    Collapses turns (collapseRuleRuns turns) := by
  refine ⟨collapseRuleRuns_of_forall, fun last t hlast ht => ?_⟩
  exact collapseRuleRuns_of_last
    ((getLast?_eq_some_iff_isGreatest (pairwise_ruleOnly turns)).2 hlast) ht

/-! ### Hiding turns -/

variable {v : Visibility}

/-- The turn is hidden for the action that opened it. -/
def Visibility.hides (v : Visibility) (t : Turn) : Bool :=
  v.ignoreUnlikelyIntent && t.isUnlikelyIntent

theorem visible_eq_filter (v : Visibility) (turns : List Turn) :
    visible v turns =
      (if v.ignoreRuleOnlyTurns then collapseRuleRuns turns else turns).filter (!v.hides ·) := by
  unfold visible Visibility.hides
  cases v.ignoreUnlikelyIntent with
  | true => rfl
  | false => exact (List.filter_eq_self.2 fun _ _ => rfl).symm

theorem filter_opening (v : Visibility) (index : Nat) (rest : List Turn) :
    (Turn.opening index :: rest).filter (!v.hides ·) =
      .opening index :: rest.filter (!v.hides ·) :=
  List.filter_cons_of_pos (by rw [Visibility.hides, Turn.opening, Bool.and_false, Bool.not_false])

/-- Turns of a list, unchanged and in order, behind at most one empty turn. -/
inductive LeftOf (turns : List Turn) : List Turn → Prop
  | kept {rest : List Turn} (h : rest.Sublist turns) : LeftOf turns rest
  | opened (index : Nat) {rest : List Turn} (h : rest.Sublist turns) :
    LeftOf turns (.opening index :: rest)

theorem leftOf_visible (v : Visibility) (turns : List Turn) : LeftOf turns (visible v turns) := by
  rw [visible_eq_filter]
  split
  · rcases exists_last_ruleOnly turns with hnone | ⟨before, t, after, rfl, ht, hafter⟩
    · rw [collapseRuleRuns_of_forall hnone]
      exact .kept List.filter_sublist
    · rw [collapseRuleRuns_of_behind before ht hafter, filter_opening]
      exact .opened t.index (List.filter_sublist.trans
        ((List.sublist_cons_self t after).trans (List.sublist_append_right before _)))
  · exact .kept List.filter_sublist

theorem mem_or_opening_of_mem_visible (h : t ∈ visible v turns) :
    t ∈ turns ∨ ∃ index, t = .opening index := by
  have hleft := leftOf_visible v turns
  generalize visible v turns = left at h hleft
  cases hleft with
  | kept hsub => exact .inl (hsub.subset h)
  | opened index hsub =>
    rcases List.mem_cons.1 h with rfl | h
    · exact .inr ⟨index, rfl⟩
    · exact .inl (hsub.subset h)

theorem isRuleOnly_of_mem_visible (hv : v.ignoreRuleOnlyTurns = true) (h : t ∈ visible v turns) :
    t.isRuleOnly = false := by
  rw [visible_eq_filter, if_pos hv] at h
  exact isRuleOnly_collapseRuleRuns (List.mem_of_mem_filter h)

theorem hides_of_mem_visible (h : t ∈ visible v turns) : v.hides t = false := by
  rw [visible_eq_filter, List.mem_filter, Bool.not_eq_true'] at h
  exact h.2

theorem visible_visible (v : Visibility) (turns : List Turn) :
    visible v (visible v turns) = visible v turns := by
  have hcollapsed : (if v.ignoreRuleOnlyTurns then collapseRuleRuns (visible v turns)
      else visible v turns) = visible v turns := by
    split
    · rename_i hv
      exact collapseRuleRuns_of_forall fun t ht => isRuleOnly_of_mem_visible hv ht
    · rfl
  rw [visible_eq_filter v (visible v turns), hcollapsed, List.filter_eq_self]
  intro t ht
  rw [hides_of_mem_visible ht, Bool.not_false]

theorem visible_eq_nil_iff (hv : v.ignoreRuleOnlyTurns = true) :
    visible v turns = [] ↔ ∀ t ∈ turns, t.isRuleOnly = false ∧ v.hides t = true := by
  rw [visible_eq_filter, if_pos hv]
  rcases exists_last_ruleOnly turns with hnone | ⟨before, t, after, rfl, ht, hafter⟩
  · rw [collapseRuleRuns_of_forall hnone, List.filter_eq_nil_iff]
    refine forall₂_congr fun t ht => ?_
    rw [hnone t ht, Bool.not_eq_true', Bool.not_eq_false]
    exact (and_iff_right rfl).symm
  · rw [collapseRuleRuns_of_behind before ht hafter, filter_opening]
    refine ⟨fun h => absurd h (List.cons_ne_nil _ _), fun h => ?_⟩
    rw [(h t (List.mem_append_right _ (List.mem_cons_self ..))).1] at ht
    cases ht

/-- What the filters are to leave of turns. -/
structure Filters (v : Visibility) (turns left : List Turn) : Prop where
  isRuleOnly : v.ignoreRuleOnlyTurns = true → ∀ t ∈ left, t.isRuleOnly = false
  isUnlikelyIntent : v.ignoreUnlikelyIntent = true → ∀ t ∈ left, t.isUnlikelyIntent = false
  leftOf : LeftOf turns left
  /-- Behind the last rule-only turn only those that the fallback action opened are hidden. -/
  suffix : ∀ before after, turns = before ++ after →
    (v.ignoreRuleOnlyTurns = true → ∀ t ∈ after, t.isRuleOnly = false) →
    after.filter (!v.hides ·) <:+ left
  eq_nil_iff : v.ignoreRuleOnlyTurns = true →
    (left = [] ↔ ∀ t ∈ turns, t.isRuleOnly = false ∧ v.hides t = true)

theorem filters_visible (v : Visibility) (turns : List Turn) :
    Filters v turns (visible v turns) := by
  refine ⟨fun hv t ht => isRuleOnly_of_mem_visible hv ht, fun hv t ht => ?_, leftOf_visible v turns,
    ?_, visible_eq_nil_iff⟩
  · have hhides := hides_of_mem_visible ht
    rwa [Visibility.hides, hv, Bool.true_and] at hhides
  · rintro before after rfl hafter
    rw [visible_eq_filter]
    split
    · rename_i hv
      rw [collapseRuleRuns_append, if_neg (not_exists_isRuleOnly (hafter hv)), List.filter_append]
      exact List.suffix_append _ _
    · rw [List.filter_append]
      exact List.suffix_append _ _

/-- For any turns: what the scan finds, what collapsing makes of them and of turns that follow them,
and what the filters leave, which they leave as it is. -/
theorem visible_laws :
    (∀ turns, Scans turns (ruleRuns turns)) ∧
      (∀ turns, Collapses turns (collapseRuleRuns turns)) ∧
      (∀ xs ys, collapseRuleRuns (xs ++ ys) =
        if ∃ t ∈ ys, t.isRuleOnly = true then collapseRuleRuns ys
        else collapseRuleRuns xs ++ ys) ∧
      (∀ v turns, visible v (visible v turns) = visible v turns) ∧
      ∀ v turns, Filters v turns (visible v turns) :=
  ⟨scans_ruleRuns, collapses_collapseRuleRuns, collapseRuleRuns_append, visible_visible,
    filters_visible⟩

end DialogueWindows
