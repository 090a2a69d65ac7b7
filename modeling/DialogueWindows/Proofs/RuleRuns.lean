import DialogueWindows.Visibility
import Mathlib.Data.List.Basic

/-! # Where the last run of rule-only turns ends

Scanning turns finds the last position that is rule-only (`lastEnd_ruleRuns`); a dialogue that is
collapsed starts anew behind it (`collapseRuleRuns_of_last`). -/

namespace DialogueWindows
variable {turns : List Turn} {t : Turn} {last : Nat}

/-- The positions of the rule-only turns, the first turn standing at `position`. -/
def ruleOnlyFrom (position : Nat) (turns : List Turn) : List Nat :=
  ((turns.zipIdx position).filter fun x => x.1.isRuleOnly).map (·.2)

/-- The positions of the rule-only turns. -/
def ruleOnly (turns : List Turn) : List Nat :=
  ruleOnlyFrom 0 turns

theorem ruleOnlyFrom_cons (position : Nat) (t : Turn) (turns : List Turn) :
    ruleOnlyFrom position (t :: turns) =
      if t.isRuleOnly then position :: ruleOnlyFrom (position + 1) turns
      else ruleOnlyFrom (position + 1) turns := by
  rw [ruleOnlyFrom, List.zipIdx_cons, List.filter_cons]
  cases t.isRuleOnly <;> rfl

theorem RuleRuns.lastEnd_scan (runs : RuleRuns) (inside : Bool) (position : Nat)
    (turns : List Turn) :
    (runs.scan inside position turns).lastEnd =
      (ruleOnlyFrom position turns).getLast?.or runs.lastEnd := by
  induction turns generalizing runs inside position with
  | nil => rfl
  | cons t rest ih =>
    rw [scan, ruleOnlyFrom_cons]
    split
    · rw [ih, List.getLast?_cons]
      cases (ruleOnlyFrom (position + 1) rest).getLast? <;> rfl
    · rw [ih]

theorem lastEnd_ruleRuns (turns : List Turn) :
    (ruleRuns turns).lastEnd = (ruleOnly turns).getLast? := by
  rw [ruleRuns, RuleRuns.lastEnd_scan, Option.or_none]
  rfl

theorem ruleOnly_map_range (f : Nat → Turn) (n : Nat) :
    ruleOnly ((List.range n).map f) = (List.range n).filter fun p => (f p).isRuleOnly := by
  have hpairs : ((List.range n).map f).zipIdx = (List.range n).map fun p => (f p, p) := by
    rw [List.zipIdx_eq_zip_range', List.length_map, List.length_range, ← List.range_eq_range',
      ← List.map_prod_right_eq_zip]
  rw [ruleOnly, ruleOnlyFrom, hpairs, List.filter_map, List.map_map]
  exact List.map_id _

theorem collapseRuleRuns_of_none (h : (ruleOnly turns).getLast? = none) :
    collapseRuleRuns turns = turns := by
  rw [collapseRuleRuns, lastEnd_ruleRuns, h]

theorem collapseRuleRuns_of_last (h : (ruleOnly turns).getLast? = some last)
    (ht : turns[last]? = some t) :
    collapseRuleRuns turns = .opening t.index :: turns.drop (last + 1) := by
  obtain ⟨hlt, rfl⟩ := List.getElem?_eq_some_iff.1 ht
  rw [collapseRuleRuns, lastEnd_ruleRuns, h]
  simp only [List.drop_eq_getElem_cons hlt]

theorem collapseRuleRuns_map_range {f : Nat → Turn} {n : Nat}
    (h : (ruleOnly ((List.range n).map f)).getLast? = some last) :
    collapseRuleRuns ((List.range n).map f) =
      .opening (f last).index :: (List.range' (last + 1) (n - (last + 1))).map f := by
  have hlt : last < n := by
    have hlast := List.mem_of_getLast? h
    rw [ruleOnly_map_range] at hlast
    exact List.mem_range.1 (List.mem_of_mem_filter hlast)
  have hget : ((List.range n).map f)[last]? = some (f last) := by
    rw [List.getElem?_map, List.getElem?_range hlt, Option.map_some]
  rw [collapseRuleRuns_of_last h hget, ← List.map_drop, List.range_eq_range', List.drop_range',
    Nat.zero_add, Nat.mul_one]

end DialogueWindows
