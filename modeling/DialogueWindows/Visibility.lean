import DialogueWindows.Turn

/-! # Visible turns

Two filters hide turns: `collapseRuleRuns` lets the dialogue start anew after the last turn that is
rule-only, and `removeUnlikelyIntent` drops the turns that the fallback action opened. `visible`
applies the first before the second. -/

namespace DialogueWindows

/-- Which turns are hidden. -/
structure Visibility where
  ignoreRuleOnlyTurns : Bool
  ignoreUnlikelyIntent : Bool
deriving DecidableEq, Repr

/-- The runs of adjacent rule-only turns: how many there are and where the last of them ends. -/
structure RuleRuns where
  lastEnd : Option Nat
  count : Nat
deriving DecidableEq, Repr

namespace RuleRuns

/-- Counts on over the turns from a position on; `inside` tells whether the turn before them is
rule-only. -/
def scan (runs : RuleRuns) (inside : Bool) (position : Nat) : List Turn → RuleRuns
  | [] => runs
  | t :: rest =>
    if t.isRuleOnly then
      scan ⟨some position, if inside then runs.count else runs.count + 1⟩ true (position + 1) rest
    else
      scan runs false (position + 1) rest

end RuleRuns

def ruleRuns (turns : List Turn) : RuleRuns :=
  RuleRuns.scan ⟨none, 0⟩ false 0 turns

/-- Replaces everything up to the last rule-only turn by an empty turn with that turn's index. -/
def collapseRuleRuns (turns : List Turn) : List Turn :=
  match (ruleRuns turns).lastEnd with
  | none => turns
  | some last =>
    match turns.drop last with
    | [] => turns
    | t :: rest => .opening t.index :: rest

/-- Drops the turns that the fallback action opened. -/
def removeUnlikelyIntent (turns : List Turn) : List Turn :=
  turns.filter fun t => !t.isUnlikelyIntent

def visible (v : Visibility) (turns : List Turn) : List Turn :=
  let turns := if v.ignoreRuleOnlyTurns then collapseRuleRuns turns else turns
  if v.ignoreUnlikelyIntent then removeUnlikelyIntent turns else turns

end DialogueWindows
