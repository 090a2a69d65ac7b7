import DialogueWindows.Turn

/-! # History windows

A window holds the states before a decision, at most `maxHistory` of them if a bound is set. Every
turn that contributes a label has a window of the turns before it; the next action is predicted from
the window at the end. -/

namespace DialogueWindows

/-- The positions `start ≤ p < stop`. -/
structure Span where
  start : Nat
  stop : Nat
deriving DecidableEq, Repr

namespace Span
variable {α : Type}

/-- The last `maxHistory` positions before `stop`. -/
def before (stop : Nat) (maxHistory : Option Nat) : Span :=
  ⟨match maxHistory with
    | none => 0
    | some k => stop - k, stop⟩

/-- The elements at the positions. -/
def slice (span : Span) (xs : List α) : List α :=
  (xs.take span.stop).drop span.start

end Span

/-- The most recent elements, in order. -/
def recent {α : Type} (maxHistory : Option Nat) (xs : List α) : List α :=
  (Span.before xs.length maxHistory).slice xs

/-- The states of the turns at some positions. -/
def windowAt (turns : List Turn) (span : Span) : Window :=
  (span.slice turns).map (·.state)

/-- A window that ends before a labelled turn. -/
structure LabelledWindow where
  span : Span
  window : Window
  label : String
deriving DecidableEq

/-- The labelled windows of `turns` that end at `position` or behind, `rest` being the turns from
there on. -/
def labelledFrom (turns : List Turn) (maxHistory : Option Nat) (position : Nat) :
    List Turn → List LabelledWindow
  | [] => []
  | t :: rest =>
    let more := labelledFrom turns maxHistory (position + 1) rest
    match t.label? with
    | some label =>
      let span := Span.before position maxHistory
      ⟨span, windowAt turns span, label⟩ :: more
    | none => more

/-- One window for each turn with a label: the states before it. -/
def labelledWindows (turns : List Turn) (maxHistory : Option Nat) : List LabelledWindow :=
  labelledFrom turns maxHistory 0 turns

/-- The positions of the window at the end. -/
def finalSpan (turns : List Turn) (maxHistory : Option Nat) : Span :=
  .before turns.length maxHistory

/-- The window at the end. -/
def finalWindow (turns : List Turn) (maxHistory : Option Nat) : Window :=
  windowAt turns (finalSpan turns maxHistory)

end DialogueWindows
