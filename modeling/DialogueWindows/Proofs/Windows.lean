import DialogueWindows.EntityTag
import DialogueWindows.History
import DialogueWindows.Proofs.Positions
import Mathlib.Data.List.DropRight

/-! # Windows and labels by position

`labels` lists the labels of turns with their positions. The labelled windows are those of the turns
before these positions, so a turn that is added behind changes no earlier window, and the window it
may add is the window at the end of the turns before it (`labelledWindows_concat`). -/

namespace DialogueWindows
variable {α β : Type} {xs ys : List α} {span : Span} {maxHistory : Option Nat}

namespace Span

theorem slice_append (h : span.stop ≤ xs.length) : span.slice (xs ++ ys) = span.slice xs := by
  rw [slice, slice, List.take_append_of_le_length h]

theorem slice_map (f : α → β) : span.slice (xs.map f) = (span.slice xs).map f := by
  rw [slice, slice, List.map_drop, List.map_take]

end Span

theorem recent_map (f : α → β) : recent maxHistory (xs.map f) = (recent maxHistory xs).map f := by
  rw [recent, recent, Span.slice_map, List.length_map]

/-- The last `maxHistory` elements, all of them without a bound. -/
def ending (maxHistory : Option Nat) (xs : List α) : List α :=
  maxHistory.elim xs xs.rtake

theorem recent_eq_ending (maxHistory : Option Nat) (xs : List α) :
    recent maxHistory xs = ending maxHistory xs := by
  rw [recent, Span.slice]
  show (xs.take xs.length).drop _ = _
  rw [List.take_length]
  cases maxHistory with
  | none => exact List.drop_zero
  | some k => rfl

variable {turns : List Turn} {t : Turn}

theorem windowAt_append (h : span.stop ≤ turns.length) (more : List Turn) :
    windowAt (turns ++ more) span = windowAt turns span := by
  rw [windowAt, windowAt, Span.slice_append h]

/-- The labels of turns, each with the position of its turn. -/
def labels (turns : List Turn) : List (Nat × String) :=
  positions Turn.label? turns

/-- The window before a label. -/
def windowOf (turns : List Turn) (maxHistory : Option Nat) (x : Nat × String) : LabelledWindow :=
  ⟨.before x.1 maxHistory, windowAt turns (.before x.1 maxHistory), x.2⟩

theorem labelledFrom_eq (turns : List Turn) (maxHistory : Option Nat) (position : Nat)
    (rest : List Turn) :
    labelledFrom turns maxHistory position rest =
      (positionsFrom Turn.label? position rest).map (windowOf turns maxHistory) := by
  induction rest generalizing position with
  | nil => rfl
  | cons t rest ih =>
    rw [labelledFrom, ih, positionsFrom_cons]
    cases t.label? <;> rfl

theorem labelledWindows_eq (turns : List Turn) (maxHistory : Option Nat) :
    labelledWindows turns maxHistory = (labels turns).map (windowOf turns maxHistory) :=
  labelledFrom_eq turns maxHistory 0 turns

/-- One more turn leaves the windows of the others; its own holds the turns before it. -/
theorem labelledWindows_concat (turns : List Turn) (t : Turn) (maxHistory : Option Nat) :
    labelledWindows (turns ++ [t]) maxHistory =
      labelledWindows turns maxHistory ++
        (t.label?.map fun l =>
          ⟨finalSpan turns maxHistory, finalWindow turns maxHistory, l⟩).toList := by
  rw [labelledWindows_eq, labelledWindows_eq, labels, positions_concat, ← labels, List.map_append]
  congr 1
  · refine List.map_congr_left fun x hx => ?_
    rw [windowOf, windowOf, windowAt_append (Nat.le_of_lt (lt_of_mem_positions hx))]
  · cases t.label? with
    | none => rfl
    | some l =>
      show [windowOf (turns ++ [t]) maxHistory (turns.length, l)] = _
      rw [windowOf, windowAt_append (Nat.le_refl _)]
      rfl

theorem stop_le_of_mem_labelledWindows {w : LabelledWindow}
    (h : w ∈ labelledWindows turns maxHistory) : w.span.stop ≤ turns.length := by
  rw [labelledWindows_eq] at h
  obtain ⟨x, hx, rfl⟩ := List.mem_map.1 h
  exact Nat.le_of_lt (lt_of_mem_positions hx)

end DialogueWindows
