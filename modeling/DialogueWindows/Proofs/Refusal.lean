import DialogueWindows.Proofs.Log
import DialogueWindows.Proofs.Run
import Mathlib.Order.Bounds.Basic

/-! # Logs that are refused

A message `Repeats` an earlier one if no action and no restart stands between the two. A log is
refused exactly if it has such messages, and the first that repeats another is the one that is
reported; behind a restart a log is read as if it began there (`segment_refuses`).

Of the messages so far, reading remembers only whether one `Awaits` an action or a restart. -/

namespace DialogueWindows

/-- Whether the event makes room for another message. -/
def Event.separates : Event → Bool
  | actionExecuted _ | restarted => true
  | userUttered _ | slotSet .. | activeLoop _ => false

/-- The failure with its position counted from `n` events earlier. -/
def Failure.shift (n : Nat) : Failure → Failure
  | malformedEvents position reason => malformedEvents (position + n) reason
  | failure => failure

namespace Log
variable {events : List Event} {e : Event} {i j : Nat}

def Utters (events : List Event) (i : Nat) : Prop :=
  ∃ u, events[i]? = some (.userUttered u)

/-- The message at `j` follows the one at `i` without an action or a restart between them. -/
structure Repeats (events : List Event) (i j : Nat) : Prop where
  lt : i < j
  earlier : Utters events i
  later : Utters events j
  between : ∀ k e, i < k → k < j → events[k]? = some e → e.separates = false

/-- No action or restart has followed the message at `i`. -/
structure Awaits (events : List Event) (i : Nat) : Prop where
  utters : Utters events i
  since : ∀ k e, i < k → events[k]? = some e → e.separates = false

theorem Utters.lt_length (h : Utters events i) : i < events.length := by
  obtain ⟨u, hu⟩ := h
  exact (List.getElem?_eq_some_iff.1 hu).1

theorem utters_concat :
    Utters (events ++ [e]) i ↔
      Utters events i ∨ i = events.length ∧ ∃ u, e = .userUttered u := by
  unfold Utters
  simp only [getElem?_concat_eq_some_iff, exists_or, exists_and_left]

theorem awaits_concat :
    Awaits (events ++ [e]) i ↔
      Awaits events i ∧ e.separates = false ∨ i = events.length ∧ ∃ u, e = .userUttered u := by
  constructor
  · rintro ⟨hi, hsince⟩
    rcases utters_concat.1 hi with hi | hlast
    · refine .inl ⟨⟨hi, fun k x hk hx => ?_⟩, ?_⟩
      · exact hsince k x hk (getElem?_concat_eq_some_iff.2 (.inl hx))
      · exact hsince _ e hi.lt_length (getElem?_concat_eq_some_iff.2 (.inr ⟨rfl, rfl⟩))
    · exact .inr hlast
  · rintro (⟨⟨hi, hsince⟩, he⟩ | hlast)
    · refine ⟨utters_concat.2 (.inl hi), fun k x hk hx => ?_⟩
      rcases getElem?_concat_eq_some_iff.1 hx with hx | ⟨-, rfl⟩
      · exact hsince k x hk hx
      · exact he
    · refine ⟨utters_concat.2 (.inr hlast), fun k x hk hx => ?_⟩
      have := (List.getElem?_eq_some_iff.1 hx).1
      rw [List.length_append, List.length_singleton] at this
      omega

/-- A message repeats one that still awaits an answer when it comes. -/
theorem repeats_iff : Repeats events i j ↔ Utters events j ∧ Awaits (events.take j) i := by
  have htake : ∀ k x, (events.take j)[k]? = some x ↔ k < j ∧ events[k]? = some x := by
    intro k x
    rw [List.getElem?_take]
    split <;> simp [*]
  constructor
  · rintro ⟨hij, ⟨u, hi⟩, hj, hbetween⟩
    refine ⟨hj, ⟨u, (htake i _).2 ⟨hij, hi⟩⟩, fun k x hk hx => ?_⟩
    obtain ⟨hkj, hx⟩ := (htake k x).1 hx
    exact hbetween k x hk hkj hx
  · rintro ⟨hj, ⟨u, hi⟩, hsince⟩
    obtain ⟨hij, hi⟩ := (htake i _).1 hi
    exact ⟨hij, ⟨u, hi⟩, hj, fun k x hk hkj hx => hsince k x hk ((htake k x).2 ⟨hkj, hx⟩)⟩

theorem repeats_concat :
    Repeats (events ++ [e]) i j ↔
      Repeats events i j ∨ j = events.length ∧ (∃ u, e = .userUttered u) ∧ Awaits events i := by
  rw [repeats_iff, repeats_iff, utters_concat, or_and_right, and_assoc]
  refine or_congr (and_congr_right fun hj => ?_) (and_congr_right fun hj => ?_)
  · rw [List.take_append_of_le_length hj.lt_length.le]
  · rw [hj, List.take_left]

theorem Repeats.lt_length (h : Repeats events i j) : j < events.length :=
  h.later.lt_length

end Log

open Log

/-! ### Reading -/

namespace Segmentation
variable {fallback : String} {s : Segmentation} {events : List Event} {failure : Failure}

theorem answered_iff (h : start.run fallback 0 events = .ok s) :
    s.answered = true ↔ ∃ i, Awaits events i := by
  refine run_induction (P := fun events s => s.answered = true ↔ ∃ i, Awaits events i) ?_ ?_ h
  · refine ⟨fun h => (by cases h), fun ⟨i, hi⟩ => ?_⟩
    exact absurd hi.utters.lt_length (Nat.not_lt_zero i)
  · intro events s e s' _ ih hs
    simp only [awaits_concat, exists_or]
    cases hs with
    | utter u => simp [utter]
    | execute a => simp [execute, Event.separates]
    | restart => simp [start, Event.separates]
    | setSlot name value => simp [setSlot, Event.separates, ih]
    | setLoop name => simp [setLoop, Event.separates, ih]

theorem not_repeats (h : start.run fallback 0 events = .ok s) {i j : Nat} :
    ¬ Repeats events i j := by
  refine run_induction (P := fun events _ => ∀ i j, ¬ Repeats events i j) ?_ ?_ h i j
  · intro i j hij
    exact absurd hij.lt_length (Nat.not_lt_zero j)
  · intro events s e s' hrun ih hs i j hij
    rcases repeats_concat.1 hij with hij | ⟨-, ⟨u, rfl⟩, hi⟩
    · exact ih i j hij
    · cases hs with
      | utter u hanswered =>
        have := (answered_iff hrun).2 ⟨i, hi⟩
        rw [hanswered] at this
        cases this

theorem step_eq_error_iff {position : Nat} {e : Event} :
    s.step fallback position e = .error failure ↔
      (∃ u, e = .userUttered u) ∧ s.answered = true ∧
        failure = .malformedEvents position Failure.repeatedUtterance := by
  cases e with
  | userUttered u =>
    rw [step]
    cases s.answered <;> simp [eq_comm]
  | _ => simp [step]

theorem isLeast_of_run (h : start.run fallback 0 events = .error failure) :
    ∃ j, IsLeast {j | ∃ i, Repeats events i j} j ∧
      failure = .malformedEvents j Failure.repeatedUtterance := by
  induction events using List.reverseRecOn with
  | nil => cases h
  | append_singleton events e ih =>
    rw [run_concat, Nat.zero_add] at h
    cases hrun : start.run fallback 0 events with
    | error failure' =>
      rw [hrun] at h
      obtain rfl : failure' = failure := Except.error.inj h
      obtain ⟨j, ⟨⟨i, hij⟩, hleast⟩, hfailure⟩ := ih hrun
      refine ⟨j, ⟨⟨i, repeats_concat.2 (.inl hij)⟩, ?_⟩, hfailure⟩
      rintro j' ⟨i', hij'⟩
      rcases repeats_concat.1 hij' with hij' | ⟨rfl, -, -⟩
      · exact hleast ⟨i', hij'⟩
      · exact hij.lt_length.le
    | ok s =>
      rw [hrun] at h
      obtain ⟨hu, hanswered, hfailure⟩ := step_eq_error_iff.1 h
      obtain ⟨i, hi⟩ := (answered_iff hrun).1 hanswered
      refine ⟨events.length, ⟨⟨i, repeats_concat.2 (.inr ⟨rfl, hu, hi⟩)⟩, ?_⟩, hfailure⟩
      rintro j ⟨i', hij'⟩
      rcases repeats_concat.1 hij' with hij' | ⟨rfl, -, -⟩
      · exact absurd hij' (not_repeats hrun)
      · exact le_refl _

/-- Positions count from where reading begins. -/
theorem run_add (s : Segmentation) (position n : Nat) (events : List Event) :
    s.run fallback (position + n) events =
      (s.run fallback position events).mapError (Failure.shift n) := by
  have hstep (s : Segmentation) (position : Nat) (e : Event) :
      s.step fallback (position + n) e =
        (s.step fallback position e).mapError (Failure.shift n) := by
    cases e with
    | userUttered u =>
      rw [step, step]
      split <;> rfl
    | _ => rfl
  induction events generalizing s position with
  | nil => rfl
  | cons e rest ih =>
    rw [run, hstep, run]
    cases s.step fallback position e with
    | error failure => rfl
    | ok s' =>
      show s'.run fallback (position + n + 1) rest = _
      rw [Nat.add_right_comm, ih]
      rfl

end Segmentation

open Segmentation

variable {fallback : String} {events : List Event} {failure : Failure}

theorem segment_eq_error_iff :
    segment events fallback = .error failure ↔ start.run fallback 0 events = .error failure := by
  unfold segment
  cases start.run fallback 0 events <;> simp [bind, Except.bind, pure, Except.pure]

theorem segment_eq_error_iff_isLeast :
    segment events fallback = .error failure ↔
      ∃ j, IsLeast {j | ∃ i, Repeats events i j} j ∧
        failure = .malformedEvents j Failure.repeatedUtterance := by
  rw [segment_eq_error_iff]
  refine ⟨isLeast_of_run, fun ⟨j, ⟨⟨i, hij⟩, hleast⟩, hfailure⟩ => ?_⟩
  cases hrun : start.run fallback 0 events with
  | ok s => exact absurd hij (not_repeats hrun)
  | error failure' =>
    obtain ⟨j', hj', rfl⟩ := isLeast_of_run hrun
    rw [hfailure, hj'.unique ⟨⟨i, hij⟩, hleast⟩]

theorem segment_append_restart (before after : List Event) :
    segment (before ++ .restarted :: after) fallback =
      segment before fallback >>= fun _ =>
        (segment after fallback).mapError (Failure.shift (before.length + 1)) := by
  have hrun (s : Segmentation) : s.run fallback (0 + before.length) (.restarted :: after) =
      (start.run fallback 0 after).mapError (Failure.shift (before.length + 1)) := by
    rw [← run_add]
    rfl
  unfold segment
  rw [run_append, funext hrun]
  cases start.run fallback 0 before with
  | error failure => rfl
  | ok s => cases start.run fallback 0 after <;> rfl

/-- A log is refused for messages that repeat others, at the first of them. A restart ends what came
before it, unless that is refused already. -/
theorem segment_refuses (fallback : String) :
    (∀ events, (∃ failure, segment events fallback = .error failure) ↔
      ∃ i j, Repeats events i j) ∧
    (∀ events failure, segment events fallback = .error failure ↔
      ∃ j, IsLeast {j | ∃ i, Repeats events i j} j ∧
        failure = .malformedEvents j Failure.repeatedUtterance) ∧
    ∀ before after, segment (before ++ .restarted :: after) fallback =
      segment before fallback >>= fun _ =>
        (segment after fallback).mapError (Failure.shift (before.length + 1)) := by
  refine ⟨fun events => ⟨?_, ?_⟩, fun _ _ => segment_eq_error_iff_isLeast, segment_append_restart⟩
  · rintro ⟨failure, h⟩
    obtain ⟨j, ⟨⟨i, hij⟩, -⟩, -⟩ := segment_eq_error_iff_isLeast.1 h
    exact ⟨i, j, hij⟩
  · rintro ⟨i, j, hij⟩
    cases h : segment events fallback with
    | error failure => exact ⟨failure, rfl⟩
    | ok turns =>
      obtain ⟨s, hs, -⟩ := segment_eq_ok_iff.1 h
      exact absurd hij (not_repeats hs)

end DialogueWindows
