import DialogueWindows.Proofs.Knowledge
import DialogueWindows.Proofs.Run

/-! # The turns of a log

`IsTurn` describes the turn with number `i` by the events of a log without restarts: by the action
that opened it, the action that closes it and the events before and between them. The turns of a log
are those of the events after its last restart (`segment_isHistory`), and no other list fits that
description (`IsHistory.unique`). -/

namespace DialogueWindows

open Segmentation Log

variable {fallback : String} {events : List Event} {i : Nat} {t t' : Turn} {turns : List Turn}

/-- `t` is turn `i` of a log without restarts. -/
structure IsTurn (fallback : String) (events : List Event) (i : Nat) (t : Turn) : Prop where
  index : t.index = i
  action : t.action = (opener events i).map (·.name)
  unpredictable : t.unpredictable = ((opener events i).map (·.unpredictable)).getD false
  isUnlikelyIntent :
    t.isUnlikelyIntent = true ↔ ∃ a, opener events i = some a ∧ a.name = fallback
  /-- The action that closes the turn decides. -/
  isRuleOnly : t.isRuleOnly = ((opener events (i + 1)).map (·.hideRuleTurn)).getD false
  /-- There is at most one message in a turn. -/
  utterance : (during events i).filterMap Event.utterance? = t.utterance.toList
  state_opening : opener events i = none → t.state = .empty
  state : ∀ a, opener events i = some a → Knows (some a) (upTo events i) t.state

/-- One turn more than there are executed actions. -/
structure IsHistory (fallback : String) (events : List Event) (turns : List Turn) : Prop where
  length : turns.length = (executions events).length + 1
  isTurn : ∀ i t, turns[i]? = some t → IsTurn fallback events i t

theorem IsTurn.unique (h : IsTurn fallback events i t) (h' : IsTurn fallback events i t') :
    t = t' := by
  have hutterance : t.utterance = t'.utterance := by
    have := congrArg List.head? (h.utterance.symm.trans h'.utterance)
    rwa [Option.head?_toList, Option.head?_toList] at this
  have hunlikely : t.isUnlikelyIntent = t'.isUnlikelyIntent :=
    Bool.eq_iff_iff.2 (h.isUnlikelyIntent.trans h'.isUnlikelyIntent.symm)
  have hstate : t.state = t'.state := by
    cases ho : opener events i with
    | none => rw [h.state_opening ho, h'.state_opening ho]
    | some a => exact (h.state a ho).unique (h'.state a ho)
  have hindex := h.index.trans h'.index.symm
  have haction := h.action.trans h'.action.symm
  have hrule := h.isRuleOnly.trans h'.isRuleOnly.symm
  have hunpredictable := h.unpredictable.trans h'.unpredictable.symm
  cases t
  cases t'
  simp_all only

theorem IsHistory.unique {turns' : List Turn} (h : IsHistory fallback events turns)
    (h' : IsHistory fallback events turns') : turns = turns' := by
  refine List.ext_getElem (h.length.trans h'.length.symm) fun i hi hi' => ?_
  exact (h.isTurn i _ (List.getElem?_eq_getElem hi)).unique
    (h'.isTurn i _ (List.getElem?_eq_getElem hi'))

/-! ### One more event -/

/-- A turn that an action has closed stays as it is. -/
theorem IsTurn.concat (h : IsTurn fallback events i t) (hi : i < (executions events).length)
    (e : Event) : IsTurn fallback (events ++ [e]) i t := by
  have ho := opener_concat hi.le e
  refine ⟨h.index, ?_, ?_, ?_, ?_, ?_, ?_, ?_⟩
  · rw [ho]; exact h.action
  · rw [ho]; exact h.unpredictable
  · rw [ho]; exact h.isUnlikelyIntent
  · rw [opener_concat hi]; exact h.isRuleOnly
  · rw [during_concat hi]; exact h.utterance
  · rw [ho]; exact h.state_opening
  · rw [ho, upTo_concat hi]; exact h.state

/-- The open turn as an action closes it. -/
theorem IsTurn.close (h : IsTurn fallback events (executions events).length t) (a : Execution) :
    IsTurn fallback (events ++ [.actionExecuted a]) (executions events).length
      { t with isRuleOnly := t.isRuleOnly || a.hideRuleTurn } := by
  have ho := opener_concat (le_refl (executions events).length) (.actionExecuted a)
  have hrule : t.isRuleOnly = false := by rw [h.isRuleOnly, opener_length_succ]; rfl
  refine ⟨h.index, ?_, ?_, ?_, ?_, ?_, ?_, ?_⟩
  · rw [ho]; exact h.action
  · rw [ho]; exact h.unpredictable
  · rw [ho]; exact h.isUnlikelyIntent
  · rw [opener_concat_action, hrule]; rfl
  · rw [during_concat_action]; exact h.utterance
  · rw [ho]; exact h.state_opening
  · rw [ho, upTo_concat_action]
    have := h.state
    rwa [upTo_length] at this

/-- The open turn after an event that is no action. -/
theorem IsTurn.extend {e : Event} (h : IsTurn fallback events (executions events).length t)
    (he : e.execution? = none) {utterance : Option Utterance} {state : State}
    (hutterance : t.utterance.toList ++ e.utterance?.toList = utterance.toList)
    (hopening : opener events (executions events).length = none → state = .empty)
    (hstate : ∀ a, opener events (executions events).length = some a →
      Knows (some a) (events ++ [e]) state) :
    IsTurn fallback (events ++ [e]) (executions events).length { t with utterance, state } := by
  have ho := opener_concat (le_refl (executions events).length) e
  have hsucc := opener_length_succ (events ++ [e])
  have hupTo := upTo_length (events ++ [e])
  rw [executions_concat_of_none he] at hsucc hupTo
  refine ⟨h.index, ?_, ?_, ?_, ?_, ?_, ?_, ?_⟩
  · rw [ho]; exact h.action
  · rw [ho]; exact h.unpredictable
  · rw [ho]; exact h.isUnlikelyIntent
  · rw [hsucc, ← opener_length_succ events]; exact h.isRuleOnly
  · rw [during_concat_of_none he, List.filterMap_append, h.utterance, ← hutterance]
    cases hu : e.utterance? <;> simp [hu]
  · rw [ho]; exact hopening
  · rw [ho, hupTo]; exact hstate

/-- The turn that an action has just opened. -/
theorem IsTurn.opened (a : Execution) {state : State}
    (h : Knows (some a) (events ++ [.actionExecuted a]) state) :
    IsTurn fallback (events ++ [.actionExecuted a]) ((executions events).length + 1)
      { Segmentation.opened fallback a with index := (executions events).length + 1, state } := by
  have ho := opener_concat_action events a
  have hlength : (executions (events ++ [.actionExecuted a])).length =
      (executions events).length + 1 := by
    rw [executions_concat_action, List.length_append, List.length_singleton]
  have hsucc := opener_length_succ (events ++ [.actionExecuted a])
  have hupTo := upTo_length (events ++ [.actionExecuted a])
  rw [hlength] at hsucc hupTo
  refine ⟨rfl, ?_, ?_, ?_, ?_, ?_, ?_, ?_⟩
  · rw [ho]; rfl
  · rw [ho]; rfl
  · rw [ho]
    simp [Segmentation.opened]
  · rw [hsucc]; rfl
  · rw [during_concat_action_succ]; rfl
  · rw [ho]
    intro h
    cases h
  · rw [ho, hupTo]
    intro b hb
    obtain rfl := Option.some.inj hb
    exact h

/-! ### Reading a log -/

/-- What a segmentation holds after a log without restarts. -/
structure Reads (fallback : String) (events : List Event) (s : Segmentation) : Prop where
  length : s.closed.length = (executions events).length
  closed : ∀ i t, s.closed[i]? = some t → IsTurn fallback events i t
  closing : IsTurn fallback events (executions events).length s.closing
  state : Knows (opener events (executions events).length) events s.state
  opening : s.current.state = .empty
  answered : s.answered = s.current.utterance.isSome

namespace Reads
variable {s s' : Segmentation}

theorem nil : Reads fallback [] Segmentation.start := by
  refine ⟨rfl, ?_, ?_, .nil, rfl, rfl⟩
  · intro i t ht
    cases ht
  · refine ⟨rfl, rfl, rfl, ?_, rfl, rfl, fun _ => rfl, ?_⟩
    · simp [Segmentation.start, Segmentation.closing, Turn.opening, opener]
    · intro a ha
      cases ha

theorem execute (h : Reads fallback events s) (a : Execution) :
    Reads fallback (events ++ [.actionExecuted a]) (s.execute fallback a) := by
  have hclosed : (s.execute fallback a).closed =
      s.closed ++ [{ s.closing with isRuleOnly := s.closing.isRuleOnly || a.hideRuleTurn }] := rfl
  have hknows := h.state.execute a
  have hlength : (s.execute fallback a).closed.length = (executions events).length + 1 := by
    rw [hclosed, List.length_append, h.length, List.length_singleton]
  have hexecutions : (executions (events ++ [.actionExecuted a])).length =
      (executions events).length + 1 := by
    rw [executions_concat_action, List.length_append, List.length_singleton]
  refine ⟨hlength.trans hexecutions.symm, ?_, ?_, ?_, rfl, rfl⟩
  · intro i t ht
    rw [hclosed] at ht
    by_cases hi : i < s.closed.length
    · rw [List.getElem?_append_left hi] at ht
      exact (h.closed i t ht).concat (h.length ▸ hi) _
    · obtain ⟨hlt, rfl⟩ := List.getElem?_eq_some_iff.1 ht
      have hlast : i = s.closed.length := by
        rw [List.length_append, List.length_singleton] at hlt
        omega
      subst hlast
      rw [List.getElem_concat_length rfl, h.length]
      exact h.closing.close a
  · have hopened : IsTurn fallback _ _ _ := .opened a hknows
    rw [← hlength] at hopened
    rw [hexecutions, ← hlength]
    exact hopened
  · rw [hexecutions, opener_concat_action]
    exact hknows

/-- An event that is no action leaves the closed turns and all of the open turn but its message. -/
theorem extend (h : Reads fallback events s) {e : Event} (he : e.execution? = none)
    (hclosed : s'.closed = s.closed)
    (hcurrent : ∃ u, s'.current = { s.current with utterance := u } ∧
      s.current.utterance.toList ++ e.utterance?.toList = u.toList ∧ s'.answered = u.isSome)
    (hknows : ∀ a, Knows a events s.state → Knows a (events ++ [e]) s'.state) :
    Reads fallback (events ++ [e]) s' := by
  obtain ⟨u, hcurrent, hutterance, hanswered⟩ := hcurrent
  have hlength : executions (events ++ [e]) = executions events := executions_concat_of_none he
  have hopener : opener (events ++ [e]) (executions events).length =
      opener events (executions events).length := opener_concat (le_refl _) e
  have haction : s.current.action = _ := h.closing.action
  have hstate := hknows _ h.state
  have hclosing : s'.closing = { s.closing with
      utterance := u, state := if s.current.action.isSome then s'.state else .empty } := by
    rw [Segmentation.closing, hclosed, hcurrent, ← h.opening]
    rfl
  refine ⟨?_, ?_, ?_, ?_, ?_, ?_⟩
  · rw [hclosed, hlength, h.length]
  · intro i t ht
    rw [hclosed] at ht
    exact (h.closed i t ht).concat (h.length ▸ (List.getElem?_eq_some_iff.1 ht).1) e
  · rw [hclosing, hlength]
    refine h.closing.extend he hutterance ?_ ?_
    · intro ho
      rw [haction, ho]
      rfl
    · intro a ho
      rw [ho] at hstate
      rw [haction, ho]
      exact hstate
  · rw [hlength, hopener]; exact hstate
  · rw [hcurrent]; exact h.opening
  · rw [hanswered, hcurrent]

theorem advance (h : Reads fallback events s) {e : Event} (hs : Advances fallback s e s')
    (he : e.isRestart = false) : Reads fallback (events ++ [e]) s' := by
  have hsame : s.current.utterance.toList ++ [] = s.current.utterance.toList := List.append_nil _
  cases hs with
  | execute a => exact h.execute a
  | utter u hanswered =>
    have hnone : s.current.utterance = none := by
      rw [h.answered] at hanswered
      exact Option.isSome_eq_false_iff.1 hanswered |> Option.isNone_iff_eq_none.1
    refine h.extend rfl rfl ⟨some u, rfl, ?_, rfl⟩ fun a ha => ha.utter u
    rw [hnone]
    rfl
  | setSlot name value =>
    exact h.extend rfl rfl ⟨_, rfl, hsame, h.answered⟩ fun a ha => ha.setSlot name value
  | setLoop name =>
    exact h.extend rfl rfl ⟨_, rfl, hsame, h.answered⟩ fun a ha => ha.setLoop name
  | restart => cases he

theorem of_run {log : List Event} (h : Segmentation.start.run fallback 0 log = .ok s) :
    Reads fallback (applied log) s := by
  refine run_induction (P := fun log s => Reads fallback (applied log) s) .nil ?_ h
  intro log s e s' _ hr hs
  rw [applied_concat]
  by_cases he : e.isRestart = true
  · rw [if_pos he]
    cases hs with
    | restart => exact .nil
    | _ => cases he
  · rw [if_neg he]
    exact hr.advance hs (Bool.eq_false_iff.2 he)

theorem isHistory (h : Reads fallback events s) : IsHistory fallback events s.turns := by
  refine ⟨?_, fun i t ht => ?_⟩
  · rw [turns, List.length_append, h.length, List.length_singleton]
  · by_cases hi : i < s.closed.length
    · rw [turns, List.getElem?_append_left hi] at ht
      exact h.closed i t ht
    · obtain ⟨hlt, rfl⟩ := List.getElem?_eq_some_iff.1 ht
      have hlast : i = s.closed.length := by
        rw [turns, List.length_append, List.length_singleton] at hlt
        omega
      subst hlast
      have : s.turns[s.closed.length] = s.closing := List.getElem_concat_length rfl _
      rw [this, h.length]
      exact h.closing

end Reads

/-- The turns of a log are the history of the events after its last restart, and nothing else is. -/
theorem segment_isHistory {log : List Event} (h : segment log fallback = .ok turns) :
    IsHistory fallback (applied log) turns ∧
      ∀ turns', IsHistory fallback (applied log) turns' → turns' = turns := by
  obtain ⟨s, hs, rfl⟩ := segment_eq_ok_iff.1 h
  have hturns := (Reads.of_run hs).isHistory
  exact ⟨hturns, fun turns' h' => h'.unique hturns⟩

/-- A restart, events before the first action, repeated entities, slots that keep a text or a
literal and one that is emptied. -/
theorem segment_isHistory_restarted :
    let log : List Event := [.userUttered ⟨some "greet", [], none⟩, .restarted,
      .slotSet "size" (.bool true), .slotSet "date" (.string "May"),
      .actionExecuted ⟨"action_listen", none, false, false⟩,
      .userUttered ⟨none, [⟨"city", none, 0, 2⟩, ⟨"city", none, 3, 4⟩], some "to Rome"⟩,
      .slotSet "city" (.string "Rome"), .slotSet "date" .null, .activeLoop (some "form"),
      .actionExecuted ⟨"fallback", none, true, false⟩]
    ∃ turns, segment log "fallback" = .ok turns ∧ turns.length = 3 ∧
      (turns.map fun t => ["size", "date", "city"].map (t.state.get? .slots ·)) =
        [[none, none, none],
          [some (.literal "true"), none, some (.text "Rome")],
          [some (.literal "true"), none, some (.text "Rome")]] ∧
      IsHistory "fallback" (applied log) turns ∧
      ∀ turns', IsHistory "fallback" (applied log) turns' → turns' = turns := by
  exact ⟨_, rfl, rfl, by decide +kernel, segment_isHistory rfl⟩

end DialogueWindows
