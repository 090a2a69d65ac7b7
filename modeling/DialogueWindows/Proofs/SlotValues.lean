import DialogueWindows.Digest.Blake3
import DialogueWindows.Proofs.Caching
import DialogueWindows.Proofs.Sameness
import DialogueWindows.Proofs.Turns

/-! # Different slot values, different states

A slot keeps a text as a text and any other value by its compact text, so two values that are not
the same JSON value are kept apart, also where they print the same. The state of the last turn shows
what the slot was set to last; `slotValues_apart` says so of every log that has an executed action
after its last restart. Before that the opening turn hides the slots. -/

namespace DialogueWindows

open Log Segmentation
open Json (Exact Same)

namespace Json
variable {a b : Json}

theorem slotValue_eq_text_iff {s : String} : a.slotValue = .text s ↔ a = .string s := by
  cases a <;> simp [slotValue]

theorem slotValue_eq_literal (h : ∀ s, a ≠ .string s) : a.slotValue = .literal a.compact := by
  cases a with
  | string s => exact absurd rfl (h s)
  | _ => rfl

theorem slotValue_eq_iff (ha : Exact a) (hb : Exact b) : a.slotValue = b.slotValue ↔ a = b := by
  refine ⟨fun h => ?_, congrArg slotValue⟩
  by_cases hstring : ∃ s, a = .string s
  · obtain ⟨s, rfl⟩ := hstring
    exact (slotValue_eq_text_iff.1 h.symm).symm
  · have ha' : ∀ s, a ≠ .string s := fun s hs => hstring ⟨s, hs⟩
    have hb' : ∀ s, b ≠ .string s := fun s hs =>
      ha' s (slotValue_eq_text_iff.1 (h.trans (congrArg slotValue hs)))
    rw [slotValue_eq_literal ha', slotValue_eq_literal hb'] at h
    exact compact_injective ha hb (AttributeValue.literal.inj h)

theorem canonical_ne_null (h : a ≠ .null) : a.canonical ≠ .null := by
  cases a <;> simp_all [canonical]

theorem canonical_eq_string_iff {s : String} : a.canonical = .string s ↔ a = .string s := by
  cases a <;> simp [canonical]

end Json

theorem State.set_injective (s : State) (role : Role) (key : String) :
    Function.Injective (s.set role key) := by
  intro v w h
  have hget := congrArg (·.get? role key) h
  simp only [State.get?_set, and_self, ↓reduceIte] at hget
  exact Option.some.inj hget

/-- Setting a slot at the end of a log changes the state of the last turn and nothing else of the
turns. -/
theorem segment_concat_slotSet {log : List Event} {fallback : String} {turns : List Turn}
    (h : segment log fallback = .ok turns) (hacted : executions (applied log) ≠ [])
    (name : String) :
    ∃ (closed : List Turn) (t : Turn) (state : State), ∀ value : Json, value ≠ .null →
      segment (log ++ [.slotSet name value]) fallback =
        .ok (closed ++ [{ t with state := state.set .slots name value.slotValue }]) := by
  obtain ⟨s, hs, -⟩ := segment_eq_ok_iff.1 h
  have hreads := Reads.of_run hs
  have haction : s.current.action.isSome = true := by
    obtain ⟨n, hn⟩ := Nat.exists_eq_succ_of_ne_zero (mt List.length_eq_zero_iff.1 hacted)
    have hopener : s.current.action = _ := hreads.closing.action
    rw [hopener, hn, opener, Option.isSome_map, Option.isSome_map, List.getElem?_eq_getElem
      (by omega)]
    rfl
  have hset {value : Json} (hvalue : value ≠ .null) :
      (s.setSlot name value).state = s.state.set .slots name value.slotValue := by
    cases value with
    | null => exact absurd rfl hvalue
    | _ => rfl
  have hclosing {value : Json} (hvalue : value ≠ .null) : (s.setSlot name value).closing =
      { s.closing with state := s.state.set .slots name value.slotValue } := by
    have hstate : (s.setSlot name value).closing.state =
        if s.current.action.isSome then (s.setSlot name value).state else s.current.state := rfl
    rw [haction, if_pos rfl, hset hvalue] at hstate
    rw [← hstate]
    rfl
  refine ⟨s.closed, s.closing, s.state, fun value hvalue => segment_eq_ok_iff.2
    ⟨s.setSlot name value, ?_, congrArg (s.closed ++ [·]) (hclosing hvalue)⟩⟩
  rw [run_concat, hs]
  rfl

/-- Of two values, their numbers integers of 64 bits: a slot tells them apart exactly if they are
not the same JSON value, and so do the states and digests of the last turns of a log that sets the
slot to one or to the other. -/
theorem slotValues_apart {v w : Json} (hv : Exact v.canonical) (hw : Exact w.canonical)
    (hvset : v ≠ .null) (hwset : w ≠ .null) :
    (v.canonical.slotValue = w.canonical.slotValue ↔ Same v w) ∧
    (∀ s, v.canonical.slotValue = .text s ↔ v = .string s) ∧
    ∀ (log : List Event) (fallback : String) (turns : List Turn) (name : String)
      (digest : String → String),
      segment log fallback = .ok turns → executions (applied log) ≠ [] →
      ∃ closed t t',
        segment (log ++ [.slotSet name v.canonical]) fallback = .ok (closed ++ [t]) ∧
        segment (log ++ [.slotSet name w.canonical]) fallback = .ok (closed ++ [t']) ∧
        (t.state = t'.state ↔ Same v w) ∧
        (Same v w → t.state.contentHash digest = t'.state.contentHash digest) ∧
        (TellsApart digest [t.state, t'.state] →
          (t.state.contentHash digest = t'.state.contentHash digest ↔ Same v w)) := by
  have hvalue : v.canonical.slotValue = w.canonical.slotValue ↔ Same v w :=
    (Json.slotValue_eq_iff hv hw).trans Json.canonical_eq_iff
  refine ⟨hvalue, fun s => Json.slotValue_eq_text_iff.trans Json.canonical_eq_string_iff,
    fun log fallback turns name digest hsegment hacted => ?_⟩
  obtain ⟨closed, t, state, hset⟩ := segment_concat_slotSet hsegment hacted name
  have hstate := ((state.set_injective .slots name).eq_iff).trans hvalue
  refine ⟨closed, _, _, hset _ (Json.canonical_ne_null hvset),
    hset _ (Json.canonical_ne_null hwset), hstate,
    fun h => congrArg (State.contentHash digest) (hstate.2 h), fun hdigest => ?_⟩
  refine Iff.trans (hdigest.contentHash_eq_iff ?_ ?_) hstate
  · exact List.mem_cons_self ..
  · exact List.mem_cons_of_mem _ (List.mem_cons_self ..)

/-- An array, and the text that it prints. -/
theorem slotValues_apart_printed :
    let v : Json := .array [.number (.int 1), .string "two"]
    let w : Json := .string "[1,\"two\"]"
    let log : List Event := [.slotSet "n" (.bool true), .restarted,
      .actionExecuted ⟨Action.listen, none, false, false⟩]
    v.canonical.compact = "[1,\"two\"]" ∧ ∃ t t',
      segment (log ++ [.slotSet "n" v.canonical]) "fallback" = .ok [.opening 0, t] ∧
      segment (log ++ [.slotSet "n" w.canonical]) "fallback" = .ok [.opening 0, t'] ∧
      t.state ≠ t'.state ∧
      t.state.contentHash Blake3.hexDigest ≠ t'.state.contentHash Blake3.hexDigest := by
  intro v w log
  have hv : Exact v.canonical := .array (List.forall_mem_cons.2 ⟨.int (by decide) (by decide),
    List.forall_mem_singleton.2 (.string _)⟩)
  have hsame : ¬ Same v w := fun h => nomatch (show Same (.array _) (.string _) from h)
  let listened := State.empty.set .previousAction Attribute.actionName (.text Action.listen)
  let t (value : Json) : Turn := { Turn.opening 1 with
    action := some Action.listen
    state := listened.set .slots "n" value.slotValue }
  have htv : segment (log ++ [.slotSet "n" v.canonical]) "fallback" =
      .ok ([.opening 0] ++ [t v.canonical]) := rfl
  have htw : segment (log ++ [.slotSet "n" w.canonical]) "fallback" =
      .ok ([.opening 0] ++ [t w.canonical]) := rfl
  have hdigest : TellsApart Blake3.hexDigest [(t v.canonical).state, (t w.canonical).state] :=
    .of_pair (s := (t v.canonical).state) (t := (t w.canonical).state) (by decide +kernel) (by simp)
  obtain ⟨-, -, h⟩ := slotValues_apart hv (w := w) (.string _) (by decide) (by decide)
  obtain ⟨closed, u, u', hu, hu', hstate, -, hhash⟩ :=
    h log "fallback" _ "n" Blake3.hexDigest rfl (List.cons_ne_nil _ _)
  obtain ⟨rfl, hut⟩ := List.append_inj' (Except.ok.inj (hu.symm.trans htv)) rfl
  obtain ⟨-, hut'⟩ := List.append_inj' (Except.ok.inj (hu'.symm.trans htw)) rfl
  obtain rfl := List.singleton_inj.1 hut
  obtain rfl := List.singleton_inj.1 hut'
  exact ⟨rfl, _, _, hu, hu', mt hstate.1 hsame, mt (hhash hdigest).1 hsame⟩

end DialogueWindows
