import DialogueWindows.EventStore
import DialogueWindows.Proofs.Dictionary
import Mathlib.Data.Finset.Card
import Mathlib.Data.List.DropRight

/-! # Recorded events

`recorded` says what a sequence of calls has recorded under an id: the events of the last insertion
and those that were appended since. A call changes the log of the id that it names and no other
(`get?_apply`), and it changes that log as it changes `recorded`, so a store that was empty at first
replays just what was recorded (`replays_recorded`). -/

namespace DialogueWindows

namespace EventStore

/-- What can be asked of a store. -/
inductive Call where
  | insert (d : Dialogue)
  | append (id : String) (events : List Event)
  | replay (id : String)
  | replayDialogues (ids : List String)
deriving DecidableEq

/-- The store after a call; reading changes nothing. -/
def apply (s : EventStore) : Call → EventStore
  | .insert d => s.insert d
  | .append id events => s.append id events
  | .replay _ | .replayDialogues _ => s

/-- The store after some calls, empty at first. -/
def after (calls : List Call) : EventStore :=
  calls.foldl apply empty

namespace Call

/-- The id that the call records something under. -/
def named? : Call → Option String
  | insert d => some d.id
  | append id _ => some id
  | replay _ | replayDialogues _ => none

def inserted? (id : String) : Call → Option (List Event)
  | insert d => if d.id = id then some d.events else none
  | _ => none

def appended (id : String) : Call → List Event
  | append id' events => if id' = id then events else []
  | _ => []

end Call

/-- The ids that some calls have recorded something under, in order. -/
def named (calls : List Call) : List String :=
  calls.filterMap Call.named?

/-- The events of the last insertion of an id, none if there was none, and of all appends to it
since. -/
def recorded (id : String) (calls : List Call) : List Event :=
  (calls.filterMap (·.inserted? id)).getLast?.getD [] ++
    (calls.rtakeWhile fun c => (c.inserted? id).isNone).flatMap (·.appended id)

variable {calls : List Call} {c : Call} {id : String}

/-! ### One more call -/

theorem Call.inserted?_eq_none (h : c.named? ≠ some id) : c.inserted? id = none := by
  cases c with
  | insert d => exact if_neg fun hd => h (congrArg some hd)
  | append | replay | replayDialogues => rfl

theorem Call.appended_eq_nil (h : c.named? ≠ some id) : c.appended id = [] := by
  cases c with
  | append id' events => exact if_neg fun hid => h (congrArg some hid)
  | insert | replay | replayDialogues => rfl

theorem get?_apply (s : EventStore) (c : Call) (id : String) :
    (s.apply c).logs.get? id =
      if c.named? = some id then
        some ((c.inserted? id).getD ((s.logs.get? id).getD [] ++ c.appended id))
      else s.logs.get? id := by
  cases c with
  | insert d =>
    rw [apply, insert, Dictionary.get?_insert]
    by_cases h : d.id = id
    · simp [Call.named?, Call.inserted?, h]
    · simp [Call.named?, h, Ne.symm h]
  | append id' events =>
    rw [apply, append, Dictionary.get?_insert]
    by_cases h : id' = id
    · simp [Call.named?, Call.inserted?, Call.appended, h]
    · simp [Call.named?, h, Ne.symm h]
  | replay | replayDialogues => rfl

theorem after_concat (calls : List Call) (c : Call) :
    after (calls ++ [c]) = (after calls).apply c :=
  List.foldl_concat ..

theorem mem_named_concat : id ∈ named (calls ++ [c]) ↔ id ∈ named calls ∨ c.named? = some id := by
  rw [named, List.filterMap_append, List.mem_append]
  simp [named]

/-- An insertion replaces what was recorded, any other call adds to it what it appends. -/
theorem recorded_concat (id : String) (calls : List Call) (c : Call) :
    recorded id (calls ++ [c]) =
      (c.inserted? id).getD (recorded id calls ++ c.appended id) := by
  rw [recorded, List.filterMap_append, List.rtakeWhile_concat]
  cases h : c.inserted? id with
  | none => simp [h, recorded]
  | some events => simp [h]

theorem recorded_concat_of_ne (h : c.named? ≠ some id) (calls : List Call) :
    recorded id (calls ++ [c]) = recorded id calls := by
  rw [recorded_concat, Call.inserted?_eq_none h, Call.appended_eq_nil h, Option.getD_none,
    List.append_nil]

/-! ### All calls -/

theorem recorded_of_not_named (h : id ∉ named calls) : recorded id calls = [] := by
  induction calls using List.reverseRecOn with
  | nil => rfl
  | append_singleton calls c ih =>
    obtain ⟨hcalls, hc⟩ := not_or.1 (mt mem_named_concat.2 h)
    rw [recorded_concat_of_ne hc, ih hcalls]

theorem get?_after (calls : List Call) (id : String) :
    (after calls).logs.get? id = if id ∈ named calls then some (recorded id calls) else none := by
  induction calls using List.reverseRecOn with
  | nil => rfl
  | append_singleton calls c ih =>
    rw [after_concat, get?_apply, ih]
    by_cases hc : c.named? = some id
    · rw [if_pos hc, if_pos (mem_named_concat.2 (.inr hc)), recorded_concat]
      split
      · rfl
      · -- an append begins the log
        rename_i h
        rw [recorded_of_not_named h, Option.getD_none]
    · simp only [mem_named_concat, hc, or_false, recorded_concat_of_ne hc, ↓reduceIte]

theorem replay_after (calls : List Call) (id : String) :
    (after calls).replay id =
      if id ∈ named calls then .ok (recorded id calls) else .error (.dialogueNotFound id) := by
  rw [replay, get?_after]
  by_cases h : id ∈ named calls
  · rw [if_pos h, if_pos h]
  · rw [if_neg h, if_neg h]

theorem size_after (calls : List Call) : (after calls).size = (named calls).toFinset.card := by
  have hkeys : (after calls).logs.keys.toFinset = (named calls).toFinset := by
    ext id
    rw [List.mem_toFinset, List.mem_toFinset, Dictionary.mem_keys, get?_after]
    simp
  rw [← hkeys, List.toFinset_card_of_nodup (Dictionary.nodup_keys _), Dictionary.length_keys, size]

theorem isEmpty_after (calls : List Call) : (after calls).isEmpty = true ↔ named calls = [] := by
  rw [isEmpty, Dictionary.isEmpty_iff_get?, List.eq_nil_iff_forall_not_mem]
  refine forall_congr' fun id => ?_
  rw [get?_after]
  simp

/-! ### Other ids and reads -/

theorem named_filter (calls : List Call) (id : String) :
    id ∈ named (calls.filter fun c => c.named? = some id) ↔ id ∈ named calls := by
  simp only [named, List.mem_filterMap, List.mem_filter, decide_eq_true_eq]
  exact exists_congr fun c => ⟨fun h => ⟨h.1.1, h.2⟩, fun h => ⟨h, h.2⟩⟩

theorem recorded_filter (calls : List Call) (id : String) :
    recorded id (calls.filter fun c => c.named? = some id) = recorded id calls := by
  induction calls using List.reverseRecOn with
  | nil => rfl
  | append_singleton calls c ih =>
    rw [List.filter_append]
    by_cases hc : c.named? = some id
    · rw [List.filter_cons_of_pos (by simpa using hc), List.filter_nil, recorded_concat,
        recorded_concat, ih]
    · rw [List.filter_cons_of_neg (by simpa using hc), List.filter_nil, List.append_nil, ih,
        recorded_concat_of_ne hc]

/-! ### Replaying many dialogues -/

/-- The dialogues that are found, a dialogue for each time its id is asked for. -/
def found (calls : List Call) (ids : List String) : List Dialogue :=
  (ids.filter (· ∈ named calls)).map fun id => ⟨id, recorded id calls⟩

def missing (calls : List Call) (ids : List String) : List DialogueFailure :=
  (ids.filter (· ∉ named calls)).map fun id => ⟨id, .dialogueNotFound id⟩

theorem replayDialogues_after (calls : List Call) (ids : List String) :
    (after calls).replayDialogues ids = ⟨found calls ids, missing calls ids⟩ := by
  induction ids with
  | nil => rfl
  | cons id ids ih =>
    rw [replayDialogues] at ih ⊢
    rw [List.map_cons, replay_after]
    by_cases h : id ∈ named calls
    · rw [if_pos h, Except.map, Batch.collect, ih]
      simp [found, missing, h]
    · rw [if_neg h, Except.map, Batch.collect, ih]
      simp [found, missing, h]

-- an empty append is enough for a dialogue to be found
example : (after [.append "a" [], .replay "b"]).replayDialogues ["b", "a", "a"] =
    ⟨[⟨"a", []⟩, ⟨"a", []⟩], [⟨"b", .dialogueNotFound "b"⟩]⟩ := by
  decide

/-- The store gives back what some calls have recorded. -/
structure Replays (calls : List Call) (s : EventStore) : Prop where
  replay : ∀ id, s.replay id =
    if id ∈ named calls then .ok (recorded id calls) else .error (.dialogueNotFound id)
  /-- Reads and what is recorded under other ids do not count. -/
  frame : ∀ id, s.replay id = (after (calls.filter fun c => c.named? = some id)).replay id
  size : s.size = (named calls).toFinset.card
  isEmpty : s.isEmpty = true ↔ named calls = []
  replayDialogues : ∀ ids, s.replayDialogues ids = ⟨found calls ids, missing calls ids⟩

theorem replays_recorded (calls : List Call) : Replays calls (after calls) where
  replay := replay_after calls
  frame id := by
    simp only [replay_after, named_filter, recorded_filter]
  size := size_after calls
  isEmpty := isEmpty_after calls
  replayDialogues := replayDialogues_after calls

end EventStore

end DialogueWindows
