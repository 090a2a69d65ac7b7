import DialogueWindows.Segmentation
import Mathlib.Data.List.Forall2
import Mathlib.Data.List.Induction

/-! # Reading a log event by event

`Advances` lists what one event can do to a segmentation, and `run_induction` carries a property
that each of these steps keeps along a whole log. A log can be read exactly if each of its prefixes
can, so the induction is on the log without its last event. -/

namespace DialogueWindows

section Outcomes
variable {ε α β : Type}

theorem exists_ok_of_bind {x : Except ε α} {g : α → Except ε β} {b : β} (h : (x >>= g) = .ok b) :
    ∃ a, x = .ok a ∧ g a = .ok b := by
  cases x with
  | error e => cases h
  | ok a => exact ⟨a, rfl, h⟩

theorem mapM_cons_eq (f : α → Except ε β) (x : α) (xs : List α) :
    (x :: xs).mapM f = f x >>= fun y => xs.mapM f >>= fun ys => .ok (y :: ys) :=
  List.mapM_cons

theorem mapM_eq_ok_iff {f : α → Except ε β} {xs : List α} {ys : List β} :
    xs.mapM f = .ok ys ↔ List.Forall₂ (fun x y => f x = .ok y) xs ys := by
  induction xs generalizing ys with
  | nil =>
    rw [List.forall₂_nil_left_iff]
    exact ⟨fun h => (Except.ok.inj h).symm, fun h => h ▸ rfl⟩
  | cons x rest ih =>
    rw [mapM_cons_eq, List.forall₂_cons_left_iff]
    constructor
    · intro h
      obtain ⟨z, hz, h⟩ := exists_ok_of_bind h
      obtain ⟨zs, hzs, h⟩ := exists_ok_of_bind h
      exact ⟨z, zs, hz, ih.1 hzs, (Except.ok.inj h).symm⟩
    · rintro ⟨z, zs, hz, hzs, rfl⟩
      rw [hz, ih.2 hzs]
      rfl

theorem exists_of_mem_mapM {f : α → Except ε β} {xs : List α} {ys : List β} {y : β}
    (h : xs.mapM f = .ok ys) (hy : y ∈ ys) : ∃ x ∈ xs, f x = .ok y := by
  induction xs generalizing ys with
  | nil =>
    cases h
    cases hy
  | cons x rest ih =>
    rw [mapM_cons_eq] at h
    obtain ⟨z, hz, h⟩ := exists_ok_of_bind h
    obtain ⟨zs, hzs, h⟩ := exists_ok_of_bind h
    cases h
    rcases List.mem_cons.1 hy with rfl | hy
    · exact ⟨x, List.mem_cons_self .., hz⟩
    · obtain ⟨x', hx', hy⟩ := ih hzs hy
      exact ⟨x', List.mem_cons_of_mem x hx', hy⟩

end Outcomes

namespace Segmentation
variable {fallback : String} {s s' : Segmentation} {events : List Event}

/-- What an event does to a segmentation that does not refuse it. -/
inductive Advances (fallback : String) (s : Segmentation) : Event → Segmentation → Prop
  | execute (a : Execution) : Advances fallback s (.actionExecuted a) (s.execute fallback a)
  | utter (u : Utterance) (h : s.answered = false) :
    Advances fallback s (.userUttered u) (s.utter u)
  | setSlot (name : String) (value : Json) :
    Advances fallback s (.slotSet name value) (s.setSlot name value)
  | setLoop (name : Option String) : Advances fallback s (.activeLoop name) (s.setLoop name)
  | restart : Advances fallback s .restarted start

theorem Advances.of_step {position : Nat} {e : Event} (h : s.step fallback position e = .ok s') :
    Advances fallback s e s' := by
  cases e with
  | actionExecuted a => cases h; exact .execute a
  | userUttered u =>
    simp only [step] at h
    split at h
    · cases h
    · rename_i ha
      cases h
      exact .utter u (Bool.eq_false_iff.2 ha)
  | slotSet name value => cases h; exact .setSlot name value
  | activeLoop name => cases h; exact .setLoop name
  | restarted => cases h; exact .restart

theorem run_append (s : Segmentation) (position : Nat) (events more : List Event) :
    s.run fallback position (events ++ more) =
      (s.run fallback position events >>= fun s' =>
        s'.run fallback (position + events.length) more) := by
  induction events generalizing s position with
  | nil => rfl
  | cons x rest ih =>
    show (s.step fallback position x >>= fun s' => s'.run fallback (position + 1) (rest ++ more)) =
      ((s.step fallback position x >>= fun s' => s'.run fallback (position + 1) rest) >>= _)
    cases s.step fallback position x with
    | error failure => rfl
    | ok s' =>
      show s'.run fallback (position + 1) (rest ++ more) = _
      rw [ih, List.length_cons, Nat.add_right_comm]
      rfl

theorem run_concat (s : Segmentation) (position : Nat) (events : List Event) (e : Event) :
    s.run fallback position (events ++ [e]) =
      (s.run fallback position events >>= fun s' =>
        s'.step fallback (position + events.length) e) := by
  have hlast (s' : Segmentation) : s'.run fallback (position + events.length) [e] =
      s'.step fallback (position + events.length) e := by
    show (s'.step fallback _ e >>= fun t => Except.ok t) = _
    cases s'.step fallback (position + events.length) e <;> rfl
  rw [run_append, funext hlast]

/-- What holds at the start and is kept by every event holds after every log that can be read. -/
theorem run_induction {P : List Event → Segmentation → Prop} (nil : P [] start)
    (concat : ∀ events s e s', start.run fallback 0 events = .ok s → P events s →
      Advances fallback s e s' → P (events ++ [e]) s')
    (h : start.run fallback 0 events = .ok s) : P events s := by
  induction events using List.reverseRecOn generalizing s with
  | nil => cases h; exact nil
  | append_singleton events e ih =>
    rw [run_concat] at h
    obtain ⟨s₁, h₁, h⟩ := exists_ok_of_bind h
    exact concat events s₁ e s h₁ (ih h₁) (.of_step h)

theorem segment_eq_ok_iff {turns : List Turn} :
    segment events fallback = .ok turns ↔
      ∃ s, start.run fallback 0 events = .ok s ∧ s.turns = turns := by
  unfold segment
  cases start.run fallback 0 events with
  | error failure => exact ⟨fun h => (by cases h), fun ⟨_, h, _⟩ => (by cases h)⟩
  | ok s => exact ⟨fun h => ⟨s, rfl, Except.ok.inj h⟩, fun ⟨_, h, ht⟩ => by cases h; rw [← ht]; rfl⟩

end Segmentation

end DialogueWindows
