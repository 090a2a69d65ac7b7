import DialogueWindows.Proofs.Dictionary
import DialogueWindows.State

/-! # Looking up in states

What `get?` returns after each operation on a state. `Populated` is kept by all of them: no role is
present without attributes. A populated state is determined by `get?`. -/

namespace DialogueWindows.State
variable {s t : State} {role role' : Role} {key key' : String}

theorem role?_withRole (sub : Option SubState) :
    (s.withRole role sub).role? role' = if role' = role then sub else s.role? role' := by
  by_cases h : role' = role
  · rw [if_pos h, h, role?_withRole_self]
  · rw [if_neg h, role?_withRole_of_ne s sub h]

theorem get?_withRole (sub : Option SubState) :
    (s.withRole role sub).get? role' key =
      if role' = role then sub.bind (·.get? key) else s.get? role' key := by
  simp only [get?, role?_withRole]
  split <;> rfl

@[simp] theorem get?_empty : empty.get? role key = none := by
  cases role <;> rfl

@[simp] theorem role?_empty : empty.role? role = none := by
  cases role <;> rfl

/-- What a role that has become empty is stored as. -/
theorem get?_ofNonempty (sub : SubState) :
    (if sub.isEmpty then none else some sub : Option SubState).bind (·.get? key) =
      sub.get? key := by
  split
  · rename_i h
    rw [Option.bind_none, Dictionary.isEmpty_iff_get?.1 h key]
  · rfl

@[simp] theorem get?_set (value : AttributeValue) :
    (s.set role key value).get? role' key' =
      if role' = role ∧ key' = key then some value else s.get? role' key' := by
  rw [set, get?_withRole]
  by_cases hr : role' = role
  · simp only [hr, true_and, ↓reduceIte, Option.bind_some, Dictionary.get?_insert, get?]
    cases s.role? role <;> rfl
  · simp only [hr, false_and, ↓reduceIte]

@[simp] theorem get?_remove :
    (s.remove role key).get? role' key' =
      if role' = role ∧ key' = key then none else s.get? role' key' := by
  unfold remove
  cases hs : s.role? role with
  | none =>
    by_cases hr : role' = role
    · simp only [hr, true_and, get?, hs, Option.bind_none, ite_self]
    · simp only [hr, false_and, ↓reduceIte]
  | some sub =>
    simp only [get?_withRole, get?_ofNonempty, Dictionary.get?_erase]
    by_cases hr : role' = role
    · simp only [hr, true_and, get?, hs, Option.bind_some, ↓reduceIte]
    · simp only [hr, false_and, ↓reduceIte]

@[simp] theorem get?_replace (sub : SubState) :
    (s.replace role sub).get? role' key =
      if role' = role then sub.get? key else s.get? role' key := by
  rw [replace, get?_withRole, get?_ofNonempty]

@[simp] theorem get?_clear :
    (s.clear role).get? role' key = if role' = role then none else s.get? role' key := by
  rw [clear, get?_withRole, Option.bind_none]

/-! ### Roles without attributes -/

/-- No role is present without attributes. -/
def Populated (s : State) : Prop :=
  ∀ role sub, s.role? role = some sub → sub.isEmpty = false

namespace Populated

theorem empty : State.empty.Populated := by
  intro role sub h
  simp at h

theorem withRole (h : s.Populated) {sub : Option SubState}
    (hsub : ∀ d, sub = some d → d.isEmpty = false) : (s.withRole role sub).Populated := by
  intro role' d hd
  rw [role?_withRole] at hd
  split at hd
  · exact hsub d hd
  · exact h role' d hd

theorem ofNonempty (sub : SubState) :
    ∀ d, (if sub.isEmpty then none else some sub : Option SubState) = some d →
      d.isEmpty = false := by
  intro d hd
  split at hd
  · cases hd
  · rename_i h
    obtain rfl := Option.some.inj hd
    exact Bool.eq_false_iff.2 h

theorem set (h : s.Populated) (value : AttributeValue) : (s.set role key value).Populated := by
  refine h.withRole fun d hd => ?_
  obtain rfl := Option.some.inj hd
  rw [Bool.eq_false_iff, ne_eq, Dictionary.isEmpty_iff_get?, not_forall]
  exact ⟨key, by simp⟩

theorem remove (h : s.Populated) : (s.remove role key).Populated := by
  unfold State.remove
  split
  · exact h
  · exact h.withRole (ofNonempty _)

theorem replace (h : s.Populated) (sub : SubState) : (s.replace role sub).Populated :=
  h.withRole (ofNonempty sub)

theorem clear (h : s.Populated) : (s.clear role).Populated :=
  h.withRole (by simp)

/-- A role is absent exactly if nothing is found under it. -/
theorem role?_eq_none_iff (h : s.Populated) :
    s.role? role = none ↔ ∀ key, s.get? role key = none := by
  refine ⟨fun hr key => by rw [get?, hr, Option.bind_none], fun hg => ?_⟩
  cases hr : s.role? role with
  | none => rfl
  | some sub =>
    have hsub : sub.isEmpty = true :=
      Dictionary.isEmpty_iff_get?.2 fun key => by simpa [get?, hr] using hg key
    exact absurd hsub (Bool.eq_false_iff.1 (h role sub hr))

theorem ext_get? (hs : s.Populated) (ht : t.Populated)
    (h : ∀ role key, s.get? role key = t.get? role key) : s = t := by
  refine State.ext_role? fun role => ?_
  cases hr : s.role? role with
  | none =>
    have hnone := hs.role?_eq_none_iff.1 hr
    exact (ht.role?_eq_none_iff.2 fun key => (h role key).symm.trans (hnone key)).symm
  | some sub =>
    cases hr' : t.role? role with
    | none =>
      have hnone := ht.role?_eq_none_iff.1 hr'
      have := hs.role?_eq_none_iff.2 fun key => (h role key).trans (hnone key)
      rw [hr] at this
      cases this
    | some sub' =>
      have hsub : sub = sub' := Dictionary.ext_get? fun key => by
        simpa [get?, hr, hr'] using h role key
      rw [hsub]

end Populated

end DialogueWindows.State
