import DialogueWindows.Digest.Blake3
import DialogueWindows.Proofs.State
import DialogueWindows.Proofs.StateText
import Mathlib.Data.Set.Card

/-! # States built by changes

A change touches the attributes that it names and no others (`Change.get?_apply`), and none leaves a
role without attributes behind. So a state that changes have built shows in `get?` whatever there is
to know about it: two of them with the same attributes are the same state, with one text and one
digest, in whatever way each of them was built (`State.build_identity`). -/

namespace DialogueWindows

/-- An operation on a state. A value is set in the same way in place and in a chain. -/
inductive Change where
  | set (role : Role) (key : String) (value : AttributeValue)
  | remove (role : Role) (key : String)
  | replace (role : Role) (sub : SubState)
  | clear (role : Role)
deriving DecidableEq

namespace Change

def apply (s : State) : Change → State
  | set role key value => s.set role key value
  | remove role key => s.remove role key
  | replace role sub => s.replace role sub
  | clear role => s.clear role

/-- The change names an attribute: alone, or with all others of its role. -/
def Names : Change → Role → String → Prop
  | set role key _, role', key' => role' = role ∧ key' = key
  | remove role key, role', key' => role' = role ∧ key' = key
  | replace role _, role', _ => role' = role
  | clear role, role', _ => role' = role

instance (c : Change) (role : Role) (key : String) : Decidable (c.Names role key) :=
  match c with
  | set .. | remove .. => inferInstanceAs (Decidable (_ ∧ _))
  | replace .. | clear _ => inferInstanceAs (Decidable (_ = _))

/-- What is found afterwards at the attributes that the change names. -/
def leaves : Change → String → Option AttributeValue
  | set _ _ value, _ => some value
  | remove _ _, _ => none
  | replace _ sub, key => sub.get? key
  | clear _, _ => none

theorem get?_apply (c : Change) (s : State) (role : Role) (key : String) :
    (c.apply s).get? role key = if c.Names role key then c.leaves key else s.get? role key := by
  cases c with
  | set => exact State.get?_set _
  | remove => exact State.get?_remove
  | replace => exact State.get?_replace _
  | clear => exact State.get?_clear

theorem populated_apply (c : Change) {s : State} (h : s.Populated) : (c.apply s).Populated := by
  cases c with
  | set _ _ value => exact h.set value
  | remove => exact h.remove
  | replace _ sub => exact h.replace sub
  | clear => exact h.clear

end Change

namespace State
variable {s t : State}

/-- The state that changes lead to from the empty one. -/
def build (changes : List Change) : State :=
  changes.foldl Change.apply .empty

theorem build_concat (changes : List Change) (c : Change) :
    build (changes ++ [c]) = c.apply (build changes) :=
  List.foldl_concat ..

theorem populated_build (changes : List Change) : (build changes).Populated := by
  induction changes using List.reverseRecOn with
  | nil => exact .empty
  | append_singleton changes c ih =>
    rw [build_concat]
    exact c.populated_apply ih

/-! ### Roles with attributes -/

theorem map_fst_roles (s : State) :
    s.roles.map (·.1) = Role.all.filter fun role => (s.role? role).isSome := by
  rw [roles, List.map_filterMap, ← List.filterMap_eq_filter]
  refine List.filterMap_congr fun role _ => ?_
  cases h : s.role? role <;> simp [Option.guard, h]

/-- The roles under which something is found. -/
def shownRoles (s : State) : Set Role :=
  {role | ∃ key, (s.get? role key).isSome}

namespace Populated

theorem isSome_role?_iff (h : s.Populated) {role : Role} :
    (s.role? role).isSome = true ↔ role ∈ s.shownRoles := by
  rw [← not_iff_not, Bool.not_eq_true, Option.isSome_eq_false_iff, Option.isNone_iff_eq_none,
    h.role?_eq_none_iff]
  simp [shownRoles]

theorem size_eq (h : s.Populated) : s.size = s.shownRoles.ncard := by
  let shown := Role.all.filter fun role => (s.role? role).isSome
  have hnodup : shown.Nodup := List.Nodup.filter _ (by decide)
  have hset : s.shownRoles = (shown.toFinset : Set Role) := by
    ext role
    have hall : role ∈ Role.all := by cases role <;> decide
    rw [Finset.mem_coe, List.mem_toFinset, List.mem_filter, h.isSome_role?_iff]
    exact (and_iff_right hall).symm
  calc s.size = (s.roles.map (·.1)).length := (List.length_map ..).symm
    _ = shown.length := by rw [map_fst_roles]
    _ = shown.toFinset.card := (List.toFinset_card_of_nodup hnodup).symm
    _ = s.shownRoles.ncard := by rw [hset, Set.ncard_coe_finset]

theorem isEmpty_iff (h : s.Populated) :
    s.isEmpty = true ↔ ∀ role key, s.get? role key = none := by
  constructor
  · intro hs role
    have hnone : s.role? role = none := by
      rw [Option.eq_none_iff_forall_ne_some]
      intro sub hsub
      have hmem := mem_roles.2 hsub
      rw [List.isEmpty_iff.1 hs] at hmem
      cases hmem
    exact h.role?_eq_none_iff.1 hnone
  · intro hs
    rw [isEmpty, List.isEmpty_iff, List.eq_nil_iff_forall_not_mem]
    rintro ⟨role, sub⟩ hmem
    rw [mem_roles, h.role?_eq_none_iff.2 (hs role)] at hmem
    cases hmem

theorem eq_iff_get? (hs : s.Populated) (ht : t.Populated) :
    s = t ↔ ∀ role key, s.get? role key = t.get? role key := by
  refine ⟨?_, hs.ext_get? ht⟩
  rintro rfl role key
  rfl

end Populated

/-- States that changes have built have no role without attributes. They are told apart by their
attributes and by nothing else, and so are their texts and, unless two texts collide, their digests.
-/
theorem build_identity (xs ys : List Change) :
    let s := build xs
    let t := build ys
    s.Populated ∧ s.size = s.shownRoles.ncard ∧
      (s.isEmpty = true ↔ ∀ role key, s.get? role key = none) ∧
      (∀ c role key, (build (xs ++ [c])).get? role key =
        if c.Names role key then c.leaves key else s.get? role key) ∧
      ((∀ role key, s.get? role key = t.get? role key) ↔
        s = t ∧ s.toJson.compact = t.toJson.compact ∧
          ∀ digest, s.contentHash digest = t.contentHash digest) ∧
      (s.toJson.compact = t.toJson.compact ↔ ∀ role key, s.get? role key = t.get? role key) ∧
      ∀ digest, (digest s.toJson.compact = digest t.toJson.compact →
          s.toJson.compact = t.toJson.compact) →
        (s.contentHash digest = t.contentHash digest ↔
          ∀ role key, s.get? role key = t.get? role key) := by
  intro s t
  have hs : s.Populated := populated_build xs
  have hext := hs.eq_iff_get? (populated_build ys)
  refine ⟨hs, hs.size_eq, hs.isEmpty_iff, fun c role key => ?_, ⟨fun h => ?_, fun h => ?_⟩, ?_,
    fun digest h => ?_⟩
  · rw [build_concat, c.get?_apply]
  · have heq : s = t := hext.2 h
    exact ⟨heq, by rw [heq], fun digest => by rw [heq]⟩
  · exact hext.1 h.1
  · rw [compact_toJson_eq_iff, hext]
  · rw [contentHash_eq_iff h, hext]

/-- A detour leads to the same state, a literal that prints like a text to another one. -/
theorem build_identity_detour :
    let direct := build [.set .slots "n" (.text "1")]
    let detour := build [.replace .user ⟨[("intent", .text "greet")], by decide⟩,
      .set .slots "n" (.literal "1"), .remove .user "intent", .clear .activeLoop,
      .set .slots "n" (.text "1")]
    let literal := build [.set .slots "n" (.literal "1")]
    direct.contentHash Blake3.hexDigest = detour.contentHash Blake3.hexDigest ∧
      direct.contentHash Blake3.hexDigest ≠ literal.contentHash Blake3.hexDigest := by
  intro direct detour literal
  have hne : Blake3.hexDigest direct.toJson.compact ≠ Blake3.hexDigest literal.toJson.compact := by
    decide +kernel
  have hsame := (build_identity [.set .slots "n" (.text "1")]
    [.replace .user ⟨[("intent", .text "greet")], by decide⟩, .set .slots "n" (.literal "1"),
      .remove .user "intent", .clear .activeLoop, .set .slots "n" (.text "1")]).2.2.2.2.1
  have hapart := (build_identity [.set .slots "n" (.text "1")]
    [.set .slots "n" (.literal "1")]).2.2.2.2.2.2 Blake3.hexDigest fun h => absurd h hne
  refine ⟨(hsame.1 fun role key => ?_).2.2 _, ?_⟩
  · rfl
  · rw [ne_eq, hapart]
    intro h
    exact absurd (h .slots "n") (by decide)

end State

end DialogueWindows
