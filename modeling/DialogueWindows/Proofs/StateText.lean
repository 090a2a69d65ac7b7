import DialogueWindows.Proofs.ReadBack
import DialogueWindows.State.Json

/-! # The text of states

No two states have one text (`State.compact_toJson_injective`). Each part is written injectively:
the three kinds of attribute value become three kinds of JSON, and a role is written even if it has
no attributes. -/

namespace DialogueWindows

namespace Json
variable {α β : Type}

theorem ofStrings_injective : Function.Injective ofStrings := by
  intro a b h
  exact List.map_injective_iff.2 (fun _ _ => Json.string.inj) (Json.array.inj h)

theorem ofList_injective {f : α → Json} (hf : Function.Injective f) :
    Function.Injective (ofList f) := by
  intro a b h
  exact List.map_injective_iff.2 hf (Json.array.inj h)

theorem ofDictionary_injective {f : α → Json} (hf : Function.Injective f) :
    Function.Injective (ofDictionary f) := by
  intro a b h
  have hmap : Function.Injective fun e : String × α => (e.1, f e.2) := by
    intro x y hxy
    obtain ⟨hkey, hvalue⟩ := Prod.mk.inj hxy
    exact Prod.ext hkey (hf hvalue)
  have hentries := List.map_injective_iff.2 hmap (Json.object.inj h)
  cases a
  cases b
  cases hentries
  rfl

end Json

open Json (Exact)

namespace AttributeValue

theorem toJson_injective : Function.Injective toJson := by
  intro v w h
  cases v <;> cases w <;> simp only [toJson, Json.ofStrings, reduceCtorEq] at h
  · exact congrArg text (Json.string.inj h)
  · exact congrArg names (Json.ofStrings_injective h)
  · obtain ⟨hm, -⟩ := List.cons.inj (Json.object.inj h)
    exact congrArg literal (Json.string.inj (Prod.mk.inj hm).2)

theorem exact_toJson (v : AttributeValue) : Exact v.toJson := by
  cases v with
  | text s => exact .string s
  | names ns => exact Json.exact_ofStrings ns
  | literal json => exact Json.exact_object_cons (.string json) Json.exact_object_nil

end AttributeValue

namespace SubState

theorem toJson_injective : Function.Injective toJson :=
  Json.ofDictionary_injective AttributeValue.toJson_injective

theorem exact_toJson (sub : SubState) : Exact (toJson sub) :=
  Json.exact_ofDictionary fun e _ => e.2.exact_toJson

end SubState

theorem Role.name_injective : Function.Injective Role.name := by
  intro r r' h
  cases r <;> cases r' <;> first | rfl | exact absurd h (by decide)

namespace State
variable {s t : State} {role : Role} {sub : SubState}

theorem mem_roles : (role, sub) ∈ s.roles ↔ s.role? role = some sub := by
  rw [roles, List.mem_filterMap]
  constructor
  · rintro ⟨r, -, h⟩
    obtain ⟨sub', hsub, heq⟩ := Option.map_eq_some_iff.1 h
    obtain ⟨rfl, rfl⟩ := Prod.mk.inj heq
    exact hsub
  · intro h
    exact ⟨role, by cases role <;> decide, by rw [h]; rfl⟩

theorem roles_injective : Function.Injective roles := by
  intro s t h
  refine ext_role? fun role => Option.ext fun sub => ?_
  rw [← mem_roles, h, mem_roles]

theorem toJson_injective : Function.Injective toJson := by
  intro s t h
  have hmap : Function.Injective fun r : Role × SubState => (r.1.name, SubState.toJson r.2) := by
    intro x y hxy
    obtain ⟨hname, hsub⟩ := Prod.mk.inj hxy
    exact Prod.ext (Role.name_injective hname) (SubState.toJson_injective hsub)
  exact roles_injective (List.map_injective_iff.2 hmap (Json.object.inj h))

theorem exact_toJson (s : State) : Exact s.toJson := by
  refine .object fun m hm => ?_
  obtain ⟨r, -, rfl⟩ := List.mem_map.1 hm
  exact SubState.exact_toJson r.2

/-- No two states have one text. -/
theorem compact_toJson_injective : Function.Injective fun s : State => s.toJson.compact := by
  intro s t h
  exact toJson_injective (Json.compact_injective s.exact_toJson t.exact_toJson h)

theorem compact_toJson_eq_iff : s.toJson.compact = t.toJson.compact ↔ s = t :=
  compact_toJson_injective.eq_iff

/-- Two digests are equal for equal states only, as far as the digest tells the two texts apart. -/
theorem contentHash_eq_iff {digest : String → String}
    (h : digest s.toJson.compact = digest t.toJson.compact →
      s.toJson.compact = t.toJson.compact) :
    s.contentHash digest = t.contentHash digest ↔ s = t := by
  refine ⟨fun heq => compact_toJson_eq_iff.1 (h heq), ?_⟩
  rintro rfl
  rfl

end State

namespace Window

theorem toJson_injective : Function.Injective toJson :=
  Json.ofList_injective State.toJson_injective

theorem exact_toJson (w : Window) : Exact (toJson w) :=
  Json.exact_ofList fun s _ => s.exact_toJson

end Window

end DialogueWindows
