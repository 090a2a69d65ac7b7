import DialogueWindows.Json.Decoder
import DialogueWindows.Proofs.Dictionary
import DialogueWindows.Proofs.ReadBack

/-! # What decoders take from written values

`Decodes decode j a` says that a decoder takes the value `j` to `a`. Each way of building a decoder
has a lemma that follows from those of its parts, so a type is read back as soon as its record is.
From there to the text it is one step for all types (`Decodes.ofText_compact`): the text of a value
holds that value, and the reader allows the 127 levels that a text may nest. -/

namespace DialogueWindows.Json

/-! ### Sorted values -/

/-- The members of every object stand in increasing order of their names. -/
inductive Sorted : Json → Prop
  | null : Sorted null
  | bool (b : Bool) : Sorted (bool b)
  | number (n : Number) : Sorted (number n)
  | string (s : String) : Sorted (string s)
  | array {items : List Json} (h : ∀ j ∈ items, Sorted j) : Sorted (array items)
  | object {members : List (String × Json)} (hkeys : Increasing members)
    (h : ∀ m ∈ members, Sorted m.2) : Sorted (object members)

theorem canonicalItems_eq_self {items : List Json} (h : ∀ j ∈ items, j.canonical = j) :
    canonicalItems items = items := by
  induction items with
  | nil => rfl
  | cons j rest ih =>
    obtain ⟨hj, hrest⟩ := List.forall_mem_cons.1 h
    rw [canonicalItems, hj, ih hrest]

theorem canonicalMembers_eq_self {members : List (String × Json)}
    (h : ∀ m ∈ members, m.2.canonical = m.2) : canonicalMembers members = members := by
  induction members with
  | nil => rfl
  | cons m rest ih =>
    obtain ⟨hm, hrest⟩ := List.forall_mem_cons.1 h
    rw [canonicalMembers, hm, ih hrest]

theorem Sorted.canonical_eq {j : Json} (h : Sorted j) : j.canonical = j := by
  induction h with
  | null | bool | number | string => rfl
  | array _ ih => rw [canonical, canonicalItems_eq_self ih]
  | object hkeys _ ih => rw [canonical, canonicalMembers_eq_self ih, Entries.sort_of_increasing hkeys]

/-! ### Decoders of values -/

namespace Decoder
variable {α β κ σ : Type}

/-- The decoder takes the value to `a`, wherever there is room for the levels of the value. -/
def Decodes (decode : Decoder α) (j : Json) (a : α) : Prop :=
  ∀ source : Source, Within source.limit j.depth → decode source (.ofJson j) = .ok a

/-- There is room for the parts of an array or an object in which there is room for itself. -/
theorem exists_enter {source : Source} {n : Nat} (h : Within source.limit (n + 1)) :
    ∃ inner, source.enter = .ok inner ∧ Within inner.limit n := by
  match source, h with
  | .text 0, h => exact absurd h (Nat.not_succ_le_zero n)
  | .text (levels + 1), h => exact ⟨.text levels, rfl, Nat.le_of_succ_le_succ h⟩
  | .held, _ => exact ⟨.held, rfl, trivial⟩

namespace Decodes

theorem string (s : String) : Decodes Decoder.string (.string s) s :=
  fun _ _ => rfl

theorem bool (b : Bool) : Decodes Decoder.bool (.bool b) b :=
  fun _ _ => rfl

theorem natural (type : String) (n : Nat) : Decodes (Decoder.natural type) (.ofNat n) n := by
  intro source _
  rw [ofNat, Reading.ofJson, Decoder.natural, if_neg (Int.not_lt.2 (Int.natCast_nonneg n))]
  rfl

theorem size (n : Nat) : Decodes Decoder.size (.ofNat n) n :=
  natural "usize" n

theorem json {j : Json} (h : Sorted j) : Decodes Decoder.json j j := by
  intro source hroom
  rw [Decoder.json, Reading.value_ofJson j source.limit hroom]
  exact congrArg Except.ok h.canonical_eq

theorem fmap {decode : Decoder α} {j : Json} {a : α} (g : α → β) (h : Decodes decode j a) :
    Decodes (fun source r => do return g (← decode source r)) j (g a) := by
  intro source hroom
  show (decode source (.ofJson j) >>= fun a => Except.ok (g a)) = _
  rw [h source hroom]
  rfl

/-- What is absent is null, so what is present must be written as something else. -/
theorem option {decode : Decoder α} {f : α → Json} {o : Option α} (hne : ∀ a ∈ o, f a ≠ .null)
    (h : ∀ a ∈ o, Decodes decode (f a) a) : Decodes (Decoder.option decode) (.ofOption f o) o := by
  cases o with
  | none => exact fun _ _ => rfl
  | some a =>
    intro source hroom
    -- nothing but null is taken for an absent value
    have hread : Decoder.option decode source (.ofJson (f a)) =
        (decode source (.ofJson (f a)) >>= fun a => Except.ok (some a)) := by
      have := hne a rfl
      cases hj : f a <;> first | rfl | exact absurd hj this
    rw [ofOption, hread, h a rfl source hroom]
    rfl

theorem items_ofItems {decode : Decoder α} {f : α → Json} {xs : List α} {source : Source}
    (h : ∀ a ∈ xs, Decodes decode (f a) a) (hroom : Within source.limit (itemsDepth (xs.map f))) :
    items decode source (Reading.ofItems (xs.map f)) = .ok xs := by
  induction xs with
  | nil => rfl
  | cons a rest ih =>
    obtain ⟨ha, hrest⟩ := List.forall_mem_cons.1 h
    rw [List.map_cons, itemsDepth] at hroom
    rw [List.map_cons, Reading.ofItems, items, ha source hroom.left, ih hrest hroom.right]
    rfl

theorem list {decode : Decoder α} {f : α → Json} {xs : List α}
    (h : ∀ a ∈ xs, Decodes decode (f a) a) : Decodes (Decoder.list decode) (.ofList f xs) xs := by
  intro source hroom
  rw [ofList, depth] at hroom
  obtain ⟨inner, henter, hroom⟩ := exists_enter hroom
  rw [ofList, Reading.ofJson, Decoder.list, henter]
  exact items_ofItems h hroom

theorem strings (names : List String) :
    Decodes (Decoder.list Decoder.string) (.ofStrings names) names :=
  list fun name _ => string name

section Map
variable {decode : Decoder α} {f : α → Json} {key : String → Except Error κ} {name : κ → String}
  {xs : List (κ × α)}

theorem entries_ofMembers {source : Source} (hkey : ∀ e ∈ xs, key (name e.1) = .ok e.1)
    (h : ∀ e ∈ xs, Decodes decode (f e.2) e.2)
    (hroom : Within source.limit (membersDepth (xs.map fun e => (name e.1, f e.2)))) :
    entries key decode source (Reading.ofMembers (xs.map fun e => (name e.1, f e.2))) = .ok xs := by
  induction xs with
  | nil => rfl
  | cons e rest ih =>
    obtain ⟨he, hrest⟩ := List.forall_mem_cons.1 h
    obtain ⟨hkeye, hkeyrest⟩ := List.forall_mem_cons.1 hkey
    rw [List.map_cons, membersDepth] at hroom
    rw [List.map_cons, Reading.ofMembers, entries, hkeye]
    show (decode source (.ofJson (f e.2)) >>= _) = _
    rw [he source hroom.left]
    show (entries key decode source _ >>= _) = _
    rw [ih hkeyrest hrest hroom.right]
    rfl

theorem map (name : κ → String) (hkey : ∀ e ∈ xs, key (name e.1) = .ok e.1)
    (h : ∀ e ∈ xs, Decodes decode (f e.2) e.2) :
    Decodes (Decoder.map key decode) (.object (xs.map fun e => (name e.1, f e.2))) xs := by
  intro source hroom
  rw [depth] at hroom
  obtain ⟨inner, henter, hroom⟩ := exists_enter hroom
  rw [Reading.ofJson, Decoder.map, henter]
  exact entries_ofMembers hkey h hroom

end Map

theorem dictionary {decode : Decoder α} {f : α → Json} (h : ∀ a, Decodes decode (f a) a)
    (d : Dictionary α) : Decodes (Decoder.dictionary decode) (.ofDictionary f d) d := by
  have hmap : Decodes (Decoder.map .ok decode) (.ofDictionary f d) d.entries :=
    map id (fun _ _ => rfl) fun e _ => h e.2
  have := hmap.fmap Dictionary.ofList
  rwa [d.ofList_entries] at this

end Decodes

/-! ### Records -/

/-- The members fill the draft `s` up to `s'`. -/
def Fills (fields : List (Field σ)) (ms : List (String × Json)) (s s' : σ) : Prop :=
  ∀ source : Source, Within source.limit (membersDepth ms) →
    members fields source (Reading.ofMembers ms) s = .ok s'

section Records
variable {fields : List (Field σ)} {ms : List (String × Json)} {s s' : σ}

theorem Fills.nil : Fills fields [] s s :=
  fun _ _ => rfl

/-- The first member fills its own field, which was still empty. -/
theorem Fills.cons {k : String} {j : Json} {get : σ → Option α} {set : σ → α → σ}
    {decode : Decoder α} {omissible : Bool} {a : α}
    (hfind : fields.find? (·.name = k) = some (.of k get set decode omissible))
    (hempty : get s = none) (h : Decodes decode j a) (hrest : Fills fields ms (set s a) s') :
    Fills fields ((k, j) :: ms) s s' := by
  intro source hroom
  rw [membersDepth] at hroom
  rw [Reading.ofMembers, members, hfind]
  show (if (get s).isSome then _ else
    (decode source (.ofJson j) >>= fun a => Except.ok (set s a)) >>= _) = _
  rw [hempty, Option.isSome_none, if_neg Bool.false_ne_true, h source hroom.left]
  exact hrest source hroom.right

theorem Decodes.record {type : String} {draft : σ} {finish : σ → Except Error α} {a : α}
    (h : Fills fields ms draft s) (hfinish : finish s = .ok a) :
    Decodes (Decoder.record type fields draft finish) (.object ms) a := by
  intro source hroom
  rw [depth] at hroom
  obtain ⟨inner, henter, hroom⟩ := exists_enter hroom
  rw [Reading.ofJson, Decoder.record, henter]
  show (members fields inner (Reading.ofMembers ms) draft >>= finish) = _
  rw [h inner hroom]
  exact hfinish

end Records

/-! ### Tagged variants -/

section Tagged
variable {name kind : String} {known : List String} {source : Source}
  {before behind ms : List (String × Json)}

/-- Behind the tag the members are only read. -/
theorem takeTag_ofMembers (hname : ∀ m ∈ ms, m.1 ≠ name)
    (hroom : Within source.limit (membersDepth ms)) :
    takeTag name known source (some kind) (Reading.ofMembers ms) =
      .ok (kind, Reading.ofMembers ms) := by
  induction ms with
  | nil => rfl
  | cons m rest ih =>
    obtain ⟨hm, hrest⟩ := List.forall_mem_cons.1 hname
    rw [membersDepth] at hroom
    rw [Reading.ofMembers, takeTag, if_neg hm, Reading.value_ofJson m.2 _ hroom.left]
    show (takeTag name known source (some kind) (Reading.ofMembers rest) >>= _) = _
    rw [ih hrest hroom.right]
    rfl

/-- The tag is found wherever it stands, and taken out from there. -/
theorem takeTag_ofMembers_append (hkind : kind ∈ known)
    (hname : ∀ m ∈ before ++ behind, m.1 ≠ name)
    (hroom : Within source.limit (membersDepth (before ++ (name, .string kind) :: behind))) :
    takeTag name known source none
        (Reading.ofMembers (before ++ (name, .string kind) :: behind)) =
      .ok (kind, Reading.ofMembers (before ++ behind)) := by
  induction before with
  | nil =>
    rw [List.nil_append, membersDepth] at hroom
    rw [List.nil_append, Reading.ofMembers, takeTag, if_pos rfl]
    show (variant known kind >>= _) = _
    rw [variant, if_pos hkind]
    exact takeTag_ofMembers hname hroom.right
  | cons m rest ih =>
    obtain ⟨hm, hrest⟩ := List.forall_mem_cons.1 hname
    rw [List.cons_append, membersDepth] at hroom
    rw [List.cons_append, Reading.ofMembers, takeTag, if_neg hm,
      Reading.value_ofJson m.2 _ hroom.left]
    show (takeTag name known source none _ >>= _) = _
    rw [ih hrest hroom.right]
    rfl

/-- No member but the tag has the tag's name. -/
theorem Decodes.tagged {type : String} {decode : String → Decoder α} {a : α} (hkind : kind ∈ known)
    (hname : ∀ m ∈ before ++ behind, m.1 ≠ name)
    (h : Decodes (decode kind) (.object (before ++ behind)) a) :
    Decodes (Decoder.tagged type name known decode)
      (.object (before ++ (name, .string kind) :: behind)) a := by
  intro source hroom
  rw [depth] at hroom
  obtain ⟨inner, henter, hroom⟩ := exists_enter hroom
  rw [Reading.ofJson, Decoder.tagged, henter]
  show (takeTag name known inner none _ >>= _) = _
  rw [takeTag_ofMembers_append hkind hname hroom]
  -- the variant has been read whole, so no limit applies to what is left of it
  exact h .held trivial

theorem Decodes.unit (a : α) (ms : List (String × Json)) :
    Decodes (Decoder.unit a) (.object ms) a :=
  fun _ _ => rfl

end Tagged

/-! ### Texts -/

/-- The text of a value is decoded as the value is. -/
theorem Decodes.ofText_compact {decode : Decoder α} {j : Json} {a : α} (h : Decodes decode j a)
    (hexact : Exact j) (hdepth : j.depth ≤ 127) : ofText decode j.compact = .ok a := by
  rw [ofText, readText_compact hexact]
  show (decode .start (.ofJson j) >>= _) = _
  rw [h .start hdepth]
  rfl

/-- Reading undoes writing for the values that `P` allows: the text of each is decoded to it, so no
two of them have one text. -/
structure RoundTrips (decode : Decoder α) (toJson : α → Json) (P : α → Prop) : Prop where
  ofText : ∀ a, P a → Decoder.ofText decode (toJson a).compact = .ok a
  injective : ∀ a b, P a → P b → (toJson a).compact = (toJson b).compact → a = b

theorem RoundTrips.of_decodes {decode : Decoder α} {toJson : α → Json} {P : α → Prop}
    (hexact : ∀ a, P a → Exact (toJson a)) (hdepth : ∀ a, P a → (toJson a).depth ≤ 127)
    (h : ∀ a, P a → Decodes decode (toJson a) a) : RoundTrips decode toJson P := by
  have hread : ∀ a, P a → Decoder.ofText decode (toJson a).compact = .ok a :=
    fun a ha => (h a ha).ofText_compact (hexact a ha) (hdepth a ha)
  refine ⟨hread, fun a b ha hb heq => ?_⟩
  have := hread a ha
  rw [heq, hread b hb] at this
  exact (Except.ok.inj this).symm

end Decoder

end DialogueWindows.Json
