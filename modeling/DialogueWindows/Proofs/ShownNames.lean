import DialogueWindows.Proofs.OneHot

/-! # What an encoding shows

`Shows` says in terms of `get?` which names a state shows at an attribute: known names only, and
what the user said only behind the text `action_listen`. Two states are encoded alike exactly if
they show the same names (`encode_shows`). Everything else about a state is hidden: two states that
look alike (`LooksAlike`) cannot be told apart, whatever their slots hold, in whatever order and how
often a name is given, and whatever the user has said before any other action. The kind of a value
counts in one place: only as a text does `action_listen` let the user be shown. -/

namespace DialogueWindows.OneHot

/-- The value of an attribute carries a name. -/
def Carries (s : State) (role : Role) (key name : String) : Prop :=
  ∃ v, s.get? role key = some v ∧ name ∈ v.toNames

/-- The previous action is the text `action_listen`; no other kind of value counts. -/
def Listens (s : State) : Prop :=
  s.get? .previousAction Attribute.actionName = some (.text Action.listen)

/-- A state shows a name at an attribute. -/
def Shows (d : Domain) (s : State) : Part → String → Prop
  | .action, name =>
    name ∈ d.actionNames ∧ Carries s .previousAction Attribute.actionName name
  | .intent, name => name ∈ d.intents ∧ Listens s ∧ Carries s .user Attribute.intent name
  | .entities, name => name ∈ d.entities ∧ Listens s ∧ Carries s .user Attribute.entities name
  | .slots, name => name ∈ d.slots ∧ (s.get? .slots name).isSome
  | .loop, name => name ∈ d.forms ∧ Carries s .activeLoop Attribute.loopName name

/-- Where a state keeps the value whose names an attribute shows. Slots show their own names. -/
def Part.source? : Part → Option (Role × String)
  | .action => some (.previousAction, Attribute.actionName)
  | .intent => some (.user, Attribute.intent)
  | .entities => some (.user, Attribute.entities)
  | .slots => none
  | .loop => some (.activeLoop, Attribute.loopName)

theorem Part.source?_injective : Function.Injective Part.source? := by
  intro p q h
  cases p <;> cases q <;> first | rfl | exact absurd h (by decide)

variable {d : Domain} {s t : State} {p : Part} {role role' : Role} {key key' name : String}
  {v : AttributeValue}

/-! ### Names of a state -/

theorem isListening_iff : s.isListening = true ↔ Listens s := by
  rw [State.isListening, State.previousAction?, beq_iff_eq, Option.bind_eq_some_iff, Listens]
  constructor
  · rintro ⟨v, hv, htext⟩
    cases v with
    | text name => rw [hv, Option.some.inj htext]
    | names | literal => cases htext
  · intro h
    exact ⟨_, h, rfl⟩

theorem mem_namesAt : name ∈ namesAt s role key ↔ Carries s role key name := by
  rw [namesAt, Carries]
  cases s.get? role key <;> simp

theorem mem_userNames : name ∈ userNames s key ↔ Listens s ∧ Carries s .user key name := by
  rw [userNames, ← isListening_iff]
  split
  · rename_i h
    rw [mem_namesAt, and_iff_right h]
  · rename_i h
    exact iff_of_false List.not_mem_nil fun hc => h hc.1

theorem mem_shown_slots : name ∈ shown s .slots ↔ (s.get? .slots name).isSome = true := by
  show name ∈ ((s.role? .slots).map (·.keys)).getD [] ↔ _
  rw [State.get?]
  cases s.role? .slots with
  | none => simp
  | some sub => exact Dictionary.mem_keys.trans Option.ne_none_iff_isSome

theorem mem_known_iff_shows : name ∈ known d s p ↔ Shows d s p name := by
  rw [known, Lookup.mem_known, and_comm]
  cases p with
  | action | loop => exact and_congr_right fun _ => mem_namesAt
  | intent | entities => exact and_congr_right fun _ => mem_userNames
  | slots => exact and_congr_right fun _ => mem_shown_slots

theorem known_eq_iff_shows :
    known d s p = known d t p ↔ ∀ name, Shows d s p name ↔ Shows d t p name := by
  simp only [Finset.ext_iff, mem_known_iff_shows]

theorem known_eq_empty_iff : known d s p = ∅ ↔ ∀ name, ¬ Shows d s p name := by
  simp only [Finset.eq_empty_iff_forall_notMem, mem_known_iff_shows]

/-! ### Equal encodings -/

theorem indices_eq_sort (d : Domain) (s : State) (p : Part) :
    indices d s p = ((known d s p).image
      fun n => ((⟨declared d p⟩ : Lookup).index? n).getD 0).sort (· ≤ ·) := by
  rw [indices, Distinct.sort_eq_toFinset_sort, known, Lookup.image_known]

theorem featureOf_eq_iff : featureOf d s p = featureOf d t p ↔ known d s p = known d t p := by
  constructor
  · intro h
    have hindices : indices d s p = indices d t p :=
      (FeatureValues.sparse.inj (Feature.mk.inj h).2.2.2).2.1
    refine Lookup.known_eq_of_indices fun i => ?_
    rw [← mem_indices, ← mem_indices, hindices]
  · intro h
    rw [featureOf, featureOf, indices_eq_sort, indices_eq_sort, h]

theorem encode_eq_iff_known :
    (ofDomain d).encode s = (ofDomain d).encode t ↔ ∀ p, known d s p = known d t p := by
  constructor
  · intro h p
    have hemits : ∀ f, Emits d s p f ↔ Emits d t p f := fun f => by rw [Emits, Emits, h]
    simp only [emits_iff] at hemits
    by_cases hs : known d s p = ∅
    · by_cases ht : known d t p = ∅
      · rw [hs, ht]
      · exact absurd hs ((hemits _).2 ⟨ht, rfl⟩).1
    · exact featureOf_eq_iff.1 ((hemits _).1 ⟨hs, rfl⟩).2
  · intro h
    refine Dictionary.ext_get? fun key => Option.ext fun fs => ?_
    rw [get?_encode, get?_encode]
    refine exists_congr fun p => ?_
    rw [h p, featureOf_eq_iff.2 (h p)]

/-! ### What is hidden -/

/-- Two states that the encoder has no means to tell apart: both are reached by listening or neither
is, they have values for the same known slots, and where the encoder looks their values carry the
same known names. -/
structure LooksAlike (d : Domain) (s t : State) : Prop where
  listens : Listens s ↔ Listens t
  slots : ∀ name ∈ d.slots, (s.get? .slots name).isSome = (t.get? .slots name).isSome
  names : ∀ p role key, p.source? = some (role, key) → (role = .user → Listens s) →
    ∀ name ∈ declared d p, Carries s role key name ↔ Carries t role key name

theorem LooksAlike.shows_iff (h : LooksAlike d s t) : Shows d s p name ↔ Shows d t p name := by
  have huser : ∀ p key, p.source? = some (.user, key) → ∀ name ∈ declared d p,
      (Listens s ∧ Carries s .user key name ↔ Listens t ∧ Carries t .user key name) := by
    intro p key hp name hname
    rw [← h.listens]
    exact and_congr_right fun hs => h.names p .user key hp (fun _ => hs) name hname
  cases p with
  | action => exact and_congr_right fun hn => h.names .action _ _ rfl (by simp) name hn
  | loop => exact and_congr_right fun hn => h.names .loop _ _ rfl (by simp) name hn
  | intent => exact and_congr_right fun hn => huser .intent _ rfl name hn
  | entities => exact and_congr_right fun hn => huser .entities _ rfl name hn
  | slots => exact and_congr_right fun hn => by rw [h.slots name hn]

theorem LooksAlike.encode_eq (h : LooksAlike d s t) :
    (ofDomain d).encode s = (ofDomain d).encode t :=
  encode_eq_iff_known.2 fun _ => known_eq_iff_shows.2 fun _ => h.shows_iff

/-- The attributes that the encoder looks at. -/
def Visible (d : Domain) (s : State) : Role → String → Prop
  | .user, key => Listens s ∧ (key = Attribute.intent ∨ key = Attribute.entities)
  | .previousAction, key => key = Attribute.actionName
  | .slots, key => key ∈ d.slots
  | .activeLoop, key => key = Attribute.loopName

theorem visible_of_source? (hp : p.source? = some (role, key)) (hs : role = .user → Listens s) :
    Visible d s role key := by
  cases p with
  | slots => cases hp
  | action | loop =>
    obtain ⟨rfl, rfl⟩ := Prod.mk.inj (Option.some.inj hp)
    rfl
  | intent =>
    obtain ⟨rfl, rfl⟩ := Prod.mk.inj (Option.some.inj hp)
    exact ⟨hs rfl, .inl rfl⟩
  | entities =>
    obtain ⟨rfl, rfl⟩ := Prod.mk.inj (Option.some.inj hp)
    exact ⟨hs rfl, .inr rfl⟩

theorem looksAlike_of_visible
    (h : ∀ role key, Visible d s role key → s.get? role key = t.get? role key) :
    LooksAlike d s t := by
  refine ⟨?_, fun name hname => ?_, fun p role key hp hs name _ => ?_⟩
  · rw [Listens, Listens, h .previousAction Attribute.actionName rfl]
  · rw [h .slots name hname]
  · rw [Carries, Carries, h role key (visible_of_source? hp hs)]

/-! ### Changing one attribute -/

theorem listens_set :
    Listens (s.set role key v) ↔
      if .previousAction = role ∧ Attribute.actionName = key then v = .text Action.listen
      else Listens s := by
  rw [Listens, State.get?_set]
  split
  · rw [Option.some.injEq]
  · rfl

theorem carries_set :
    Carries (s.set role key v) role' key' name ↔
      if role' = role ∧ key' = key then name ∈ v.toNames else Carries s role' key' name := by
  rw [Carries, State.get?_set]
  split
  · simp
  · rfl

theorem looksAlike_set_slot (d : Domain) (s : State) (key : String) (v w : AttributeValue) :
    LooksAlike d (s.set .slots key v) (s.set .slots key w) := by
  refine ⟨?_, fun name _ => ?_, fun p role key' hp _ name _ => ?_⟩
  · rw [listens_set, listens_set]
    simp
  · rw [State.get?_set, State.get?_set]
    split <;> rfl
  · have hrole : role ≠ .slots := by
      rintro rfl
      cases p <;> cases hp
    rw [carries_set, carries_set, if_neg fun h => hrole h.1, if_neg fun h => hrole h.1]

/-- A value may be exchanged for one that carries the same known names, unless one of them alone is
the text `action_listen` as the previous action. -/
theorem looksAlike_set_names (hp : p.source? = some (role, key)) {w : AttributeValue}
    (hnames : ∀ name ∈ declared d p, name ∈ v.toNames ↔ name ∈ w.toNames)
    (hlisten : p = .action → (v = .text Action.listen ↔ w = .text Action.listen)) :
    LooksAlike d (s.set role key v) (s.set role key w) := by
  have hrole : role ≠ .slots := by
    rintro rfl
    cases p <;> cases hp
  refine ⟨?_, fun name _ => ?_, fun q role' key' hq _ name hname => ?_⟩
  · rw [listens_set, listens_set]
    split
    · rename_i h
      obtain ⟨rfl, rfl⟩ := h
      refine hlisten ?_
      cases p <;> cases hp
      rfl
    · rfl
  · rw [State.get?_set, State.get?_set, if_neg fun h => hrole h.1.symm,
      if_neg fun h => hrole h.1.symm]
  · rw [carries_set, carries_set]
    split
    · rename_i h
      obtain ⟨rfl, rfl⟩ := h
      obtain rfl : q = p := Part.source?_injective (hq.trans hp.symm)
      exact hnames name hname
    · rfl

/-- Of every domain: an encoding shows the known names of a state and nothing else. States that agree
wherever the encoder looks are encoded alike; slot values do not matter, and of any other value the
known names alone do, as long as the previous action does not become the text `action_listen` or
cease to be that. -/
theorem encode_shows (d : Domain) :
    (∀ s t, (ofDomain d).encode s = (ofDomain d).encode t ↔
      ∀ p name, Shows d s p name ↔ Shows d t p name) ∧
    (∀ s p, (((ofDomain d).encode s).get? p.key = none ↔ ∀ name, ¬ Shows d s p name) ∧
      ((∃ name, Shows d s p name) → ∃ f, ((ofDomain d).encode s).get? p.key = some [f])) ∧
    (∀ s key fs, ((ofDomain d).encode s).get? key = some fs → ∃ p : Part, p.key = key) ∧
    (∀ s t, (∀ role key, Visible d s role key → s.get? role key = t.get? role key) →
      (ofDomain d).encode s = (ofDomain d).encode t) ∧
    (∀ (s : State) key v w,
      (ofDomain d).encode (s.set .slots key v) = (ofDomain d).encode (s.set .slots key w)) ∧
    ∀ (s : State) p role key v w, Part.source? p = some (role, key) →
      (∀ name ∈ declared d p, name ∈ AttributeValue.toNames v ↔ name ∈ AttributeValue.toNames w) →
      (p = .action → (v = .text Action.listen ↔ w = .text Action.listen)) →
      (ofDomain d).encode (s.set role key v) = (ofDomain d).encode (s.set role key w) := by
  refine ⟨fun s t => ?_, fun s p => ⟨?_, ?_⟩, fun s key fs h => ?_,
    fun s t h => (looksAlike_of_visible h).encode_eq,
    fun s key v w => (looksAlike_set_slot d s key v w).encode_eq,
    fun s p role key v w hp hnames hlisten => (looksAlike_set_names hp hnames hlisten).encode_eq⟩
  · rw [encode_eq_iff_known]
    exact forall_congr' fun p => known_eq_iff_shows
  · rw [← known_eq_empty_iff, Option.eq_none_iff_forall_ne_some]
    constructor
    · intro hnone
      by_contra hknown
      exact hnone _ (emits_iff.2 ⟨hknown, rfl⟩)
    · intro hknown fs hfs
      obtain ⟨q, hkey, hq, -⟩ := get?_encode.1 hfs
      obtain rfl : q = p := List.inj_on_of_nodup_map Part.nodup_keys q.mem_all p.mem_all hkey
      exact hq hknown
  · rintro ⟨name, hname⟩
    have hknown : known d s p ≠ ∅ := fun h => known_eq_empty_iff.1 h name hname
    exact ⟨_, emits_iff.2 ⟨hknown, rfl⟩⟩
  · obtain ⟨p, hkey, -⟩ := get?_encode.1 h
    exact ⟨p, hkey⟩

/-- A message given as an intent or among other names, with or without a text, and a slot with
another value are encoded alike. -/
theorem encode_shows_greeting :
    let d : Domain := { Domain.empty with intents := ["greet"], slots := ["city", "city"] }
    let listening := State.empty.set .previousAction Attribute.actionName (.text Action.listen)
    let s := (listening.set .user Attribute.intent (.text "greet")).set .slots "city" (.text "Rome")
    let t := ((listening.set .user Attribute.intent (.names ["hm", "greet", "greet"])).set
      .user Attribute.text (.text "hello")).set .slots "city" (.literal "4")
    (ofDomain d).encode s = (ofDomain d).encode t ∧
      (ofDomain d).encode (s.set .user Attribute.intent (.names ["hm", "greet"])) =
        (ofDomain d).encode (s.set .user Attribute.intent (.text "greet")) := by
  intro d listening s t
  obtain ⟨hshows, -, -, -, -, hnames⟩ := encode_shows d
  have hst : ∀ p, known d s p = known d t p := by
    intro p
    cases p <;> decide +kernel
  refine ⟨(hshows s t).2 fun p => known_eq_iff_shows.1 (hst p),
    hnames s .intent .user Attribute.intent _ _ rfl (fun name hname => ?_) nofun⟩
  obtain rfl := List.mem_singleton.1 hname
  decide

/-- Two values that carry the same names are told apart where the previous action is kept: behind a
list of names the user is not shown. -/
theorem encode_tells_kind :
    let d : Domain := { Domain.empty with intents := ["greet"] }
    let greeted := State.empty.set .user Attribute.intent (.text "greet")
    let s := greeted.set .previousAction Attribute.actionName (.text Action.listen)
    let t := greeted.set .previousAction Attribute.actionName (.names [Action.listen])
    AttributeValue.toNames (.text Action.listen) = AttributeValue.toNames (.names [Action.listen]) ∧
      (ofDomain d).encode s ≠ (ofDomain d).encode t := by
  intro d greeted s t
  refine ⟨rfl, fun h => ?_⟩
  have hintent : known d s .intent = known d t .intent := encode_eq_iff_known.1 h .intent
  exact absurd hintent (by decide +kernel)

end DialogueWindows.OneHot
