import DialogueWindows.Encoding.OneHot
import DialogueWindows.Proofs.Domain
import DialogueWindows.Proofs.State
import DialogueWindows.Proofs.Vectors

/-! # What one-hot encoding keeps

A feature of an attribute has the indices of the known names that a state shows. An index is a
position in the list that the domain declares, but the dimension is the number of different names
there: the two agree exactly for a list without repetitions. Then the vector written out tells the
names (`OneHot.Legible`), else some name is lost that way (`OneHot.encode_legible_iff`). -/

namespace DialogueWindows

namespace Lookup
variable {l : Lookup} {name name' : String} {i : Nat}

theorem lastIndex?_eq_some {names : List String} (h : lastIndex? name names = some i) :
    names[i]? = some name := by
  induction names generalizing i with
  | nil => cases h
  | cons n rest ih =>
    rw [lastIndex?] at h
    split at h
    · rename_i j hj
      obtain rfl := Option.some.inj h
      exact ih hj
    · split at h
      · rename_i hn
        obtain rfl := Option.some.inj h
        exact congrArg some hn
      · cases h

theorem isSome_lastIndex? {names : List String} :
    (lastIndex? name names).isSome = true ↔ name ∈ names := by
  induction names with
  | nil => simp [lastIndex?]
  | cons n rest ih =>
    rw [List.mem_cons, ← ih, lastIndex?]
    cases lastIndex? name rest with
    | some j => simp
    | none =>
      by_cases hn : n = name
      · simp [hn]
      · simp [hn, Ne.symm hn]

theorem isSome_index? : (l.index? name).isSome = true ↔ name ∈ l.names :=
  isSome_lastIndex?

theorem index?_injective (h : l.index? name = some i) (h' : l.index? name' = some i) :
    name = name' :=
  Option.some.inj ((lastIndex?_eq_some h).symm.trans (lastIndex?_eq_some h'))

theorem index?_lt (h : l.index? name = some i) : i < l.names.length :=
  (List.getElem?_eq_some_iff.1 (lastIndex?_eq_some h)).1

/-- The last name has the greatest index that there can be. -/
theorem index?_concat (names : List String) (name : String) :
    (⟨names ++ [name]⟩ : Lookup).index? name = some names.length := by
  show lastIndex? name (names ++ [name]) = _
  induction names with
  | nil => simp [lastIndex?]
  | cons n rest ih => rw [List.cons_append, lastIndex?, ih, List.length_cons]

theorem dim_eq (l : Lookup) : l.dim = l.names.toFinset.card := by
  rw [dim, Distinct.sort_eq_toFinset_sort, Finset.length_sort]

theorem dim_le (l : Lookup) : l.dim ≤ l.names.length := by
  rw [dim_eq]
  exact l.names.toFinset_card_le

theorem dim_eq_length_iff : l.dim = l.names.length ↔ l.names.Nodup := by
  rw [dim_eq]
  exact Multiset.toFinset_card_eq_card_iff_nodup

/-- The known ones among some names. -/
def known (l : Lookup) (names : List String) : Finset String :=
  names.toFinset.filter (· ∈ l.names)

theorem mem_known {names : List String} : name ∈ l.known names ↔ name ∈ names ∧ name ∈ l.names := by
  rw [known, Finset.mem_filter, List.mem_toFinset]

/-- Different known names have different indices. -/
theorem image_known (l : Lookup) (names : List String) :
    (l.known names).image (fun n => (l.index? n).getD 0) = (names.filterMap l.index?).toFinset := by
  ext i
  rw [Finset.mem_image, List.mem_toFinset, List.mem_filterMap]
  constructor
  · rintro ⟨n, hn, rfl⟩
    obtain ⟨hn, hdeclared⟩ := mem_known.1 hn
    obtain ⟨j, hj⟩ := Option.isSome_iff_exists.1 (isSome_index?.2 hdeclared)
    exact ⟨n, hn, by rw [hj, Option.getD_some]⟩
  · rintro ⟨n, hn, hi⟩
    exact ⟨n, mem_known.2 ⟨hn, isSome_index?.1 (by rw [hi]; rfl)⟩, by rw [hi, Option.getD_some]⟩

theorem card_known (l : Lookup) (names : List String) :
    (names.filterMap l.index?).toFinset.card = (l.known names).card := by
  rw [← image_known]
  refine Finset.card_image_of_injOn fun n hn n' hn' h => ?_
  obtain ⟨i, hi⟩ := Option.isSome_iff_exists.1 (isSome_index?.2 (mem_known.1 hn).2)
  obtain ⟨i', hi'⟩ := Option.isSome_iff_exists.1 (isSome_index?.2 (mem_known.1 hn').2)
  simp only [hi, hi', Option.getD_some] at h
  exact index?_injective hi (h ▸ hi')

theorem known_eq_of_indices {names names' : List String}
    (h : ∀ i, i ∈ names.filterMap l.index? ↔ i ∈ names'.filterMap l.index?) :
    l.known names = l.known names' := by
  have hsub : ∀ {xs ys : List String},
      (∀ i, i ∈ xs.filterMap l.index? → i ∈ ys.filterMap l.index?) → l.known xs ⊆ l.known ys := by
    intro xs ys hxy n hn
    obtain ⟨hmem, hdeclared⟩ := mem_known.1 hn
    obtain ⟨i, hi⟩ := Option.isSome_iff_exists.1 (isSome_index?.2 hdeclared)
    obtain ⟨n', hn', hi'⟩ := List.mem_filterMap.1 (hxy i (List.mem_filterMap.2 ⟨n, hmem, hi⟩))
    rw [index?_injective hi hi']
    exact mem_known.2 ⟨hn', isSome_index?.1 (by rw [hi']; rfl)⟩
  exact Finset.Subset.antisymm (hsub fun i => (h i).1) (hsub fun i => (h i).2)

end Lookup

namespace OneHot

/-! ### Attributes -/

/-- The attributes that are encoded. -/
inductive Part where
  | action
  | intent
  | entities
  | slots
  | loop
deriving DecidableEq, Repr

namespace Part

def all : List Part :=
  [action, intent, entities, slots, loop]

def key : Part → String
  | action => Attribute.actionName
  | intent => Attribute.intent
  | entities => Attribute.entities
  | slots => Attribute.slots
  | loop => Attribute.activeLoop

theorem nodup_keys : (all.map key).Nodup := by decide

theorem mem_all (p : Part) : p ∈ all := by cases p <;> decide

end Part

/-- The names that a domain declares for an attribute. -/
def declared (d : Domain) : Part → List String
  | .action => d.actionNames
  | .intent => d.intents
  | .entities => d.entities
  | .slots => d.slots
  | .loop => d.forms

/-- The names that a state shows of an attribute, known or not. -/
def shown (s : State) : Part → List String
  | .action => namesAt s .previousAction Attribute.actionName
  | .intent => userNames s Attribute.intent
  | .entities => userNames s Attribute.entities
  | .slots => ((s.role? .slots).map (·.keys)).getD []
  | .loop => namesAt s .activeLoop Attribute.loopName

/-- The names that a state shows of an attribute and the domain declares. -/
def known (d : Domain) (s : State) (p : Part) : Finset String :=
  (⟨declared d p⟩ : Lookup).known (shown s p)

/-- The positions of the known names. -/
def indices (d : Domain) (s : State) (p : Part) : List Nat :=
  Distinct.sort ((shown s p).filterMap (⟨declared d p⟩ : Lookup).index?)

/-- The feature of an attribute whose known names are not none. -/
def featureOf (d : Domain) (s : State) (p : Part) : Feature :=
  ⟨p.key, name, .sentence, .sparse (declared d p).toFinset.card (indices d s p)
    (List.replicate (indices d s p).length .one)⟩

variable {d : Domain} {s t : State} {p : Part} {f g : Feature}

theorem length_indices (d : Domain) (s : State) (p : Part) :
    (indices d s p).length = (known d s p).card := by
  rw [indices, Distinct.sort_eq_toFinset_sort, Finset.length_sort, Lookup.card_known]
  rfl

theorem mem_indices {i : Nat} :
    i ∈ indices d s p ↔ i ∈ (shown s p).filterMap (⟨declared d p⟩ : Lookup).index? :=
  Distinct.mem_sort

theorem feature?_eq (d : Domain) (s : State) (p : Part) :
    feature? p.key ⟨declared d p⟩ (shown s p) =
      if known d s p = ∅ then none else some (featureOf d s p) := by
  have hempty : known d s p = ∅ ↔
      ((shown s p).filterMap (⟨declared d p⟩ : Lookup).index?).isEmpty = true := by
    rw [known, ← Finset.card_eq_zero, ← Lookup.card_known, Finset.card_eq_zero,
      List.toFinset_eq_empty_iff, List.isEmpty_iff]
  simp only [feature?, hempty, featureOf, FeatureValues.multiHot, Lookup.dim_eq]
  rfl

/-! ### Encoded states -/

theorem features_ofDomain (d : Domain) (s : State) :
    (ofDomain d).features s =
      (Part.all.filter fun p => known d s p ≠ ∅).map (featureOf d s) := by
  have hparts : (ofDomain d).features s =
      Part.all.filterMap fun p => feature? p.key ⟨declared d p⟩ (shown s p) := rfl
  rw [hparts, ← List.filterMap_eq_map, ← List.filterMap_eq_filter, List.filterMap_filterMap]
  refine List.filterMap_congr fun p _ => ?_
  rw [feature?_eq]
  by_cases h : known d s p = ∅ <;> simp [h, Option.guard]

/-- An encoded state has one feature for each attribute with known names. -/
theorem get?_encode {key : String} {fs : List Feature} :
    ((ofDomain d).encode s).get? key = some fs ↔
      ∃ p, p.key = key ∧ known d s p ≠ ∅ ∧ fs = [featureOf d s p] := by
  let parts := Part.all.filter fun p => known d s p ≠ ∅
  have hentries : ((ofDomain d).features s).map (fun f => (f.key, [f])) =
      parts.map fun p => (p.key, [featureOf d s p]) := by
    rw [features_ofDomain, List.map_map]
    rfl
  have hnodup : ((parts.map fun p => (p.key, [featureOf d s p])).map (·.1)).Nodup := by
    rw [List.map_map]
    exact Part.nodup_keys.sublist (List.filter_sublist.map _)
  rw [encode, hentries, Dictionary.get?_ofList_eq_some_iff hnodup, List.mem_map]
  simp only [parts, List.mem_filter, Part.mem_all, true_and, decide_eq_true_eq]
  constructor
  · rintro ⟨p, hp, heq⟩
    obtain ⟨rfl, rfl⟩ := Prod.mk.inj heq
    exact ⟨p, rfl, hp, rfl⟩
  · rintro ⟨p, rfl, hp, rfl⟩
    exact ⟨p, hp, rfl⟩

/-- `f` is what the encoding of a state holds for an attribute. -/
def Emits (d : Domain) (s : State) (p : Part) (f : Feature) : Prop :=
  ((ofDomain d).encode s).get? p.key = some [f]

theorem emits_iff : Emits d s p f ↔ known d s p ≠ ∅ ∧ f = featureOf d s p := by
  rw [Emits, get?_encode]
  constructor
  · rintro ⟨q, hkey, hq, hf⟩
    obtain rfl : q = p := List.inj_on_of_nodup_map Part.nodup_keys q.mem_all p.mem_all hkey
    exact ⟨hq, (List.cons.inj hf).1⟩
  · rintro ⟨hp, rfl⟩
    exact ⟨p, rfl, hp, rfl⟩

/-! ### Dense vectors -/

/-- The features of an attribute are well formed, and written out they tell the known names. -/
structure Legible (d : Domain) (p : Part) : Prop where
  isIndicator : ∀ s f, Emits d s p f → f.values.IsIndicator
  count_one : ∀ s f, Emits d s p f → f.values.toDense.count .one = (known d s p).card
  apart : ∀ s t f g, Emits d s p f → Emits d t p g → f.values.toDense = g.values.toDense →
    known d s p = known d t p

theorem lt_of_mem_indices (hnodup : (declared d p).Nodup) {i : Nat} (hi : i ∈ indices d s p) :
    i < (declared d p).toFinset.card := by
  obtain ⟨name, -, hname⟩ := List.mem_filterMap.1 (mem_indices.1 hi)
  rw [List.toFinset_card_of_nodup hnodup]
  exact Lookup.index?_lt hname

theorem legible_of_nodup (hnodup : (declared d p).Nodup) : Legible d p := by
  refine ⟨fun s f hf => ?_, fun s f hf => ?_, fun s t f g hf hg heq => ?_⟩
  · obtain ⟨-, rfl⟩ := emits_iff.1 hf
    exact ⟨Distinct.pairwise_sort _, fun i => lt_of_mem_indices hnodup, rfl⟩
  · obtain ⟨-, rfl⟩ := emits_iff.1 hf
    have hall : (indices d s p).toFinset.filter (· < (declared d p).toFinset.card) =
        (indices d s p).toFinset := by
      refine Finset.filter_true_of_mem fun i hi => ?_
      exact lt_of_mem_indices hnodup (List.mem_toFinset.1 hi)
    have hdistinct : (indices d s p).Nodup := (Distinct.pairwise_sort _).imp ne_of_lt
    rw [featureOf, FeatureValues.count_one_toDense, hall, List.toFinset_card_of_nodup hdistinct,
      length_indices]
  · obtain ⟨-, rfl⟩ := emits_iff.1 hf
    obtain ⟨-, rfl⟩ := emits_iff.1 hg
    refine Lookup.known_eq_of_indices fun i => ?_
    rw [← mem_indices, ← mem_indices]
    by_cases hi : i < (declared d p).toFinset.card
    · rw [FeatureValues.mem_indices_iff hi, FeatureValues.mem_indices_iff hi]
      exact Eq.congr_left (congrArg (·[i]?) heq)
    · exact iff_of_false (fun h => hi (lt_of_mem_indices hnodup h))
        fun h => hi (lt_of_mem_indices hnodup h)

/-- A state that shows one name at an attribute. -/
def showing (name : String) : Part → State
  | .action => State.empty.set .previousAction Attribute.actionName (.text name)
  | .intent => (State.empty.set .previousAction Attribute.actionName (.text Action.listen)).set
      .user Attribute.intent (.text name)
  | .entities => (State.empty.set .previousAction Attribute.actionName (.text Action.listen)).set
      .user Attribute.entities (.names [name])
  | .slots => State.empty.set .slots name (.text name)
  | .loop => State.empty.set .activeLoop Attribute.loopName (.text name)

theorem shown_showing (name : String) (p : Part) : shown (showing name p) p = [name] := by
  cases p with
  | slots => rfl
  | action | loop => simp [shown, showing, namesAt, AttributeValue.toNames]
  | intent | entities =>
    simp [shown, showing, userNames, namesAt, State.isListening, State.previousAction?,
      AttributeValue.toNames, AttributeValue.text?]

/-- A declared name that repeats pushes the index of the last one beyond the dimension. -/
theorem nodup_of_legible (h : Legible d p) : (declared d p).Nodup := by
  rcases List.eq_nil_or_concat (declared d p) with hnil | ⟨names, name, hconcat⟩
  · rw [hnil]
    exact List.nodup_nil
  have hdeclared : declared d p = names ++ [name] := hconcat.trans List.concat_eq_append
  have hmem : name ∈ declared d p := by rw [hdeclared]; simp
  have hindex : (⟨declared d p⟩ : Lookup).index? name = some names.length := by
    rw [hdeclared]
    exact Lookup.index?_concat names name
  have hemits : Emits d (showing name p) p (featureOf d (showing name p) p) := by
    refine emits_iff.2 ⟨Finset.nonempty_iff_ne_empty.1 ⟨name, Lookup.mem_known.2 ⟨?_, hmem⟩⟩, rfl⟩
    rw [shown_showing]
    exact List.mem_singleton_self name
  have hlt : names.length < (declared d p).toFinset.card := by
    refine (h.isIndicator _ _ hemits).2.1 _ (mem_indices.2 ?_)
    rw [shown_showing]
    exact List.mem_filterMap.2 ⟨name, List.mem_singleton_self name, hindex⟩
  have hlength : (declared d p).length = names.length + 1 := by
    rw [hdeclared, List.length_append, List.length_singleton]
  refine Lookup.dim_eq_length_iff.1 (le_antisymm (Lookup.dim_le ⟨declared d p⟩) ?_)
  rw [Lookup.dim_eq]
  exact hlength.le.trans hlt

/-- Of every domain: what is encoded are features of the five attributes, with strictly increasing
indices and a 1 at each, one for each known name. They can be read exactly where the domain repeats
no name, which is always so for actions. -/
theorem encode_legible_iff (d : Domain) :
    (∀ s key fs, ((ofDomain d).encode s).get? key = some fs →
      ∃ p f indices, p.key = key ∧ fs = [f] ∧
        f.values = .sparse (declared d p).toFinset.card indices
          (List.replicate indices.length .one) ∧
        indices.Pairwise (· < ·) ∧ indices.length = (known d s p).card) ∧
      (∀ p, Legible d p ↔ (declared d p).Nodup) ∧ Legible d .action := by
  refine ⟨fun s key fs h => ?_, fun p => ⟨nodup_of_legible, legible_of_nodup⟩,
    legible_of_nodup d.nodup_actionNames⟩
  obtain ⟨p, hkey, -, rfl⟩ := get?_encode.1 h
  exact ⟨p, featureOf d s p, indices d s p, hkey, rfl, rfl, Distinct.pairwise_sort _,
    length_indices d s p⟩

/-- A slot that is declared twice: the one after it gets an index that is no position of the vector,
which shows nothing when it is written out. -/
theorem encode_repeated_slot :
    let d : Domain := { Domain.empty with slots := ["city", "city", "date"] }
    let s := showing "date" .slots
    let f : Feature := ⟨"slots", "single_state", .sentence, .sparse 2 [2] [.one]⟩
    Emits d s .slots f ∧ ¬ f.values.IsIndicator ∧ f.values.toDense = [.zero, .zero] ∧
      (known d s .slots).card = 1 ∧ ¬ Legible d .slots := by
  intro d s f
  have hf : Emits d s .slots f := by
    show ((ofDomain d).encode s).get? _ = some [f]
    decide +kernel
  have hindicator : ¬ f.values.IsIndicator := fun h => absurd (h.2.1 2 (by simp)) (by decide)
  exact ⟨hf, hindicator, rfl, by decide, fun h => hindicator (h.isIndicator s f hf)⟩

end OneHot

end DialogueWindows
