import DialogueWindows.Encoding.Cache
import DialogueWindows.Proofs.Dictionary
import DialogueWindows.Proofs.StateText
import Mathlib.Data.Finset.Card

/-! # Encoding through a cache

While the digest tells the states in play apart, each entry of a cache is the encoding of the one
state with its hash (`Encoder.Holds`). So whatever the cache forgets, a state gets the encoding that
it gets without a cache (`Encoder.Holds.encodes`). A cache that has forgotten nothing has one
entry for each state that it has been asked for (`Encoder.Counts`). -/

namespace DialogueWindows

/-- The digest tells the texts of some states apart. -/
def TellsApart (digest : String → String) (states : List State) : Prop :=
  ∀ s ∈ states, ∀ t ∈ states, digest s.toJson.compact = digest t.toJson.compact →
    s.toJson.compact = t.toJson.compact

theorem TellsApart.contentHash_eq_iff {digest : String → String} {states : List State} {s t : State}
    (h : TellsApart digest states) (hs : s ∈ states) (ht : t ∈ states) :
    s.contentHash digest = t.contentHash digest ↔ s = t :=
  State.contentHash_eq_iff (h s hs t ht)

theorem TellsApart.of_pair {digest : String → String} {states : List State} {s t : State}
    (hne : digest s.toJson.compact ≠ digest t.toJson.compact)
    (h : ∀ x ∈ states, x = s ∨ x = t) : TellsApart digest states := by
  intro x hx y hy heq
  rcases h x hx with rfl | rfl <;> rcases h y hy with rfl | rfl
  · rfl
  · exact absurd heq hne
  · exact absurd heq.symm hne
  · rfl

namespace Cache

/-- The entries with what a request for a hash adds to them. -/
def learned (c : Cache) (hash : String) (encoded : EncodedState) : List (String × EncodedState) :=
  match c.lookup hash with
  | some _ => c.entries
  | none => (hash, encoded) :: c.entries

/-- The cache after a request for a hash. -/
def request (c : Cache) (hash : String) (encoded : EncodedState) : Cache :=
  c.settle hash (c.learned hash encoded)

variable {c : Cache} {hash : String} {encoded : EncodedState} {x : String × EncodedState}

theorem mem_learned (h : x ∈ c.learned hash encoded) : x = (hash, encoded) ∨ x ∈ c.entries := by
  unfold learned at h
  split at h
  · exact .inr h
  · exact List.mem_cons.1 h

theorem mem_request (h : x ∈ (c.request hash encoded).entries) :
    x = (hash, encoded) ∨ x ∈ c.entries :=
  mem_learned (c.retention.keep_subset _ _ h)

end Cache

namespace Encoder
variable {e : Encoder} {s : State} {states played : List State}

theorem encode_fst (e : Encoder) (s : State) :
    (e.encode s).1 =
      (e.cache.bind (·.lookup (s.contentHash e.digest))).getD (e.oneHot.encode s) := by
  unfold encode
  cases e.cache with
  | none => rfl
  | some c => cases h : c.lookup (s.contentHash e.digest) <;> simp [h]

theorem encode_snd (e : Encoder) (s : State) :
    (e.encode s).2 =
      { e with cache := e.cache.map (·.request (s.contentHash e.digest) (e.oneHot.encode s)) } := by
  obtain ⟨oneHot, digest, cache⟩ := e
  cases cache with
  | none => rfl
  | some c =>
    cases h : c.lookup (s.contentHash digest) <;> simp [encode, Cache.request, Cache.learned, h]

theorem encodeWindow_append (e : Encoder) (v w : List State) :
    e.encodeWindow (v ++ w) = ((e.encodeWindow v).1 ++ ((e.encodeWindow v).2.encodeWindow w).1,
      ((e.encodeWindow v).2.encodeWindow w).2) := by
  induction v generalizing e with
  | nil => rfl
  | cons s rest ih => rw [List.cons_append, encodeWindow, ih]; rfl

/-- Only the cache learns. -/
theorem encodeWindow_snd (e : Encoder) (w : List State) :
    ∃ cache, (e.encodeWindow w).2 = { e with cache } ∧ (cache = none ↔ e.cache = none) := by
  induction w generalizing e with
  | nil => exact ⟨e.cache, rfl, Iff.rfl⟩
  | cons s rest ih =>
    obtain ⟨cache, hcache, hnone⟩ := ih (e.encode s).2
    refine ⟨cache, ?_, ?_⟩
    · show ((e.encode s).2.encodeWindow rest).2 = _
      rw [hcache, encode_snd]
    · rw [hnone, encode_snd, Option.map_eq_none_iff]

theorem encodeWindows_snd (e : Encoder) (ws : List Window) :
    (e.encodeWindows ws).2 = (e.encodeWindow ws.flatten).2 := by
  induction ws generalizing e with
  | nil => rfl
  | cons w rest ih =>
    rw [List.flatten_cons, encodeWindow_append]
    exact ih _

/-- The encoder gives the states of some windows the encodings that they have without a cache. -/
def Encodes (e : Encoder) (ws : List Window) : Prop :=
  (e.encodeWindows ws).1 = ws.map fun w => w.map e.oneHot.encode

theorem encodeWindow_of_none (h : e.cache = none) (w : Window) :
    e.encodeWindow w = (w.map e.oneHot.encode, e) := by
  induction w with
  | nil => rfl
  | cons s rest ih =>
    have hencode : e.encode s = (e.oneHot.encode s, e) := by rw [encode, h]
    rw [encodeWindow, hencode, ih, List.map_cons]

theorem encodes_of_none (h : e.cache = none) (ws : List Window) : e.Encodes ws := by
  induction ws with
  | nil => rfl
  | cons w rest ih =>
    rw [Encodes] at ih ⊢
    rw [encodeWindows, encodeWindow_of_none h, ih, List.map_cons]

/-! ### What a cache holds -/

/-- Each entry of the cache is the encoding of one of some states, under its hash. -/
def Holds (e : Encoder) (states : List State) : Prop :=
  ∀ c, e.cache = some c → ∀ x ∈ c.entries,
    ∃ s ∈ states, x = (s.contentHash e.digest, e.oneHot.encode s)

namespace Holds

theorem encode_fst (h : e.Holds states) (hdigest : TellsApart e.digest states) (hs : s ∈ states) :
    (e.encode s).1 = e.oneHot.encode s := by
  rw [Encoder.encode_fst]
  cases hcache : e.cache with
  | none => rfl
  | some c =>
    rw [Option.bind_some]
    cases hlookup : c.lookup (s.contentHash e.digest) with
    | none => rfl
    | some encoded =>
      -- the entry belongs to a state with this hash, so to `s` itself
      obtain ⟨t, ht, heq⟩ := h c hcache _ (Entries.mem_of_find? hlookup)
      obtain ⟨hhash, rfl⟩ := Prod.mk.inj heq
      rw [(hdigest.contentHash_eq_iff hs ht).1 hhash, Option.getD_some]

theorem encode_snd (h : e.Holds states) (hs : s ∈ states) : (e.encode s).2.Holds states := by
  rw [Encoder.encode_snd]
  intro c' hc' x hx
  obtain ⟨c, hc, rfl⟩ := Option.map_eq_some_iff.1 hc'
  rcases Cache.mem_request hx with rfl | hx
  · exact ⟨s, hs, rfl⟩
  · exact h c hc x hx

theorem encodeWindow (h : e.Holds states) (hdigest : TellsApart e.digest states) {w : Window}
    (hw : w ⊆ states) : (e.encodeWindow w).1 = w.map e.oneHot.encode ∧
      (e.encodeWindow w).2.Holds states := by
  induction w generalizing e with
  | nil => exact ⟨rfl, h⟩
  | cons s rest ih =>
    obtain ⟨hs, hrest⟩ := List.cons_subset.1 hw
    have hnext : (e.encode s).2.oneHot = e.oneHot ∧ (e.encode s).2.digest = e.digest := by
      rw [Encoder.encode_snd]
      exact ⟨rfl, rfl⟩
    obtain ⟨hmore, hholds⟩ := ih (h.encode_snd hs) (by rw [hnext.2]; exact hdigest) hrest
    refine ⟨?_, hholds⟩
    rw [Encoder.encodeWindow, hmore, h.encode_fst hdigest hs, hnext.1, List.map_cons]

theorem encodes (h : e.Holds states) (hdigest : TellsApart e.digest states) {ws : List Window}
    (hws : ws.flatten ⊆ states) : e.Encodes ws := by
  induction ws generalizing e with
  | nil => rfl
  | cons w rest ih =>
    rw [List.flatten_cons, List.append_subset] at hws
    obtain ⟨hfirst, hholds⟩ := h.encodeWindow hdigest hws.1
    obtain ⟨cache, hcache, -⟩ := e.encodeWindow_snd w
    have hmore := ih hholds (by rw [hcache]; exact hdigest) hws.2
    rw [Encodes] at hmore ⊢
    rw [encodeWindows, hfirst, hmore, hcache, List.map_cons]

end Holds

/-! ### Windows side by side -/

/-- Each of some windows asks for its states one after the other, and nothing else is asked for. -/
def Asks (asked : List (Nat × State)) (ws : List Window) : Prop :=
  ∀ i, (asked.filter (·.1 == i)).map (·.2) = ws[i]?.getD []

namespace Asks
variable {asked : List (Nat × State)} {ws : List Window}

theorem mem_iff (h : Asks asked ws) : s ∈ asked.map (·.2) ↔ s ∈ ws.flatten := by
  rw [List.mem_map, List.mem_flatten]
  constructor
  · rintro ⟨⟨i, s⟩, hmem, rfl⟩
    have hs : s ∈ ws[i]?.getD [] := by
      rw [← h i]
      exact List.mem_map_of_mem (List.mem_filter.2 ⟨hmem, beq_self_eq_true i⟩)
    cases hw : ws[i]? with
    | none =>
      rw [hw] at hs
      cases hs
    | some w =>
      rw [hw] at hs
      exact ⟨w, List.mem_of_getElem? hw, hs⟩
  · rintro ⟨w, hw, hs⟩
    obtain ⟨i, hi⟩ := List.mem_iff_getElem?.1 hw
    have hall := h i
    rw [hi, Option.getD_some] at hall
    rw [← hall] at hs
    obtain ⟨x, hx, rfl⟩ := List.mem_map.1 hs
    exact ⟨x, List.mem_of_mem_filter hx, rfl⟩

/-- The answers are sorted back to the windows, in whatever order they have come. -/
theorem encodeAsked_fst (h : Asks asked ws) {f : State → EncodedState}
    (hf : (e.encodeWindow (asked.map (·.2))).1 = (asked.map (·.2)).map f) :
    (e.encodeAsked ws.length asked).1 = ws.map fun w => w.map f := by
  have hanswers : (asked.map (·.1)).zip ((asked.map (·.2)).map f) =
      asked.map fun x => (x.1, f x.2) := by
    rw [List.map_map, List.zip_map']
    rfl
  have hwindow : ∀ i, (((asked.map fun x => (x.1, f x.2)).filter (·.1 == i)).map (·.2)) =
      (ws[i]?.getD []).map f := by
    intro i
    rw [← h i, List.filter_map, List.map_map, List.map_map]
    rfl
  refine List.ext_getElem? fun i => ?_
  simp only [encodeAsked, hf, hanswers, hwindow, List.getElem?_map]
  by_cases hi : i < ws.length
  · simp [hi]
  · simp [hi]

end Asks

/-! ### What a cache counts -/

/-- The cache has one entry for each of some states, and no others. -/
def Counts (e : Encoder) (states : List State) : Prop :=
  ∀ c, e.cache = some c → (c.entries.map (·.1)).Nodup ∧
    ∀ hash, hash ∈ c.entries.map (·.1) ↔ ∃ s ∈ states, s.contentHash e.digest = hash

/-- The cache forgets nothing when it is asked for a state. -/
def Keeps (e : Encoder) (s : State) : Prop :=
  ∀ c, e.cache = some c →
    (c.request (s.contentHash e.digest) (e.oneHot.encode s)).entries.Perm
      (c.learned (s.contentHash e.digest) (e.oneHot.encode s))

/-- The cache forgets nothing while states are encoded one after the other. -/
def Retains (e : Encoder) : List State → Prop
  | [] => True
  | s :: rest => e.Keeps s ∧ (e.encode s).2.Retains rest

/-- A policy that keeps all entries forgets nothing. -/
theorem retains_of_keep (h : ∀ c, e.cache = some c → ∀ requests entries,
    (c.retention.keep requests entries).Perm entries) (played : List State) :
    e.Retains played := by
  induction played generalizing e with
  | nil => trivial
  | cons s rest ih =>
    refine ⟨fun c hc => h c hc _ _, ih ?_⟩
    rw [encode_snd]
    intro c' hc'
    obtain ⟨c, hc, rfl⟩ := Option.map_eq_some_iff.1 hc'
    exact h c hc

theorem Counts.encode (h : e.Counts states) (hkeeps : e.Keeps s) :
    (e.encode s).2.Counts (states ++ [s]) := by
  rw [encode_snd]
  intro c' hc'
  obtain ⟨c, hc, rfl⟩ := Option.map_eq_some_iff.1 hc'
  obtain ⟨hnodup, hmem⟩ := h c hc
  have hperm := (hkeeps c hc).map (·.1)
  simp only [List.mem_append, List.mem_singleton, or_and_right, exists_or, exists_eq_left]
  rw [hperm.nodup_iff]
  simp only [hperm.mem_iff]
  unfold Cache.learned
  cases hlookup : c.lookup (s.contentHash e.digest) with
  | some encoded =>
    -- the state has been asked for before
    refine ⟨hnodup, fun hash => ?_⟩
    rw [hmem, iff_self_or]
    rintro rfl
    exact (hmem _).1 (List.mem_map_of_mem (Entries.mem_of_find? hlookup))
  | none =>
    have hnew := Entries.find?_eq_none_iff.1 hlookup
    refine ⟨List.nodup_cons.2 ⟨hnew, hnodup⟩, fun hash => ?_⟩
    rw [List.map_cons, List.mem_cons, hmem, or_comm, eq_comm]

theorem Counts.encodeWindow (h : e.Counts states) (hretains : e.Retains played) :
    (e.encodeWindow played).2.Counts (states ++ played) := by
  induction played generalizing e states with
  | nil => rwa [List.append_nil]
  | cons s rest ih =>
    have := ih (h.encode hretains.1) hretains.2
    rwa [List.append_assoc] at this

theorem Counts.cachedEntries (h : e.Counts states) (hdigest : TellsApart e.digest states)
    (hcache : e.cache ≠ none) : e.cachedEntries = states.toFinset.card := by
  obtain ⟨c, hc⟩ := Option.ne_none_iff_exists'.1 hcache
  obtain ⟨hnodup, hmem⟩ := h c hc
  have hset : (c.entries.map (·.1)).toFinset =
      states.toFinset.image (·.contentHash e.digest) := by
    ext hash
    rw [List.mem_toFinset, hmem, Finset.mem_image]
    simp only [List.mem_toFinset]
  have hinj : Set.InjOn (·.contentHash e.digest) (states.toFinset : Set State) := by
    intro s hs t ht
    exact (hdigest.contentHash_eq_iff (List.mem_toFinset.1 hs) (List.mem_toFinset.1 ht)).1
  rw [Encoder.cachedEntries, hc, Option.map_some, Option.getD_some, Cache.size,
    ← List.length_map (·.1), ← List.toFinset_card_of_nodup hnodup, hset,
    Finset.card_image_of_injOn hinj]

/-- As long as nothing is forgotten, a cache that starts empty counts the states that it has been
asked for. -/
theorem cachedEntries_encodeWindow (h : e.Counts []) (hdigest : TellsApart e.digest played)
    (hcache : e.cache ≠ none) (hretains : e.Retains played) :
    (e.encodeWindow played).2.cachedEntries = played.toFinset.card := by
  have hcounts : (e.encodeWindow played).2.Counts played := h.encodeWindow hretains
  obtain ⟨cache, heq, hnone⟩ := e.encodeWindow_snd played
  rw [heq] at hcounts ⊢
  exact hcounts.cachedEntries hdigest fun h => hcache (hnone.1 h)

end Encoder

end DialogueWindows
