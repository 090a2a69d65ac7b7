import DialogueWindows.Engine
import DialogueWindows.Proofs.Caching

/-! # Calls of an engine

A call changes nothing of an engine but what its cache has learned from the states that the call
encodes (`Engine.call_snd`), and the cache shows in no answer. So an engine answers a sequence of
calls as a new engine without a cache answers each of them (`Engine.run_eq_fresh`). -/

namespace DialogueWindows

namespace Engine
variable {e : Engine} {states : List State}

/-- The engine with another cache. -/
def withCache (e : Engine) (cache : Option Cache) : Engine :=
  { e with encoder := { e.encoder with cache } }

/-- The windows that a call encodes. -/
def windowsOf (e : Engine) : Call → List Window
  | .featurize hide ds => (e.trainingStates hide ds).data.windows
  | .features v ds => (e.predictionStates v ds).data.windows
  | .training _ _ | .prediction _ _ | .sequence _ _ => []

/-- The states that calls encode, in order. -/
def encoded (e : Engine) (calls : List Call) : List State :=
  calls.flatMap fun c => (e.windowsOf c).flatten

/-- The engine after some calls. -/
def after (e : Engine) (calls : List Call) : Engine :=
  calls.foldl (fun e c => (e.call c).2) e

/-- The states of some windows in the order in which the encoder is asked for them. -/
def requests (e : Engine) (ws : List Window) : List State :=
  if e.config.parallel then (e.pool.interleave e.encoder.history ws).map (·.2) else ws.flatten

/-- The states that calls encode, in the order in which the encoder is asked for them. -/
def asked (e : Engine) : List Call → List State
  | [] => []
  | c :: rest => e.requests (e.windowsOf c) ++ (e.call c).2.asked rest

theorem asks_interleave (e : Engine) (ws : List Window) :
    Encoder.Asks (e.pool.interleave e.encoder.history ws) ws :=
  e.pool.filter_interleave e.encoder.history ws

theorem mem_requests {ws : List Window} {s : State} : s ∈ e.requests ws ↔ s ∈ ws.flatten := by
  unfold requests
  split
  · exact (e.asks_interleave ws).mem_iff
  · rfl

theorem requests_nil (e : Engine) : e.requests [] = [] :=
  List.eq_nil_iff_forall_not_mem.2 fun _ hs => List.not_mem_nil (mem_requests.1 hs)

theorem encodeWindows_snd (e : Engine) (ws : List Window) :
    (e.encodeWindows ws).2 = (e.encoder.encodeWindow (e.requests ws)).2 := by
  unfold encodeWindows requests
  split
  · rfl
  · exact e.encoder.encodeWindows_snd ws

theorem call_snd (e : Engine) (c : Call) : (e.call c).2 =
    { e with encoder := (e.encoder.encodeWindow (e.requests (e.windowsOf c))).2 } := by
  cases c with
  | training | prediction | sequence =>
    show e = { e with encoder := (e.encoder.encodeWindow (e.requests [])).2 }
    rw [requests_nil]
    rfl
  | featurize | features =>
    rw [← encodeWindows_snd]
    rfl

theorem exists_call_snd (e : Engine) (c : Call) : ∃ cache, (e.call c).2 = e.withCache cache := by
  obtain ⟨cache, hcache, -⟩ := e.encoder.encodeWindow_snd (e.requests (e.windowsOf c))
  exact ⟨cache, by rw [call_snd, hcache]; rfl⟩

theorem exists_after (e : Engine) (calls : List Call) :
    ∃ cache, e.after calls = e.withCache cache := by
  induction calls generalizing e with
  | nil => exact ⟨e.encoder.cache, rfl⟩
  | cons c rest ih =>
    obtain ⟨cache, hcache⟩ := e.exists_call_snd c
    obtain ⟨cache', hcache'⟩ := ih (e.withCache cache)
    exact ⟨cache', by rw [after, List.foldl_cons, hcache]; exact hcache'⟩

theorem after_encoder (e : Engine) (calls : List Call) :
    (e.after calls).encoder = (e.encoder.encodeWindow (e.asked calls)).2 := by
  induction calls generalizing e with
  | nil => rfl
  | cons c rest ih =>
    show ((e.call c).2.after rest).encoder = _
    rw [ih, asked, Encoder.encodeWindow_append, call_snd]

/-- What a call encodes does not depend on the cache. -/
theorem windowsOf_withCache (e : Engine) (cache : Option Cache) (c : Call) :
    (e.withCache cache).windowsOf c = e.windowsOf c := by
  cases c <;> rfl

theorem encoded_withCache (e : Engine) (cache : Option Cache) (calls : List Call) :
    (e.withCache cache).encoded calls = e.encoded calls := by
  simp only [encoded, windowsOf_withCache]

theorem mem_asked {calls : List Call} {s : State} : s ∈ e.asked calls ↔ s ∈ e.encoded calls := by
  induction calls generalizing e with
  | nil => rfl
  | cons c rest ih =>
    obtain ⟨cache, hcache⟩ := e.exists_call_snd c
    have hrest : (e.call c).2.encoded rest = e.encoded rest := by rw [hcache, encoded_withCache]
    rw [asked, List.mem_append, mem_requests, ih, hrest]
    exact List.mem_append.symm

/-! ### Answers -/

/-- The engine gives the states of some windows the encodings that they have without a cache. -/
def Encodes (e : Engine) (ws : List Window) : Prop :=
  (e.encodeWindows ws).1 = ws.map fun w => w.map e.encoder.oneHot.encode

theorem encodes (h : e.encoder.Holds states) (hdigest : TellsApart e.encoder.digest states)
    {ws : List Window} (hws : ws.flatten ⊆ states) : e.Encodes ws := by
  have hasks := e.asks_interleave ws
  unfold Encodes encodeWindows
  split
  · exact hasks.encodeAsked_fst (h.encodeWindow hdigest fun s hs => hws (hasks.mem_iff.1 hs)).1
  · exact h.encodes hdigest hws

theorem encodes_of_none (h : e.encoder.cache = none) (ws : List Window) : e.Encodes ws := by
  have hasks := e.asks_interleave ws
  unfold Encodes encodeWindows
  split
  · exact hasks.encodeAsked_fst (congrArg Prod.fst (Encoder.encodeWindow_of_none h _))
  · exact Encoder.encodes_of_none h ws

theorem call_featurize {hide : Bool} {ds : List Dialogue}
    (h : e.Encodes (e.trainingStates hide ds).data.windows) :
    (e.call (.featurize hide ds)).1 = .featurize ((e.trainingStates hide ds).map fun s =>
      ⟨s, s.windows.map fun w => w.map e.encoder.oneHot.encode⟩) :=
  congrArg (fun features => Answer.featurize ((e.trainingStates hide ds).map fun s => ⟨s, features⟩)) h

theorem call_features {v : Visibility} {ds : List Dialogue}
    (h : e.Encodes (e.predictionStates v ds).data.windows) :
    (e.call (.features v ds)).1 = .features ((e.predictionStates v ds).map fun s =>
      s.windows.map fun w => w.map e.encoder.oneHot.encode) :=
  congrArg (fun features => Answer.features ((e.predictionStates v ds).map fun _ => features)) h

/-- An answer does not show whether there is a cache. -/
theorem call_fst_eq (h : e.encoder.Holds states) (hdigest : TellsApart e.encoder.digest states)
    {c : Call} (hsub : (e.windowsOf c).flatten ⊆ states) :
    (e.call c).1 = ((e.withCache none).call c).1 := by
  cases c with
  | training | prediction | sequence => rfl
  | featurize hide ds =>
    rw [call_featurize (encodes h hdigest hsub), call_featurize (encodes_of_none rfl _)]
    rfl
  | features v ds =>
    rw [call_features (encodes h hdigest hsub), call_features (encodes_of_none rfl _)]
    rfl

theorem run_eq (h : e.encoder.Holds states) (hdigest : TellsApart e.encoder.digest states)
    {calls : List Call} (hsub : e.encoded calls ⊆ states) :
    e.run calls = calls.map fun c => ((e.withCache none).call c).1 := by
  induction calls generalizing e with
  | nil => rfl
  | cons c rest ih =>
    obtain ⟨hfirst, hrest⟩ := List.append_subset.1
      (show (e.windowsOf c).flatten ++ e.encoded rest ⊆ states from hsub)
    obtain ⟨cache, hcache⟩ := e.exists_call_snd c
    have hholds : (e.call c).2.encoder.Holds states := by
      rw [call_snd]
      exact (h.encodeWindow hdigest fun s hs => hfirst (mem_requests.1 hs)).2
    have hmore : (e.call c).2.run rest = rest.map fun c => ((e.withCache none).call c).1 := by
      rw [hcache] at hholds ⊢
      exact ih hholds hdigest (by rwa [encoded_withCache])
    rw [run, hmore, call_fst_eq h hdigest hfirst, List.map_cons]

/-! ### Engines of a domain -/

section OfDomain
variable {runtime : Runtime} {config : Config} {domain : Domain}
  {tagger : Option EntityTagger}

theorem ofDomain_eq_ok_iff :
    ofDomain runtime config domain tagger = .ok e ↔
      config.featurizer.validate = .ok () ∧ e = {
        config := config.featurizer
        vocabulary := domain.vocabulary
        tagger
        encoder := {
          oneHot := .ofDomain domain
          digest := Blake3.hexDigest
          cache := if config.encoder.cacheCapacity = 0 then none
            else some (.empty (runtime.retention config.encoder.cacheCapacity)) }
        pool := runtime.pool } := by
  unfold ofDomain
  cases config.featurizer.validate with
  | error failure => simp
  | ok u => simp [eq_comm]

theorem encoder_ofDomain (h : ofDomain runtime config domain tagger = .ok e) :
    e.encoder.digest = Blake3.hexDigest ∧ e.encoder.oneHot = .ofDomain domain ∧
      (e.encoder.cache = none ↔ config.encoder.cacheCapacity = 0) := by
  obtain ⟨-, rfl⟩ := ofDomain_eq_ok_iff.1 h
  refine ⟨rfl, rfl, ?_⟩
  split <;> simp [*]

theorem ofDomain_withCache_none (h : ofDomain runtime config domain tagger = .ok e) :
    ofDomain runtime { config with encoder := ⟨0⟩ } domain tagger = .ok (e.withCache none) := by
  obtain ⟨hvalid, rfl⟩ := ofDomain_eq_ok_iff.1 h
  exact ofDomain_eq_ok_iff.2 ⟨hvalid, rfl⟩

theorem entries_ofDomain (h : ofDomain runtime config domain tagger = .ok e) {c : Cache}
    (hc : e.encoder.cache = some c) : c.entries = [] := by
  obtain ⟨-, rfl⟩ := ofDomain_eq_ok_iff.1 h
  simp only [Option.ite_none_left_eq_some, Option.some.injEq] at hc
  obtain ⟨-, rfl⟩ := hc
  rfl

theorem holds_ofDomain (h : ofDomain runtime config domain tagger = .ok e)
    (states : List State) : e.encoder.Holds states := by
  intro c hc x hx
  rw [entries_ofDomain h hc] at hx
  cases hx

theorem counts_ofDomain (h : ofDomain runtime config domain tagger = .ok e) :
    e.encoder.Counts [] := by
  intro c hc
  rw [entries_ofDomain h hc]
  exact ⟨List.nodup_nil, fun hash => by simp⟩

/-- Whatever the cache forgets and in whatever order it is asked, an engine answers calls as a new
engine without a cache answers each of them. What it encodes are the windows, state by state. A
cache that forgets nothing counts the states that have been encoded. -/
theorem run_eq_fresh (runtime : Runtime) (config : Config) (domain : Domain)
    (tagger : Option EntityTagger) (calls : List Call)
    (h : ofDomain runtime config domain tagger = .ok e)
    (hdigest : TellsApart Blake3.hexDigest (e.encoded calls)) :
    ∃ fresh, ofDomain runtime { config with encoder := ⟨0⟩ } domain tagger = .ok fresh ∧
      e.run calls = calls.map (fun c => (fresh.call c).1) ∧
      (∀ hide ds, (fresh.call (.featurize hide ds)).1 =
        .featurize ((e.trainingStates hide ds).map fun s =>
          ⟨s, s.windows.map fun w => w.map (OneHot.ofDomain domain).encode⟩)) ∧
      (∀ v ds, (fresh.call (.features v ds)).1 =
        .features ((e.predictionStates v ds).map fun s =>
          s.windows.map fun w => w.map (OneHot.ofDomain domain).encode)) ∧
      (∀ requests, requests ⊆ e.encoded calls →
        (e.encoder.encodeWindow requests).1 = requests.map (OneHot.ofDomain domain).encode) ∧
      (∀ s, s ∈ e.asked calls ↔ s ∈ e.encoded calls) ∧
      (config.encoder.cacheCapacity ≠ 0 → e.encoder.Retains (e.asked calls) →
        (e.after calls).encoder.cachedEntries = (e.encoded calls).toFinset.card) := by
  have hholds := holds_ofDomain h (e.encoded calls)
  have hcounts := counts_ofDomain h
  obtain ⟨hdigest', honeHot, hcache⟩ := encoder_ofDomain h
  rw [← hdigest'] at hdigest
  rw [← honeHot]
  refine ⟨e.withCache none, ofDomain_withCache_none h, run_eq hholds hdigest (List.Subset.refl _),
    fun hide ds => ?_, fun v ds => ?_, fun requests hsub => ?_, fun s => mem_asked,
    fun hcapacity hretains => ?_⟩
  · exact call_featurize (encodes_of_none rfl _)
  · exact call_features (encodes_of_none rfl _)
  · exact (hholds.encodeWindow hdigest hsub).1
  · have hset : (e.asked calls).toFinset = (e.encoded calls).toFinset := by
      ext s
      rw [List.mem_toFinset, List.mem_toFinset, mem_asked]
    have hasked : TellsApart e.encoder.digest (e.asked calls) := fun s hs t ht =>
      hdigest s (mem_asked.1 hs) t (mem_asked.1 ht)
    rw [after_encoder, ← hset]
    exact Encoder.cachedEntries_encodeWindow hcounts hasked (fun h => hcapacity (hcache.1 h))
      hretains

end OfDomain

/-- Five requests for two states, by an engine whose cache keeps all entries. -/
theorem run_eq_fresh_greeting :
    let runtime : Runtime := ⟨fun _ => ⟨fun _ entries => entries, fun _ _ _ h => h⟩, .inOrder⟩
    let domain : Domain := { Domain.empty with intents := ["greet"] }
    let d : Dialogue := ⟨"d", [.actionExecuted ⟨Action.listen, none, false, false⟩,
      .userUttered ⟨some "greet", [], none⟩]⟩
    let calls : List Call := [.featurize false [d], .features ⟨false, false⟩ [d, d]]
    ∃ e fresh, ofDomain runtime .default domain none = .ok e ∧
      ofDomain runtime { Config.default with encoder := ⟨0⟩ } domain none = .ok fresh ∧
      e.run calls = calls.map (fun c => (fresh.call c).1) ∧
      (e.after calls).encoder.cachedEntries = 2 := by
  intro runtime domain d calls
  obtain ⟨e, he⟩ : ∃ e, ofDomain runtime .default domain none = .ok e := ⟨_, rfl⟩
  let greeted := (State.empty.set .previousAction Attribute.actionName (.text Action.listen)).set
    .user Attribute.intent (.text "greet")
  have hencoded : e.encoded calls = [.empty, .empty, greeted, .empty, greeted] := by
    obtain ⟨-, rfl⟩ := ofDomain_eq_ok_iff.1 he
    decide +kernel
  have hne : Blake3.hexDigest State.empty.toJson.compact ≠
      Blake3.hexDigest greeted.toJson.compact := by
    decide +kernel
  have hdigest : TellsApart Blake3.hexDigest (e.encoded calls) := by
    have hall : ∀ s ∈ e.encoded calls, s = .empty ∨ s = greeted := by
      rw [hencoded]
      simp
    intro s hs t ht h
    rcases hall s hs with rfl | rfl <;> rcases hall t ht with rfl | rfl
    · rfl
    · exact absurd h hne
    · exact absurd h.symm hne
    · rfl
  obtain ⟨fresh, hfresh, hrun, -, -, -, -, hcount⟩ :=
    run_eq_fresh runtime .default domain none calls he hdigest
  refine ⟨e, fresh, he, hfresh, hrun, (hcount (by decide) ?_).trans ?_⟩
  · refine Encoder.retains_of_keep (fun c hc requests entries => ?_) _
    obtain ⟨-, rfl⟩ := ofDomain_eq_ok_iff.1 he
    obtain rfl : Cache.empty _ = c := Option.some.inj hc
    exact .refl _
  · rw [hencoded]
    decide +kernel

end Engine

end DialogueWindows
