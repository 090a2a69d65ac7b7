import DialogueWindows.Config
import DialogueWindows.Digest.Blake3
import DialogueWindows.Encoding.Cache
import DialogueWindows.Example
import DialogueWindows.Failure

/-! # The engine

An engine works on batches of dialogues. A dialogue that fails is reported and contributes nothing,
the rest of the batch is not affected; all answers are in the order of the batch. Between calls an
engine keeps nothing but its cache.

If it is configured to work in parallel, it has one task for each dialogue and one for each window
to be encoded. A `Pool` runs them. Tasks for dialogues are independent of each other; tasks for
windows share the cache, which is asked for one state at a time. -/

namespace DialogueWindows

/-- Training windows with what belongs to them, as lists side by side. -/
structure TrainingStates where
  windows : List Window
  labels : List Nat
  entityTags : List (List (List String))
  dialogueIds : List String
deriving DecidableEq

namespace TrainingStates

def ofExamples (examples : List TrainingExample) : TrainingStates where
  windows := examples.map (·.window)
  labels := examples.map (·.label)
  entityTags := examples.map (·.entityTags)
  dialogueIds := examples.map (·.dialogueId)

def size (s : TrainingStates) : Nat :=
  s.labels.length

def isEmpty (s : TrainingStates) : Bool :=
  s.labels.isEmpty

end TrainingStates

/-- Training windows with the encodings of their states. -/
structure TrainingData where
  states : TrainingStates
  features : List (List EncodedState)
deriving DecidableEq

/-- The windows at the ends of dialogues with what belongs to them. -/
structure PredictionStates where
  windows : List Window
  entityTags : List (List (List String))
  dialogueIds : List String
deriving DecidableEq

/-! ### Working in parallel -/

/-- How tasks are run in parallel. -/
structure Pool where
  /-- The results of one task for each element of a list. -/
  map : {α β : Type} → (α → β) → List α → List β
  /-- A result stands where its element stood, whenever its task was done. -/
  getElem?_map : ∀ {α β : Type} (f : α → β) (xs : List α) (i : Nat), (map f xs)[i]? = xs[i]?.map f
  /-- The order in which tasks that encode windows ask a shared cache for their states, each state
  with the position of its window. It may depend on what the cache has been asked before. -/
  interleave : List String → List Window → List (Nat × State)
  /-- Each task asks for the states of its window one after the other, and there are no others. -/
  filter_interleave : ∀ (history : List String) (ws : List Window) (i : Nat),
    ((interleave history ws).filter (·.1 == i)).map (·.2) = ws[i]?.getD []

namespace Pool

theorem filter_zipIdx {α : Type} (xss : List (List α)) (k i : Nat) :
    (((xss.zipIdx k).flatMap fun xs => xs.1.map (xs.2, ·)).filter (·.1 == i)).map (·.2) =
      if k ≤ i then xss[i - k]?.getD [] else [] := by
  induction xss generalizing k with
  | nil => simp
  | cons xs rest ih =>
    have hfirst : ((xs.map (k, ·)).filter (·.1 == i)).map (·.2) = if k = i then xs else [] := by
      by_cases hk : k = i <;> simp [List.filter_map, Function.comp_def, hk]
    rw [List.zipIdx_cons, List.flatMap_cons, List.filter_append, List.map_append, ih, hfirst]
    rcases Nat.lt_trichotomy k i with hlt | rfl | hgt
    · have hne : k ≠ i := Nat.ne_of_lt hlt
      obtain ⟨j, hj⟩ : ∃ j, i - k = j + 1 := ⟨i - k - 1, by omega⟩
      have hj' : i - (k + 1) = j := by omega
      rw [if_neg hne, if_pos (Nat.succ_le_of_lt hlt), if_pos (Nat.le_of_lt hlt), hj, hj',
        List.getElem?_cons_succ, List.nil_append]
    · rw [if_pos rfl, if_neg (Nat.not_succ_le_self k), if_pos (Nat.le_refl k), Nat.sub_self,
        List.getElem?_cons_zero, List.append_nil, Option.getD_some]
    · rw [if_neg (Nat.ne_of_gt hgt), if_neg (by omega), if_neg (Nat.not_le.2 hgt), List.nil_append]

/-- One task after the other. -/
def inOrder : Pool where
  map := List.map
  getElem?_map _ _ _ := List.getElem?_map
  interleave _ ws := ws.zipIdx.flatMap fun w => w.1.map (w.2, ·)
  filter_interleave _ ws i := (filter_zipIdx ws 0 i).trans (if_pos (Nat.zero_le i))

end Pool

/-! ### Engines -/

/-- What an engine runs on: a cache policy for each capacity, and a pool. -/
structure Runtime where
  retention : Nat → Retention
  pool : Pool

/-- Caches keep their newest entries, tasks are run in order. -/
def Runtime.newest : Runtime :=
  ⟨.newest, .inOrder⟩

structure Engine where
  config : FeaturizerConfig
  vocabulary : Vocabulary
  tagger : Option EntityTagger
  encoder : Encoder
  pool : Pool

namespace Engine

/-- The engine of a domain, with a cache unless its capacity is 0. Refuses a history bound of 0. -/
def ofDomain (runtime : Runtime) (config : Config) (domain : Domain)
    (tagger : Option EntityTagger) : Except Failure Engine :=
  match config.featurizer.validate with
  | .error failure => .error (.config failure)
  | .ok () =>
    let capacity := config.encoder.cacheCapacity
    .ok {
      config := config.featurizer
      vocabulary := domain.vocabulary
      tagger
      encoder := {
        oneHot := .ofDomain domain
        digest := Blake3.hexDigest
        cache := if capacity = 0 then none else some (.empty (runtime.retention capacity)) }
      pool := runtime.pool }

def context (e : Engine) : Context where
  vocabulary := e.vocabulary
  tagger := e.tagger
  maxHistory := e.config.maxHistory
  digest := e.encoder.digest

/-- What a stage makes of each dialogue, in parallel if so configured. -/
def mapDialogues {α : Type} (e : Engine) (stage : Dialogue → Except Failure α)
    (dialogues : List Dialogue) : List (Except Failure α) :=
  if e.config.parallel then e.pool.map stage dialogues else dialogues.map stage

/-- The encodings of windows, in parallel if so configured. -/
def encodeWindows (e : Engine) (windows : List Window) : List (List EncodedState) × Encoder :=
  if e.config.parallel then
    e.encoder.encodeAsked windows.length (e.pool.interleave e.encoder.history windows)
  else e.encoder.encodeWindows windows

/-- The examples of all dialogues that succeed, without repetitions if so configured. Rule-only
turns are never ignored in training. -/
def examples (e : Engine) (ignoreUnlikelyIntent : Bool) (dialogues : List Dialogue) :
    Batch (List TrainingExample) :=
  let visibility : Visibility := ⟨false, ignoreUnlikelyIntent⟩
  let outcomes := e.mapDialogues (trainingExamples e.context visibility) dialogues
  (Batch.collect ((dialogues.map (·.id)).zip outcomes)).map fun produced =>
    if e.config.removeDuplicates then deduplicate produced.flatten else produced.flatten

def trainingStates (e : Engine) (ignoreUnlikelyIntent : Bool) (dialogues : List Dialogue) :
    Batch TrainingStates :=
  (e.examples ignoreUnlikelyIntent dialogues).map .ofExamples

/-- Training states with the encodings of all windows. -/
def featurize (e : Engine) (ignoreUnlikelyIntent : Bool) (dialogues : List Dialogue) :
    Batch TrainingData × Engine :=
  let states := e.trainingStates ignoreUnlikelyIntent dialogues
  let encoded := e.encodeWindows states.data.windows
  (states.map fun s => ⟨s, encoded.1⟩, { e with encoder := encoded.2 })

/-- The window at the end of each dialogue that can be segmented. -/
def predictionStates (e : Engine) (visibility : Visibility) (dialogues : List Dialogue) :
    Batch PredictionStates :=
  let outcomes := e.mapDialogues (predictionWindow e.context visibility) dialogues
  let named := (dialogues.map (·.id)).zip outcomes
  (Batch.collect (named.map fun x => (x.1, x.2.map fun w => (x.1, w)))).map fun produced =>
    { windows := produced.map (·.2.1)
      entityTags := produced.map (·.2.2)
      dialogueIds := produced.map (·.1) }

def predictionSequence (e : Engine) (visibility : Visibility) (dialogues : List Dialogue) :
    Batch (List Window) :=
  (e.predictionStates visibility dialogues).map (·.windows)

/-- The encodings of the windows at the ends. -/
def stateFeatures (e : Engine) (visibility : Visibility) (dialogues : List Dialogue) :
    Batch (List (List EncodedState)) × Engine :=
  let states := e.predictionStates visibility dialogues
  let encoded := e.encodeWindows states.data.windows
  (states.map fun _ => encoded.1, { e with encoder := encoded.2 })

/-! ### Calls -/

inductive Call where
  | training (ignoreUnlikelyIntent : Bool) (dialogues : List Dialogue)
  | featurize (ignoreUnlikelyIntent : Bool) (dialogues : List Dialogue)
  | prediction (visibility : Visibility) (dialogues : List Dialogue)
  | sequence (visibility : Visibility) (dialogues : List Dialogue)
  | features (visibility : Visibility) (dialogues : List Dialogue)
deriving DecidableEq

inductive Answer where
  | training (answer : Batch TrainingStates)
  | featurize (answer : Batch TrainingData)
  | prediction (answer : Batch PredictionStates)
  | sequence (answer : Batch (List Window))
  | features (answer : Batch (List (List EncodedState)))
deriving DecidableEq

/-- The answer to a call, and the engine for the next. -/
def call (e : Engine) : Call → Answer × Engine
  | .training ignoreUnlikelyIntent dialogues =>
    (.training (e.trainingStates ignoreUnlikelyIntent dialogues), e)
  | .featurize ignoreUnlikelyIntent dialogues =>
    let r := e.featurize ignoreUnlikelyIntent dialogues
    (.featurize r.1, r.2)
  | .prediction visibility dialogues => (.prediction (e.predictionStates visibility dialogues), e)
  | .sequence visibility dialogues => (.sequence (e.predictionSequence visibility dialogues), e)
  | .features visibility dialogues =>
    let r := e.stateFeatures visibility dialogues
    (.features r.1, r.2)

/-- The answers to calls one after the other. -/
def run (e : Engine) : List Call → List Answer
  | [] => []
  | c :: rest =>
    let r := e.call c
    r.1 :: r.2.run rest

end Engine

end DialogueWindows
