import DialogueWindows.Domain
import DialogueWindows.EntityTag
import DialogueWindows.History
import DialogueWindows.Segmentation
import DialogueWindows.State.Json
import DialogueWindows.Visibility

/-! # Training examples

`trainingExamples` turns one dialogue into labelled windows, `predictionWindow` into the window at
its end. `deduplicate` keeps the first of all examples with one window and label, which it tells by
their digest. -/

namespace DialogueWindows

/-- What the work on one dialogue depends on besides the dialogue. -/
structure Context where
  vocabulary : Vocabulary
  tagger : Option EntityTagger
  maxHistory : Option Nat
  /-- The digest that stands for a text. -/
  digest : String → String

structure TrainingExample where
  dialogueId : String
  window : Window
  labelAction : String
  /-- The index of the labelling action. -/
  label : Nat
  /-- One list of tags for each state of the window. -/
  entityTags : List (List String)
  contentHash : String
deriving DecidableEq

/-- The digest of the compact text of a window and its label. -/
def exampleHash (digest : String → String) (window : Window) (label : String) : String :=
  digest (Json.array [Window.toJson window, .string label]).compact

/-- The example of one window; fails if the label is not in the vocabulary. -/
def TrainingExample.ofWindow (ctx : Context) (dialogueId : String) (turns : List Turn)
    (w : LabelledWindow) : Except Failure TrainingExample := do
  let label ← ctx.vocabulary.label w.label
  return {
    dialogueId
    window := w.window
    labelAction := w.label
    label
    entityTags := DialogueWindows.entityTags ctx.tagger (w.span.slice turns)
    contentHash := exampleHash ctx.digest w.window w.label }

/-- The turns of a dialogue that are visible. -/
def visibleTurns (ctx : Context) (v : Visibility) (d : Dialogue) : Except Failure (List Turn) := do
  return visible v (← segment d.events ctx.vocabulary.fallback)

/-- The examples of a dialogue, or its first failure. -/
def trainingExamples (ctx : Context) (v : Visibility) (d : Dialogue) :
    Except Failure (List TrainingExample) := do
  let turns ← visibleTurns ctx v d
  (labelledWindows turns ctx.maxHistory).mapM (TrainingExample.ofWindow ctx d.id turns)

/-- The window at the end of a dialogue with the tags of its turns. -/
def predictionWindow (ctx : Context) (v : Visibility) (d : Dialogue) :
    Except Failure (Window × List (List String)) := do
  let turns ← visibleTurns ctx v d
  let span := finalSpan turns ctx.maxHistory
  return (windowAt turns span, entityTags ctx.tagger (span.slice turns))

/-- The examples whose digest is not in `seen` and not that of an earlier one. -/
def deduplicateFrom (seen : List String) : List TrainingExample → List TrainingExample
  | [] => []
  | e :: rest =>
    if e.contentHash ∈ seen then deduplicateFrom seen rest
    else e :: deduplicateFrom (e.contentHash :: seen) rest

def deduplicate (examples : List TrainingExample) : List TrainingExample :=
  deduplicateFrom [] examples

end DialogueWindows
