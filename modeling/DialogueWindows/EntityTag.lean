import DialogueWindows.Text.Token
import DialogueWindows.Turn

/-! # Entity tags

A tagger gives the tokens of a turn's message the entities they belong to. `spanTagger` takes the
first span of the message that overlaps the token. -/

namespace DialogueWindows

abbrev EntityTagger := Turn → List String

/-- The tag of a token outside any entity. -/
def noEntity : String := "O"

namespace EntitySpan

def overlaps (span : EntitySpan) (token : Text.Token) : Bool :=
  token.start < span.stop && span.start < token.stop

/-- The entity of the first span that overlaps the token. -/
def tag (spans : List EntitySpan) (token : Text.Token) : String :=
  match spans.find? (·.overlaps token) with
  | some span => span.entity
  | none => noEntity

end EntitySpan

/-- One tag for each token of a message with text and entities. Messages with an intent are left
untagged if `endToEndOnly`. -/
def Utterance.tags (endToEndOnly : Bool) (u : Utterance) : List String :=
  if endToEndOnly && !u.isEndToEnd then []
  else
    match u.text with
    | none => []
    | some text =>
      if u.entities.isEmpty then [] else (Text.tokens text).map (EntitySpan.tag u.entities)

def spanTagger (endToEndOnly : Bool) : EntityTagger := fun t =>
  match t.utterance with
  | none => []
  | some u => u.tags endToEndOnly

/-- The tags of each turn, none at all without a tagger. -/
def entityTags (tagger : Option EntityTagger) (turns : List Turn) : List (List String) :=
  turns.map fun t => (tagger.map (· t)).getD []

end DialogueWindows
