import DialogueWindows.Config.Json
import DialogueWindows.Config.Load
import DialogueWindows.Domain.Json
import DialogueWindows.Engine
import DialogueWindows.EventStore
import DialogueWindows.Feature.Json
import DialogueWindows.Release
import DialogueWindows.Turn.Json
import DialogueWindows.Proofs.Dictionary
import DialogueWindows.Proofs.State
import DialogueWindows.Proofs.Distinct
import DialogueWindows.Proofs.Knowledge
import DialogueWindows.Proofs.Run
import DialogueWindows.Proofs.Turns
import DialogueWindows.Proofs.Refusal
import DialogueWindows.Proofs.Windows
import DialogueWindows.Proofs.Agreement
import DialogueWindows.Proofs.Lexeme
import DialogueWindows.Proofs.Nesting
import DialogueWindows.Proofs.ReadBack
import DialogueWindows.Proofs.StateText
import DialogueWindows.Proofs.Deduplication
import DialogueWindows.Proofs.Isolation
import DialogueWindows.Proofs.Changes
import DialogueWindows.Proofs.Overwriting
import DialogueWindows.Proofs.Vectors
import DialogueWindows.Proofs.OneHot
import DialogueWindows.Proofs.ShownNames
import DialogueWindows.Proofs.Caching
import DialogueWindows.Proofs.Calls
import DialogueWindows.Proofs.RuleRuns
import DialogueWindows.Proofs.Shown
import DialogueWindows.Proofs.Decoding
import DialogueWindows.Proofs.LogReading
import DialogueWindows.Proofs.Alignment
import DialogueWindows.Proofs.ValueReading
import DialogueWindows.Proofs.Bounds
import DialogueWindows.Proofs.Overrides
import DialogueWindows.Proofs.Written
import DialogueWindows.Proofs.Loading
import DialogueWindows.Proofs.Unseen
import DialogueWindows.Proofs.Visibility
import DialogueWindows.Proofs.Fallback
import DialogueWindows.Proofs.Repetition
import DialogueWindows.Proofs.ActionIndices
import DialogueWindows.Proofs.Tokens
import DialogueWindows.Proofs.Tagging
import DialogueWindows.Proofs.Sameness
import DialogueWindows.Proofs.SlotValues
import DialogueWindows.Proofs.Recording
import DialogueWindows.Proofs.Spelling
import DialogueWindows.Proofs.Variables
import DialogueWindows.Proofs.Padding
