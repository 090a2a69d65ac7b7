import DialogueWindows.Encoding.OneHot
import DialogueWindows.State.Json

/-! # Cached encoding

A cache keeps the encodings of states under their content hashes. After any request it may forget
some of them; as long as different states have different hashes, an encoding through it is the
encoding without it. -/

namespace DialogueWindows

/-- Which entries are kept after a request: some of them, chosen by the hashes that have been asked
for, the newest first. -/
structure Retention where
  keep : List String → List (String × EncodedState) → List (String × EncodedState)
  keep_subset : ∀ requests entries, keep requests entries ⊆ entries

namespace Retention

/-- Keeps the newest entries, at most `capacity`. -/
def newest (capacity : Nat) : Retention :=
  ⟨fun _ => List.take capacity, fun _ => List.take_subset capacity⟩

end Retention

/-- A cache with the hashes it has been asked for and its entries, the newest first. -/
structure Cache where
  retention : Retention
  requests : List String
  entries : List (String × EncodedState)

namespace Cache

def empty (retention : Retention) : Cache :=
  ⟨retention, [], []⟩

def lookup (c : Cache) (hash : String) : Option EncodedState :=
  Entries.find? hash c.entries

/-- The cache after a request for a hash, with what it keeps of some entries. -/
def settle (c : Cache) (hash : String) (entries : List (String × EncodedState)) : Cache :=
  { c with
    requests := hash :: c.requests
    entries := c.retention.keep (hash :: c.requests) entries }

def size (c : Cache) : Nat :=
  c.entries.length

end Cache

/-- A one-hot encoder, behind a cache if there is one. -/
structure Encoder where
  oneHot : OneHot
  digest : String → String
  cache : Option Cache

namespace Encoder

/-- The encoding of a state, and the encoder with what its cache has learned. -/
def encode (e : Encoder) (s : State) : EncodedState × Encoder :=
  match e.cache with
  | none => (e.oneHot.encode s, e)
  | some cache =>
    let hash := s.contentHash e.digest
    match cache.lookup hash with
    | some encoded => (encoded, { e with cache := some (cache.settle hash cache.entries) })
    | none =>
      let encoded := e.oneHot.encode s
      (encoded, { e with cache := some (cache.settle hash ((hash, encoded) :: cache.entries)) })

/-- The encodings of states one after the other. -/
def encodeWindow (e : Encoder) : Window → List EncodedState × Encoder
  | [] => ([], e)
  | s :: rest =>
    let first := e.encode s
    let more := first.2.encodeWindow rest
    (first.1 :: more.1, more.2)

def encodeWindows (e : Encoder) : List Window → List (List EncodedState) × Encoder
  | [] => ([], e)
  | w :: rest =>
    let first := e.encodeWindow w
    let more := first.2.encodeWindows rest
    (first.1 :: more.1, more.2)

/-- The hashes that the cache has been asked for, the newest first. -/
def history (e : Encoder) : List String :=
  (e.cache.map (·.requests)).getD []

/-- The encodings of `n` windows whose states are asked for in some order, each with the position of
its window. A window gets its encodings in the order in which it asked. -/
def encodeAsked (e : Encoder) (n : Nat) (asked : List (Nat × State)) :
    List (List EncodedState) × Encoder :=
  let encoded := e.encodeWindow (asked.map (·.2))
  let answers := (asked.map (·.1)).zip encoded.1
  ((List.range n).map fun i => (answers.filter (·.1 == i)).map (·.2), encoded.2)

/-- The number of cached encodings. -/
def cachedEntries (e : Encoder) : Nat :=
  (e.cache.map (·.size)).getD 0

end Encoder

end DialogueWindows
