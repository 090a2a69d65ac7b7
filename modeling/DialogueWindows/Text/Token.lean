/-! # Blanks and tokens

The characters that separate words are those with the Unicode property `White_Space`. `trim` takes
them off both ends of a text. A token is a maximal run of other characters, given by the positions,
counted in characters, where it starts and where it has ended. -/

namespace DialogueWindows.Text

/-- The ranges of the property `White_Space`, ends included. -/
def blankRanges : List (Nat × Nat) :=
  [(0x09, 0x0d), (0x20, 0x20), (0x85, 0x85), (0xa0, 0xa0), (0x1680, 0x1680), (0x2000, 0x200a),
    (0x2028, 0x2029), (0x202f, 0x202f), (0x205f, 0x205f), (0x3000, 0x3000)]

def isBlank (c : Char) : Bool :=
  blankRanges.any fun r => r.1 ≤ c.toNat && c.toNat ≤ r.2

/-- The characters without the blanks before the first and after the last that is not blank. -/
def trimChars (cs : List Char) : List Char :=
  ((cs.dropWhile isBlank).reverse.dropWhile isBlank).reverse

def trim (s : String) : String :=
  String.ofList (trimChars s.toList)

/-- A text that shows nothing: empty, or blank throughout. -/
def isVoid (s : String) : Bool :=
  s.toList.all isBlank

/-! ### Tokens -/

/-- The characters at the positions `start ≤ p < stop` of a text. -/
structure Token where
  start : Nat
  stop : Nat
deriving DecidableEq, Repr

namespace Token

/-- The tokens of `cs`, whose first character stands at `position`; `opened` is where the token that
runs into `cs` started, if one does. -/
def scan (position : Nat) (opened : Option Nat) : List Char → List Token
  | [] => opened.toList.map fun start => ⟨start, position⟩
  | c :: cs =>
    if isBlank c then
      (opened.toList.map fun start => ⟨start, position⟩) ++ scan (position + 1) none cs
    else
      scan (position + 1) (some (opened.getD position)) cs

end Token

/-- The tokens of a text, from left to right. -/
def tokens (text : String) : List Token :=
  Token.scan 0 none text.toList

end DialogueWindows.Text
