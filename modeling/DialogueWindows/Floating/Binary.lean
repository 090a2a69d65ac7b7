/-! # Binary floating-point numbers

A `Binary` is a number of a binary floating-point format, written as an odd significand times a
power of two, so that one number has one form whatever format it belongs to. `round` takes an exact
quotient to the nearest number of a format, a tie to the one whose significand is even there. -/

namespace DialogueWindows.Floating

/-- A binary format: the bits of a significand, the exponent of its least positive number, and the
power of two below which its numbers lie. -/
structure Format where
  precision : Nat
  minExponent : Int
  maxExponent : Int

def Format.double : Format := ⟨53, -1074, 1024⟩

def Format.single : Format := ⟨24, -149, 128⟩

/-- A floating-point number: `± significand * 2 ^ exponent` or an infinity. Zero has exponent 0,
every other significand is odd. -/
inductive Binary where
  | finite (negative : Bool) (significand : Nat) (exponent : Int)
  | infinite (negative : Bool)
deriving DecidableEq, Repr, Inhabited

/-- The quotient to the nearest natural number, a tie to the even one. -/
def divideToEven (num den : Nat) : Nat :=
  let q := num / den
  let r := num % den
  if 2 * r < den then q else if den < 2 * r then q + 1 else q + q % 2

/-- The numerator and denominator of `num / den * 2 ^ exponent`. -/
def scaleByTwo (num den : Nat) (exponent : Int) : Nat × Nat :=
  match exponent with
  | .ofNat n => (num <<< n, den)
  | .negSucc n => (num, den <<< (n + 1))

namespace Binary

def zero : Binary := finite false 0 0

def one : Binary := finite false 1 0

/-- Takes factors of two out of a positive significand, at most `fuel` of them. -/
def oddForm : Nat → Nat → Int → Nat × Int
  | fuel + 1, m, e => if m % 2 = 0 then oddForm fuel (m / 2) (e + 1) else (m, e)
  | 0, m, e => (m, e)

/-- The number `± m * 2 ^ e`. -/
def ofScaled (negative : Bool) (m : Nat) (e : Int) : Binary :=
  if m = 0 then finite negative 0 0
  else
    let r := oddForm m.log2 m e
    finite negative r.1 r.2

/-- The exponent of the lowest bit that `num / den` keeps in a format. -/
def unitExponent (format : Format) (num den : Nat) : Int :=
  let guess : Int := (num.log2 : Int) - den.log2
  let scaled := scaleByTwo num den (-guess)
  let leading := if scaled.2 ≤ scaled.1 then guess else guess - 1
  max (leading - (format.precision - 1)) format.minExponent

/-- The number of the format nearest to `± num / den`, with a tie to the even significand; infinite
from `2 ^ maxExponent` on. -/
def round (format : Format) (negative : Bool) (num den : Nat) : Binary :=
  if num = 0 then finite negative 0 0
  else
    let unit := unitExponent format num den
    let scaled := scaleByTwo num den (-unit)
    let m := divideToEven scaled.1 scaled.2
    if format.maxExponent ≤ unit + m.log2 then infinite negative else ofScaled negative m unit

/-- The numerator and denominator of a number's magnitude. -/
def ratio (m : Nat) (e : Int) : Nat × Nat :=
  scaleByTwo m 1 e

/-- The product, rounded to the format. -/
def mul (format : Format) : Binary → Binary → Binary
  | finite s m e, finite s' m' e' =>
    let r := ratio (m * m') (e + e')
    round format (s != s') r.1 r.2
  | finite s _ _, infinite s' | infinite s, finite s' _ _ | infinite s, infinite s' =>
    infinite (s != s')

/-- The quotient by a number that is not zero, rounded to the format. -/
def div (format : Format) : Binary → Binary → Binary
  | finite s m e, finite s' m' e' =>
    let r := scaleByTwo m m' (e - e')
    round format (s != s') r.1 r.2
  | finite s _ _, infinite s' => finite (s != s') 0 0
  | infinite s, finite s' _ _ | infinite s, infinite s' => infinite (s != s')

def neg : Binary → Binary
  | finite s m e => finite (!s) m e
  | infinite s => infinite (!s)

def isZero : Binary → Bool
  | finite _ m _ => m == 0
  | infinite _ => false

def isFinite : Binary → Bool
  | finite .. => true
  | infinite _ => false

/-- The nearest number of a format. -/
def convert (format : Format) : Binary → Binary
  | finite s m e =>
    let r := ratio m e
    round format s r.1 r.2
  | infinite s => infinite s

/-- The number of a format nearest to an integer. -/
def ofInt (format : Format) (n : Int) : Binary :=
  round format (n < 0) n.natAbs 1

/-- The number of a format nearest to `10 ^ n`. -/
def powerOfTen (format : Format) (n : Nat) : Binary :=
  round format false (Nat.pow 10 n) 1

end Binary

end DialogueWindows.Floating
