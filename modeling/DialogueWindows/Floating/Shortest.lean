import DialogueWindows.Floating.Binary

/-! # Shortest decimals

The text of a double has the fewest digits that determine it, of those decimals the one nearest to
it, a tie going to the even last digit. The search is over exact natural numbers: on the grid of `n`
digits only the two neighbours of the number can lie in the interval of reals that round to it. -/

namespace DialogueWindows.Floating

/-- The number of decimal digits of a natural number, 1 for zero. -/
def digitCount (n : Nat) : Nat :=
  (Nat.toDigits 10 n).length

/-- The numerator and denominator of `num / den * 10 ^ exponent`. -/
def scaleByTen (num den : Nat) (exponent : Int) : Nat × Nat :=
  match exponent with
  | .ofNat n => (num * Nat.pow 10 n, den)
  | .negSucc n => (num, den * Nat.pow 10 (n + 1))

/-- The reals that round to a double: those between `low / den` and `high / den`, with the ends if
`closed`; the double itself is `value / den`. -/
structure Interval where
  low : Nat
  value : Nat
  high : Nat
  den : Nat
  closed : Bool

namespace Interval

/-- The interval of the double `significand * 2 ^ exponent`. Below a power of two the gap to the
next double is half as wide, unless the doubles are at their finest there. -/
def ofDouble (significand : Nat) (exponent : Int) : Interval :=
  let room : Int := (Format.double.precision - 1 : Nat) - (significand.log2 : Int)
  let shift := min room (exponent - Format.double.minExponent)
  let m := significand <<< shift.toNat
  let e := exponent - shift
  let narrow := m = 1 <<< (Format.double.precision - 1) ∧ Format.double.minExponent < e
  let unit := scaleByTwo 1 1 (e - 2)
  { low := (4 * m - if narrow then 1 else 2) * unit.1
    value := 4 * m * unit.1
    high := (4 * m + 2) * unit.1
    den := unit.2
    closed := m % 2 = 0 }

/-- Whether the decimal `c * 10 ^ k` lies in the interval. -/
def holds (i : Interval) (c : Nat) (k : Int) : Bool :=
  let p := scaleByTen c 1 k
  let lower := i.low * p.2
  let upper := i.high * p.2
  let point := p.1 * i.den
  if i.closed then lower ≤ point && point ≤ upper else lower < point && point < upper

/-- The exponent of the first decimal digit of the double. -/
def leadingExponent (i : Interval) : Int :=
  if i.den ≤ i.value then (digitCount (i.value / i.den) : Int) - 1
  else
    let inverse := i.den / i.value
    let n := digitCount inverse
    if i.den = i.value * Nat.pow 10 (n - 1) then 1 - (n : Int) else -(n : Int)

/-- The decimal of `n` digits in the interval that is nearest to the double, as digits and the
exponent of the last of them. -/
def nearest? (i : Interval) (n : Nat) : Option (Nat × Int) :=
  let k := i.leadingExponent - (n : Int) + 1
  let scaled := scaleByTen i.value i.den (-k)
  let c := scaled.1 / scaled.2
  let twice := 2 * (scaled.1 % scaled.2)
  let below := i.holds c k
  let above := i.holds (c + 1) k
  let preferAbove := scaled.2 < twice || (twice = scaled.2 && c % 2 = 1)
  if below && above then some (if preferAbove then c + 1 else c, k)
  else if below then some (c, k)
  else if above then some (c + 1, k)
  else none

/-- The shortest decimal in the interval; seventeen digits always suffice. -/
def shortest (i : Interval) : Nat × Int :=
  ((List.range 17).findSome? fun n => i.nearest? (n + 1)).getD (0, 0)

end Interval

/-- How a double is laid out: the exponents of the first digit that are written positionally, all
others get a signed exponent behind the digits. -/
structure Layout where
  leastPlain : Int
  plainBelow : Int

/-- From 1e-5 up to but not including 1e16 no exponent is written. -/
def Layout.standard : Layout := ⟨-5, 16⟩

namespace Layout

/-- Digits without the zeros at their end, keeping one digit. -/
def stripZeros (digits : List Char) : List Char :=
  (digits.reverse.dropWhile (· = '0')).reverse

def pointed (whole fraction : List Char) : List Char :=
  whole ++ '.' :: (if fraction.isEmpty then ['0'] else fraction)

/-- The text of the decimal whose digits are `digits` and whose first digit has the exponent `e`. -/
def write (layout : Layout) (digits : List Char) (e : Int) : List Char :=
  if layout.leastPlain ≤ e ∧ e < layout.plainBelow then
    if 0 ≤ e then
      let n := e.toNat + 1
      pointed (digits.take n ++ List.replicate (n - digits.length) '0') (digits.drop n)
    else
      pointed ['0'] (List.replicate (-e - 1).toNat '0' ++ digits)
  else
    let fraction := digits.drop 1
    digits.take 1 ++ (if fraction.isEmpty then [] else '.' :: fraction) ++
      ['e', if e < 0 then '-' else '+'] ++ Nat.toDigits 10 e.natAbs

end Layout

namespace Binary

/-- The text of a double; an infinity has none of its own and is written as `inf`. -/
def toChars : Binary → List Char
  | finite negative m e =>
    let sign := if negative then ['-'] else []
    if m = 0 then sign ++ ['0', '.', '0']
    else
      let d := (Interval.ofDouble m e).shortest
      let digits := Nat.toDigits 10 d.1
      sign ++ Layout.standard.write (Layout.stripZeros digits) (d.2 + digits.length - 1)
  | infinite negative => if negative then ['-', 'i', 'n', 'f'] else ['i', 'n', 'f']

end Binary

end DialogueWindows.Floating
