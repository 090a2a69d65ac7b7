import DialogueWindows.Floating.Binary

/-! # Reading decimals

A decimal with a fraction or an exponent, or an integer beyond 64 bits, is read as a double in two
rounded steps: the leading digits, as many as fit in 64 bits, make a significand, which is then
scaled by a power of ten. Short decimals come out nearest to what is written; of long ones the last
bit may differ from the nearest double. -/

namespace DialogueWindows.Floating

/-- The greatest power of ten by which a number is scaled in one step. -/
def maxScale : Nat := 308

/-- A significand that fits in 64 bits, and the power of ten that scales it. -/
structure Scaled where
  significand : Nat
  exponent : Int
deriving DecidableEq, Repr

namespace Scaled

def fits (significand : Nat) : Bool :=
  significand < UInt64.size

/-- The digits before the point: those that fit make the significand, from the first that does not
every further digit counts as a place. -/
def takeWhole (significand : Nat) : List Nat → Scaled
  | [] => ⟨significand, 0⟩
  | d :: ds =>
    if fits (significand * 10 + d) then takeWhole (significand * 10 + d) ds
    else ⟨significand, (d :: ds).length⟩

/-- Adds the digits behind the point, up to the first that does not fit. -/
def takeFraction (s : Scaled) : List Nat → Scaled
  | [] => s
  | d :: ds =>
    if fits (s.significand * 10 + d) then
      takeFraction ⟨s.significand * 10 + d, s.exponent - 1⟩ ds
    else
      s

/-- The quotient of a number by `10 ^ n`, at most `10 ^ maxScale` at a time. -/
def scaleDown (x : Binary) (n : Nat) : Binary :=
  if n ≤ maxScale then x.div .double (.powerOfTen .double n)
  else if x.isZero then x
  else scaleDown (x.div .double (.powerOfTen .double maxScale)) (n - maxScale)
termination_by n
decreasing_by simp only [maxScale] at *; omega

/-- The product of a number and `10 ^ n`; a product beyond the doubles is none. -/
def scaleUp (x : Binary) (n : Nat) : Option Binary :=
  if n ≤ maxScale then
    let y := x.mul .double (.powerOfTen .double n)
    if y.isFinite then some y else none
  else if x.isZero then some x
  else none

/-- The double a scaled significand is read as, if there is one. -/
def toDouble? (s : Scaled) : Option Binary :=
  let x := Binary.round .double false s.significand 1
  match s.exponent with
  | .ofNat n => scaleUp x n
  | .negSucc n => some (scaleDown x (n + 1))

end Scaled

/-- The double that `whole.fraction` times `10 ^ exponent` is read as, digits given by value. -/
def readDecimal (negative : Bool) (whole fraction : List Nat) (exponent : Int) : Option Binary :=
  let s := (Scaled.takeWhole 0 whole).takeFraction fraction
  (Scaled.toDouble? { s with exponent := s.exponent + exponent }).map fun x =>
    if negative then x.neg else x

end DialogueWindows.Floating
