/-!
# Numerals of JSON

A number stays as it is written, since all that is asked of one is whether it is a whole number and
whether it is small enough to be a double. The second question is answered on the approximation that
a double reader works with: the digits that fit 64 bits, rounded, times a rounded power of ten.
-/

namespace ApiPages

/-- A number as written: digits are given by value, first digit first. -/
structure Numeral where
  negative : Bool
  whole : List Nat
  /-- The digits after the point, if there is one. -/
  fraction : Option (List Nat)
  /-- Whether the exponent is negative, and its digits. -/
  exponent : Option (Bool × List Nat)
deriving DecidableEq, Repr

namespace Numeral

/-- The number that decimal digits stand for. -/
def ofDigits (digits : List Nat) : Nat :=
  digits.foldl (fun n d => 10 * n + d) 0

/-- The number, if it is written without sign, point and exponent. -/
def natural? (n : Numeral) : Option Nat :=
  if n.negative || n.fraction.isSome || n.exponent.isSome then none else some (ofDigits n.whole)

/-- The least number that does not fit 64 bits. -/
def wordBound : Nat :=
  1 <<< 64

/-- `start` continued by the digits as far as the number fits 64 bits, and the digits left. -/
def gather (start : Nat) : List Nat → Nat × List Nat
  | [] => (start, [])
  | d :: ds => if 10 * start + d < wordBound then gather (10 * start + d) ds else (start, d :: ds)

/-- The double nearest to a whole number, an even one of two that are equally near. -/
def roundToDouble (n : Nat) : Nat :=
  let unit := 1 <<< (n.log2 - 52)
  let below := n / unit
  let rest := 2 * (n % unit)
  let nearest :=
    if rest < unit ∨ (rest = unit ∧ below % 2 = 0) then below else below + 1
  nearest * unit

/-- The least number that is rounded to no double. -/
def doubleBound : Nat :=
  (1 <<< 1024) - (1 <<< 970)

/-- The significant digits that fit 64 bits, and the power of ten that they are taken times. -/
def parts (n : Numeral) : Nat × Int :=
  let (whole, dropped) := gather 0 n.whole
  let digits := n.fraction.getD []
  let (significand, left) := gather whole digits
  let exponent : Int :=
    match n.exponent with
    | none => 0
    | some (negative, ds) => if negative then -(ofDigits ds : Int) else ofDigits ds
  (significand, (dropped.length : Int) - ((digits.length - left.length : Nat) : Int) + exponent)

/-- Whether the number does not overflow a double. -/
def fitsDouble (n : Numeral) : Bool :=
  let (significand, exponent) := n.parts
  significand = 0 || exponent < 0 ||
    (exponent ≤ 308 &&
      roundToDouble significand * roundToDouble (Nat.pow 10 exponent.toNat) < doubleBound)

end Numeral

end ApiPages
