import Herald.Text.Digits

/-!
Finite binary floating-point numbers of 53 significant bits, in exact natural arithmetic: rounding a
quotient to the nearest one, with ties to the even significand, and the shortest decimal digits that
round back.
-/

namespace Herald.Json

/-- The number `significand * 2 ^ exponent`, up to the sign; the significand is below `2 ^ 53`. -/
structure Binary64 where
  negative : Bool
  significand : Nat
  exponent : Int
  deriving DecidableEq, Repr

namespace Binary64

def leastExponent : Int := -1074

def greatestExponent : Int := 971

def zero (negative : Bool) : Binary64 := ⟨negative, 0, 0⟩

def isZero (number : Binary64) : Bool := number.significand = 0

/-- A quotient of naturals, rounded to the nearest natural and on a tie to the even one. -/
def nearestQuotient (numerator denominator : Nat) : Nat :=
  let quotient := numerator / denominator
  let remainder := numerator % denominator
  if 2 * remainder < denominator then quotient
  else if denominator < 2 * remainder then quotient + 1
  else if quotient % 2 = 0 then quotient else quotient + 1

def multiplesOf (exponent : Int) (numerator denominator : Nat) : Nat :=
  if 0 ≤ exponent then nearestQuotient numerator (denominator * 2 ^ exponent.toNat)
  else nearestQuotient (numerator * 2 ^ (-exponent).toNat) denominator

/-- The exponent at which a quotient has 53 significant bits, or the least exponent. -/
def unitExponent (numerator denominator : Nat) : Int :=
  let guess : Int := (Nat.log2 numerator : Int) - (Nat.log2 denominator : Int) - 52
  let small := if 0 ≤ guess then decide (numerator < denominator * 2 ^ (guess.toNat + 52))
    else if guess + 52 < 0 then decide (numerator * 2 ^ (-(guess + 52)).toNat < denominator)
    else decide (numerator < denominator * 2 ^ (guess + 52).toNat)
  max leastExponent (if small then guess - 1 else guess)

def ofQuotient? (negative : Bool) (numerator denominator : Nat) : Option Binary64 :=
  if numerator = 0 then some (zero negative)
  else
    let exponent := unitExponent numerator denominator
    let multiples := multiplesOf exponent numerator denominator
    let (significand, exponent) :=
      if multiples = 2 ^ 53 then (2 ^ 52, exponent + 1) else (multiples, exponent)
    if greatestExponent < exponent then none
    else if significand = 0 then some (zero negative)
    else some ⟨negative, significand, exponent⟩

def ofNat? (value : Nat) : Option Binary64 := ofQuotient? false value 1

def quotient (number : Binary64) : Nat × Nat :=
  if 0 ≤ number.exponent then (number.significand * 2 ^ number.exponent.toNat, 1)
  else (number.significand, 2 ^ (-number.exponent).toNat)

def times? (left right : Binary64) : Option Binary64 :=
  let (leftUpper, leftLower) := left.quotient
  let (rightUpper, rightLower) := right.quotient
  ofQuotient? (left.negative != right.negative) (leftUpper * rightUpper) (leftLower * rightLower)

def over? (left right : Binary64) : Option Binary64 :=
  let (leftUpper, leftLower) := left.quotient
  let (rightUpper, rightLower) := right.quotient
  ofQuotient? (left.negative != right.negative) (leftUpper * rightLower) (leftLower * rightUpper)

/-- The power of ten as a number of this kind; `power` is at most 308. -/
def powerOfTen (power : Nat) : Binary64 := (ofNat? (10 ^ power)).getD (zero false)

/--
A natural times a power of ten. The scaling is done in rounded steps of at most 308 places, and
a result beyond the greatest number is none.
-/
def scaled? (value : Nat) (places : Int) : Option Binary64 :=
  (ofNat? value).bind fun start =>
    if start.isZero then some start
    else if 0 ≤ places then
      if places ≤ 308 then start.times? (powerOfTen places.toNat) else none
    else shrink (places.natAbs / 308 + 1) start places.natAbs
where
  shrink : Nat → Binary64 → Nat → Option Binary64
    | 0, number, _ => some number
    | fuel + 1, number, places =>
      if places ≤ 308 then number.over? (powerOfTen places)
      else (number.over? (powerOfTen 308)).bind fun number =>
        if number.isZero then some number else shrink fuel number (places - 308)

/-- The place of the first decimal digit: `10 ^ place ≤ magnitude < 10 ^ (place + 1)`. -/
def decimalPlace (number : Binary64) : Int :=
  let (upper, lower) := number.quotient
  if lower ≤ upper then (((Nat.toDigits 10 (upper / lower)).length : Int)) - 1
  else search 400 upper lower 1
where
  search : Nat → Nat → Nat → Nat → Int
    | 0, _, _, place => -(place : Int)
    | fuel + 1, upper, lower, place =>
      if lower ≤ upper * 10 then -(place : Int) else search fuel (upper * 10) lower (place + 1)

def ofDecimal? (digits : Nat) (places : Int) : Option Binary64 :=
  if 0 ≤ places then ofQuotient? false (digits * 10 ^ places.toNat) 1
  else ofQuotient? false digits (10 ^ (-places).toNat)

/-- The neighbours of the magnitude on the grid `10 ^ places`, nearest first. -/
def neighbours (number : Binary64) (places : Int) : List Nat :=
  let (upper, lower) := number.quotient
  let upper := if 0 ≤ places then upper else upper * 10 ^ (-places).toNat
  let lower := if 0 ≤ places then lower * 10 ^ places.toNat else lower
  let below := upper / lower
  if 2 * (upper % lower) < lower || (2 * (upper % lower) = lower && below % 2 = 0)
  then [below, below + 1] else [below + 1, below]

/-- The fewest decimal digits that round back to the magnitude, with the place of the last one. -/
def shortest (number : Binary64) : Nat × Int :=
  let first := number.decimalPlace
  let magnitude : Binary64 := { number with negative := false }
  let candidates := (List.range 17).flatMap fun (count : Nat) =>
    let places := first - count
    (number.neighbours places).map fun digits => (digits, places)
  (candidates.find? fun (digits, places) => ofDecimal? digits places = some magnitude).getD (0, 0)

/--
The shortest decimal text. The point is placed among the digits for first-digit places from -5 to 15,
and elsewhere the text has an exponent with its sign.
-/
def text (number : Binary64) : String :=
  let sign := if number.negative then "-" else ""
  if number.isZero then sign ++ "0.0"
  else
    let (digits, places) := number.shortest
    let digits := (Nat.toDigits 10 digits).reverse.dropWhile (· = '0')
    let dropped := (Nat.toDigits 10 number.shortest.1).length - digits.length
    let digits := digits.reverse
    let places := places + dropped
    let first : Int := (digits.length : Int) + places - 1
    if -5 ≤ first ∧ first ≤ 15 then
      if 0 ≤ places then sign ++ String.ofList (digits ++ List.replicate places.toNat '0') ++ ".0"
      else if 0 ≤ first then
        let whole := first.toNat + 1
        sign ++ String.ofList (digits.take whole ++ ['.'] ++ digits.drop whole)
      else
        sign ++ "0." ++ String.ofList (List.replicate ((-first).toNat - 1) '0' ++ digits)
    else
      let fraction := digits.drop 1
      let mantissa := digits.take 1 ++ (if fraction.isEmpty then [] else '.' :: fraction)
      let mark := if first < 0 then "e-" else "e+"
      sign ++ String.ofList mantissa ++ mark ++ toString first.natAbs

end Binary64

end Herald.Json
