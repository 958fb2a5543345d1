/-!
Double precision numbers: the one nearest to a fraction or a decimal, products and quotients,
and the shortest decimal that is nearest to a number among all numbers of its kind.
-/

namespace Highlighter

/-- A double precision number, given by its bits. -/
structure Double where
  bits : UInt64
  deriving DecidableEq, Repr, Inhabited

namespace Double

def infinity : Double := ⟨0x7ff0000000000000⟩

def nan : Double := ⟨0x7ff8000000000000⟩

def isNegative (x : Double) : Bool := x.bits >>> 63 == 1

def neg (x : Double) : Double := ⟨x.bits ^^^ 0x8000000000000000⟩

/-- The exponent field. -/
def field (x : Double) : Nat := ((x.bits >>> 52) &&& 0x7ff).toNat

/-- The fraction field. -/
def fraction (x : Double) : Nat := (x.bits &&& 0xfffffffffffff).toNat

def isFinite (x : Double) : Bool := x.field != 0x7ff

def isNaN (x : Double) : Bool := x.field == 0x7ff && x.fraction != 0

/-- The magnitude of a finite number is `significand * 2 ^ exponent`. -/
def significand (x : Double) : Nat :=
  if x.field = 0 then x.fraction else x.fraction + 1 <<< 52

def exponent (x : Double) : Int := (max x.field 1 : Nat) - 1075

/-- The integer nearest to a fraction; a half goes to the even neighbour. -/
def nearest (num den : Nat) : Nat :=
  let n := num / den
  let rest := 2 * (num % den)
  if den < rest || (rest == den && n % 2 == 1) then n + 1 else n

/-- The nonnegative number nearest to a fraction; of two equally near ones the even one. The
bits of a significand that rounding makes one bit longer carry over into the exponent. -/
def ofRatio (num den : Nat) : Double :=
  if num = 0 then ⟨0⟩
  else
    let up (e : Int) : Nat := num <<< (-e).toNat
    let down (e : Int) : Nat := den <<< e.toNat
    let least : Int := Nat.log2 num - Nat.log2 den - 53
    let e := max (if up least / down least < 1 <<< 53 then least else least + 1) (-1074)
    let bits := nearest (up e) (down e) + ((e + 1074).toNat <<< 52)
    if bits < infinity.bits.toNat then ⟨UInt64.ofNat bits⟩ else infinity

def ofNat (n : Nat) : Double := ofRatio n 1

/-- The number nearest to `mantissa * 10 ^ exponent`. -/
def ofDecimal (mantissa : Nat) (exponent : Int) : Double :=
  let size : Int := (Nat.toDigits 10 mantissa).length + exponent
  if mantissa = 0 || size < -400 then ⟨0⟩
  else if size > 400 then infinity
  else ofRatio (mantissa * Nat.pow 10 exponent.toNat) (Nat.pow 10 (-exponent).toNat)

/-- The product of two nonnegative finite numbers. -/
def mul (x y : Double) : Double :=
  let e := x.exponent + y.exponent
  ofRatio ((x.significand * y.significand) <<< e.toNat) (1 <<< (-e).toNat)

/-- The quotient of two nonnegative finite numbers, the second of which is not zero. -/
def div (x y : Double) : Double :=
  let e := x.exponent - y.exponent
  ofRatio (x.significand <<< e.toNat) (y.significand <<< (-e).toNat)

/-- Whether `digit * 10 ^ place` rounds to the number, where the number and the limits of
what rounds to it are given as multiples of `2 ^ (exponent - 2)`. -/
private def roundsBack (closed : Bool) (low high digit step : Nat) : Bool :=
  let n := digit * step
  if closed then low ≤ n && n ≤ high else low < n && n < high

/-- The shortest decimal that rounds to a number, found by trying ever finer decimal places
from `place` on. Of two of the same length the nearer one is taken. -/
private def shortestFrom (x : Double) (place : Int) : Nat → Nat × Int
  | 0 => (0, 0)
  | tries + 1 =>
    let m := x.significand
    let q := x.exponent - 2
    let up := Nat.pow 10 (-place).toNat <<< q.toNat
    let step := Nat.pow 10 place.toNat <<< (-q).toNat
    let low := (if x.fraction = 0 ∧ x.field > 1 then 4 * m - 1 else 4 * m - 2) * up
    let high := (4 * m + 2) * up
    let value := 4 * m * up
    let digit := value / step
    let closed := m % 2 == 0
    match roundsBack closed low high digit step, roundsBack closed low high (digit + 1) step with
    | true, true =>
      (if 2 * (value - digit * step) ≤ step then digit else digit + 1, place)
    | true, false => (digit, place)
    | false, true => (digit + 1, place)
    | false, false => x.shortestFrom (place - 1) tries

/-- Digits and decimal place of the shortest decimal that rounds to a finite number. -/
def shortest (x : Double) : Nat × Int :=
  if x.significand = 0 then (0, 0) else x.shortestFrom 309 700

/-- The text of a number, which `magnitude` makes of the digits and the decimal place of its
shortest decimal where it is finite. -/
private def signed (magnitude : List Char → Int → List Char) (x : Double) : String :=
  let sign := if x.isNegative && !x.isNaN then ['-'] else []
  if x.isNaN then "NaN"
  else if !x.isFinite then String.ofList (sign ++ "inf".toList)
  else
    let (digits, place) := x.shortest
    String.ofList (sign ++ magnitude (Nat.toDigits 10 digits) place)

/-- Digits from a decimal place on, without an exponent. -/
private def spread (ds : List Char) (place : Int) : List Char :=
  if place ≥ 0 then ds ++ List.replicate place.toNat '0'
  else
    let places := place.natAbs
    let ds := List.replicate (places + 1 - ds.length) '0' ++ ds
    let whole := ds.length - places
    ds.take whole ++ '.' :: ds.drop whole

/-- The number without an exponent. -/
def positional : Double → String := signed spread

/-- The number without an exponent and, if it is finite, always with a decimal point. -/
def withPoint (x : Double) : String :=
  let s := x.positional
  if x.isFinite && !s.toList.contains '.' then s ++ ".0" else s

/-- The number with an exponent where, without one, it had more than sixteen digits in front of
its point or more than four zeros behind it. -/
def scientific (x : Double) : String :=
  let magnitude (ds : List Char) (place : Int) : List Char :=
    let exponent : Int := ds.length - 1 + place
    if -5 ≤ exponent && exponent < 16 then
      spread ds place ++ (if place ≥ 0 then ['.', '0'] else [])
    else
      let tail := if ds.length > 1 then '.' :: ds.drop 1 else []
      ds.take 1 ++ tail ++ ['e', if exponent < 0 then '-' else '+']
        ++ Nat.toDigits 10 exponent.natAbs
  signed magnitude x

/-- The nearest integer to a finite number; a half goes away from zero. -/
def round (x : Double) : Int :=
  let m := x.significand
  let magnitude := if x.exponent ≥ 0 then m <<< x.exponent.toNat
    else
      let den := 1 <<< x.exponent.natAbs
      (2 * m + den) / (2 * den)
  if x.isNegative then -(magnitude : Int) else magnitude

end Double

end Highlighter
