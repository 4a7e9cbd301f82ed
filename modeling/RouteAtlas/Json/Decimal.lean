import RouteAtlas.Json.Value

/-!
# Doubles and decimals

A double is written with the fewest decimal digits that read back as the same double, the nearest
such decimal being chosen; it is positional from `1e-5` up to `1e16` and scientific elsewhere. A
decimal is read from its digits as a whole number and a power of ten: the number is rounded to a
double and then scaled by that power, so of two roundings the second one sees the result of the
first. A decimal too large for a double has no value.
-/

set_option autoImplicit false

namespace RouteAtlas

/-- A finite double in magnitude: `mantissa * 2 ^ exponent`, and whether the double below it lies
only half as far away as the one above. -/
structure Dyadic where
  mantissa : Nat
  exponent : Int
  narrowBelow : Bool

namespace Dyadic

/-- The magnitude of the double with these bits, for a finite double. -/
def ofBits (bits : UInt64) : Dyadic :=
  let leading : Nat := 1 <<< 52
  let fraction : Nat := bits.toNat % leading
  let biased : Nat := bits.toNat / leading % 2048
  if biased = 0 then ⟨fraction, -1074, false⟩
  else ⟨fraction + leading, (biased : Int) - 1075, fraction = 0 && biased > 1⟩

/-- The power of `base` with a natural exponent, or 1 for a negative one. -/
def powerUp (base : Nat) (e : Int) : Nat :=
  base.pow e.toNat

/-- Four times the magnitude and the ends of the interval of numbers that round to it, as
numerators over the denominator `powerUp 2 (-exponent)`. -/
def interval (d : Dyadic) : Nat × Nat × Nat :=
  let scale := powerUp 2 d.exponent
  let low := if d.narrowBelow then 4 * d.mantissa - 1 else 4 * d.mantissa - 2
  (low * scale, 4 * d.mantissa * scale, (4 * d.mantissa + 2) * scale)

/-- The multiple of `10 ^ k` nearest to the magnitude among those that round to it, as a count of
that power. -/
def multipleAt (d : Dyadic) (k : Int) : Option Nat :=
  let (low, value, high) := d.interval
  let den := 4 * powerUp 2 (-d.exponent) * powerUp 10 k
  let num := powerUp 10 (-k)
  let closed := d.mantissa % 2 = 0
  let inside := fun n => n > 0 &&
    (if closed then low * num ≤ n * den && n * den ≤ high * num
     else low * num < n * den && n * den < high * num)
  let below := value * num / den
  let above := below + 1
  let nearer := if value * num - below * den ≤ above * den - value * num then below else above
  let farther := if nearer = below then above else below
  if inside nearer then some nearer else if inside farther then some farther else none

/-- Searches the powers of ten downwards from `k`, through at most `fuel` of them, for the first
that has a suitable multiple. -/
def search (d : Dyadic) : Nat → Int → Nat × Int
  | 0, k => (0, k)
  | fuel + 1, k =>
    match d.multipleAt k with
    | some n => (n, k)
    | none => search d fuel (k - 1)

/-- The decimal `n * 10 ^ k` with the fewest digits that rounds to the magnitude. -/
def shortest (d : Dyadic) : Nat × Int :=
  d.search 700 310

end Dyadic

def zeros (n : Nat) : List Char := List.replicate n '0'

/-- A decimal `n * 10 ^ k`, positional when its point lies from five places before the first digit
to sixteen places after it. -/
def renderDecimal (n : Nat) (k : Int) : List Char :=
  let digits := Nat.toDigits 10 n
  let point : Int := digits.length + k
  if 0 ≤ k ∧ point ≤ 16 then digits ++ zeros k.toNat ++ ['.', '0']
  else if 0 < point ∧ point ≤ 16 then
    digits.take point.toNat ++ ['.'] ++ digits.drop point.toNat
  else if -5 < point ∧ point ≤ 0 then ['0', '.'] ++ zeros (-point).toNat ++ digits
  else
    let power := (toString (point - 1)).toList
    match digits with
    | [] => []
    | [d] => d :: 'e' :: power
    | d :: rest => d :: '.' :: rest ++ 'e' :: power

def renderDouble (bits : UInt64) : String :=
  let sign := if bits >>> 63 = 1 then ['-'] else []
  let d := Dyadic.ofBits bits
  if d.mantissa = 0 then String.ofList (sign ++ ['0', '.', '0'])
  else
    let (n, k) := d.shortest
    String.ofList (sign ++ renderDecimal n k)

/-- The double nearest to `10 ^ n`, for `n` up to 308. -/
def tenTo (n : Nat) : Float := Float.ofScientific 1 false n

/-- Scales a double by a power of ten: powers below `-308` are taken in steps of 308. -/
def scaleByTen : Nat → Float → Int → Option Float
  | 0, f, _ => some f
  | fuel + 1, f, e =>
    if e.natAbs ≤ 308 then
      if 0 ≤ e then
        let scaled := f * tenTo e.natAbs
        if scaled.isInf then none else some scaled
      else some (f / tenTo e.natAbs)
    else if f == 0.0 then some f
    else if 0 ≤ e then none
    else scaleByTen fuel (f / tenTo 308) (e + 308)

/-- The double of the decimal `significand * 10 ^ exponent`, `none` when it is too large. -/
def doubleOfDecimal (minus : Bool) (significand : Nat) (exponent : Int) : Option JsonNumber :=
  (scaleByTen 4 significand.toUInt64.toFloat exponent).map fun f =>
    .double (if minus then (-f).toBits else f.toBits)

end RouteAtlas
