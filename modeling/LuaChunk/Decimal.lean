/-!
# Decimal text of binary fractions

A binary fraction `mantissa / 2 ^ halvings` that stands for all reals rounding to it is written with
the fewest decimal places that still round to it, always positionally. All arithmetic is exact, on
natural numbers.

## Main definitions

* `BinaryFraction.readsBack`   a decimal lies among the reals that round to the fraction
* `BinaryFraction.shortest`    the decimal with the fewest places that reads back, the nearer of two
-/

namespace LuaChunk

/-- The decimal number `digits / 10 ^ places`. -/
structure Decimal where
  digits : Nat
  places : Nat
  deriving DecidableEq, Repr

namespace Decimal

/-- The lowest `places` decimal digits of a number, most significant first. -/
def fractionDigits : Nat → Nat → List Char
  | 0, _ => []
  | places + 1, n => fractionDigits places (n / 10) ++ [Nat.digitChar (n % 10)]

/-- A decimal written positionally, with all its places. -/
def text (d : Decimal) : String :=
  match d.places with
  | 0 => d.digits.repr
  | places =>
    (d.digits / Nat.pow 10 places).repr ++ "." ++ String.ofList (fractionDigits places d.digits)

end Decimal

/-- The number `mantissa / 2 ^ halvings`, as one of the evenly spaced numbers `n / 2 ^ halvings` to
which reals are rounded. Where the spacing changes, the gap below is half the gap above. -/
structure BinaryFraction where
  mantissa : Nat
  halvings : Nat
  narrowBelow : Bool
  deriving Repr

namespace BinaryFraction

/-- Whether a fraction is a whole number. -/
def isWhole (x : BinaryFraction) : Bool :=
  x.mantissa % 1 <<< x.halvings = 0

/-- The lower end of the reals that round to the fraction, in units of `1 / 2 ^ (halvings + 2)`. -/
def lowerEnd (x : BinaryFraction) : Nat :=
  if x.narrowBelow then 4 * x.mantissa - 1 else 4 * x.mantissa - 2

/-- The upper end of the reals that round to the fraction, in units of `1 / 2 ^ (halvings + 2)`. -/
def upperEnd (x : BinaryFraction) : Nat :=
  4 * x.mantissa + 2

/-- Whether a decimal lies among the reals that round to the fraction. A real halfway between two
neighbours goes to the one with the even mantissa, so the ends belong to an even mantissa only. -/
def readsBack (x : BinaryFraction) (d : Decimal) : Bool :=
  let lower := x.lowerEnd * Nat.pow 10 d.places
  let upper := x.upperEnd * Nat.pow 10 d.places
  let middle := d.digits <<< (x.halvings + 2)
  if x.mantissa % 2 = 0 then lower ≤ middle ∧ middle ≤ upper else lower < middle ∧ middle < upper

/-- The largest decimal with a given number of places that is not above the fraction. -/
def below (x : BinaryFraction) (places : Nat) : Decimal :=
  -- a shift rounds down
  ⟨(x.mantissa * Nat.pow 10 places) >>> x.halvings, places⟩

/-- The decimal that follows `below`, which is above the fraction. -/
def above (x : BinaryFraction) (places : Nat) : Decimal :=
  ⟨(x.below places).digits + 1, places⟩

/-- Whether `above` is as near to the fraction as `below`, or nearer. -/
def aboveIsNearer (x : BinaryFraction) (places : Nat) : Bool :=
  -- the middle between the two, against the fraction
  (2 * (x.below places).digits + 1) <<< x.halvings ≤ 2 * (x.mantissa * Nat.pow 10 places)

/-- The decimal with a given number of places that reads back, if there is one: the nearer of the
two neighbours of the fraction if both do, the upper one where they are equally near. -/
def withPlaces? (x : BinaryFraction) (places : Nat) : Option Decimal :=
  match x.readsBack (x.below places), x.readsBack (x.above places) with
  | true, true => some (if x.aboveIsNearer places then x.above places else x.below places)
  | true, false => some (x.below places)
  | false, true => some (x.above places)
  | false, false => none

/-- The decimal equal to the fraction, which has as many places as the fraction has halvings. -/
def exact (x : BinaryFraction) : Decimal :=
  ⟨x.mantissa * Nat.pow 5 x.halvings, x.halvings⟩

/-- The decimal with the fewest places that reads back. -/
def shortest (x : BinaryFraction) : Decimal :=
  -- with as many places as halvings a decimal is exact, so that only fewer are tried
  ((List.range x.halvings).findSome? x.withPlaces?).getD x.exact

end BinaryFraction

end LuaChunk
