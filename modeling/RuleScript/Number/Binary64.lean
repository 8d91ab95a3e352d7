/-!
# Floating-point numbers, taken apart

A finite number of 64 bits is a whole number times a power of two. This module
reads a `Float` in that form and builds one from it, so that digits and
remainders can be computed exactly over `Nat`.

* `Binary64.ofFloat` takes a number apart.
* `Binary64.compose` puts one together from parts that need no rounding.
* `Binary64.remainder` is the exact remainder, with the dividend's sign.
-/

namespace RuleScript

/-- A number of 64 bits in its parts. -/
inductive Binary64 where
  /-- not a number -/
  | nan
  /-- an infinity -/
  | infinite (negative : Bool)
  /-- the number `mantissa * 2 ^ exponent`, with a sign that zero has too -/
  | finite (negative : Bool) (mantissa : Nat) (exponent : Int)
  deriving DecidableEq, Repr

namespace Binary64

/-- The least exponent of a finite number. -/
def leastExponent : Int := -1074

/-- A power of two. -/
def twoTo (n : Nat) : Nat := Nat.pow 2 n

/-- The first mantissa that takes all of its 53 bits. -/
def fullMantissa : Nat := twoTo 52

/-- The parts of a number. -/
def ofFloat (x : Float) : Binary64 :=
  let bits := x.toBits.toNat
  let negative := bits / twoTo 63 % 2 == 1
  let scale : Nat := bits / twoTo 52 % twoTo 11
  let fraction : Nat := bits % twoTo 52
  if scale = 2047 then (if fraction = 0 then infinite negative else nan)
  else if scale = 0 then finite negative fraction leastExponent
  else finite negative (fullMantissa + fraction) (leastExponent + (scale - 1 : Nat))

/-- Sixty-four bits with the sign bit in front. -/
def signed (negative : Bool) (bits : Nat) : Float :=
  Float.ofBits (UInt64.ofNat (bits + if negative then twoTo 63 else 0))

/-- The number `mantissa * 2 ^ exponent`, which has to be one: the mantissa
has at most 53 bits and the exponent is no less than the least. -/
def compose (negative : Bool) (mantissa : Nat) (exponent : Int) : Float :=
  if mantissa = 0 then signed negative 0
  else
    let room := 52 - mantissa.log2
    let shift := min room (exponent - leastExponent).toNat
    let full := mantissa * twoTo shift
    if full < fullMantissa then signed negative full
    else
      let scale := (exponent - shift - leastExponent).toNat + 1
      signed negative (scale * twoTo 52 + (full - fullMantissa))

/-- Not a number. -/
def nanFloat : Float := Float.ofBits 0x7ff8000000000000

/-- What is left of `a` after taking away as many `b` as fit. It is exact and
has the sign of `a`; there is none for an infinite `a` or a zero `b`, and an
infinite `b` leaves all of `a`. -/
def remainder (a b : Float) : Float :=
  match ofFloat a, ofFloat b with
  | .finite negative m p, .finite _ n q =>
    if n = 0 then nanFloat
    else
      let low := min p q
      let whole := m * twoTo (p - low).toNat
      let part := n * twoTo (q - low).toNat
      compose negative (whole % part) low
  | .finite .., .infinite _ => a
  | _, _ => nanFloat

end Binary64

end RuleScript
