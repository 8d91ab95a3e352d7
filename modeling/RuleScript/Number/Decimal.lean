import RuleScript.Number.Binary64

/-!
# Decimal text of floating-point numbers

A number is written with the fewest decimal digits that read back as the same
number. The search is exact. With `m * 2 ^ q` for the number, every real
between the halfway points to its neighbours reads back as it, the halfway
points themselves exactly when `m` is even. For one digit, two digits and so
on, the two multiples of the last digit's unit next to the number are tested
against that interval: the first count with a hit wins, of two hits the nearer
one, and of two equally near ones the greater.

What is decided on top of the digits is a `Style`:

* `Style.value` writes values: an exponent is used outside `1e-4 … 1e16`, and
  a whole number keeps its `.0`.
* `Style.plain` writes numbers inside messages about tokens: never an
  exponent, and no `.0`.
-/

namespace RuleScript

/-- The number `digits * 10 ^ exponent`, where the last digit is not zero. -/
structure Decimal where
  /-- the digits, read as one number -/
  digits : Nat
  /-- the power of ten that the last digit counts -/
  exponent : Int
  deriving DecidableEq, Repr

namespace Decimal

/-- A power of ten. -/
def tenTo (n : Nat) : Nat := Nat.pow 10 n

/-! ### Fewest digits -/

/-- A positive number with the interval of reals that read back as it. All
three are whole multiples of one unit `numerator / denominator`. -/
structure Target where
  /-- the number -/
  value : Nat
  /-- the lower end of the interval -/
  low : Nat
  /-- the upper end of the interval -/
  high : Nat
  /-- whether the ends belong to the interval -/
  closed : Bool
  /-- numerator of the unit -/
  numerator : Nat
  /-- denominator of the unit -/
  denominator : Nat

/-- The interval around `mantissa * 2 ^ exponent`, in quarters of the last
place. Below the first mantissa of a new power of two the neighbour is only
half as far away, the least power apart. -/
def Target.ofParts (mantissa : Nat) (exponent : Int) : Target where
  value := 4 * mantissa
  low := 4 * mantissa -
    if mantissa = Binary64.fullMantissa ∧ Binary64.leastExponent < exponent then 1 else 2
  high := 4 * mantissa + 2
  closed := mantissa % 2 == 0
  numerator := Binary64.twoTo (exponent - 2).toNat
  denominator := Binary64.twoTo (2 - exponent).toNat

namespace Target

/-- Whether `n * 10 ^ place` lies in the interval. -/
def contains (t : Target) (n : Nat) (place : Int) : Bool :=
  let point := n * tenTo place.toNat * t.denominator
  let unit := t.numerator * tenTo (-place).toNat
  if t.closed then t.low * unit ≤ point && point ≤ t.high * unit
  else t.low * unit < point && point < t.high * unit

/-- How many whole `10 ^ place` the number holds, and whether the next
multiple is at least as near as this one. -/
def below (t : Target) (place : Int) : Nat × Bool :=
  let number := t.value * t.numerator * tenTo (-place).toNat
  let unit := t.denominator * tenTo place.toNat
  (number / unit, unit ≤ 2 * (number % unit))

/-- The multiple of `10 ^ place` to write for the number, if one of its two
neighbours on that grid reads back. -/
def onGrid (t : Target) (place : Int) : Option Nat :=
  let (n, up) := t.below place
  match t.contains n place, t.contains (n + 1) place with
  | true, true => some (if up then n + 1 else n)
  | true, false => some n
  | false, true => some (n + 1)
  | false, false => none

/-- The power of ten of the number's first digit, searched downward from a
power that is too great. -/
def leadingPlace (t : Target) : Nat → Int → Int
  | 0, place => place
  | n + 1, place =>
    if (t.below place).1 = 0 then leadingPlace t n (place - 1) else place

/-- The first of the next grids with a hit. Seventeen digits always suffice. -/
def search (t : Target) : Nat → Int → Nat × Int
  | 0, place => ((t.below place).1, place)
  | n + 1, place =>
    match t.onGrid place with
    | some digits => (digits, place)
    | none => search t n (place - 1)

end Target

/-- Moves zeros at the end of the digits into the exponent. -/
def trim : Nat → Nat → Int → Decimal
  | 0, digits, exponent => ⟨digits, exponent⟩
  | n + 1, digits, exponent =>
    if digits % 10 = 0 then trim n (digits / 10) (exponent + 1) else ⟨digits, exponent⟩

/-- The shortest decimal that reads back as `mantissa * 2 ^ exponent`. The
mantissa is not zero. -/
def shortest (mantissa : Nat) (exponent : Int) : Decimal :=
  let t := Target.ofParts mantissa exponent
  let top : Int := ((mantissa.log2 : Int) + exponent) * 30103 / 100000 + 1
  let (digits, place) := t.search 17 (t.leadingPlace 3 top)
  trim 18 digits place

/-! ### Styles -/

/-- The decisions that turn digits into text. -/
structure Style where
  /-- the powers of ten of the first digit that are written without an
  exponent, from the first to before the second; all of them if not given -/
  positional : Option (Int × Int)
  /-- whether a whole number without an exponent ends in `.0` -/
  keepPoint : Bool

/-- Values: a whole number ends in `.0`, and an exponent is used below `1e-4`
and from `1e16` on. -/
def Style.value : Style := ⟨some (-4, 16), true⟩

/-- Numbers in messages: digits only, as many as it takes. -/
def Style.plain : Style := ⟨none, false⟩

/-- A text of so many zeros. -/
def zeros (n : Nat) : String := String.ofList (List.replicate n '0')

/-- The digits with the point where it belongs. -/
def positional (keepPoint : Bool) (digits : List Char) (exponent : Int) : String :=
  let whole := digits.length + exponent
  if 0 ≤ exponent then
    String.ofList digits ++ zeros exponent.toNat ++ (if keepPoint then ".0" else "")
  else if 0 < whole then
    String.ofList (digits.take whole.toNat) ++ "." ++ String.ofList (digits.drop whole.toNat)
  else "0." ++ zeros (-whole).toNat ++ String.ofList digits

/-- The digits with the point after the first one, and the exponent. -/
def scientific (digits : List Char) (power : Int) : String :=
  let fraction := if digits.length ≤ 1 then "" else "." ++ String.ofList (digits.drop 1)
  String.ofList (digits.take 1) ++ fraction ++ "e" ++ toString power

/-- The text of a decimal. -/
def write (style : Style) (d : Decimal) : String :=
  let digits := Nat.toDigits 10 d.digits
  let power := digits.length - 1 + d.exponent
  let inRange := match style.positional with
    | none => true
    | some (first, last) => first ≤ power && power < last
  if inRange then positional style.keepPoint digits d.exponent
  else scientific digits power

end Decimal

/-- The text of a number. Zero keeps its sign, and what is not a number has
none. -/
def Binary64.write (style : Decimal.Style) : Binary64 → String
  | .nan => "NaN"
  | .infinite negative => (if negative then "-" else "") ++ "inf"
  | .finite negative 0 _ => (if negative then "-" else "") ++ Decimal.write style ⟨0, 0⟩
  | .finite negative m q => (if negative then "-" else "") ++ (Decimal.shortest m q).write style

/-- How a number is written as a value. -/
def Decimal.display (x : Float) : String := (Binary64.ofFloat x).write .value

/-- How a number is written in a message about a token. -/
def Decimal.plain (x : Float) : String := (Binary64.ofFloat x).write .plain

/-- The number that a sequence of decimal digits stands for. -/
def Decimal.digitsValue (cs : List Char) : Nat :=
  cs.foldl (fun n c => 10 * n + (c.toNat - '0'.toNat)) 0

/-- The number written by digits before and after a point, rounded to the
nearest. -/
def Decimal.read (whole fraction : List Char) : Float :=
  Float.ofScientific (digitsValue (whole ++ fraction)) true fraction.length

end RuleScript
