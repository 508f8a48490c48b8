import DesignCompiler.Number.Rounding
/-!
# Decimal text of a float

* `shortest` finds, for `m · 2 ^ q`, the decimal `d · 10 ^ e` with the fewest digits that reads back
  as the same float, and of those the nearest, an exact tie going up;
* `Float.text` and `Float32.text` write it positionally, never with an exponent;
* `Float.fixed` writes a given number of places, the exact value rounded half to even;
* `Float.read?` reads a decimal with an optional exponent, or a word for infinity or not a number.
-/

namespace DesignCompiler

/-- **The interval that reads back.** A number `m · 2 ^ q` of a format, with the exact reals that
round to it, all in units of `2 ^ (q - 2)`: the value is `4 m`, and the ends lie half a step away.
Below a power of two the step is half as wide. The ends belong to it when `m` is even. -/
structure ReadBack where
  low : Nat
  value : Nat
  high : Nat
  closed : Bool
deriving DecidableEq, Repr

/-- The interval of `m · 2 ^ q` in the format `f`. -/
def BinaryFormat.readBack (f : BinaryFormat) (m : Nat) (q : Int) : ReadBack where
  low := if m = Nat.pow 2 f.mantissaBits ∧ f.minExponent < q then 4 * m - 1 else 4 * m - 2
  value := 4 * m
  high := 4 * m + 2
  closed := m % 2 == 0

/-- Whether `num / den` lies in the interval. -/
def ReadBack.contains (r : ReadBack) (num den : Nat) : Bool :=
  if r.closed then r.low * den ≤ num && num ≤ r.high * den
  else r.low * den < num && num < r.high * den

/-- **The fewest digits, grid by grid.** `value · scale / base` is the number, in units of the
current power of ten `10 ^ e`. The two neighbours of the value on that grid are tried, the nearer
one first and the upper one at a tie; where neither reads back the next finer grid is tried. -/
def shortestFrom (r : ReadBack) : Nat → Nat → Nat → Int → Nat × Int
  | 0, scale, base, e => (r.value * scale / base, e)
  | grids + 1, scale, base, e =>
    let below := r.value * scale / base
    let rest := r.value * scale % base
    let belowOk := r.contains (below * base) scale
    let aboveOk := r.contains ((below + 1) * base) scale
    if belowOk && (!aboveOk || 2 * rest < base) then (below, e)
    else if aboveOk then (below + 1, e)
    else shortestFrom r grids (scale * 10) base (e - 1)

/-- How many decimal digits `n` has; one for zero. -/
def decimalLength (n : Nat) : Nat := (Nat.toDigits 10 n).length

/-- **The shortest decimal of `m · 2 ^ q`,** for a positive `m`: the digits and the power of ten. -/
def shortest (f : BinaryFormat) (m : Nat) (q : Int) : Nat × Int :=
  let r := f.readBack m q
  -- The number is `value · num / den`.
  let num := Nat.pow 2 (q - 2).toNat
  let den := Nat.pow 2 (2 - q).toNat
  let scaled := r.value * num
  -- The first grid is the power of ten of the leading digit, or one below it.
  if den ≤ scaled then
    let length := decimalLength (scaled / den)
    shortestFrom r 20 num (den * Nat.pow 10 (length - 1)) (length - 1 : Nat)
  else
    let length := decimalLength (den / scaled)
    shortestFrom r 20 (num * Nat.pow 10 length) den (-length)

/-- Drops the zeros at the end of a list of digits, and says how many there were. -/
def dropTrailingZeros (digits : List Char) : List Char × Nat :=
  let zeros := (digits.reverse.takeWhile (· == '0')).length
  (digits.take (digits.length - zeros), zeros)

/-- `digits · 10 ^ e` written out with a point where one is needed. -/
def positional (digits : List Char) (e : Int) : String :=
  if 0 ≤ e then String.ofList (digits ++ List.replicate e.toNat '0')
  else
    let places := (-e).toNat
    let padded := List.replicate (places + 1 - digits.length) '0' ++ digits
    let whole := padded.length - places
    String.ofList (padded.take whole ++ '.' :: padded.drop whole)

/-- The sign in front of a number. -/
def signText (negative : Bool) : String := if negative then "-" else ""

/-- The digits of the shortest decimal of a positive number, without zeros at the end. -/
def shortestDigits (f : BinaryFormat) (m : Nat) (q : Int) : List Char × Int :=
  let (d, e) := shortest f m q
  let (digits, zeros) := dropTrailingZeros (Nat.toDigits 10 d)
  (digits, e + zeros)

/-- **The text of a number:** the fewest digits that read back, written positionally. -/
def BinaryParts.text (f : BinaryFormat) : BinaryParts → String
  | .nan => "NaN"
  | .infinite negative => signText negative ++ "inf"
  | .finite negative m q =>
    if m = 0 then signText negative ++ "0"
    else
      let (digits, e) := shortestDigits f m q
      signText negative ++ positional digits e

/-- The shortest text that reads back as `x`. -/
def Float.text (x : Float) : String := (Float.parts x).text .binary64

/-- The shortest text that reads back as `x`. -/
def Float32.text (x : Float32) : String := (Float32.parts x).text .binary32

/-- `num / den` to the nearest natural number, a tie to the even one. -/
def divRoundEven (num den : Nat) : Nat :=
  let quotient := num / den
  let twice := 2 * (num % den)
  if den < twice ∨ (den = twice ∧ quotient % 2 = 1) then quotient + 1 else quotient

/-- **A fixed number of places,** the exact value rounded half to even. -/
def BinaryParts.fixed (places : Nat) : BinaryParts → String
  | .nan => "NaN"
  | .infinite negative => signText negative ++ "inf"
  | .finite negative m q =>
    let scaled := divRoundEven (m * Nat.pow 10 places * Nat.pow 2 q.toNat) (Nat.pow 2 (-q).toNat)
    signText negative ++ positional (Nat.toDigits 10 scaled) (-places)

/-- `x` with a fixed number of places. -/
def Float.fixed (places : Nat) (x : Float) : String := (Float.parts x).fixed places

/-! ### Reading -/

/-- **The float nearest to `± d · 10 ^ e`.** A quotient is cut far below the last bit that a float
keeps, with one more bit that says whether anything was cut, so the rounding sees the exact side. -/
def Float.ofDecimal (negative : Bool) (d : Nat) (e : Int) : Float :=
  let size := decimalLength d + e
  if d = 0 ∨ size < -400 then Float.ofFinite negative 0 0
  else if 400 < size then Float.infinity negative
  else if 0 ≤ e then Float.ofFinite negative (d * Nat.pow 10 e.toNat) 0
  else
    let den := Nat.pow 10 (-e).toNat
    let shift := den.log2 + 70 - d.log2
    let quotient := d * Nat.pow 2 shift / den
    let cut := if d * Nat.pow 2 shift % den = 0 then 0 else 1
    Float.ofFinite negative (2 * quotient + cut) (-(shift : Int) - 1)

/-- Whether a character is one of the ten digits. -/
def isDecimalDigit (c : Char) : Bool := '0' ≤ c && c ≤ '9'

/-- The number that a list of decimal digits writes. -/
def decimalValue (digits : List Char) : Nat :=
  digits.foldl (fun n c => 10 * n + (c.toNat - '0'.toNat)) 0

/-- Takes a sign off the front: whether it is a minus, and the rest. -/
def splitSign : List Char → Bool × List Char
  | '-' :: rest => (true, rest)
  | '+' :: rest => (false, rest)
  | rest => (false, rest)

/-- The exponent after the mantissa: nothing, or `e` and an integer with at least one digit. -/
def readExponent? : List Char → Option Int
  | [] => some 0
  | c :: rest =>
    let (negative, digits) := splitSign rest
    if (c == 'e' || c == 'E') && !digits.isEmpty && digits.all isDecimalDigit then
      let size : Int := decimalValue digits
      some (if negative then -size else size)
    else none

/-- An unsigned decimal: digits with at most one point among or around them, at least one digit in
all, then an optional exponent. The answer is the digits as a number and the power of ten. -/
def readDecimal? (text : List Char) : Option (Nat × Int) :=
  let whole := text.takeWhile isDecimalDigit
  let (fraction, rest) :=
    match text.dropWhile isDecimalDigit with
    | '.' :: after => (after.takeWhile isDecimalDigit, after.dropWhile isDecimalDigit)
    | other => ([], other)
  if whole.isEmpty && fraction.isEmpty then none
  else (readExponent? rest).map fun e => (decimalValue (whole ++ fraction), e - fraction.length)

/-- **Reads a number:** an optional sign, then a decimal, or `inf`, `infinity` or `nan` in any mix
of upper and lower case. -/
def Float.read? (text : List Char) : Option Float :=
  let (negative, unsigned) := splitSign text
  let word := String.ofList (unsigned.map Char.toLower)
  if word == "inf" || word == "infinity" then some (Float.infinity negative)
  else if word == "nan" then some Float.nan
  else (readDecimal? unsigned).map fun (d, e) => Float.ofDecimal negative d e

end DesignCompiler
