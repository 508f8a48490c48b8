/-!
# Binary floating point, taken apart

A float is read as its sign and the exact number `m · 2 ^ q` that it stands for, and a number of
that form is written back as the nearest float. Everything the library prints or rounds goes
through these two functions, so that each rule about numbers is a rule about natural numbers.

* `BinaryFormat.decode` and `BinaryFormat.encode` work on bit patterns, for any width;
* `Float.parts` and `Float32.parts` read the two widths in use;
* `Float.ofParts`, `Float32.ofParts` round to the nearest value, a tie to the even mantissa;
* `Float32.widen` and `Float.narrow` convert between the widths.
-/

namespace DesignCompiler

/-- **An interchange format.** `mantissaBits` counts the stored bits, without the leading one. -/
structure BinaryFormat where
  mantissaBits : Nat
  exponentBits : Nat
deriving DecidableEq, Repr

/-- What a bit pattern stands for: nothing, an infinity, or `± m · 2 ^ q`. -/
inductive BinaryParts where
  | nan
  | infinite (negative : Bool)
  | finite (negative : Bool) (m : Nat) (q : Int)
deriving DecidableEq, Repr

namespace BinaryFormat

/-- The format of `Float32`. -/
def binary32 : BinaryFormat := ⟨23, 8⟩

/-- The format of `Float`. -/
def binary64 : BinaryFormat := ⟨52, 11⟩

/-- The exponent of the last bit of the smallest numbers. -/
def minExponent (f : BinaryFormat) : Int :=
  3 - Nat.pow 2 (f.exponentBits - 1) - (f.mantissaBits + 1)

/-- The exponent field of the infinities, all ones. -/
def maxField (f : BinaryFormat) : Nat := Nat.pow 2 f.exponentBits - 1

/-- The bit pattern of an infinity. -/
def infinityBits (f : BinaryFormat) (negative : Bool) : Nat :=
  ((if negative then Nat.pow 2 f.exponentBits else 0) + f.maxField) * Nat.pow 2 f.mantissaBits

/-- **Reads a bit pattern.** A zero exponent field means no leading one. -/
def decode (f : BinaryFormat) (bits : Nat) : BinaryParts :=
  let mantissa := bits % Nat.pow 2 f.mantissaBits
  let field := bits / Nat.pow 2 f.mantissaBits % Nat.pow 2 f.exponentBits
  let negative := bits / Nat.pow 2 (f.mantissaBits + f.exponentBits) % 2 == 1
  if field = f.maxField then
    if mantissa = 0 then .infinite negative else .nan
  else if field = 0 then .finite negative mantissa f.minExponent
  else .finite negative (Nat.pow 2 f.mantissaBits + mantissa) (f.minExponent + field - 1)

/-- `m / 2 ^ shift` to the nearest natural number, a tie to the even one. -/
def shiftRound (m shift : Nat) : Nat :=
  let unit := Nat.pow 2 shift
  let quotient := m / unit
  let twice := 2 * (m % unit)
  if unit < twice ∨ (unit = twice ∧ quotient % 2 = 1) then quotient + 1 else quotient

/-- **Writes `± m · 2 ^ q` as the nearest bit pattern.** The mantissa is cut to the bits that the
format keeps for a number of this size; what rounds beyond the largest number is an infinity. -/
def encode (f : BinaryFormat) (negative : Bool) (m : Nat) (q : Int) : Nat :=
  let sign := if negative then Nat.pow 2 (f.mantissaBits + f.exponentBits) else 0
  if m = 0 then sign
  else
    let target := max (m.log2 + q - f.mantissaBits) f.minExponent
    let kept :=
      if q ≤ target then shiftRound m (target - q).toNat else m * Nat.pow 2 (q - target).toNat
    -- A mantissa that rounds up to the next power of two carries into the exponent field by itself.
    let bits := (target - f.minExponent).toNat * Nat.pow 2 f.mantissaBits + kept
    if f.infinityBits false ≤ bits then f.infinityBits negative else sign + bits

end BinaryFormat

/-- The exact number in a `Float`. -/
def Float.parts (x : Float) : BinaryParts := BinaryFormat.binary64.decode x.toBits.toNat

/-- The exact number in a `Float32`. -/
def Float32.parts (x : Float32) : BinaryParts := BinaryFormat.binary32.decode x.toBits.toNat

/-- The `Float` not a number. -/
def Float.nan : Float := Float.ofBits 0x7ff8000000000000

/-- The `Float32` not a number. -/
def Float32.nan : Float32 := Float32.ofBits 0x7fc00000

/-- The `Float` nearest to `± m · 2 ^ q`. -/
def Float.ofFinite (negative : Bool) (m : Nat) (q : Int) : Float :=
  Float.ofBits (BinaryFormat.binary64.encode negative m q).toUInt64

/-- The `Float32` nearest to `± m · 2 ^ q`. -/
def Float32.ofFinite (negative : Bool) (m : Nat) (q : Int) : Float32 :=
  Float32.ofBits (BinaryFormat.binary32.encode negative m q).toUInt32

/-- The `Float` infinity of a sign. -/
def Float.infinity (negative : Bool) : Float :=
  Float.ofBits (BinaryFormat.binary64.infinityBits negative).toUInt64

/-- The `Float32` infinity of a sign. -/
def Float32.infinity (negative : Bool) : Float32 :=
  Float32.ofBits (BinaryFormat.binary32.infinityBits negative).toUInt32

/-- The nearest `Float` to a number taken apart. -/
def Float.ofParts : BinaryParts → Float
  | .nan => Float.nan
  | .infinite negative => Float.infinity negative
  | .finite negative m q => Float.ofFinite negative m q

/-- The nearest `Float32` to a number taken apart. -/
def Float32.ofParts : BinaryParts → Float32
  | .nan => Float32.nan
  | .infinite negative => Float32.infinity negative
  | .finite negative m q => Float32.ofFinite negative m q

/-- The same number as a `Float`; nothing is lost. -/
def Float32.widen (x : Float32) : Float := Float.ofParts (Float32.parts x)

/-- The nearest `Float32`, a tie to the even mantissa. -/
def Float.narrow (x : Float) : Float32 := Float32.ofParts (Float.parts x)

end DesignCompiler
