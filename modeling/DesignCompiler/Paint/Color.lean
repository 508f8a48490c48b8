import DesignCompiler.Number.Decimal
/-!
# Colors

A `Color` has four single-precision components with straight alpha. It is read from hex digits
(`Color.ofHex?`), multiplied by an opacity, and quantized to bytes (`Color.bytes`), from which its
texts are made: `Color.hexText`, `Color.argbText` and `Color.cssText`.
-/

namespace DesignCompiler

/-- Red, green, blue and alpha, each meant to lie between 0 and 1. -/
structure Color where
  r : Float32
  g : Float32
  b : Float32
  a : Float32 := 1
deriving Inhabited

namespace Color

/-- Opaque black. -/
def black : Color := ⟨0, 0, 0, 1⟩

/-- Whether the components agree as numbers. -/
protected def beq (c d : Color) : Bool := c.r == d.r && c.g == d.g && c.b == d.b && c.a == d.a

instance : BEq Color := ⟨Color.beq⟩

/-- A byte as a component. -/
def channel (n : UInt8) : Float32 := Float32.ofFinite false n.toNat 0 / 255

/-- The opaque color of three bytes. -/
def ofBytes (r g b : UInt8) : Color := ⟨channel r, channel g, channel b, 1⟩

/-- The value of a hexadecimal digit of either case. -/
def hexDigit? (c : Char) : Option Nat :=
  if '0' ≤ c ∧ c ≤ '9' then some (c.toNat - '0'.toNat)
  else if 'a' ≤ c ∧ c ≤ 'f' then some (c.toNat - 'a'.toNat + 10)
  else if 'A' ≤ c ∧ c ≤ 'F' then some (c.toNat - 'A'.toNat + 10)
  else none

/-- A byte from two characters: two digits, or a plus sign and one digit. -/
def hexByte? (c d : Char) : Option UInt8 := do
  let low ← hexDigit? d
  if c == '+' then return low.toUInt8
  return (16 * (← hexDigit? c) + low).toUInt8

/-- **Reads a hex color.** Any number signs in front are dropped; then six characters give an opaque
color and eight end with the alpha. -/
def ofHex? (text : String) : Option Color :=
  match text.toList.dropWhile (· == '#') with
  | [r₁, r₂, g₁, g₂, b₁, b₂] => do
    return ofBytes (← hexByte? r₁ r₂) (← hexByte? g₁ g₂) (← hexByte? b₁ b₂)
  | [r₁, r₂, g₁, g₂, b₁, b₂, a₁, a₂] => do
    let opaque_ := ofBytes (← hexByte? r₁ r₂) (← hexByte? g₁ g₂) (← hexByte? b₁ b₂)
    return { opaque_ with a := channel (← hexByte? a₁ a₂) }
  | _ => none

/-- The color with its alpha multiplied in double precision. -/
def withOpacity (c : Color) (opacity : Float) : Color :=
  { c with a := Float.narrow (Float32.widen c.a * opacity) }

/-- The byte nearest to a component; what lies outside 0 … 1 goes to the nearer end. -/
def quantize (v : Float32) : UInt8 :=
  (Float32.toNatSaturating 255 (Float32.round (Float32.clamp 0 1 v * 255))).toUInt8

/-- The four components as bytes, alpha last. -/
def bytes (c : Color) : UInt8 × UInt8 × UInt8 × UInt8 :=
  (quantize c.r, quantize c.g, quantize c.b, quantize c.a)

/-- Whether the alpha is at most zero. -/
def isTransparent (c : Color) : Bool := c.a ≤ 0

/-- The two lower-case digits of a byte. -/
def byteDigits (n : UInt8) : List Char := [Nat.digitChar (n.toNat / 16), Nat.digitChar (n.toNat % 16)]

/-- Bytes as lower-case hex digits. -/
def lowerHex (bytes : List UInt8) : String := String.ofList (bytes.flatMap byteDigits)

/-- Bytes as upper-case hex digits. -/
def upperHex (bytes : List UInt8) : String :=
  String.ofList ((bytes.flatMap byteDigits).map Char.toUpper)

/-- The hex notation: upper case, with the alpha only where the color is not opaque. -/
def hexText (c : Color) : String :=
  let (r, g, b, a) := c.bytes
  "#" ++ upperHex (if a = 255 then [r, g, b] else [r, g, b, a])

/-- The digits of the color packed with alpha in front. -/
def argbText (c : Color) : String :=
  let (r, g, b, a) := c.bytes
  lowerHex [a, r, g, b]

/-- **The CSS notation:** hex for an opaque color, else `rgba()` with the alpha at two places. -/
def cssText (c : Color) : String :=
  let (r, g, b, a) := c.bytes
  if a = 255 then c.hexText
  else
    let alpha := Float32.round (Float32.clamp 0 1 c.a * 100) / 100
    s!"rgba({r.toNat}, {g.toNat}, {b.toNat}, {Float32.text alpha})"

end Color

end DesignCompiler
