import DesignCompiler.Geometry
import DesignCompiler.Number.Decimal
import DesignCompiler.Paint.Effect
import DesignCompiler.Paint.Gradient
/-!
# Values of CSS properties

How numbers, colors, shadows, gradients and the shorthands of four sides are written. Numbers have
at most two decimals and no zeros at the end (`cssNumber`). A shorthand names four values, or two or
one where the others follow from them: `cornersValue` for radii, `insetsValue` for padding.
-/

namespace DesignCompiler

/-- Drops a character as often as it stands at the end of a text. -/
def dropTrailing (c : Char) (text : List Char) : List Char := (text.reverse.dropWhile (· == c)).reverse

/-- **A number:** rounded to hundredths, a half away from zero. A whole number is written as an
integer, within the range of 64 bits. -/
def cssNumber (value : Float) : String :=
  let rounded := Float.round (value * 100) / 100
  if rounded == Float.truncate rounded then
    toString (Float.toIntSaturating (-0x8000000000000000) 0x7FFFFFFFFFFFFFFF rounded)
  else String.ofList (dropTrailing '0' (Float.fixed 2 rounded).toList)

/-- A length in pixels. -/
def px (value : Float) : String := cssNumber value ++ "px"

/-- An angle in radians with at most four decimals. -/
def radians (angle : Float) : String :=
  let text := String.ofList (dropTrailing '.' (dropTrailing '0' (Float.fixed 4 angle).toList))
  if text == "-0" then "0" else text

/-- Corner radii: one value where they agree, else all four. -/
def cornersValue (c : Corners) : String :=
  if c.isUniform then px c.topLeft
  else s!"{px c.topLeft} {px c.topRight} {px c.bottomRight} {px c.bottomLeft}"

/-- Insets: one value where all sides agree, two where opposite sides do, else all four. -/
def insetsValue (i : Insets) : String :=
  if i.top == i.bottom && i.left == i.right then
    if i.top == i.left then px i.top else s!"{px i.top} {px i.right}"
  else s!"{px i.top} {px i.right} {px i.bottom} {px i.left}"

/-- One shadow of a box. -/
def shadowValue (s : Shadow) : String :=
  (if s.inset then "inset " else "") ++
    s!"{px s.x} {px s.y} {px s.blur} {px s.spread} {s.color.cssText}"

/-- The shadows of a box. -/
def shadowsValue (shadows : List Shadow) : String := ", ".intercalate (shadows.map shadowValue)

/-- A stop with its position in percent. -/
def stopValue (s : GradientStop) : String := s!"{s.color.cssText} {cssNumber (s.position * 100)}%"

/-- The stops of a gradient. -/
def stopsValue (stops : List GradientStop) : String := ", ".intercalate (stops.map stopValue)

/-- A gradient as an image; a diamond has no such form. -/
def gradientValue? : Gradient → Option String
  | .linear angle stops => some s!"linear-gradient({cssNumber angle}deg, {stopsValue stops})"
  | .radial centerX centerY _ stops =>
    some (s!"radial-gradient(circle at {cssNumber (centerX * 100)}% {cssNumber (centerY * 100)}%, " ++
      s!"{stopsValue stops})")
  | .angular startAngle stops =>
    some s!"conic-gradient(from {cssNumber startAngle}deg at 50% 50%, {stopsValue stops})"
  | .diamond _ => none

end DesignCompiler
