import DesignCompiler.Paint.Color
/-!
# Gradients

A gradient runs through colored stops along a line, out from a center, or around one; a diamond
gradient is kept for its stops alone, since no output can draw it.
-/

namespace DesignCompiler

/-- A color at a position along a gradient, 0 at its start and 1 at its end. -/
structure GradientStop where
  position : Float
  color : Color

/-- A gradient by its shape. -/
inductive Gradient where
  /-- Along a line; the angle is in degrees, 0 upward and clockwise. -/
  | linear (angle : Float) (stops : List GradientStop)
  /-- Out from a center, given as fractions of the box. -/
  | radial (centerX centerY radius : Float) (stops : List GradientStop)
  /-- Around the middle of the box. -/
  | angular (startAngle : Float) (stops : List GradientStop)
  | diamond (stops : List GradientStop)

/-- The stops of a gradient of any shape. -/
def Gradient.stops : Gradient → List GradientStop
  | .linear _ stops | .radial _ _ _ stops | .angular _ stops | .diamond stops => stops

end DesignCompiler
