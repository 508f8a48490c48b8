/-!
# Corners, insets, directions

Four numbers for the corners of a box, clockwise from the top left, and four for its sides,
clockwise from the top; the two directions in which items are laid out in a line, and how they are
aligned along it and across it.
-/

namespace DesignCompiler

/-- The radii of the four corners. -/
structure Corners where
  topLeft : Float
  topRight : Float
  bottomRight : Float
  bottomLeft : Float

namespace Corners

/-- The same radius at every corner. -/
def all (radius : Float) : Corners := ⟨radius, radius, radius, radius⟩

instance : Inhabited Corners := ⟨all 0⟩

/-- Whether no corner is rounded. -/
def isZero (c : Corners) : Bool :=
  c.topLeft == 0 && c.topRight == 0 && c.bottomRight == 0 && c.bottomLeft == 0

/-- Whether the corners agree. -/
def isUniform (c : Corners) : Bool :=
  c.topLeft == c.topRight && c.topRight == c.bottomRight && c.bottomRight == c.bottomLeft

end Corners

/-- The insets of the four sides. -/
structure Insets where
  top : Float
  right : Float
  bottom : Float
  left : Float

namespace Insets

/-- The same inset on every side. -/
def all (value : Float) : Insets := ⟨value, value, value, value⟩

instance : Inhabited Insets := ⟨all 0⟩

/-- Whether no side is inset. -/
def isZero (i : Insets) : Bool := i.top == 0 && i.right == 0 && i.bottom == 0 && i.left == 0

end Insets

/-- The direction of a line of items. -/
inductive Direction where
  | row
  | column
deriving DecidableEq, Repr, Inhabited

/-- Where items stand along an axis. -/
inductive AxisAlignment where
  | min
  | center
  | max
  | spaceBetween
deriving DecidableEq, Repr, Inhabited

end DesignCompiler
