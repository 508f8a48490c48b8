import DesignCompiler.Paint.Gradient
/-!
# Paints

A node is filled and stroked with lists of paints, later ones on top. What counts for the output is
the topmost paint that can be seen, `primaryPaint?`.
-/

namespace DesignCompiler

/-- How an image paint is fitted into its box. -/
inductive ScaleMode where
  | fill
  | fit
  | crop
  | tile
deriving DecidableEq, Repr, Inhabited

/-- What a paint puts down. -/
inductive PaintContent where
  | solid (color : Color)
  | gradient (gradient : Gradient)
  /-- An image by the reference of the authoring tool, empty when it is unknown. -/
  | image (imageRef : String) (scale : ScaleMode)

/-- One layer of a fill or a stroke. -/
structure Paint where
  content : PaintContent
  opacity : Float := 1
  visible : Bool := true

namespace Paint

/-- The color of a solid paint, with the opacity of the paint in its alpha. -/
def solidColor? (p : Paint) : Option Color :=
  match p.content with
  | .solid color => some (color.withOpacity p.opacity)
  | _ => none

/-- Whether the paint is an image. -/
def isImage (p : Paint) : Bool :=
  match p.content with
  | .image .. => true
  | _ => false

/-- Whether the paint leaves a mark. -/
def isShown (p : Paint) : Bool := p.visible && p.opacity > 0

end Paint

/-- The topmost paint that leaves a mark. -/
def primaryPaint? (paints : List Paint) : Option Paint := paints.reverse.find? (·.isShown)

/-- The place of the topmost paint that leaves a mark. -/
def primaryIndex? (paints : List Paint) : Option Nat :=
  (paints.reverse.findIdx? (·.isShown)).map fun i => paints.length - 1 - i

/-- The topmost paint that leaves a mark, as a color if it is solid. -/
def primaryColor? (paints : List Paint) : Option Color := (primaryPaint? paints).bind (·.solidColor?)

end DesignCompiler
