import DesignCompiler.Design.Flag
import DesignCompiler.Detect.Icon
import DesignCompiler.Detect.Image
import DesignCompiler.Widget.Basic
/-!
# The widget of one node

For each type of node, the widget that shows it; children come ready made. Where a node cannot be
shown by boxes, text or paths, it is shown as a picture of itself (`Layer.picture`).

`paddedWidth` gives short labels of several words a little room, since renderers measure glyphs
differently and would break the line.
-/

namespace DesignCompiler

/-- The number of UTF-16 units of a text, two for a character beyond the first 65536. -/
def utf16Length (text : List Char) : Nat :=
  text.length + text.countP fun c => 0x10000 ≤ c.toNat

/-- **The width of a text box.** A text without a space is left as it is, and so is one of thirty
units or more; a label of two words and at most six units gets one unit more, any other gets two. -/
def paddedWidth (text : String) (width : Float) : Float :=
  let pieces := (splitOnChar ' ' text.toList).length
  let length := utf16Length text.toList
  if pieces ≤ 1 then width
  else if length ≤ 6 ∧ pieces ≤ 2 then width + 1
  else if length < 30 then width + 2
  else width

namespace Layer

/-- What the topmost shown fill puts behind a box. -/
def background? (l : Layer) : Option Background :=
  (primaryPaint? l.fills).map fun paint =>
    match paint.content with
    | .solid color => .color (color.withOpacity paint.opacity)
    | .gradient gradient => .gradient gradient
    | .image imageRef _ => .image (.ofPaint imageRef)

/-- The line around a shape, if its stroke is solid and has a weight. -/
def border? (l : Layer) : Option Border :=
  if l.strokeWeight ≤ 0 then none
  else (primaryColor? l.strokes).map fun color => ⟨l.strokeWeight, color⟩

/-- The shadow of an effect; that of an inner shadow always lies inside. -/
def shadowOf? : Effect → Option Shadow
  | .dropShadow s => some s
  | .innerShadow s => some { s with inset := true }
  | .layerBlur _ | .backgroundBlur _ => none

/-- The shadows of a layer. -/
def shadows (l : Layer) : List Shadow := l.effects.filterMap shadowOf?

/-- The corner radii, where a corner is rounded. -/
def radius? (l : Layer) : Option Corners := if l.corners.isZero then none else some l.corners

/-- The size of a layer and nothing else. -/
def sizedStyle (l : Layer) : Style := .sized l.width l.height

/-- **The style of a box:** size, background, border, corners and shadows. -/
def boxStyle (l : Layer) : Style :=
  { l.sizedStyle with
    background := l.background?
    border := l.border?
    borderRadius := l.radius?
    shadows := l.shadows }

/-- What describes an image of the layer: its name without flags. -/
def altText (l : Layer) : String := stripFlags l.name

/-! ### Leaves -/

/-- A text, with shadows. -/
def textWidget (l : Layer) (characters : String) (style : TextStyle) (key : WidgetKey) : Widget :=
  .leaf key { Style.sized (paddedWidth characters l.width) l.height with shadows := l.shadows }
    (.text ⟨characters, style, l.fillColor?, none⟩)

/-- Paths with the fill and the border of the layer. -/
def vectorWidget (l : Layer) (paths : List VectorPath) (key : WidgetKey) : Widget :=
  .leaf key l.sizedStyle (.vector ⟨paths, l.fillColor?, l.border?, l.width, l.height⟩)

/-- Paths combined by a boolean operation. -/
def booleanWidget (l : Layer) (operation : BooleanOperation) (paths : List VectorPath)
    (key : WidgetKey) : Widget :=
  .leaf key l.sizedStyle (.boolean ⟨operation, paths, l.fillColor?, l.width, l.height⟩)

/-- A picture of the layer, to be had under its id. -/
def picture (l : Layer) (key : WidgetKey) : Widget :=
  .leaf key l.sizedStyle (.image ⟨.reserved l.id, .fill, l.altText⟩)

/-- What is added to the name of a widget for a tag without handling. -/
def unhandledMarker : String := "[unhandled node rasterized]"

/-- A picture of a layer with a tag without handling, marked in its name. -/
def unhandledPicture (l : Layer) (key : WidgetKey) : Widget :=
  l.picture { key with originName := key.originName ++ " " ++ unhandledMarker }

/-- A detected image; an image in a box keeps the corners and shadows of the box. -/
def imageWidget (l : Layer) (found : ImageMatch) (key : WidgetKey) : Widget :=
  let style :=
    if found.illustration then l.sizedStyle
    else { l.sizedStyle with borderRadius := l.radius?, shadows := l.shadows }
  .leaf key style (.image ⟨found.src, found.fit, l.altText⟩)

/-- A detected icon. -/
def iconWidget (l : Layer) (found : IconMatch) (key : WidgetKey) : Widget :=
  .leaf key l.sizedStyle (.icon ⟨found.glyph, found.size, found.color, found.src⟩)

/-- The icon that a flag asks for. -/
def flaggedIcon (l : Layer) (glyph : String) : IconMatch :=
  ⟨some glyph, l.longestSide, l.fillColor?, .reserved l.id⟩

/-! ### Boxes -/

/-- A rectangle. -/
def rectangleWidget (l : Layer) (key : WidgetKey) : Widget :=
  .box key l.boxStyle (.container .rectangle false) []

/-- An ellipse; an arc or a ring has no box, and is shown as a picture. -/
def ellipseWidget (l : Layer) (arc : Arc) (key : WidgetKey) : Widget :=
  if arc.isStandard then .box key l.boxStyle (.container .circle false) [] else l.picture key

/-- A line as a box that is as thick as its stroke. -/
def lineWidget (l : Layer) (key : WidgetKey) : Widget :=
  .box key
    { Style.sized l.width (Float.larger l.strokeWeight 1) with
      background := (primaryColor? l.strokes).map .color }
    (.container .rectangle false) []

/-- How a frame holds its children. -/
def arrangement (l : Layer) : Arrangement :=
  let line direction : FlexLine :=
    ⟨direction, l.layout.primaryAxis, l.layout.counterAxis, l.layout.itemSpacing⟩
  match l.layout.mode with
  | .none => .stack l.isRoot
  | .horizontal => .flex (line .row) l.isRoot
  | .vertical => .flex (line .column) l.isRoot

/-- A frame with its padding. -/
def frameWidget (l : Layer) (children : List (Placed Widget)) (key : WidgetKey) : Widget :=
  .box key
    { l.boxStyle with padding := if l.layout.padding.isZero then none else some l.layout.padding }
    l.arrangement children

/-- A group, which has a size and no look. -/
def groupWidget (l : Layer) (children : List (Placed Widget)) (key : WidgetKey) : Widget :=
  .box key l.sizedStyle .group children

end Layer

/-- The paths of all vectors among some nodes. -/
def vectorPaths (nodes : List Node) : List VectorPath :=
  nodes.flatMap fun n =>
    match n.layer.kind with
    | some (.vector paths) => paths
    | _ => []

end DesignCompiler
