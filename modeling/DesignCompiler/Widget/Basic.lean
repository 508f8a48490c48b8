import DesignCompiler.Typography
import DesignCompiler.VectorPath
import DesignCompiler.Widget.Style
/-!
# Widgets

A `Widget` tree is what a design is lowered to and what every output is made from. A widget is
either a leaf with something to show, a box with placed children, or a wrapper around one child.
Wrappers carry one effect each, and form chains above the widget that they apply to.

* `Widget.walk` lists a widget and everything beneath it, parents first;
* `Widget.unwrapped` is the widget under a chain of wrappers;
* `Widget.imageRefs` lists the images that are drawn.
-/

namespace DesignCompiler

/-- The identity of a widget: an id, the name it came with, and the component it is one of. -/
structure WidgetKey where
  id : String
  originName : String
  component : Option String := none
deriving DecidableEq, Repr

namespace WidgetKey

/-- The key of something made for this widget, such as a wrapper around it. -/
def derived (k : WidgetKey) (suffix : String) : WidgetKey :=
  ⟨k.id ++ "." ++ suffix, k.originName ++ " " ++ suffix, none⟩

/-- The name that identifiers are made from: the component if there is one. -/
def name (k : WidgetKey) : String := k.component.getD k.originName

end WidgetKey

/-! ### Leaves -/

/-- A text to show. -/
structure TextContent where
  data : String
  style : TextStyle
  color : Option Color
  tag : Option TextTag

/-- How an image fills its box. -/
inductive BoxFit where
  | cover
  | contain
  | fill
deriving DecidableEq, Repr, Inhabited

/-- An image to show. -/
structure ImageContent where
  src : ImageRef
  fit : BoxFit
  alt : String

/-- An icon: a glyph of a stock set if it is known by name, with an image to fall back on. -/
structure IconContent where
  glyph : Option String
  size : Float
  color : Option Color
  src : ImageRef

/-- Paths drawn with a fill and a stroke. -/
structure VectorContent where
  paths : List VectorPath
  fill : Option Color
  stroke : Option Border
  width : Float
  height : Float

/-- Paths combined by a boolean operation. -/
structure BooleanContent where
  operation : BooleanOperation
  paths : List VectorPath
  fill : Option Color
  width : Float
  height : Float

/-- What a leaf shows. -/
inductive Leaf where
  | text (content : TextContent)
  | image (content : ImageContent)
  | icon (content : IconContent)
  | vector (content : VectorContent)
  | boolean (content : BooleanContent)

/-- Whether a leaf is a drawing. -/
def Leaf.isDrawing : Leaf → Bool
  | vector _ | boolean _ => true
  | text _ | image _ | icon _ => false

/-! ### Boxes -/

/-- The outline of a container. -/
inductive BoxShape where
  | rectangle
  | circle
deriving DecidableEq, Repr, Inhabited

/-- How a line of items is laid out. -/
structure FlexLine where
  direction : Direction
  mainAxis : AxisAlignment
  crossAxis : AxisAlignment
  gap : Float

/-- How a box holds its children. -/
inductive Arrangement where
  /-- Placed within an outline that may clip them. -/
  | container (shape : BoxShape) (clip : Bool)
  /-- Placed, without an outline. -/
  | group
  /-- Placed, within a frame. -/
  | stack (isRoot : Bool)
  /-- One after the other. -/
  | flex (line : FlexLine) (isRoot : Bool)

/-- Something at an offset from the box that holds it. -/
structure Placed (α : Type) where
  x : Float
  y : Float
  item : α

/-! ### Wrappers -/

/-- The axis along which a widget fills its parent. -/
inductive StretchAxis where
  | horizontal
  | vertical
  | both
  /-- The axis across the line that the widget is in. -/
  | cross
deriving DecidableEq, Repr, Inhabited

/-- An effect on one widget. -/
inductive Wrapper where
  | opacity (opacity : Float)
  | stretched (axis : StretchAxis)
  | expanded (flex : UInt32)
  | blurred (blur : Blur)
  /-- In radians, counterclockwise. -/
  | rotation (angle : Float)
  | sizedBox (width height : Float)
  | overflowBox

/-- **A widget:** a leaf, a box with children, or a wrapper around a widget. -/
inductive Widget where
  | leaf (key : WidgetKey) (style : Style) (content : Leaf)
  | box (key : WidgetKey) (style : Style) (arrangement : Arrangement)
      (children : List (Placed Widget))
  | wrap (key : WidgetKey) (style : Style) (wrapper : Wrapper) (child : Widget)

instance : Inhabited Widget := ⟨.box ⟨"", "", none⟩ {} .group []⟩

namespace Widget

/-- The identity of a widget. -/
def key : Widget → WidgetKey
  | leaf key .. | box key .. | wrap key .. => key

/-- The look of a widget. -/
def style : Widget → Style
  | leaf _ style _ | box _ style .. | wrap _ style .. => style

/-- The id of a widget. -/
def id (w : Widget) : String := w.key.id

/-- Whether a widget is a wrapper. -/
def isWrapper : Widget → Bool
  | wrap .. => true
  | _ => false

/-- The placed children of a box; others have none. -/
def layoutChildren : Widget → List (Placed Widget)
  | box _ _ _ children => children
  | _ => []

/-- The direct children, of a wrapper too. -/
def children : Widget → List Widget
  | wrap _ _ _ child => [child]
  | w => w.layoutChildren.map (·.item)

/-- The widget beneath a chain of wrappers. -/
def unwrapped : Widget → Widget
  | wrap _ _ _ child => child.unwrapped
  | w => w

/-- The wrappers above `unwrapped`, outermost first. -/
def wrappers : Widget → List Wrapper
  | wrap _ _ wrapper child => wrapper :: child.wrappers
  | _ => []

/-- A wrapper without a style of its own. -/
def wrapped (child : Widget) (key : WidgetKey) (wrapper : Wrapper) : Widget :=
  wrap key {} wrapper child

mutual

/-- A widget, then everything beneath it. -/
def walk : Widget → List Widget
  | leaf key style content => [leaf key style content]
  | box key style arrangement children =>
    box key style arrangement children :: walkAll children
  | wrap key style wrapper child => wrap key style wrapper child :: child.walk

/-- The widgets of several placed trees, tree by tree. -/
def walkAll : List (Placed Widget) → List Widget
  | [] => []
  | ⟨_, _, w⟩ :: rest => w.walk ++ walkAll rest

end

/-- The name of the kind of a widget. -/
def kindName : Widget → String
  | leaf _ _ (.text _) => "Text"
  | leaf _ _ (.image _) => "Image"
  | leaf _ _ (.icon _) => "Icon"
  | leaf _ _ (.vector _) => "Vector"
  | leaf _ _ (.boolean _) => "BooleanOperation"
  | box _ _ (.container ..) _ => "Container"
  | box _ _ .group _ => "Group"
  | box _ _ (.stack _) _ | box _ _ (.flex ..) _ => "Layout"
  | wrap _ _ (.opacity _) _ => "Opacity"
  | wrap _ _ (.stretched _) _ => "Stretched"
  | wrap _ _ (.expanded _) _ => "Expanded"
  | wrap _ _ (.blurred _) _ => "Blurred"
  | wrap _ _ (.rotation _) _ => "Rotation"
  | wrap _ _ (.sizedBox ..) _ => "SizedBox"
  | wrap _ _ .overflowBox _ => "OverflowBox"

/-- The images that a widget itself shows: its background, then its content. A named glyph needs no
image. -/
def ownImageRefs (w : Widget) : List ImageRef :=
  (match w.style.background with
    | some (.image ref) => [ref]
    | _ => []) ++
  match w with
  | leaf _ _ (.image content) => [content.src]
  | leaf _ _ (.icon content) => if content.glyph.isNone then [content.src] else []
  | _ => []

/-- The images that a tree shows, in the order of the walk. -/
def imageRefs (w : Widget) : List ImageRef := w.walk.flatMap ownImageRefs

@[simp] theorem unwrapped_wrap (key : WidgetKey) (style : Style) (wrapper : Wrapper)
    (child : Widget) : (wrap key style wrapper child).unwrapped = child.unwrapped := rfl

@[simp] theorem unwrapped_wrapped (child : Widget) (key : WidgetKey) (wrapper : Wrapper) :
    (child.wrapped key wrapper).unwrapped = child.unwrapped := rfl

/-- Children are walked one after the other. -/
theorem walkAll_eq_flatMap (children : List (Placed Widget)) :
    walkAll children = children.flatMap fun c => c.item.walk := by
  induction children with
  | nil => rfl
  | cons c rest ih => obtain ⟨x, y, w⟩ := c; simp [walkAll, ih]

end Widget

end DesignCompiler
