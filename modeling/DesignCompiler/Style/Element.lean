import DesignCompiler.Markup.Tree
import DesignCompiler.Style.Value
import DesignCompiler.Widget.Basic
/-!
# The element of a widget

On the web, a widget with all the wrappers above it is one element. `Widget.element` gives its tag,
its fixed attributes and its own content; the elements of the children of the widget come after it.
-/

namespace DesignCompiler

/-- The element of a widget without the elements of its children. -/
structure OwnElement where
  start : StartTag
  text : Option String := none
  /-- The start tags of the empty elements inside, which are the paths of a drawing. -/
  shapes : List StartTag := []

/-- Whether nothing is inside. -/
def OwnElement.isVoid (e : OwnElement) : Bool := e.text.isNone && e.shapes.isEmpty

/-- The path of a drawing. A winding rule that is given goes before that of the path. -/
def pathTag (path : VectorPath) (fill : Option Color) (rule : Option WindingRule)
    (stroke : Option Border) : StartTag where
  name := "path"
  attributes :=
    [.ofText "d" path.data] ++
    (if rule.getD path.winding = .evenOdd then
      [.ofText "fill-rule" "evenodd", .ofText "clip-rule" "evenodd"]
    else []) ++
    [.ofText "fill" ((fill.map (·.cssText)).getD "none")] ++
    match stroke with
    | some border =>
      [.ofText "stroke" border.color.cssText, .ofText "stroke-width" (cssNumber border.width)]
    | none => []

/-- A drawing of some size. What lies outside its box is shown too. -/
def svgElement (width height : Float) (shapes : List StartTag) : OwnElement where
  start :=
    { name := "svg"
      attributes :=
        [.ofText "width" (cssNumber width),
          .ofText "height" (cssNumber height),
          .ofText "viewBox" s!"0 0 {cssNumber width} {cssNumber height}",
          .ofText "fill" "none",
          .ofText "xmlns" "http://www.w3.org/2000/svg",
          ⟨"style", .record [("overflow", "visible")]⟩] }
  shapes := shapes

/-- The winding rule of a boolean operation, where it does not go by that of the paths. -/
def BooleanOperation.winding? : BooleanOperation → Option WindingRule
  | subtract | exclude => some .evenOdd
  | union | intersect => none

/-- The element of what a leaf shows; the name describes an icon without a glyph. -/
def Leaf.element (name : String) : Leaf → OwnElement
  | .text content =>
    { start := { name := (content.tag.map (·.html)).getD "span" }, text := some content.data }
  | .image content =>
    { start := ⟨"img", [.ofText "src" content.src.source, .ofText "alt" content.alt]⟩ }
  | .icon content =>
    { start := ⟨"img", [.ofText "src" content.src.source, .ofText "alt" (content.glyph.getD name)]⟩ }
  | .vector content =>
    svgElement content.width content.height
      (content.paths.map fun p => pathTag p content.fill none content.stroke)
  | .boolean content =>
    svgElement content.width content.height
      (content.paths.map fun p => pathTag p content.fill content.operation.winding? none)

namespace Widget

/-- **The element of a widget,** which is that of the widget beneath its wrappers. -/
def element : Widget → OwnElement
  | leaf key _ content => content.element key.originName
  | box .. => { start := { name := "div" } }
  | wrap _ _ _ child => child.element

@[simp] theorem element_wrap (key : WidgetKey) (style : Style) (wrapper : Wrapper)
    (child : Widget) : (wrap key style wrapper child).element = child.element := rfl

/-- The element of a chain is that of the widget inside. -/
@[simp] theorem element_unwrapped (w : Widget) : w.unwrapped.element = w.element := by
  induction w using Widget.unwrapped.induct with
  | case1 key style wrapper child ih => simpa [element] using ih
  | case2 w h => cases w <;> simp_all [unwrapped]

end Widget

end DesignCompiler
