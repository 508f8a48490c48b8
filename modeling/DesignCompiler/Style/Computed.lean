import DesignCompiler.Style.Css
import DesignCompiler.Style.Value
import DesignCompiler.Widget.Basic
/-!
# Computed style of an element

An element stands for a widget and the wrappers above it, so its style has three parts: the
declarations of the widget itself (`Widget.ownDeclarations?`), what each wrapper adds
(`Wrapper.addTo`), and where the element stands in its parent (`Placement.declarations`). A later
part overrides an earlier one, in its place.

`Widget.css?` is the result. It is `none` for a drawing that nothing else has to be said about,
which carries its look in attributes, and a record without declarations is not `none`.
-/

namespace DesignCompiler

/-- Where an element stands within its parent. -/
inductive Placement where
  /-- On top of everything. -/
  | root
  /-- At an offset. -/
  | absolute (x y : Float)
  /-- In a line. -/
  | flex (direction : Direction)

/-- The placement of a child of a box. -/
def Arrangement.placement (child : Placed Widget) : Arrangement → Placement
  | .flex line _ => .flex line.direction
  | .container .. | .group | .stack _ => .absolute child.x child.y

/-- The placements of the children of a widget. -/
def Widget.childPlacements : Widget → List Placement
  | .box _ _ arrangement children => children.map arrangement.placement
  | _ => []

/-! ### Own declarations -/

/-- Properties and values in the order in which they are set. -/
abbrev Declarations := List (String × String)

/-- One property, where there is a value. -/
def declare? {α : Type} (property : String) (write : α → String) (value : Option α) : Declarations :=
  (value.map fun v => (property, write v)).toList

namespace Style

/-- The sizes that are present. -/
def sizeDeclarations (s : Style) : Declarations :=
  declare? "width" px s.width ++ declare? "height" px s.height ++
  declare? "min-width" px s.minWidth ++ declare? "max-width" px s.maxWidth

/-- The shadows, where there are any. -/
def shadowDeclarations (s : Style) : Declarations :=
  if s.shadows.isEmpty then [] else [("box-shadow", shadowsValue s.shadows)]

end Style

/-- What fills a box; a gradient without a CSS form is left out. -/
def Background.declarations : Background → Declarations
  | color c => [("background-color", c.cssText)]
  | gradient g => declare? "background" id (gradientValue? g)
  | image ref =>
    [("background-image", "url(" ++ ref.source ++ ")"), ("background-size", "cover"),
      ("background-position", "center")]

/-- A border in shorthand. -/
def Border.value (b : Border) : String := s!"{px b.width} solid {b.color.cssText}"

/-- The look of a box. -/
def Style.boxDeclarations (s : Style) : Declarations :=
  s.sizeDeclarations ++
  (match s.background with
    | some background => background.declarations
    | none => []) ++
  declare? "border" Border.value s.border ++
  declare? "border-radius" cornersValue s.borderRadius ++
  s.shadowDeclarations ++
  (match s.padding with
    | some insets => [("padding", insetsValue insets), ("box-sizing", "border-box")]
    | none => [])

/-- The value for an alignment of text; the one on the left is the default. -/
def TextAlign.value? : TextAlign → Option String
  | left => none
  | center => some "center"
  | right => some "right"
  | justified => some "justify"

/-- The value for a line under or through a text. -/
def TextDecoration.value? : TextDecoration → Option String
  | none => Option.none
  | underline => some "underline"
  | strikethrough => some "line-through"

/-- The typography of a text. -/
def TextStyle.declarations (t : TextStyle) : Declarations :=
  [("font-family", "\"" ++ t.fontFamily ++ "\""), ("font-size", px t.fontSize),
    ("font-weight", toString t.fontWeight.toNat)] ++
  declare? "line-height" px t.lineHeight ++
  declare? "letter-spacing" px t.letterSpacing ++
  declare? "text-align" id t.align.value? ++
  declare? "text-decoration" id t.decoration.value?

/-- The value for a fit. -/
def BoxFit.value : BoxFit → String
  | cover => "cover"
  | contain => "contain"
  | fill => "fill"

/-- The value for a direction. -/
def Direction.value : Direction → String
  | row => "row"
  | column => "column"

/-- The value for an alignment along a line. -/
def AxisAlignment.justifyValue : AxisAlignment → String
  | min => "flex-start"
  | center => "center"
  | max => "flex-end"
  | spaceBetween => "space-between"

/-- The value for an alignment across a line, where nothing can be spread. -/
def AxisAlignment.alignValue : AxisAlignment → String
  | min | spaceBetween => "flex-start"
  | center => "center"
  | max => "flex-end"

/-- What a leaf sets; drawings set nothing. -/
def Leaf.declarations? (s : Style) : Leaf → Option Declarations
  | .vector _ | .boolean _ => none
  | .text content =>
    some (s.sizeDeclarations ++ declare? "color" Color.cssText content.color ++
      content.style.declarations)
  | .image content =>
    some (s.sizeDeclarations ++ [("object-fit", content.fit.value)] ++
      declare? "border-radius" cornersValue s.borderRadius ++ s.shadowDeclarations)
  | .icon _ => some s.sizeDeclarations

/-- What a line of items sets. -/
def FlexLine.declarations (line : FlexLine) : Declarations :=
  [("display", "flex"), ("flex-direction", line.direction.value),
    ("justify-content", line.mainAxis.justifyValue), ("align-items", line.crossAxis.alignValue)] ++
  if line.gap > 0 then [("gap", px line.gap)] else []

/-- What the root of a screen sets. -/
def rootDeclarations (isRoot : Bool) : Declarations := if isRoot then [("overflow", "hidden")] else []

/-- What a box sets, with or without children. -/
def Arrangement.declarations (s : Style) (empty : Bool) : Arrangement → Declarations
  | .container shape clip =>
    s.boxDeclarations ++
    (if shape = .circle then [("border-radius", "50%")] else []) ++
    (if clip then [("overflow", "hidden")] else []) ++
    (if empty then [] else [("position", "relative")])
  | .group => s.sizeDeclarations ++ [("position", "relative")]
  | .stack isRoot => s.boxDeclarations ++ [("position", "relative")] ++ rootDeclarations isRoot
  | .flex line isRoot => s.boxDeclarations ++ line.declarations ++ rootDeclarations isRoot

/-- **What a widget itself sets;** a wrapper sets nothing by itself. -/
def Widget.ownDeclarations? : Widget → Option Declarations
  | .leaf _ style content => content.declarations? style
  | .box _ style arrangement children => some (arrangement.declarations style children.isEmpty)
  | .wrap .. => some []

/-! ### Wrappers and placement -/

/-- The property for a kind of blur. -/
def BlurKind.property : BlurKind → String
  | layer => "filter"
  | background => "backdrop-filter"

/-- What filling the parent along an axis sets. -/
def StretchAxis.declarations (placement : Placement) : StretchAxis → Declarations
  | horizontal => [("width", "100%")]
  | vertical => [("height", "100%")]
  | both => [("width", "100%"), ("height", "100%")]
  | cross =>
    match placement with
    | .flex _ => [("align-self", "stretch")]
    | .root | .absolute .. => []

/-- **What a wrapper adds** to what those outside it have set. Blurs of one kind make one list. -/
def Wrapper.addTo (placement : Placement) (css : Css) : Wrapper → Css
  | opacity value => css.put "opacity" (cssNumber value)
  | stretched axis => css.setAll (axis.declarations placement)
  | expanded flex => css.put "flex-grow" (toString flex.toNat)
  | blurred blur =>
    let property := blur.kind.property
    let value := "blur(" ++ px blur.radius ++ ")"
    css.put property (match css.get? property with
      | some existing => existing ++ " " ++ value
      | none => value)
  | rotation angle => css.put "transform" ("rotate(" ++ radians angle ++ "rad)")
  | sizedBox width height => css.setAll [("width", px width), ("height", px height)]
  | overflowBox => css.put "overflow" "hidden"

/-- What an offset sets. -/
def Placement.declarations : Placement → Declarations
  | absolute x y => [("position", "absolute"), ("left", px x), ("top", px y)]
  | root | flex _ => []

/-- What the wrappers of a chain and the placement set, outermost wrapper first. -/
def extraCss (wrappers : List Wrapper) (placement : Placement) : Css :=
  Css.setAll (wrappers.foldl (Wrapper.addTo placement) .empty) placement.declarations

/-- **The computed style of the chain that starts at a widget.** -/
def Widget.css? (head : Widget) (placement : Placement) : Option Css :=
  let extra := extraCss head.wrappers placement
  match head.unwrapped.ownDeclarations? with
  | some own => some ((Css.setAll .empty own).setAll extra.toList)
  | none => if extra.isEmpty then none else some extra

end DesignCompiler
