import DesignCompiler.Code.Print
import DesignCompiler.Emit.Web
/-!
# Flutter output

A widget tree becomes one expression of constructor calls. Boxes are containers with a decoration,
lines of items are rows and columns, placed children stand in stacks, and each wrapper is the
Flutter widget for its effect. Drawings are put in as SVG text.

`Flutter.draft` builds the expression, and tells on the way whether there are blurs and drawings in
it, which need imports of their own. Inside a line, a child that takes a share of the space must be
a direct item, so its `Expanded` stands outside its other wrappers (`Flutter.draftItems`).
-/

namespace DesignCompiler

namespace Flutter

/-! ### Calls -/

/-- A labelled argument. -/
def named (label : String) (value : Expr) : Argument Expr := ⟨some label, value⟩

/-- An argument without a label. -/
def plain (value : Expr) : Argument Expr := ⟨none, value⟩

/-- A number. -/
def number (value : Float) : Expr := .literal (cssNumber value)

/-- A labelled number. -/
def numbered (label : String) (value : Float) : Argument Expr := named label (number value)

/-- A labelled member of an enumeration. -/
def member (label type name : String) : Argument Expr := named label (.literal (type ++ "." ++ name))

/-- A string. -/
def string (text : String) : Expr := .literal (dartQuoted text)

/-- A labelled argument, where there is a value. -/
def named? {α : Type} (label : String) (f : α → Expr) (value : Option α) : List (Argument Expr) :=
  (value.map fun v => named label (f v)).toList

/-- A widget around another one. -/
def around (callee : String) (arguments : List (Argument Expr)) (child : Expr) : Expr :=
  .call callee (arguments ++ [named "child" child])

/-! ### Values -/

/-- A color. -/
def color (c : Color) : Expr := .literal ("Color(0x" ++ c.argbText ++ ")")

/-- A point of a box, its middle at zero and its edges at one. -/
def alignment (x y : Float) : Expr :=
  .literal ("Alignment(" ++ cssNumber x ++ ", " ++ cssNumber y ++ ")")

/-- Insets: one value where all sides agree. -/
def insets (i : Insets) : Expr :=
  if i.top == i.top && i.right == i.top && i.bottom == i.top && i.left == i.top then
    .call "EdgeInsets.all" [plain (number i.top)]
  else
    .call "EdgeInsets.only"
      [numbered "left" i.left, numbered "top" i.top, numbered "right" i.right,
        numbered "bottom" i.bottom]

/-- A corner. -/
def corner (radius : Float) : Expr := .call "Radius.circular" [plain (number radius)]

/-- Corner radii: one value where they agree. -/
def corners (c : Corners) : Expr :=
  if c.isUniform then .call "BorderRadius.circular" [plain (number c.topLeft)]
  else
    .call "BorderRadius.only"
      [named "topLeft" (corner c.topLeft), named "topRight" (corner c.topRight),
        named "bottomRight" (corner c.bottomRight), named "bottomLeft" (corner c.bottomLeft)]

/-- The width and the height, where they are given. -/
def sizeArguments (s : Style) : List (Argument Expr) :=
  named? "width" number s.width ++ named? "height" number s.height

/-- The bounds of the width, if there are any. -/
def widthBounds? (s : Style) : Option Expr :=
  let bounds := named? "minWidth" number s.minWidth ++ named? "maxWidth" number s.maxWidth
  if bounds.isEmpty then none else some (.call "BoxConstraints" bounds)

/-- Degrees as radians. -/
def toRadians (degrees : Float) : Float := degrees * Float.ofBits 0x3f91df46a2529d39

/-- A gradient; one around the middle and a diamond have no such form. -/
def gradient? (g : Gradient) : Option Expr :=
  let stops :=
    [named "colors" (.list (g.stops.map fun s => color s.color)),
      named "stops"
        (.literal ("[" ++ ", ".intercalate (g.stops.map fun s => cssNumber s.position) ++ "]"))]
  match g with
  | .linear angle _ =>
    -- An angle of zero points upwards, and turns clockwise.
    let dx := (toRadians angle).sin
    let dy := -(toRadians angle).cos
    some (.call "LinearGradient"
      ([named "begin" (alignment (-dx) (-dy)), named "end" (alignment dx dy)] ++ stops))
  | .radial centerX centerY radius _ =>
    some (.call "RadialGradient"
      ([named "center" (alignment (centerX * 2 - 1) (centerY * 2 - 1)),
        numbered "radius" (radius * 0.5)] ++ stops))
  | .angular .. | .diamond _ => none

/-! ### Boxes -/

/-- What fills a box. -/
def background : Background → List (Argument Expr)
  | .color c => [named "color" (color c)]
  | .gradient g => named? "gradient" id (gradient? g)
  | .image ref =>
    [named "image"
      (.call "DecorationImage"
        [named "image" (.call "NetworkImage" [plain (string ref.source)]),
          member "fit" "BoxFit" "cover"])]

/-- A border. -/
def border (b : Border) : Expr :=
  .call "Border.all" [named "color" (color b.color), numbered "width" b.width]

/-- A shadow outside a box. -/
def shadow (s : Shadow) : Expr :=
  .call "BoxShadow"
    [named "color" (color s.color),
      named "offset" (.literal ("Offset(" ++ cssNumber s.x ++ ", " ++ cssNumber s.y ++ ")")),
      numbered "blurRadius" s.blur, numbered "spreadRadius" s.spread]

/-- The radii of corners, where a corner is rounded. -/
def rounded? (s : Style) : Option Corners := s.borderRadius.filter (!·.isZero)

/-- The arguments of a decoration. A shadow inside a box has no such form. -/
def decorationArguments (s : Style) (shape : BoxShape) : List (Argument Expr) :=
  let outer := s.shadows.filter (!·.inset)
  (match s.background with
    | some b => background b
    | none => []) ++
  named? "border" border s.border ++
  (if shape = .circle then [member "shape" "BoxShape" "circle"]
    else named? "borderRadius" corners (rounded? s)) ++
  (if outer.isEmpty then [] else [named "boxShadow" (.list (outer.map shadow))])

/-- The decoration of a box. One that clips needs a decoration, if only an empty one. -/
def decoration? (s : Style) (shape : BoxShape) (clip : Bool) : Option Expr :=
  let arguments := decorationArguments s shape
  if arguments.isEmpty && !clip then none else some (.call "BoxDecoration" arguments)

/-- A box with what is in it. -/
def container (s : Style) (shape : BoxShape) (clip : Bool) (child : Option Expr) : Expr :=
  .call "Container"
    (sizeArguments s ++ named? "constraints" id (widthBounds? s) ++
      named? "padding" insets (s.padding.filter (!·.isZero)) ++
      named? "decoration" id (decoration? s shape clip) ++
      (if clip then [member "clipBehavior" "Clip" "hardEdge"] else []) ++
      named? "child" id child)

/-- Children at offsets, if there are any. -/
def stack? (children : List Expr) : Option Expr :=
  if children.isEmpty then none else some (.call "Stack" [named "children" (.list children)])

/-- A child at an offset. -/
def positioned (x y : Float) (child : Expr) : Expr :=
  around "Positioned" [numbered "left" x, numbered "top" y] child

/-- The member for an alignment along a line. -/
def mainAxis : AxisAlignment → String
  | .min => "start"
  | .center => "center"
  | .max => "end"
  | .spaceBetween => "spaceBetween"

/-- The member for an alignment across a line, where nothing can be spread. -/
def crossAxis : AxisAlignment → String
  | .min | .spaceBetween => "start"
  | .center => "center"
  | .max => "end"

/-- The widget for a direction. -/
def lineName : Direction → String
  | .row => "Row"
  | .column => "Column"

/-- A line of items. -/
def flexLine (line : FlexLine) (items : List Expr) : Expr :=
  .call (lineName line.direction)
    [member "mainAxisAlignment" "MainAxisAlignment" (mainAxis line.mainAxis),
      member "crossAxisAlignment" "CrossAxisAlignment" (crossAxis line.crossAxis),
      named "children" (.list items)]

/-- The empty box between two items of a line. -/
def spacer (line : FlexLine) : Expr :=
  .call "SizedBox" [numbered (match line.direction with | .row => "width" | .column => "height") line.gap]

/-! ### Leaves -/

/-- The weight of a font to the nearest of nine steps; half a step goes up. -/
def weightStep (weight : UInt16) : Nat := max 100 (min 900 (min 65535 (weight.toNat + 50) / 100 * 100))

/-- The member for a line under or through a text. -/
def decorationName? : TextDecoration → Option String
  | .none => none
  | .underline => some "underline"
  | .strikethrough => some "lineThrough"

/-- The member for an alignment of text. -/
def alignName : TextAlign → String
  | .left => "left"
  | .center => "center"
  | .right => "right"
  | .justified => "justify"

/-- The style of a text. Its line height is a multiple of the size of the font. -/
def textStyle (content : TextContent) : Expr :=
  let s := content.style
  .call "TextStyle"
    (named? "color" color content.color ++
      [numbered "fontSize" s.fontSize, named "fontFamily" (string s.fontFamily),
        member "fontWeight" "FontWeight" ("w" ++ toString (weightStep s.fontWeight))] ++
      (if s.fontSize > 0 then named? "height" (fun h => number (h / s.fontSize)) s.lineHeight
        else []) ++
      named? "letterSpacing" number s.letterSpacing ++
      named? "decoration" (fun name => .literal ("TextDecoration." ++ name))
        (decorationName? s.decoration))

/-- A text, in a box of its width, within the bounds of the width. -/
def text (s : Style) (content : TextContent) : Expr :=
  let bare := Expr.call "Text"
    [plain (string content.data), named "style" (textStyle content),
      member "textAlign" "TextAlign" (alignName content.style.align)]
  let sized :=
    match s.width with
    | some width => around "SizedBox" [numbered "width" width] bare
    | none => bare
  match widthBounds? s with
  | some bounds => around "ConstrainedBox" [named "constraints" bounds] sized
  | none => sized

/-- An image, with its corners cut where they are rounded. -/
def image (s : Style) (content : ImageContent) : Expr :=
  let bare := Expr.call "Image.network"
    ([plain (string content.src.source)] ++ sizeArguments s ++
      [member "fit" "BoxFit" content.fit.value])
  match rounded? s with
  | some radius => around "ClipRRect" [named "borderRadius" (corners radius)] bare
  | none => bare

/-- The stock glyphs. -/
def materialIcons : List String :=
  ["account_circle", "add", "add_circle", "arrow_back", "arrow_downward", "arrow_drop_down",
    "arrow_drop_up", "arrow_forward", "arrow_upward", "bookmark", "calendar_today", "call",
    "camera_alt", "chat", "check", "check_circle", "chevron_left", "chevron_right", "close",
    "cloud", "delete", "download", "edit", "email", "error", "expand_less", "expand_more",
    "favorite", "favorite_border", "filter_list", "help", "help_outline", "home", "image",
    "info", "link", "location_on", "lock", "logout", "mail", "menu", "mic", "more_horiz",
    "more_vert", "notifications", "pause", "person", "phone", "photo_camera", "play_arrow",
    "refresh", "remove", "search", "send", "settings", "share", "shopping_cart", "sort", "star",
    "star_border", "thumb_up", "upload", "visibility", "visibility_off", "warning"]

/-- The stock glyph for a name, a question mark where there is none. -/
def glyph (name : String) : Expr :=
  .literal ("Icons." ++ if materialIcons.contains name then name else "help_outline")

/-- An icon: its glyph, or its image where it has none. -/
def icon (content : IconContent) : Expr :=
  match content.glyph with
  | some name =>
    .call "Icon"
      ([plain (glyph name), numbered "size" content.size] ++ named? "color" color content.color)
  | none =>
    .call "Image.network"
      [plain (string content.src.source), numbered "width" content.size,
        numbered "height" content.size]

/-- A drawing as markup. -/
def svgMarkup (e : OwnElement) : Markup :=
  let plainTag (t : StartTag) : StartTag := ⟨t.name, t.attributes.map Attribute.plain⟩
  .element (plainTag e.start) (e.shapes.map fun t => .element (plainTag t) [])

/-- A drawing as text on one line: the lines of its markup trimmed and joined. -/
def svgText (e : OwnElement) : String :=
  String.ofList ((lines ((svgMarkup e).write .html 0).toList).map trimBlanks).flatten

/-- A drawing. -/
def svg (s : Style) (e : OwnElement) : Expr :=
  .call "SvgPicture.string" (plain (.literal ("'''" ++ svgText e ++ "'''")) :: sizeArguments s)

/-- What a leaf shows. -/
def leaf (key : WidgetKey) (s : Style) : Leaf → Expr
  | .text content => text s content
  | .image content => image s content
  | .icon content => icon content
  | .vector content => svg s (Leaf.element key.originName (.vector content))
  | .boolean content => svg s (Leaf.element key.originName (.boolean content))

/-! ### Wrappers -/

/-- The axis that a stretched widget fills in the line that it is in; outside a line, nothing is
across. -/
def stretchAxis? (parent : Option Direction) : StretchAxis → Option StretchAxis
  | .cross =>
    match parent with
    | some .row => some .vertical
    | some .column => some .horizontal
    | none => none
  | axis => some axis

/-- A widget that fills an axis. -/
def stretched (axis : Option StretchAxis) (child : Expr) : Expr :=
  match axis with
  | some .horizontal => around "SizedBox" [named "width" (.literal "double.infinity")] child
  | some .vertical => around "SizedBox" [named "height" (.literal "double.infinity")] child
  | some .both | some .cross => around "SizedBox.expand" [] child
  | none => child

/-- A blur of a widget, or of what is behind it. -/
def blurred (blur : Blur) (child : Expr) : Expr :=
  let filter := Expr.call "ui.ImageFilter.blur"
    [numbered "sigmaX" blur.radius, numbered "sigmaY" blur.radius]
  match blur.kind with
  | .layer => around "ImageFiltered" [named "imageFilter" filter] child
  | .background => around "ClipRect" [] (around "BackdropFilter" [named "filter" filter] child)

/-- **An effect around a widget.** A share of the space is not put here, but at the item of the line
that the widget is in. -/
def wrapper (parent : Option Direction) (w : Wrapper) (child : Expr) : Expr :=
  match w with
  | .opacity opacity => around "Opacity" [numbered "opacity" opacity] child
  | .stretched axis => stretched (stretchAxis? parent axis) child
  | .expanded _ => child
  | .blurred blur => blurred blur child
  | .rotation angle => around "Transform.rotate" [named "angle" (.literal (Float.text angle))] child
  | .sizedBox width height =>
    around "SizedBox" [numbered "width" width, numbered "height" height] child
  | .overflowBox =>
    around "ClipRect" []
      (around "OverflowBox" [named "alignment" (.literal "Alignment.topLeft")] child)

/-- The share of the space that a chain asks for, by its outermost wrapper of that kind. -/
def flexShare? (w : Widget) : Option UInt32 :=
  w.wrappers.findSome? fun
    | .expanded flex => some flex
    | _ => none

/-- An item of a line, with its share of the space. -/
def flexItem (share : Option UInt32) (item : Expr) : Expr :=
  match share with
  | some flex => around "Expanded" [named "flex" (.literal (toString flex.toNat))] item
  | none => item

/-! ### Trees -/

/-- Something that is built, with what it needs beyond the stock widgets. -/
structure Draft (α : Type) where
  value : α
  blur : Bool := false
  drawing : Bool := false

namespace Draft

variable {α β γ : Type}

/-- Something made of a draft needs what the draft needs. -/
def map (f : α → β) (d : Draft α) : Draft β := { d with value := f d.value }

/-- Something made of two drafts needs what one of them needs. -/
def both (f : α → β → γ) (a : Draft α) (b : Draft β) : Draft γ :=
  ⟨f a.value b.value, a.blur || b.blur, a.drawing || b.drawing⟩

end Draft

/-- An effect around a draft. A blur needs filters. -/
def effect (parent : Option Direction) (w : Wrapper) (child : Draft Expr) : Draft Expr :=
  let drafted := child.map (wrapper parent w)
  match w with
  | .blurred _ => { drafted with blur := true }
  | _ => drafted

mutual

/-- **A widget** in a line of some direction, or outside lines. -/
def draft (parent : Option Direction) : Widget → Draft Expr
  | .leaf key style content => { value := leaf key style content, drawing := content.isDrawing }
  | .box _ style (.container shape clip) children =>
    (draftPositioned children).map fun items => container style shape clip (stack? items)
  | .box _ style .group children =>
    (draftPositioned children).map fun items =>
      .call "SizedBox" (sizeArguments style ++ named? "child" id (stack? items))
  | .box _ style (.stack isRoot) children =>
    (draftPositioned children).map fun items => container style .rectangle isRoot (stack? items)
  | .box _ style (.flex line isRoot) children =>
    (draftItems line true children).map fun items =>
      container style .rectangle isRoot (some (flexLine line items))
  | .wrap _ _ w child => effect parent w (draft parent child)

/-- Children at their offsets. -/
def draftPositioned : List (Placed Widget) → Draft (List Expr)
  | [] => { value := [] }
  | ⟨x, y, w⟩ :: rest => (draft none w).both (positioned x y · :: ·) (draftPositioned rest)

/-- The items of a line, with the gap before each but the first. -/
def draftItems (line : FlexLine) (first : Bool) : List (Placed Widget) → Draft (List Expr)
  | [] => { value := [] }
  | ⟨_, _, w⟩ :: rest =>
    (draft (some line.direction) w).both
      (fun item items =>
        (if !first && line.gap > 0 then [spacer line] else []) ++
          flexItem (flexShare? w) item :: items)
      (draftItems line false rest)

end

/-- The expression of a widget. -/
def expr (parent : Option Direction) (w : Widget) : Expr := (draft parent w).value

/-- The expressions of children at their offsets. -/
def positionedItems (children : List (Placed Widget)) : List Expr := (draftPositioned children).value

/-- The expressions of the items of a line. -/
def flexItems (line : FlexLine) (first : Bool) (children : List (Placed Widget)) : List Expr :=
  (draftItems line first children).value

section Equations

variable (parent : Option Direction) (key : WidgetKey) (s : Style) (children : List (Placed Widget))

theorem expr_leaf (content : Leaf) : expr parent (.leaf key s content) = leaf key s content := by
  rw [expr, draft]

/-- A container stacks its children behind its look. -/
theorem expr_container (shape : BoxShape) (clip : Bool) :
    expr parent (.box key s (.container shape clip) children) =
      container s shape clip (stack? (positionedItems children)) := by
  rw [expr, draft]
  rfl

/-- A group is a box of its size around the stacked children. -/
theorem expr_group :
    expr parent (.box key s .group children) =
      .call "SizedBox"
        (sizeArguments s ++ named? "child" id (stack? (positionedItems children))) := by
  rw [expr, draft]
  rfl

/-- A stack is a container, clipped at the root. -/
theorem expr_stack (isRoot : Bool) :
    expr parent (.box key s (.stack isRoot) children) =
      container s .rectangle isRoot (stack? (positionedItems children)) := by
  rw [expr, draft]
  rfl

/-- A flex box lines its children up in a container. -/
theorem expr_flex (line : FlexLine) (isRoot : Bool) :
    expr parent (.box key s (.flex line isRoot) children) =
      container s .rectangle isRoot (some (flexLine line (flexItems line true children))) := by
  rw [expr, draft]
  rfl

/-- A wrapper is written around its child, which keeps the line it stands in. -/
theorem expr_wrap (w : Wrapper) (child : Widget) :
    expr parent (.wrap key s w child) = wrapper parent w (expr parent child) := by
  rw [expr, draft]
  cases w <;> rfl

theorem positionedItems_nil : positionedItems [] = [] := by rw [positionedItems, draftPositioned]

/-- Stacked children are each positioned, outside of any line. -/
theorem positionedItems_cons (x y : Float) (w : Widget) :
    positionedItems (⟨x, y, w⟩ :: children) =
      positioned x y (expr none w) :: positionedItems children := by
  rw [positionedItems, draftPositioned]
  rfl

theorem flexItems_nil (line : FlexLine) (first : Bool) : flexItems line first [] = [] := by
  rw [flexItems, draftItems]

/-- A child in a line comes behind the gap, with its share of the line. -/
theorem flexItems_cons (line : FlexLine) (first : Bool) (x y : Float) (w : Widget) :
    flexItems line first (⟨x, y, w⟩ :: children) =
      (if !first && line.gap > 0 then [spacer line] else []) ++
        flexItem (flexShare? w) (expr (some line.direction) w) ::
          flexItems line false children := by
  rw [flexItems, draftItems]
  rfl

/-- Children at their offsets are written child by child. -/
theorem positionedItems_eq_map :
    positionedItems children = children.map fun c => positioned c.x c.y (expr none c.item) := by
  induction children with
  | nil => exact positionedItems_nil
  | cons c rest ih =>
    obtain ⟨x, y, w⟩ := c
    rw [positionedItems_cons, ih, List.map_cons]

/-- A line holds nothing but the items of its children and the space between them. -/
theorem mem_flexItems {line : FlexLine} {e : Expr} :
    ∀ {first}, e ∈ flexItems line first children → e = spacer line ∨
      ∃ c ∈ children, e = flexItem (flexShare? c.item) (expr (some line.direction) c.item) := by
  induction children with
  | nil =>
    intro first he
    rw [flexItems_nil] at he
    exact absurd he List.not_mem_nil
  | cons c rest ih =>
    intro first he
    obtain ⟨x, y, w⟩ := c
    rw [flexItems_cons, List.mem_append, List.mem_cons] at he
    -- In front of each child but the first is the space of the line.
    rcases he with he | rfl | he
    · split at he
      · exact Or.inl (List.mem_singleton.mp he)
      · exact absurd he List.not_mem_nil
    · exact Or.inr ⟨_, List.mem_cons_self, rfl⟩
    · exact (ih he).imp_right fun ⟨c, hc, heq⟩ => ⟨c, List.mem_cons_of_mem _ hc, heq⟩

/-- What the space has none of, a line has as its items do. -/
theorem flatMap_flexItems {β : Type} {f : Expr → List β} {line : FlexLine}
    (hspacer : f (spacer line) = []) :
    ∀ first, (flexItems line first children).flatMap f = children.flatMap fun c =>
      f (flexItem (flexShare? c.item) (expr (some line.direction) c.item)) := by
  induction children with
  | nil =>
    intro first
    rw [flexItems_nil, List.flatMap_nil, List.flatMap_nil]
  | cons c rest ih =>
    intro first
    obtain ⟨x, y, w⟩ := c
    have hgap : (if !first && line.gap > 0 then [spacer line] else []).flatMap f = [] := by
      split
      · rw [List.flatMap_singleton, hspacer]
      · rfl
    rw [flexItems_cons, List.flatMap_append, List.flatMap_cons, List.flatMap_cons, hgap, ih,
      List.nil_append]

end Equations

/-- **The module of a widget tree,** with the imports that blurs and drawings need. -/
def emit (w : Widget) : Module :=
  let (name, _) := w.componentName .dart
  let drafted := draft none w
  let m : Module := { name := name, language := .dart }
  let m := ((m.withExport name).withImport { source := "package:flutter/material.dart" })
    |>.withDependency "flutter"
  let m := if drafted.blur then m.withImport { source := "dart:ui", qualifier := some "ui" } else m
  let m :=
    if drafted.drawing then
      (m.withImport { source := "package:flutter_svg/flutter_svg.dart" })
        |>.withDependency "flutter_svg"
    else m
  m.withReturn drafted.value

end Flutter

end DesignCompiler
