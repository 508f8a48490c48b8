import DesignCompiler.Proofs.Emit.Looks
import DesignCompiler.Proofs.Related
import DesignCompiler.Proofs.Widget.Contents
/-!
# The content of calls

In an expression of constructor calls, a text, an image, a glyph and a drawing are a call each; all
other calls are boxes and effects around them, or say how something looks. `Flutter.callsInOrder`
says that the content calls of a tree are those of its leaves, in the order of the walk.

Which calls are asked about does not matter, as long as they are `Flutter.Apart` from boxes, effects
and looks. No such call is in a look, so those of a box are the ones of its children
(`callsOf_expr_box`), and an effect adds none but the filter of a blur (`callsOf_wrapper`), whichever
way a box holds its children and wherever the share of the space of an item is put. All of them
together are what the widgets of the walk stand for (`callsOf_expr`).
-/

namespace DesignCompiler

namespace Expr

/-! ### The calls of some functions -/

/-- The calls of some functions in an expression, outer ones first. -/
def callsOf (p : String → Bool) (e : Expr) : List Expr := e.subterms.filter (·.callee?.any p)

/-- None of some functions is called in some arguments. -/
def Spared (p : String → Bool) (arguments : List (Argument Expr)) : Prop :=
  ∀ a ∈ arguments, a.value.callsOf p = []

variable {p : String → Bool}

/-- The calls in a call are itself, if it is asked for, and those in its arguments. -/
theorem callsOf_call (callee : String) (arguments : List (Argument Expr)) :
    (call callee arguments).callsOf p =
      (if p callee then [call callee arguments] else []) ++
        arguments.flatMap (·.value.callsOf p) := by
  have hinside : (subtermsArguments arguments).filter (·.callee?.any p) =
      arguments.flatMap (·.value.callsOf p) := by
    rw [subtermsArguments_eq_flatMap, List.filter_flatMap]
    rfl
  rw [callsOf, subterms, List.filter_cons, hinside]
  show (if p callee = true then _ else _) = _
  split <;> rfl

/-- The calls in a list are those in its items. -/
theorem callsOf_list (items : List Expr) :
    (list items).callsOf p = items.flatMap (·.callsOf p) := by
  have hlist : (list items :: subtermsAll items).filter (·.callee?.any p) =
      (subtermsAll items).filter (·.callee?.any p) :=
    List.filter_cons_of_neg Bool.false_ne_true
  rw [callsOf, subterms, hlist, subtermsAll_eq_flatMap, List.filter_flatMap]
  rfl

@[simp] theorem callsOf_literal (text : String) : (literal text).callsOf p = [] := rfl

theorem Spared.flatMap {arguments : List (Argument Expr)} (h : Spared p arguments) :
    arguments.flatMap (·.value.callsOf p) = [] :=
  List.flatMap_eq_nil_iff.mpr h

/-- A call with nothing to find in its arguments is found, or is not. -/
theorem callsOf_of_spared {callee : String} {arguments : List (Argument Expr)}
    (h : Spared p arguments) :
    (call callee arguments).callsOf p = [call callee arguments].filter (·.callee?.any p) := by
  rw [callsOf_call, h.flatMap, List.append_nil, List.filter_singleton]
  show (if p callee = true then _ else _) = bif p callee then _ else _
  cases p callee <;> rfl

/-- What is built from other functions calls none of them. -/
theorem Built.callsOf_eq_nil {S : String → Prop} {callees : List String} {e : Expr}
    (h : e.Built S callees) (hp : ∀ callee ∈ callees, p callee = false) : e.callsOf p = [] := by
  rw [callsOf, List.filter_eq_nil_iff]
  intro t ht
  cases hcallee : t.callee? with
  | none => simp
  | some callee =>
    have hmem : callee ∈ e.callees := List.mem_filterMap.mpr ⟨t, ht, hcallee⟩
    simp [hp callee (h.mem_callees callee hmem)]

@[simp] theorem spared_nil : Spared p [] := fun _ h => absurd h List.not_mem_nil

@[simp] theorem spared_cons {a : Argument Expr} {rest : List (Argument Expr)} :
    Spared p (a :: rest) ↔ a.value.callsOf p = [] ∧ Spared p rest := List.forall_mem_cons

@[simp] theorem spared_append {as bs : List (Argument Expr)} :
    Spared p (as ++ bs) ↔ Spared p as ∧ Spared p bs := List.forall_mem_append

end Expr

open DesignCompiler.Expr

namespace Flutter

/-! ### Looks -/

/-- The boxes and effects that stand around what is shown. -/
def boxCallees : List String :=
  ["Container", "Stack", "Positioned", "Row", "Column", "SizedBox", "SizedBox.expand",
    "ConstrainedBox", "ClipRRect", "ImageFiltered", "ClipRect", "BackdropFilter", "Opacity",
    "Transform.rotate", "OverflowBox", "Expanded"]

/-- **Functions that are no constructors** of looks, boxes or effects. -/
def Apart (p : String → Bool) : Prop := ∀ callee ∈ lookCallees ++ boxCallees, p callee = false

variable {p : String → Bool}

theorem Apart.box (hp : Apart p) {callee : String} (h : callee ∈ boxCallees) : p callee = false :=
  hp callee (List.mem_append_right _ h)

/-- Nothing of the kind is called in a look, since none of its constructors is. -/
theorem Apart.look (hp : Apart p) {e : Expr} (h : e.Built (fun _ => True) lookCallees) :
    e.callsOf p = [] :=
  h.callsOf_eq_nil fun callee hcallee => hp callee (List.mem_append_left _ hcallee)

theorem Apart.looks (hp : Apart p) {arguments : List (Argument Expr)}
    (h : BuiltArguments (fun _ => True) lookCallees arguments) : Spared p arguments :=
  fun a ha => hp.look (h a ha).2

@[simp] theorem value_named (label : String) (e : Expr) : (named label e).value = e := rfl

/-- The value of an argument without a name. -/
@[simp] theorem value_plain (e : Expr) : (plain e).value = e := rfl

/-- There is no call in a number. -/
@[simp] theorem callsOf_numbered (label : String) (value : Float) :
    (numbered label value).value.callsOf p = [] := rfl

/-- Nor in a member of a type. -/
@[simp] theorem callsOf_member (label type name : String) :
    (member label type name).value.callsOf p = [] := rfl

/-- Nor in a text. -/
@[simp] theorem callsOf_string (text : String) : (string text).callsOf p = [] := rfl

theorem Apart.sizes (hp : Apart p) (s : Style) : Spared p (sizeArguments s) :=
  hp.looks (built_sizeArguments s)

/-! ### Boxes and effects -/

/-- What is put around a child adds no calls to it. -/
theorem callsOf_around (hp : Apart p) {callee : String} {arguments : List (Argument Expr)}
    (hcallee : callee ∈ boxCallees) (h : Spared p arguments) (child : Expr) :
    (around callee arguments child).callsOf p = child.callsOf p := by
  rw [around, callsOf_call, hp.box hcallee, List.flatMap_append, h.flatMap, List.nil_append,
    List.flatMap_singleton]
  rfl

/-- **A container adds no calls** to those of its child. -/
theorem callsOf_container (hp : Apart p) (s : Style) (shape : BoxShape) (clip : Bool)
    (child : Option Expr) :
    (container s shape clip child).callsOf p = child.toList.flatMap (·.callsOf p) := by
  have hlooks : Spared p (sizeArguments s ++ named? "constraints" id (widthBounds? s) ++
      named? "padding" insets (s.padding.filter (!·.isZero)) ++
      named? "decoration" id (decoration? s shape clip) ++
      (if clip then [member "clipBehavior" "Clip" "hardEdge"] else [])) := by
    -- What a container looks like is spared, and so is the member that says how it clips.
    refine spared_append.mpr
      ⟨hp.looks (builtArguments_looks (fun _ _ => trivial) shape clip), ?_⟩
    split
    · simp
    · exact spared_nil
  rw [container, callsOf_call, hp.box (by decide), List.flatMap_append, hlooks.flatMap,
    List.nil_append]
  cases child with
  | none => rfl
  | some child => rfl

/-- Nor does a stack. -/
theorem callsOf_stack (hp : Apart p) (children : List Expr) :
    (stack? children).toList.flatMap (·.callsOf p) = children.flatMap (·.callsOf p) := by
  unfold stack?
  cases children with
  | nil => rfl
  | cons child rest =>
    rw [if_neg (by simp), Option.toList_some, List.flatMap_singleton, callsOf_call,
      hp.box (by decide), List.flatMap_singleton, value_named, callsOf_list]
    rfl

/-- The filter of a blur. -/
def blurFilter (blur : Blur) : Expr :=
  .call "ui.ImageFilter.blur" [numbered "sigmaX" blur.radius, numbered "sigmaY" blur.radius]

/-- The filters that an effect has. -/
def filters : Wrapper → List Expr
  | .blurred blur => [blurFilter blur]
  | _ => []

/-- **An effect has the calls of the widget under it,** wherever the widget stands, and in front of
them its filter if it is a blur. -/
theorem callsOf_wrapper (hp : Apart p) (parent : Option Direction) (w : Wrapper) (child : Expr) :
    (wrapper parent w child).callsOf p =
      (filters w).flatMap (·.callsOf p) ++ child.callsOf p := by
  cases w with
  | opacity opacity => exact callsOf_around hp (by decide) (by simp) child
  | stretched axis =>
    show (stretched (stretchAxis? parent axis) child).callsOf p = child.callsOf p
    unfold stretched
    split
    · exact callsOf_around hp (by decide) (by simp) child
    · exact callsOf_around hp (by decide) (by simp) child
    · exact callsOf_around hp (by decide) (by simp) child
    · exact callsOf_around hp (by decide) (by simp) child
    · rfl
  | expanded flex => rfl
  | blurred blur =>
    -- The filter is an argument of the effect, in front of the widget.
    have hfilter : ∀ callee label, callee ∈ boxCallees →
        (around callee [named label (blurFilter blur)] child).callsOf p =
          (blurFilter blur).callsOf p ++ child.callsOf p := by
      intro callee label hcallee
      rw [around, callsOf_call, hp.box hcallee]
      simp
    rw [filters, List.flatMap_singleton]
    show (blurred blur child).callsOf p = _
    unfold blurred
    simp only
    split
    · exact hfilter "ImageFiltered" "imageFilter" (by decide)
    · -- What blurs the background is clipped to the widget.
      rw [callsOf_around hp (by decide) spared_nil]
      exact hfilter "BackdropFilter" "filter" (by decide)
  | rotation angle => exact callsOf_around hp (by decide) (by simp) child
  | sizedBox width height => exact callsOf_around hp (by decide) (by simp) child
  | overflowBox =>
    show (around "ClipRect" [] _).callsOf p = child.callsOf p
    rw [callsOf_around hp (by decide) spared_nil]
    exact callsOf_around hp (by decide) (by simp) child

/-- Nor does a share in a line. -/
theorem callsOf_flexItem (hp : Apart p) (share : Option UInt32) (item : Expr) :
    (flexItem share item).callsOf p = item.callsOf p := by
  unfold flexItem
  split
  · exact callsOf_around hp (by decide) (by simp) item
  · rfl

/-! ### Trees -/

/-- The direction of the line that the children of a box are in. -/
def itemDirection? : Arrangement → Option Direction
  | .flex line _ => some line.direction
  | _ => none

/-- Nor do places. -/
theorem callsOf_positionedItems (hp : Apart p) (children : List (Placed Widget)) :
    (positionedItems children).flatMap (·.callsOf p) =
      children.flatMap fun c => (expr none c.item).callsOf p := by
  rw [positionedItems_eq_map, List.flatMap_map]
  exact List.flatMap_congr fun c _ => callsOf_around hp (by decide) (by simp) _

/-- Nor do a line and its spaces. -/
theorem callsOf_flexItems (hp : Apart p) (line : FlexLine) (children : List (Placed Widget)) :
    ∀ first, (flexItems line first children).flatMap (·.callsOf p) =
      children.flatMap fun c => (expr (some line.direction) c.item).callsOf p := by
  have hspacer : (spacer line).callsOf p = [] := by
    rw [spacer, callsOf_call, hp.box (by decide)]
    simp
  intro first
  rw [flatMap_flexItems children hspacer]
  exact List.flatMap_congr fun c _ => callsOf_flexItem hp _ _

/-- **A box has the calls of its children,** child by child. -/
theorem callsOf_expr_box (hp : Apart p) (parent : Option Direction) (key : WidgetKey) (s : Style)
    (arrangement : Arrangement) (children : List (Placed Widget)) :
    (expr parent (.box key s arrangement children)).callsOf p =
      children.flatMap fun c => (expr (itemDirection? arrangement) c.item).callsOf p := by
  -- In a container and in stacks the children are placed, in a line they are items of it.
  cases arrangement with
  | container shape clip =>
    rw [expr_container, callsOf_container hp, callsOf_stack hp, callsOf_positionedItems hp]
    rfl
  | group =>
    rw [expr_group, callsOf_call, hp.box (by decide), List.flatMap_append, (hp.sizes s).flatMap]
    have hchild : ∀ child : Option Expr, (named? "child" id child).flatMap
        (·.value.callsOf p) = child.toList.flatMap (·.callsOf p) := by
      intro child
      cases child <;> rfl
    rw [hchild, callsOf_stack hp, callsOf_positionedItems hp]
    rfl
  | stack isRoot =>
    rw [expr_stack, callsOf_container hp, callsOf_stack hp, callsOf_positionedItems hp]
    rfl
  | flex line isRoot =>
    have hline : (flexLine line (flexItems line true children)).callsOf p =
        children.flatMap fun c => (expr (some line.direction) c.item).callsOf p := by
      have hcallee : lineName line.direction ∈ boxCallees := by
        cases line.direction <;> decide
      rw [flexLine, callsOf_call, hp.box hcallee, ← callsOf_flexItems hp line children true,
        ← callsOf_list]
      simp
    rw [expr_flex, callsOf_container hp, Option.toList_some, List.flatMap_singleton, hline]
    rfl

/-! ### Leaves -/

/-- The call that shows a leaf. -/
def leafCall (key : WidgetKey) (s : Style) : Leaf → Expr
  | .text content =>
    .call "Text"
      [plain (string content.data), named "style" (textStyle content),
        member "textAlign" "TextAlign" (alignName content.style.align)]
  | .image content =>
    .call "Image.network"
      ([plain (string content.src.source)] ++ sizeArguments s ++
        [member "fit" "BoxFit" content.fit.value])
  | .icon content => icon content
  | .vector content => svg s (Leaf.element key.originName (.vector content))
  | .boolean content => svg s (Leaf.element key.originName (.boolean content))

/-- The box of the width and the bounds of the width only stand around a text. -/
theorem callsOf_text (hp : Apart p) (key : WidgetKey) (s : Style) (content : TextContent) :
    (text s content).callsOf p = (leafCall key s (.text content)).callsOf p := by
  have hsized : ∀ width child, (around "SizedBox" [numbered "width" width] child).callsOf p =
      child.callsOf p := fun _ => callsOf_around hp (by decide) (by simp)
  unfold text
  simp only
  -- The width and its bounds are put around the call of the text, and neither adds one.
  cases hbounds : widthBounds? s with
  | none =>
    cases s.width with
    | none => rfl
    | some width => exact hsized width _
  | some bounds =>
    have hspared : Spared p [named "constraints" bounds] := by
      simp [hp.look (built_widthBounds hbounds)]
    cases s.width with
    | none => exact callsOf_around hp (by decide) hspared _
    | some width => exact (callsOf_around hp (by decide) hspared _).trans (hsized width _)

/-- The cut of the corners only stands around an image. -/
theorem callsOf_image (hp : Apart p) (key : WidgetKey) (s : Style) (content : ImageContent) :
    (image s content).callsOf p = (leafCall key s (.image content)).callsOf p := by
  unfold image
  simp only
  cases rounded? s with
  | none => rfl
  | some radius => exact callsOf_around hp (by decide) (by simp [hp.look (built_corners radius)]) _

/-- Nothing is called for a leaf but its own call. -/
theorem callsOf_leafCall (hp : Apart p) (key : WidgetKey) (s : Style) (content : Leaf) :
    (leafCall key s content).callsOf p =
      [leafCall key s content].filter (·.callee?.any p) := by
  -- A leaf is a single call, with nothing asked for in its arguments.
  cases content with
  | text content =>
    have hstyle : (textStyle content).callsOf p = [] := hp.look (built_textStyle trivial)
    exact callsOf_of_spared (by simp [hstyle])
  | image content => exact callsOf_of_spared (by simp [hp.sizes])
  | icon content =>
    obtain ⟨glyphName, size, tint, src⟩ := content
    cases glyphName with
    | some name =>
      have htint : Spared p (named? "color" color tint) :=
        hp.looks (builtArguments_named? (by decide) fun _ _ => built_color _)
      have hglyph : (glyph name).callsOf p = [] := rfl
      exact callsOf_of_spared (by simp [htint, hglyph])
    | none => exact callsOf_of_spared (by simp)
  | vector content => exact callsOf_of_spared (by simp [hp.sizes])
  | boolean content => exact callsOf_of_spared (by simp [hp.sizes])

/-- **In a line or not, a leaf has one call of its own.** -/
theorem callsOf_leaf (hp : Apart p) (key : WidgetKey) (s : Style) (content : Leaf) :
    (leaf key s content).callsOf p = [leafCall key s content].filter (·.callee?.any p) := by
  rw [← callsOf_leafCall hp]
  cases content with
  | text content => exact callsOf_text hp key s content
  | image content => exact callsOf_image hp key s content
  | icon | vector | boolean => rfl

/-- The calls that a widget itself stands for, boxes, effects and looks apart. -/
def ownCalls : Widget → List Expr
  | .leaf key s content => [leafCall key s content]
  | .box .. => []
  | .wrap _ _ w _ => filters w

/-- **All calls of an expression** but those of boxes, effects and looks are what the widgets of the
walk stand for, in a line or not. -/
theorem callsOf_expr (hp : Apart p) (w : Widget) :
    ∀ parent, (expr parent w).callsOf p =
      (w.walk.flatMap ownCalls).filter (·.callee?.any p) := by
  -- For all parents at once, since a line is the parent of its items.
  induction w using Widget.induction with
  | leaf key s content =>
    intro parent
    rw [expr_leaf, callsOf_leaf hp, Widget.walk, List.flatMap_singleton]
    rfl
  | box key s arrangement children ih =>
    intro parent
    rw [callsOf_expr_box hp, Widget.walk, List.flatMap_cons, Widget.walkAll_eq_flatMap]
    show _ = ((children.flatMap fun c => c.item.walk).flatMap ownCalls).filter _
    rw [List.flatMap_assoc, List.filter_flatMap]
    exact List.flatMap_congr fun c hc => ih c hc _
  | wrap key s w child ih =>
    intro parent
    have hfilters : (filters w).flatMap (·.callsOf p) =
        (filters w).filter (·.callee?.any p) := by
      cases w with
      | blurred blur =>
        rw [filters, List.flatMap_singleton]
        exact callsOf_of_spared (by simp)
      | _ => rfl
    rw [expr_wrap, callsOf_wrapper hp, hfilters, ih, Widget.walk, List.flatMap_cons,
      List.filter_append]
    rfl

end Flutter

/-! ### Content calls -/

/-- The widgets that show something themselves. -/
def contentCallees : List String := ["Text", "Image.network", "Icon", "SvgPicture.string"]

namespace Expr

/-- Whether an expression is a content call. -/
def isContentCall (e : Expr) : Bool := e.callee?.any contentCallees.contains

/-- The content calls in an expression, outer ones first. -/
def contentCalls (e : Expr) : List Expr := e.subterms.filter (·.isContentCall)

end Expr

namespace Flutter

theorem apart_content : Apart contentCallees.contains := by
  unfold Apart
  decide

/-- **A box has the content calls of its children,** child by child. -/
theorem contentCalls_expr_box (parent : Option Direction) (key : WidgetKey) (s : Style)
    (arrangement : Arrangement) (children : List (Placed Widget)) :
    (expr parent (.box key s arrangement children)).contentCalls =
      children.flatMap fun c => (expr (itemDirection? arrangement) c.item).contentCalls :=
  callsOf_expr_box apart_content parent key s arrangement children

/-- **An effect has the content calls of the widget under it,** wherever the widget stands. -/
theorem contentCalls_wrapper (parent : Option Direction) (w : Wrapper) (child : Expr) :
    (wrapper parent w child).contentCalls = child.contentCalls := by
  -- The filter of a blur shows nothing.
  have hfilters : (filters w).flatMap (·.callsOf contentCallees.contains) = [] := by
    cases w <;> rfl
  show (wrapper parent w child).callsOf _ = child.callsOf _
  rw [callsOf_wrapper apart_content, hfilters, List.nil_append]

end Flutter

/-- **The call that shows a leaf:** a text with the data for its first argument, an image with the
source, a glyph, or a drawing. -/
def Leaf.CalledBy : Leaf → Expr → Prop
  | .text content, .call callee arguments =>
    callee = "Text" ∧ arguments.head? = some (Flutter.plain (Flutter.string content.data))
  | .image content, .call callee arguments =>
    callee = "Image.network" ∧
      arguments.head? = some (Flutter.plain (Flutter.string content.src.source))
  | .icon content, .call callee arguments =>
    match content.glyph with
    | some name => callee = "Icon" ∧ arguments.head? = some (Flutter.plain (Flutter.glyph name))
    | none =>
      callee = "Image.network" ∧
        arguments.head? = some (Flutter.plain (Flutter.string content.src.source))
  | .vector _, .call callee _ | .boolean _, .call callee _ => callee = "SvgPicture.string"
  | _, _ => False

namespace Flutter

/-- A drawing is one call of a content. -/
theorem contentCalls_svg (s : Style) (e : OwnElement) : (svg s e).contentCalls = [svg s e] :=
  callsOf_of_spared (by simp [apart_content.sizes])

/-- In a line or not, the expression of a leaf has one content call, which shows the leaf. -/
theorem exists_contentCalls_leaf (key : WidgetKey) (s : Style) (content : Leaf) :
    ∃ call, (leaf key s content).contentCalls = [call] ∧ content.CalledBy call := by
  refine ⟨leafCall key s content, ?_, ?_⟩
  · -- The kinds of leaves, an icon with a glyph and one without among them.
    show (leaf key s content).callsOf contentCallees.contains = _
    rw [callsOf_leaf apart_content]
    rcases content with _ | _ | ⟨_ | _, _, _, _⟩ | _ | _ <;> rfl
  · rcases content with _ | _ | ⟨_ | _, _, _, _⟩ | _ | _
    · exact ⟨rfl, rfl⟩
    · exact ⟨rfl, rfl⟩
    · exact ⟨rfl, rfl⟩
    · exact ⟨rfl, rfl⟩
    · exact rfl
    · exact rfl

/-- **The expression of a tree shows its leaves in order,** in a line or not. -/
theorem forall₂_contentCalls (w : Widget) :
    ∀ parent, List.Forall₂ Leaf.CalledBy w.leaves (expr parent w).contentCalls := by
  -- For all parents at once, since a line is the parent of its items.
  induction w using Widget.induction with
  | leaf key style content =>
    intro parent
    obtain ⟨call, hcall, hshown⟩ := exists_contentCalls_leaf key style content
    rw [Widget.leaves_leaf, expr_leaf, hcall]
    exact .cons hshown .nil
  | box key style arrangement children ih =>
    intro parent
    rw [Widget.leaves_box, contentCalls_expr_box]
    exact forall₂_flatMap fun c hc => ih c hc _
  | wrap key style wrapper child ih =>
    intro parent
    rw [Widget.leaves_wrap, expr_wrap, contentCalls_wrapper]
    exact ih parent

end Flutter

/-- **A module of calls shows some leaves** and nothing else, in their order. -/
def Module.CallsInOrder (m : Module) (leaves : List Leaf) : Prop :=
  ∃ e, m.body = [e] ∧ List.Forall₂ Leaf.CalledBy leaves e.contentCalls

/-! ### Modules -/

namespace Flutter

/-- Whether a widget is a blur. -/
def isBlur : Widget → Bool
  | .wrap _ _ (.blurred _) _ => true
  | _ => false

/-- Whether a widget is a drawing. -/
def isDrawing : Widget → Bool
  | .leaf _ _ (.vector _) | .leaf _ _ (.boolean _) => true
  | _ => false

/-- Children at offsets need what one of them needs. -/
theorem needs_draftPositioned (children : List (Placed Widget)) :
    (draftPositioned children).blur = (children.any fun c => (draft none c.item).blur) ∧
      (draftPositioned children).drawing = children.any fun c => (draft none c.item).drawing := by
  induction children with
  | nil => simp [draftPositioned]
  | cons c rest ih => simp [draftPositioned, Draft.both, ih]

/-- The items of a line need what one of them needs. -/
theorem needs_draftItems (line : FlexLine) (children : List (Placed Widget)) : ∀ first,
    (draftItems line first children).blur =
        (children.any fun c => (draft (some line.direction) c.item).blur) ∧
      (draftItems line first children).drawing =
        children.any fun c => (draft (some line.direction) c.item).drawing := by
  induction children with
  | nil => simp [draftItems]
  | cons c rest ih => simp [draftItems, Draft.both, ih]

/-- A box needs what one of its children needs. -/
theorem needs_draft_box (parent : Option Direction) (key : WidgetKey) (s : Style)
    (arrangement : Arrangement) (children : List (Placed Widget)) :
    (draft parent (.box key s arrangement children)).blur =
        (children.any fun c => (draft (itemDirection? arrangement) c.item).blur) ∧
      (draft parent (.box key s arrangement children)).drawing =
        children.any fun c => (draft (itemDirection? arrangement) c.item).drawing := by
  -- A flex box drafts its children in a line, every other box stacks them.
  cases arrangement with
  | flex line isRoot =>
    rw [draft]
    exact needs_draftItems line children true
  | container | group | stack =>
    rw [draft]
    exact needs_draftPositioned children

/-- **What is found out on the way is there:** a draft needs filters if there is a blur anywhere in the
tree, and the package for drawings if there is a drawing. -/
theorem needs_draft (w : Widget) : ∀ parent,
    (draft parent w).blur = w.walk.any isBlur ∧ (draft parent w).drawing = w.walk.any isDrawing := by
  -- For all parents at once, since a line is the parent of its items.
  induction w using Widget.induction with
  | leaf key s content =>
    intro parent
    rw [draft, Widget.walk]
    cases content <;> exact ⟨rfl, rfl⟩
  | box key s arrangement children ih =>
    intro parent
    -- The box itself is neither, so it is about its children, and they are walked one by one.
    have hwalked : ∀ {needs : Placed Widget → Bool} {p : Widget → Bool},
        (∀ c ∈ children, needs c = c.item.walk.any p) →
        children.any needs = (Widget.walkAll children).any p := by
      intro needs p h
      rw [Widget.walkAll_eq_flatMap, List.any_flatMap, Bool.eq_iff_iff, List.any_eq_true,
        List.any_eq_true]
      exact exists_congr fun c => and_congr_right fun hc => by rw [h c hc]
    obtain ⟨hblur, hdrawing⟩ := needs_draft_box parent key s arrangement children
    rw [hblur, hdrawing, Widget.walk, List.any_cons, List.any_cons]
    simp only [isBlur, isDrawing, Bool.false_or]
    exact ⟨hwalked fun c hc => (ih c hc _).1, hwalked fun c hc => (ih c hc _).2⟩
  | wrap key s w child ih =>
    intro parent
    rw [draft, Widget.walk, List.any_cons, List.any_cons, ← (ih parent).1, ← (ih parent).2]
    cases w <;> simp [effect, Draft.map, isBlur, isDrawing]

/-- **The module of a tree,** with the stock widgets and with what its blurs and drawings need. -/
theorem emit_eq (w : Widget) : emit w = {
    name := (w.componentName .dart).1
    language := .dart
    imports := [{ source := "package:flutter/material.dart" }] ++
      (if w.walk.any isBlur then [{ source := "dart:ui", qualifier := some "ui" }] else []) ++
      (if w.walk.any isDrawing then [{ source := "package:flutter_svg/flutter_svg.dart" }] else [])
    body := [expr none w]
    exports := [(w.componentName .dart).1]
    dependencies := ["flutter"] ++ if w.walk.any isDrawing then ["flutter_svg"] else [] } := by
  unfold emit expr
  rcases w.componentName .dart with ⟨name, namer⟩
  -- What the draft reports as needed is what the walk finds; the imports follow from that.
  simp only [needs_draft, Module.withReturn, Module.withImport, Module.withDependency, Module.withExport]
  split <;> split <;> rfl

/-- The module has the name of the component. -/
theorem name_emit (w : Widget) : (emit w).name = (w.componentName .dart).1 := by rw [emit_eq]

/-- It is in Dart. -/
theorem language_emit (w : Widget) : (emit w).language = .dart := by rw [emit_eq]

theorem body_emit (w : Widget) : (emit w).body = [expr none w] := by rw [emit_eq]

/-- **A module calls the contents of its tree in their order.** -/
theorem callsInOrder (w : Widget) : (emit w).CallsInOrder w.leaves :=
  ⟨_, body_emit w, forall₂_contentCalls w none⟩

end Flutter

end DesignCompiler
