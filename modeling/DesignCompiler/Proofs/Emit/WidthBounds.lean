import DesignCompiler.Proofs.Design.WidthFlag
import DesignCompiler.Proofs.Emit.Calls
import DesignCompiler.Proofs.Lowering.Recorded
/-!
# Bounds of the width in the outputs

A widget of any kind can have bounds of its width. On the web they are among the sizes, which every
widget but a drawing declares (`Widget.get?_css_bound`). In calls they are the constraints of a box,
and only texts and boxes with a decoration have such a box: a group, an image and an icon leave the
bounds out (`Widget.DropsBounds`).

What a widget says itself is told from what its children say by the labels of arguments.
`Flutter.valuesOf_expr_box` takes the two apart: the bounds in the expression of a box are its own,
followed by those of its children, child by child.
-/

namespace DesignCompiler

/-! ### Arguments with a label -/

namespace Expr

/-- The arguments of a call. -/
def arguments : Expr → List (Argument Expr)
  | call _ arguments => arguments
  | markup _ | literal _ | list _ => []

/-- The values of the arguments with a label. -/
def valuesAt (label : String) (arguments : List (Argument Expr)) : List Expr :=
  arguments.filterMap fun a => if a.label = some label then some a.value else none

/-- The values of all arguments with a label in an expression, those of outer calls first. -/
def valuesOf (label : String) (e : Expr) : List Expr :=
  e.subterms.flatMap fun t => valuesAt label t.arguments

/-- **Some arguments hold values of a label** further in, and none of them has it itself. -/
structure Hold (label : String) (arguments : List (Argument Expr)) (values : List Expr) : Prop where
  unlabelled : ∀ a ∈ arguments, a.label ≠ some label
  inside : arguments.flatMap (·.value.valuesOf label) = values

variable {label : String} {as bs : List (Argument Expr)} {vs ws : List Expr}

@[simp] theorem valuesOf_literal (text : String) : (literal text).valuesOf label = [] := rfl

/-- A list has those of its items. -/
theorem valuesOf_list (items : List Expr) :
    (list items).valuesOf label = items.flatMap (·.valuesOf label) := by
  rw [valuesOf, subterms, List.flatMap_cons, subtermsAll_eq_flatMap, List.flatMap_assoc]
  rfl

/-- A call has those of its own arguments under the label and those inside of them. -/
theorem valuesOf_call (callee : String) (arguments : List (Argument Expr)) :
    (call callee arguments).valuesOf label =
      valuesAt label arguments ++ arguments.flatMap (·.value.valuesOf label) := by
  rw [valuesOf, subterms, List.flatMap_cons, subtermsArguments_eq_flatMap, List.flatMap_assoc]
  rfl

/-- A call has the values that its arguments have in them. -/
theorem Hold.valuesOf_call (h : Hold label as vs) (callee : String) :
    (call callee as).valuesOf label = vs := by
  have hnone : valuesAt label as = [] :=
    List.filterMap_eq_nil_iff.mpr fun a ha => if_neg (h.unlabelled a ha)
  rw [Expr.valuesOf_call, hnone, h.inside, List.nil_append]

/-- Arguments that hold values hold them together. -/
theorem Hold.append (has : Hold label as vs) (hbs : Hold label bs ws) :
    Hold label (as ++ bs) (vs ++ ws) where
  unlabelled := List.forall_mem_append.mpr ⟨has.unlabelled, hbs.unlabelled⟩
  inside := by rw [List.flatMap_append, has.inside, hbs.inside]

/-! Arguments without anything of a label are told by going through them. -/

@[simp] theorem hold_nil : Hold label [] [] := ⟨fun _ h => absurd h List.not_mem_nil, rfl⟩

/-- Arguments hold none exactly if each of them holds none. -/
@[simp] theorem hold_cons_nil {a : Argument Expr} :
    Hold label (a :: as) [] ↔
      (a.label ≠ some label ∧ a.value.valuesOf label = []) ∧ Hold label as [] := by
  constructor
  · rintro ⟨hlabels, hinside⟩
    obtain ⟨ha, has⟩ := List.forall_mem_cons.mp hlabels
    obtain ⟨hvalue, hrest⟩ := List.append_eq_nil_iff.mp hinside
    exact ⟨⟨ha, hvalue⟩, has, hrest⟩
  · rintro ⟨⟨ha, hvalue⟩, has⟩
    exact ⟨List.forall_mem_cons.mpr ⟨ha, has.unlabelled⟩,
      List.append_eq_nil_iff.mpr ⟨hvalue, has.inside⟩⟩

/-- Two lists of arguments hold none exactly if neither holds any. -/
@[simp] theorem hold_append_nil :
    Hold label (as ++ bs) [] ↔ Hold label as [] ∧ Hold label bs [] := by
  refine ⟨fun h => ?_, fun ⟨has, hbs⟩ => has.append hbs⟩
  obtain ⟨has, hbs⟩ := List.forall_mem_append.mp h.unlabelled
  obtain ⟨hvs, hws⟩ := List.append_eq_nil_iff.mp (List.flatMap_append.symm.trans h.inside)
  exact ⟨⟨has, hvs⟩, ⟨hbs, hws⟩⟩

end Expr

open DesignCompiler.Expr

namespace WidthBound

/-- The label of the argument. -/
def label : WidthBound → String
  | least => "minWidth"
  | greatest => "maxWidth"

/-- The bound of a style. -/
def of (s : Style) : WidthBound → Option Float
  | least => s.minWidth
  | greatest => s.maxWidth

/-- All other arguments have other labels. -/
@[simp] theorem ne_label {name : String} (h : name ∉ ["minWidth", "maxWidth"]) (b : WidthBound) :
    (name = b.label) = False := by
  refine eq_false fun heq => h ?_
  rw [heq]
  cases b <;> decide

/-- All other properties have other names. -/
@[simp] theorem key_eq {name : String} (h : name ∉ ["min-width", "max-width"]) (b : WidthBound) :
    (b.key = name) = False := by
  refine eq_false fun heq => h ?_
  rw [← heq]
  cases b <;> decide

end WidthBound

namespace Flutter

variable {b : WidthBound} {label : String}

@[simp] theorem label_named (label : String) (e : Expr) : (named label e).label = some label := rfl

/-- An argument without a name has no label. -/
@[simp] theorem label_plain (e : Expr) : (plain e).label = none := rfl

/-- There is no value under a label in a number. -/
@[simp] theorem valuesOf_number (value : Float) : (number value).valuesOf label = [] := rfl

/-- Nor in a text. -/
@[simp] theorem valuesOf_string (text : String) : (string text).valuesOf label = [] := rfl

/-- Nor in a color. -/
@[simp] theorem valuesOf_color (c : Color) : (color c).valuesOf label = [] := rfl

@[simp] theorem valuesOf_alignment (x y : Float) : (alignment x y).valuesOf label = [] := rfl

/-- An argument under another label holds what its value does. -/
theorem hold_named {name : String} (hname : name ≠ label) (e : Expr) :
    Hold label [named name e] (e.valuesOf label) :=
  ⟨by simpa using hname, List.flatMap_singleton _ _⟩

/-- So does one that may be missing. -/
theorem hold_named? {α : Type} {name : String} (hname : name ≠ label) (f : α → Expr)
    (value : Option α) :
    Hold label (named? name f value) (value.toList.flatMap fun v => (f v).valuesOf label) := by
  cases value with
  | none => exact hold_nil
  | some v => exact ⟨by simpa [named?] using hname, rfl⟩

/-- It holds none if its value has none. -/
theorem hold_named?_nil {α : Type} {name : String} (hname : name ≠ label) {f : α → Expr}
    {value : Option α} (h : ∀ v, value = some v → (f v).valuesOf label = []) :
    Hold label (named? name f value) [] := by
  cases value with
  | none => exact hold_nil
  | some v => simpa [named?] using ⟨hname, h v rfl⟩

/-! ### Looks -/

/-- **The bounds are the constraints of a box,** where there are any. -/
theorem valuesOf_widthBounds (s : Style) :
    (widthBounds? s).toList.flatMap (·.valuesOf b.label) = ((b.of s).map number).toList := by
  unfold widthBounds?
  cases b <;> cases hleast : s.minWidth <;> cases hgreatest : s.maxWidth <;>
    simp [WidthBound.of, WidthBound.label, hleast, hgreatest, named?, Expr.valuesOf_call, valuesAt]

/-- A size has no bounds of a width. -/
theorem hold_sizeArguments (s : Style) : Hold b.label (sizeArguments s) [] :=
  (hold_named?_nil (by simp) fun _ _ => rfl).append (hold_named?_nil (by simp) fun _ _ => rfl)

/-- Nor have insets. -/
theorem valuesOf_insets (i : Insets) : (insets i).valuesOf b.label = [] := by
  unfold insets
  split <;> exact Hold.valuesOf_call (by simp [numbered]) _

/-- Nor have corners. -/
theorem valuesOf_corners (c : Corners) : (corners c).valuesOf b.label = [] := by
  have hcorner : ∀ radius, (corner radius).valuesOf b.label = [] :=
    fun _ => Hold.valuesOf_call (by simp) _
  unfold corners
  split <;> exact Hold.valuesOf_call (by simp [hcorner]) _

/-- Nor has a gradient. -/
theorem valuesOf_gradient {g : Gradient} {e : Expr} (h : gradient? g = some e) :
    e.valuesOf b.label = [] := by
  have hcolors : (Expr.list (g.stops.map fun s => color s.color)).valuesOf b.label = [] := by
    rw [valuesOf_list, List.flatMap_eq_nil_iff]
    intro e he
    obtain ⟨s, -, rfl⟩ := List.mem_map.mp he
    exact valuesOf_color _
  -- Only two of the gradients have a call.
  cases g with
  | linear angle stops =>
    cases h
    exact Hold.valuesOf_call (by simp [hcolors]) _
  | radial centerX centerY radius stops =>
    cases h
    exact Hold.valuesOf_call (by simp [hcolors, numbered]) _
  | angular => cases h
  | diamond => cases h

/-- Nor has a background. -/
theorem hold_background (background : Background) :
    Hold b.label (Flutter.background background) [] := by
  cases background with
  | color c => simp [Flutter.background]
  | gradient g => exact hold_named?_nil (by simp) fun e he => valuesOf_gradient he
  | image ref =>
    have hsource : (Expr.call "NetworkImage" [plain (string ref.source)]).valuesOf b.label = [] :=
      Hold.valuesOf_call (by simp) _
    have hpicture : (Expr.call "DecorationImage"
        [named "image" (.call "NetworkImage" [plain (string ref.source)]),
          member "fit" "BoxFit" "cover"]).valuesOf b.label = [] :=
      Hold.valuesOf_call (by simp [hsource, member]) _
    simp [Flutter.background, hpicture]

/-- Nor has anything that a box looks like. -/
theorem hold_decorationArguments (s : Style) (shape : BoxShape) :
    Hold b.label (decorationArguments s shape) [] := by
  have hborder : ∀ line, (border line).valuesOf b.label = [] :=
    fun _ => Hold.valuesOf_call (by simp [numbered]) _
  have hshadows : (Expr.list ((s.shadows.filter (!·.inset)).map shadow)).valuesOf b.label = [] := by
    rw [valuesOf_list, List.flatMap_eq_nil_iff]
    intro e he
    obtain ⟨cast, -, rfl⟩ := List.mem_map.mp he
    exact Hold.valuesOf_call (by simp [numbered]) _
  unfold decorationArguments
  simp only [hold_append_nil]
  -- The background, the border, the outline and the shadows.
  refine ⟨⟨⟨?_, hold_named?_nil (by simp) fun line _ => hborder line⟩, ?_⟩, ?_⟩
  · cases s.background with
    | none => exact hold_nil
    | some background => exact hold_background background
  · split
    · simp [member]
    · exact hold_named?_nil (by simp) fun c _ => valuesOf_corners c
  · split
    · exact hold_nil
    · simp [hshadows]

/-- Nor has its decoration. -/
theorem valuesOf_decoration {s : Style} {shape : BoxShape} {clip : Bool} {e : Expr}
    (h : decoration? s shape clip = some e) : e.valuesOf b.label = [] := by
  unfold decoration? at h
  simp only at h
  split at h
  · cases h
  · cases h
    exact (hold_decorationArguments s shape).valuesOf_call _

/-- Nor has the style of a text. -/
theorem valuesOf_textStyle (content : TextContent) : (textStyle content).valuesOf b.label = [] := by
  refine Hold.valuesOf_call ?_ _
  simp only [hold_append_nil]
  refine ⟨⟨⟨⟨hold_named?_nil (by simp) fun _ _ => rfl, ?_⟩, ?_⟩,
    hold_named?_nil (by simp) fun _ _ => rfl⟩, hold_named?_nil (by simp) fun _ _ => rfl⟩
  · simp [numbered, member]
  · -- The line height is left out for a font without a size.
    split
    · exact hold_named?_nil (by simp) fun _ _ => rfl
    · exact hold_nil

/-! ### Boxes -/

/-- A widget around another one has what its own arguments have, then what the other one has. -/
theorem valuesOf_around {callee : String} {arguments : List (Argument Expr)} {values : List Expr}
    (h : Hold b.label arguments values) (child : Expr) :
    (around callee arguments child).valuesOf b.label = values ++ child.valuesOf b.label :=
  (h.append (hold_named (by simp) child)).valuesOf_call callee

/-- What holds no bounds leaves those of the child. -/
theorem valuesOf_around_nil {callee : String} {arguments : List (Argument Expr)}
    (h : Hold b.label arguments []) (child : Expr) :
    (around callee arguments child).valuesOf b.label = child.valuesOf b.label :=
  valuesOf_around h child

/-- **A box with a decoration** has the bounds of its style, then what its child has. -/
theorem valuesOf_container (s : Style) (shape : BoxShape) (clip : Bool) (child : Option Expr) :
    (container s shape clip child).valuesOf b.label =
      ((b.of s).map number).toList ++ child.toList.flatMap (·.valuesOf b.label) := by
  have hbounds : Hold b.label (named? "constraints" id (widthBounds? s))
      ((b.of s).map number).toList := by
    rw [← valuesOf_widthBounds]
    exact hold_named? (by simp) id _
  have hpadding : Hold b.label (named? "padding" insets (s.padding.filter (!·.isZero))) [] :=
    hold_named?_nil (by simp) fun i _ => valuesOf_insets i
  have hdecoration : Hold b.label (named? "decoration" id (decoration? s shape clip)) [] :=
    hold_named?_nil (by simp) fun e he => valuesOf_decoration he
  have hclip :
      Hold b.label (if clip then [member "clipBehavior" "Clip" "hardEdge"] else []) [] := by
    split <;> simp [member]
  have hchild : Hold b.label (named? "child" id child)
      (child.toList.flatMap (·.valuesOf b.label)) := hold_named? (by simp) id child
  -- Of all arguments in front of the child, only the constraints hold anything.
  have hlooks := ((((hold_sizeArguments s).append hbounds).append hpadding).append
    hdecoration).append hclip
  rw [container, (hlooks.append hchild).valuesOf_call]
  simp

/-- A stack has the bounds of its children. -/
theorem valuesOf_stack (children : List Expr) :
    (stack? children).toList.flatMap (·.valuesOf b.label) =
      children.flatMap (·.valuesOf b.label) := by
  unfold stack?
  cases children with
  | nil => rfl
  | cons child rest =>
    rw [if_neg (by simp), Option.toList_some, List.flatMap_singleton,
      (hold_named (by simp) _).valuesOf_call, valuesOf_list]

/-- A share in a line has those of its item. -/
theorem valuesOf_flexItem (share : Option UInt32) (item : Expr) :
    (flexItem share item).valuesOf b.label = item.valuesOf b.label := by
  unfold flexItem
  split
  · exact valuesOf_around_nil (by simp) item
  · rfl

/-- Places have those of the children at them. -/
theorem valuesOf_positionedItems (children : List (Placed Widget)) :
    (positionedItems children).flatMap (·.valuesOf b.label) =
      children.flatMap fun c => (expr none c.item).valuesOf b.label := by
  rw [positionedItems_eq_map, List.flatMap_map]
  exact List.flatMap_congr fun c _ => valuesOf_around_nil (by simp [numbered]) _

/-- A line has those of its children, and its spaces have none. -/
theorem valuesOf_flexItems (line : FlexLine) (children : List (Placed Widget)) :
    ∀ first, (flexItems line first children).flatMap (·.valuesOf b.label) =
      children.flatMap fun c => (expr (some line.direction) c.item).valuesOf b.label := by
  have hspacer : (spacer line).valuesOf b.label = [] := by
    unfold spacer
    cases line.direction <;> exact Hold.valuesOf_call (by simp [numbered]) _
  intro first
  rw [flatMap_flexItems children hspacer]
  exact List.flatMap_congr fun c _ => valuesOf_flexItem _ _

/-- Putting items in a line adds no bounds. -/
theorem valuesOf_flexLine (line : FlexLine) (items : List Expr) :
    (flexLine line items).valuesOf b.label = items.flatMap (·.valuesOf b.label) := by
  have haxes : Hold b.label
      [member "mainAxisAlignment" "MainAxisAlignment" (mainAxis line.mainAxis),
        member "crossAxisAlignment" "CrossAxisAlignment" (crossAxis line.crossAxis)] [] := by
    simp [member]
  rw [← valuesOf_list]
  exact (haxes.append (hold_named (by simp) _)).valuesOf_call _

/-! ### Leaves -/

/-- A text has the bounds of its style. -/
theorem valuesOf_text (s : Style) (content : TextContent) :
    (text s content).valuesOf b.label = ((b.of s).map number).toList := by
  rw [← valuesOf_widthBounds]
  have hbare : (Expr.call "Text"
      [plain (string content.data), named "style" (textStyle content),
        member "textAlign" "TextAlign" (alignName content.style.align)]).valuesOf b.label = [] :=
    Hold.valuesOf_call (by simp [valuesOf_textStyle, member]) _
  have hsized : ∀ width, (around "SizedBox" [numbered "width" width] _).valuesOf b.label = [] :=
    fun _ => (valuesOf_around_nil (by simp [numbered]) _).trans hbare
  unfold text
  simp only
  cases hbounds : widthBounds? s with
  | none =>
    cases s.width with
    | none => exact hbare
    | some width => exact hsized width
  | some bounds =>
    -- The bounds stand around what has none.
    have haround : ∀ child, child.valuesOf b.label = [] →
        (around "ConstrainedBox" [named "constraints" bounds] child).valuesOf b.label =
          (some bounds).toList.flatMap (·.valuesOf b.label) := by
      intro child hchild
      rw [valuesOf_around (hold_named (by simp) bounds), hchild, List.append_nil,
        Option.toList_some, List.flatMap_singleton]
    cases s.width with
    | none => exact haround _ hbare
    | some width => exact haround _ (hsized width)

/-- An image has no bounds. -/
theorem valuesOf_image (s : Style) (content : ImageContent) :
    (image s content).valuesOf b.label = [] := by
  have hbare : (Expr.call "Image.network"
      ([plain (string content.src.source)] ++ sizeArguments s ++
        [member "fit" "BoxFit" content.fit.value])).valuesOf b.label = [] :=
    Hold.valuesOf_call (by simp [hold_sizeArguments, member]) _
  unfold image
  simp only
  cases rounded? s with
  | none => exact hbare
  | some radius => exact (valuesOf_around_nil (by simp [valuesOf_corners]) _).trans hbare

/-- An icon has no bounds. -/
theorem valuesOf_icon (content : IconContent) : (icon content).valuesOf b.label = [] := by
  unfold icon
  split
  · have htint : Hold b.label (named? "color" color content.color) [] :=
      hold_named?_nil (by simp) fun _ _ => rfl
    exact Hold.valuesOf_call (by simp [numbered, glyph, htint]) _
  · exact Hold.valuesOf_call (by simp [numbered]) _

end Flutter

/-! ### Widgets -/

namespace Widget

/-- A widget without its children. -/
def childless : Widget → Widget
  | box key style arrangement _ => box key style arrangement []
  | w => w

/-- The direction of the line that the children of a widget are in. -/
def itemDirection? : Widget → Option Direction
  | box _ _ arrangement _ => Flutter.itemDirection? arrangement
  | _ => none

/-- **The widgets that leave bounds out** of their calls. -/
def DropsBounds (w : Widget) : Prop := w.kindName ∈ ["Group", "Image", "Icon"]

instance (w : Widget) : Decidable w.DropsBounds :=
  inferInstanceAs (Decidable (_ ∈ _))

/-- The bound that the calls of a widget have. -/
def calledBound? (b : WidthBound) (w : Widget) : Option Float :=
  if w.DropsBounds then none else b.of w.style

end Widget

namespace Flutter

variable {b : WidthBound}

/-- **A box has its own bound and those of its children,** child by child. -/
theorem valuesOf_expr_box (parent : Option Direction) (key : WidgetKey) (s : Style)
    (arrangement : Arrangement) (children : List (Placed Widget)) :
    (expr parent (.box key s arrangement children)).valuesOf b.label =
      (((Widget.box key s arrangement children).calledBound? b).map number).toList ++
        children.flatMap fun c => (expr (itemDirection? arrangement) c.item).valuesOf b.label := by
  -- In a container and in stacks the children are placed, in a line they are items of it.
  cases arrangement with
  | container shape clip =>
    rw [expr_container, valuesOf_container, valuesOf_stack, valuesOf_positionedItems]
    rfl
  | group =>
    have hchild : Hold b.label (named? "child" id (stack? (positionedItems children)))
        (children.flatMap fun c => (expr none c.item).valuesOf b.label) := by
      rw [← valuesOf_positionedItems, ← valuesOf_stack]
      exact hold_named? (by simp) id _
    rw [expr_group, ((hold_sizeArguments s).append hchild).valuesOf_call]
    rfl
  | stack isRoot =>
    rw [expr_stack, valuesOf_container, valuesOf_stack, valuesOf_positionedItems]
    rfl
  | flex line isRoot =>
    rw [expr_flex, valuesOf_container, Option.toList_some, List.flatMap_singleton, valuesOf_flexLine,
      valuesOf_flexItems]
    rfl

/-- **A widget without its children** has its own bound, if its kind has any. -/
theorem valuesOf_expr_childless {w : Widget} (hwrapper : w.isWrapper = false) (hdrawn : ¬w.IsDrawn)
    (parent : Option Direction) :
    (expr parent w.childless).valuesOf b.label = ((w.calledBound? b).map number).toList := by
  -- What a widget without its children has are its own bounds, kind by kind.
  cases w with
  | wrap => cases hwrapper
  | leaf key s content =>
    cases content with
    | vector => exact absurd (Or.inl rfl) hdrawn
    | boolean => exact absurd (Or.inr rfl) hdrawn
    | text content => exact valuesOf_text s content
    | image content => exact valuesOf_image s content
    | icon content => exact valuesOf_icon content
  | box key s arrangement children =>
    rw [Widget.childless, valuesOf_expr_box, List.flatMap_nil, List.append_nil]
    cases arrangement <;> rfl

/-- **The bounds in an expression** are those of the widget without its children, then those of the
children. -/
theorem valuesOf_expr {w : Widget} (hwrapper : w.isWrapper = false) (parent : Option Direction) :
    (expr parent w).valuesOf b.label = (expr parent w.childless).valuesOf b.label ++
      w.layoutChildren.flatMap fun c => (expr w.itemDirection? c.item).valuesOf b.label := by
  cases w with
  | wrap => cases hwrapper
  | leaf => exact (List.append_nil _).symm
  | box key s arrangement children =>
    rw [Widget.childless, valuesOf_expr_box, valuesOf_expr_box, List.flatMap_nil, List.append_nil]
    cases arrangement <;> rfl

end Flutter

/-! ### Styles -/

section Styles

variable {b : WidthBound}

theorem Style.last?_sizeDeclarations (s : Style) :
    s.sizeDeclarations.last? b.key = (b.of s).map px := by
  cases b <;> simp [sizeDeclarations, Declarations.last?_declare, WidthBound.key, WidthBound.of]

theorem Style.not_has_shadowDeclarations (s : Style) : ¬s.shadowDeclarations.Has b.key := by
  unfold shadowDeclarations
  split <;> simp

/-- The look of a box apart from its size is no bound. -/
theorem Style.last?_boxDeclarations (s : Style) :
    s.boxDeclarations.last? b.key = (b.of s).map px := by
  have hbackground : ∀ fill : Background, ¬Declarations.Has fill.declarations b.key := by
    rintro (c | g | ref) <;> simp [Background.declarations]
  rw [← last?_sizeDeclarations]
  -- From the last part of the look to the first one behind the size.
  refine (Declarations.last?_append_of_not_has ?_).trans
    ((Declarations.last?_append_of_not_has s.not_has_shadowDeclarations).trans
      ((Declarations.last?_append_of_not_has (by simp)).trans
        ((Declarations.last?_append_of_not_has (by simp)).trans
          (Declarations.last?_append_of_not_has ?_))))
  · cases s.padding <;> simp
  · cases s.background with
    | none => exact Declarations.not_has_nil
    | some fill => exact hbackground fill

/-- **A box declares its bounds,** however it is arranged. -/
theorem Arrangement.last?_declarations (s : Style) (empty : Bool) (arrangement : Arrangement) :
    Declarations.last? (arrangement.declarations s empty) b.key = (b.of s).map px := by
  have hroot : ∀ isRoot, ¬Declarations.Has (rootDeclarations isRoot) b.key := by
    rintro (_ | _) <;> simp [rootDeclarations]
  have hif : ∀ (p : Prop) [Decidable p] (property value : String),
      property ∉ ["min-width", "max-width"] →
      ¬Declarations.Has (if p then [(property, value)] else []) b.key := by
    intro p _ property value hproperty
    split <;> simp [b.key_eq hproperty]
  have hline : ∀ line : FlexLine, ¬Declarations.Has line.declarations b.key := by
    intro line
    unfold FlexLine.declarations
    split <;> simp
  cases arrangement with
  | container shape clip =>
    rw [← s.last?_boxDeclarations]
    -- Children make the box a place for them, a clip hides what overflows, a circle is a radius.
    refine (Declarations.last?_append_of_not_has ?_).trans
      ((Declarations.last?_append_of_not_has (hif _ _ _ (by decide))).trans
        (Declarations.last?_append_of_not_has (hif _ _ _ (by decide))))
    split <;> simp
  | group =>
    rw [← s.last?_sizeDeclarations]
    exact Declarations.last?_append_of_not_has (by simp)
  | stack isRoot =>
    rw [← s.last?_boxDeclarations]
    exact (Declarations.last?_append_of_not_has (hroot isRoot)).trans
      (Declarations.last?_append_of_not_has (by simp))
  | flex line isRoot =>
    rw [← s.last?_boxDeclarations]
    exact (Declarations.last?_append_of_not_has (hroot isRoot)).trans
      (Declarations.last?_append_of_not_has (hline line))

/-- **What a widget declares itself** has its bounds, unless it is a drawing. -/
theorem Widget.last?_own_bound {w : Widget} (hwrapper : w.isWrapper = false) (hdrawn : ¬w.IsDrawn) :
    ∃ own, w.ownDeclarations? = some own ∧
      Declarations.last? own b.key = (b.of w.style).map px := by
  -- The bounds are declared first, and nothing behind them is under the same property.
  cases w with
  | wrap => cases hwrapper
  | box key s arrangement children => exact ⟨_, rfl, arrangement.last?_declarations s _⟩
  | leaf key s content =>
    cases content with
    | vector => exact absurd (Or.inl rfl) hdrawn
    | boolean => exact absurd (Or.inr rfl) hdrawn
    | icon content => exact ⟨_, rfl, s.last?_sizeDeclarations⟩
    | text content =>
      refine ⟨_, rfl, ?_⟩
      have htypography : ¬Declarations.Has content.style.declarations b.key := by
        simp [TextStyle.declarations]
      exact (Declarations.last?_append_of_not_has htypography).trans
        ((Declarations.last?_append_of_not_has (by simp)).trans s.last?_sizeDeclarations)
    | image content =>
      refine ⟨_, rfl, ?_⟩
      exact (Declarations.last?_append_of_not_has s.not_has_shadowDeclarations).trans
        ((Declarations.last?_append_of_not_has (by simp)).trans
          ((Declarations.last?_append_of_not_has (by simp)).trans s.last?_sizeDeclarations))

/-- **The style of a widget has its bounds,** wherever the widget stands. -/
theorem Widget.get?_css_bound {w : Widget} (hwrapper : w.isWrapper = false) (hdrawn : ¬w.IsDrawn)
    (placement : Placement) :
    ∃ css, w.css? placement = some css ∧ css.get? b.key = (b.of w.style).map px := by
  obtain ⟨own, hown, hlast⟩ := w.last?_own_bound (b := b) hwrapper hdrawn
  have hunwrapped : w.unwrapped = w := unwrapped_eq_self hwrapper
  obtain ⟨css, hcss⟩ := exists_css_of_own (hunwrapped.symm ▸ hown) placement
  -- Placement declares offsets only, so what the widget declares is the last under the key.
  have hplace : placement.declarations.last? b.key = none := by
    rw [Placement.last?_declarations]
    simp
  refine ⟨css, hcss, ?_⟩
  rw [get?_css (by cases b <;> decide) hcss, declared, hunwrapped, wrappers_eq_nil hwrapper, hown,
    List.flatMap_nil, List.nil_append, Declarations.last?_append, hplace, Option.none_or,
    Option.getD_some, hlast]

end Styles

/-! ### Agreement -/

/-- **The two kinds of output agree on a bound of a widget** in a place and a line: both have it or
none has, and what they have is the number of the style. -/
structure WidthBound.Agrees (b : WidthBound) (w : Widget) (placement : Placement)
    (parent : Option Direction) : Prop where
  together : (∃ css v, w.css? placement = some css ∧ css.get? b.key = some v) ↔
    (Flutter.expr parent w.childless).valuesOf b.label ≠ []
  declared : ∀ css v, w.css? placement = some css → css.get? b.key = some v →
    ∃ x, b.of w.style = some x ∧ v = px x
  called : ∀ e ∈ (Flutter.expr parent w.childless).valuesOf b.label,
    ∃ x, b.of w.style = some x ∧ e = Flutter.number x

/-- **What is written of a bound of a widget.** The style always has it. The expression of the
widget has what its own part has and then what its children have, and the own part of a group, an
image or an icon has none. So the outputs agree exactly if the widget is none of these or has no
such bound. -/
structure WidthBound.Written (b : WidthBound) (w : Widget) (placement : Placement)
    (parent : Option Direction) : Prop where
  style : ∃ css, w.css? placement = some css ∧ css.get? b.key = (b.of w.style).map px
  own : (Flutter.expr parent w.childless).valuesOf b.label =
    ((w.calledBound? b).map Flutter.number).toList
  whole : (Flutter.expr parent w).valuesOf b.label =
    (Flutter.expr parent w.childless).valuesOf b.label ++
      w.layoutChildren.flatMap fun c => (Flutter.expr w.itemDirection? c.item).valuesOf b.label
  agrees : b.Agrees w placement parent ↔ (w.DropsBounds → b.of w.style = none)

section Agreement

variable {w : Widget} (hwrapper : w.isWrapper = false) (hdrawn : ¬w.IsDrawn) (b : WidthBound)
  (placement : Placement) (parent : Option Direction)

include hwrapper hdrawn

/-- **Both outputs agree on a bound** exactly if it is not dropped where there is one. -/
theorem WidthBound.agrees_iff :
    b.Agrees w placement parent ↔ (w.DropsBounds → b.of w.style = none) := by
  obtain ⟨css, hcss, hbound⟩ := w.get?_css_bound (b := b) hwrapper hdrawn placement
  have hcalled := Flutter.valuesOf_expr_childless (b := b) hwrapper hdrawn parent
  constructor
  · -- A bound that the calls leave out is in the style all the same.
    intro hagrees hdrops
    by_contra hsome
    obtain ⟨x, hx⟩ := Option.ne_none_iff_exists'.mp hsome
    refine hagrees.together.mp ⟨css, px x, hcss, by rw [hbound, hx]; rfl⟩ ?_
    rw [hcalled, Widget.calledBound?, if_pos hdrops]
    rfl
  · -- Otherwise the calls have the bound of the style, as the style itself does.
    intro hnone
    have hbound? : w.calledBound? b = b.of w.style := by
      unfold Widget.calledBound?
      split
      · next hdrops => exact (hnone hdrops).symm
      · rfl
    rw [hbound?] at hcalled
    refine ⟨?_, fun css' v hcss' hv => ?_, fun e he => ?_⟩
    · rw [hcalled]
      cases hx : b.of w.style with
      | none =>
        refine iff_of_false ?_ (by simp)
        rintro ⟨css', v, hcss', hv⟩
        cases hcss.symm.trans hcss'
        simp [hbound, hx] at hv
      | some x => exact iff_of_true ⟨css, px x, hcss, by rw [hbound, hx]; rfl⟩ (by simp)
    · cases hcss.symm.trans hcss'
      obtain ⟨x, hx, hvalue⟩ := Option.map_eq_some_iff.mp (hbound.symm.trans hv)
      exact ⟨x, hx, hvalue.symm⟩
    · rw [hcalled, Option.mem_toList] at he
      obtain ⟨x, hx, hvalue⟩ := Option.map_eq_some_iff.mp he
      exact ⟨x, hx, hvalue.symm⟩

/-- **Bounds of the width in both kinds of output,** in every place and every line. -/
theorem WidthBound.bound_written : b.Written w placement parent where
  style := Widget.get?_css_bound hwrapper hdrawn placement
  own := Flutter.valuesOf_expr_childless hwrapper hdrawn parent
  whole := Flutter.valuesOf_expr hwrapper parent
  agrees := b.agrees_iff hwrapper hdrawn placement parent

end Agreement

/-- A photo that is to be no wider than its column. -/
def photo : Widget :=
  .leaf ⟨"photo", "photo", none⟩ { Style.sized 300 200 with maxWidth := some 240 }
    (.image ⟨.reserved "photo", .cover, "photo"⟩)

theorem not_isDrawn_photo : ¬photo.IsDrawn := by
  simp [Widget.IsDrawn, photo, Widget.kindName]

/-- The law at a photo with a greatest width. -/
theorem WidthBound.bound_written_photo : photo.isWrapper = false ∧ ¬photo.IsDrawn ∧
    WidthBound.greatest.Written photo .root none :=
  ⟨rfl, not_isDrawn_photo, WidthBound.bound_written rfl not_isDrawn_photo .greatest .root none⟩

/-- **A bound is lost** in the calls for an image, and kept in its style. -/
theorem WidthBound.not_agrees_photo : photo.isWrapper = false ∧ ¬photo.IsDrawn ∧
    ¬WidthBound.greatest.Agrees photo .root none := by
  refine ⟨rfl, not_isDrawn_photo, fun hagrees => ?_⟩
  have hagrees_iff := WidthBound.greatest.agrees_iff rfl not_isDrawn_photo .root none
  cases hagrees_iff.mp hagrees (by decide)

end DesignCompiler
