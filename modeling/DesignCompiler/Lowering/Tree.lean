import DesignCompiler.Lowering.Masking
/-!
# Lowering a design tree

`LoweringOptions.lower` turns the root of a design into a widget tree.

What is done with a node is decided before any of its children is looked at, and is a value of its
own, `Treatment`: the node is dropped, it is a fault, its widget is known, or its children have to
be lowered first. `LoweringOptions.treatment` decides it; `lowerNode` and `lowerChildren` carry it
out over the tree, and fail at the first fault in the order of the walk.
-/

namespace DesignCompiler

/-- Changes that flags ask for in an ordinary widget. -/
structure Changes where
  tag : Option TextTag := none
  minWidth : Option Float := none
  maxWidth : Option Float := none

/-- The changes made to the style. -/
def Changes.applyStyle (c : Changes) (s : Style) : Style :=
  { s with minWidth := c.minWidth <|> s.minWidth, maxWidth := c.maxWidth <|> s.maxWidth }

/-- **Makes the changes in a widget.** Only a text takes the tag. -/
def Changes.apply (c : Changes) : Widget → Widget
  | .leaf key style (.text content) =>
    .leaf key (c.applyStyle style) (.text { content with tag := c.tag <|> content.tag })
  | .leaf key style content => .leaf key (c.applyStyle style) content
  | .box key style arrangement children => .box key (c.applyStyle style) arrangement children
  | .wrap key style wrapper child => .wrap key (c.applyStyle style) wrapper child

/-- What is to be done with a node. -/
inductive Treatment where
  /-- The node is hidden or ignored, and has no widget. -/
  | dropped
  /-- The node has no type. -/
  | untyped
  /-- The node has this widget, whatever is in it. -/
  | finished (widget : Widget)
  /-- The node is a container of its children. -/
  | container (changes : Changes)

namespace LoweringOptions

/-- The icon that a node is to be shown as, if icons are looked for. -/
def detectIcon? (o : LoweringOptions) (n : Node) : Option IconMatch :=
  if o.skipIconDetection then none else o.detectIcon n

/-- The treatment of a node of a type that no flag overrides: what the detectors claim comes first,
then a node with masks in it, then the rule for the type. -/
def ordinaryTreatment (o : LoweringOptions) (n : Node) (kind : NodeKind) (changes : Changes) :
    Treatment :=
  let l := n.layer
  let key := o.key l
  match o.detectImage n with
  | some found => .finished (changes.apply (l.imageWidget found key))
  | none =>
    match o.detectIcon? n with
    | some found => .finished (changes.apply (l.iconWidget found key))
    | none =>
      -- With a mask among its children a node of any type is a container.
      if n.containsMasking then .container changes
      else
        match kind with
        | .frame | .group => .container changes
        | .text characters style => .finished (changes.apply (l.textWidget characters style key))
        | .rectangle => .finished (changes.apply (l.rectangleWidget key))
        | .ellipse arc => .finished (changes.apply (l.ellipseWidget arc key))
        | .line => .finished (changes.apply (l.lineWidget key))
        | .vector paths => .finished (changes.apply (l.vectorWidget paths key))
        | .boolean operation =>
          .finished (changes.apply (l.booleanWidget operation (vectorPaths n.descendants) key))
        | .unrecognized _ => .finished (changes.apply (l.unhandledPicture key))

/-- What the flags of a node ask for, if they are read and are well formed. -/
def override? (o : LoweringOptions) (n : Node) : Option Override :=
  if o.readsFlags n then
    match n.layer.override? with
    | .ok found => found
    -- A name whose flags cannot be read counts as one without flags.
    | .error _ => none
  else none

/-- **What is to be done with a node.** -/
def treatment (o : LoweringOptions) (n : Node) : Treatment :=
  let l := n.layer
  -- A hidden node may lack a type: it is gone before that is asked.
  if !l.visible then .dropped
  else
    match l.kind with
    | none => .untyped
    | some kind =>
      match o.override? n with
      | some .ignore => .dropped
      | some .artwork => .finished (l.picture (o.key l))
      | some (.icon glyph) => .finished (l.iconWidget (l.flaggedIcon glyph) (o.key l))
      | some (.modify tag minWidth maxWidth) =>
        o.ordinaryTreatment n kind ⟨tag, minWidth, maxWidth⟩
      | none => o.ordinaryTreatment n kind {}

/-- The widget of a layer that holds lowered children. -/
def containerWidget (o : LoweringOptions) (l : Layer) (children : List LoweredChild) : Widget :=
  if children.any (·.layer.isMask) then o.maskedWidget l children
  else
    let placed := (survivors children).map (·.relativeTo l.origin)
    match l.kind with
    | some .group => l.groupWidget placed (o.key l)
    | _ => l.frameWidget placed (o.key l)

/-- The finished widget of a node: wrapped by its effects, then by what the options put around the
nodes of a depth. -/
def finish (o : LoweringOptions) (n : Node) (depth : Nat) (w : Widget) : Widget :=
  let decorated := n.layer.decorate w
  match o.wrap with
  | some wrap => wrap decorated n depth
  | none => decorated

mutual

/-- **Lowers a node at a depth;** `none` for a node without a widget. -/
def lowerNode (o : LoweringOptions) (depth : Nat) : Node → Except LoweringError (Option Widget)
  | ⟨layer, children⟩ =>
    match o.treatment ⟨layer, children⟩ with
    | .dropped => .ok none
    | .untyped => .error (.missingType layer.id layer.name)
    | .finished w => .ok (some (o.finish ⟨layer, children⟩ depth w))
    | .container changes =>
      match lowerChildren o (depth + 1) children with
      | .error e => .error e
      | .ok lowered =>
        .ok (some (o.finish ⟨layer, children⟩ depth
          (changes.apply (o.containerWidget layer lowered))))

/-- Lowers the children of a node in order; masks are kept for what they clip. -/
def lowerChildren (o : LoweringOptions) (depth : Nat) :
    List Node → Except LoweringError (List LoweredChild)
  | [] => .ok []
  | ⟨layer, children⟩ :: rest =>
    -- A mask is not lowered as a node: it needs no type, and clips even when it is hidden.
    if layer.isMask then
      match lowerChildren o depth rest with
      | .error e => .error e
      | .ok lowered => .ok (⟨layer, none⟩ :: lowered)
    else
      match lowerNode o depth ⟨layer, children⟩ with
      | .error e => .error e
      | .ok w =>
        match lowerChildren o depth rest with
        | .error e => .error e
        | .ok lowered => .ok (⟨layer, w⟩ :: lowered)

end

/-- **Lowers a design.** A root without a widget is a failure. -/
def lower (o : LoweringOptions) (root : Node) : Except LoweringError Widget :=
  match o.lowerNode 0 root with
  | .error e => .error e
  | .ok (some w) => .ok w
  | .ok none => .error (.emptyRoot root.layer.id)

end LoweringOptions

end DesignCompiler
