import DesignCompiler.Geometry
import DesignCompiler.Paint.Effect
import DesignCompiler.Paint.Fill
import DesignCompiler.Typography
import DesignCompiler.VectorPath
/-!
# Design nodes

A design is a tree. Each `Node` is a `Layer`, which holds all that is said about one layer of the
drawing, with the layers inside it, later ones painted on top.

`Node.preorder` lists a node and everything beneath it. `Node.descendants` is the same list, made by
a walk that keeps the subtrees still to be visited on a stack; it is what the analyses run, since it
needs no memory for the depth of a tree.
-/

namespace DesignCompiler

/-- The sweep of an ellipse, angles in radians. -/
structure Arc where
  start : Float := 0
  stop : Float := Float.ofBits 0x401921fb54442d18
  /-- The radius of the hole as a fraction, 0 for none. -/
  inner : Float := 0

/-- Whether an ellipse starts at zero and has no hole; it may stop short of a full turn. -/
def Arc.isStandard (a : Arc) : Bool := a.start == 0 && a.inner == 0

/-- The type of a node with what only that type has. -/
inductive NodeKind where
  | frame
  | group
  | rectangle
  | line
  | ellipse (arc : Arc)
  | text (characters : String) (style : TextStyle)
  | vector (paths : List VectorPath)
  | boolean (operation : BooleanOperation)
  /-- A tag without handling of its own. -/
  | unrecognized (tag : String)

namespace NodeKind

/-- The tag as the authoring tool spells it. -/
def tag : NodeKind → String
  | frame => "FRAME"
  | group => "GROUP"
  | rectangle => "RECTANGLE"
  | line => "LINE"
  | ellipse _ => "ELLIPSE"
  | text .. => "TEXT"
  | vector _ => "VECTOR"
  | boolean _ => "BOOLEAN_OPERATION"
  | unrecognized tag => tag

/-- Whether the node is drawn by paths. -/
def isVectorLike : NodeKind → Bool
  | vector _ | boolean _ => true
  | _ => false

/-- Whether the node is a text. -/
def isText : NodeKind → Bool
  | text .. => true
  | _ => false

end NodeKind

/-- The direction in which a node lays out its children, if it does. -/
inductive LayoutMode where
  | none
  | horizontal
  | vertical
deriving DecidableEq, Repr, Inhabited

/-- How a node stands across the direction of the line it is in. -/
inductive LayoutAlign where
  | inherit
  | stretch
deriving DecidableEq, Repr, Inhabited

/-- How a node follows its parent along one axis. -/
inductive Constraint where
  | min
  | max
  | center
  /-- Pinned to both edges. -/
  | stretch
  | scale
deriving DecidableEq, Repr, Inhabited

/-- The layout of a node, as a parent and as a child. -/
structure NodeLayout where
  mode : LayoutMode := .none
  align : LayoutAlign := .inherit
  grow : Float := 0
  itemSpacing : Float := 0
  padding : Insets := .all 0
  primaryAxis : AxisAlignment := .min
  counterAxis : AxisAlignment := .min
  horizontal : Constraint := .min
  vertical : Constraint := .min

/-- **One layer of a design.** A missing `kind` is a fault in the input. -/
structure Layer where
  id : String
  name : String
  kind : Option NodeKind
  visible : Bool := true
  x : Float := 0
  y : Float := 0
  width : Float := 0
  height : Float := 0
  /-- In degrees. -/
  rotation : Float := 0
  fills : List Paint := []
  strokes : List Paint := []
  strokeWeight : Float := 0
  corners : Corners := .all 0
  opacity : Float := 1
  effects : List Effect := []
  layout : NodeLayout := {}
  /-- Whether the layer masks the siblings painted after it. -/
  isMask : Bool := false
  /-- Whether the layer is the root of a screen. -/
  isRoot : Bool := false
  /-- The component that the layer is an instance of. -/
  component : Option String := none

/-- A layer with the nodes inside it, in the order of painting. -/
structure Node where
  layer : Layer
  children : List Node

instance : Inhabited Node := ⟨⟨{ id := "", name := "", kind := none }, []⟩⟩

namespace Layer

/-- The topmost shown fill as a color. -/
def fillColor? (l : Layer) : Option Color := primaryColor? l.fills

/-- Whether any fill is an image, shown or not. -/
def hasImageFill (l : Layer) : Bool := l.fills.any (·.isImage)

/-- The blurs among the effects. -/
def blurs (l : Layer) : List Blur := l.effects.filterMap (·.blur?)

/-- The characters of a text. -/
def characters? (l : Layer) : Option String :=
  match l.kind with
  | some (.text characters _) => some characters
  | _ => none

/-- The longer of the two sides. -/
def longestSide (l : Layer) : Float := Float.larger l.width l.height

end Layer

namespace Node

/-- Whether a direct child is a mask. -/
def containsMasking (n : Node) : Bool := n.children.any (·.layer.isMask)

/-! ### The nodes of a tree -/

mutual

/-- The number of nodes in a tree. -/
def size : Node → Nat
  | ⟨_, children⟩ => sizes children + 1

/-- The number of nodes in a list of trees. -/
def sizes : List Node → Nat
  | [] => 0
  | n :: rest => n.size + sizes rest

end

mutual

/-- A node, then everything beneath its children, child by child. -/
def preorder : Node → List Node
  | ⟨layer, children⟩ => ⟨layer, children⟩ :: preorders children

/-- The nodes of several trees, tree by tree. -/
def preorders : List Node → List Node
  | [] => []
  | n :: rest => n.preorder ++ preorders rest

end

/-- Sizes add up along a list. -/
@[simp] theorem sizes_append (ns ms : List Node) : sizes (ns ++ ms) = sizes ns + sizes ms := by
  induction ns with
  | nil => simp [sizes]
  | cons n ns ih => simp [sizes, ih, Nat.add_assoc]

/-- Lists are walked one after the other. -/
@[simp] theorem preorders_append (ns ms : List Node) :
    preorders (ns ++ ms) = preorders ns ++ preorders ms := by
  induction ns with
  | nil => simp [preorders]
  | cons n ns ih => simp [preorders, ih]

/-- **The walk with a stack.** The topmost subtree is taken off, its node is given out, and its
children are put on in its place, the first one on top. -/
def descendantsFrom : List Node → List Node
  | [] => []
  | ⟨layer, children⟩ :: pending => ⟨layer, children⟩ :: descendantsFrom (children ++ pending)
termination_by pending => sizes pending
decreasing_by simp [sizes, size]

/-- A node and all nodes beneath it, parents first. -/
def descendants (n : Node) : List Node := descendantsFrom [n]

/-- The nodes strictly beneath a node. -/
def properDescendants (n : Node) : List Node := n.descendants.drop 1

end Node

end DesignCompiler
