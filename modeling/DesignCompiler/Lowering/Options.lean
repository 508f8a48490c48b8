import DesignCompiler.Detect.Icon
import DesignCompiler.Detect.Image
/-!
# Options of lowering

What can be switched off or put in when a design is lowered to widgets, and the two ways in which
lowering fails.
-/

namespace DesignCompiler

/-- Why a design has no widget. -/
inductive LoweringError where
  /-- A node has no type. -/
  | missingType (id name : String)
  /-- The root is hidden or ignored. -/
  | emptyRoot (id : String)
deriving DecidableEq, Repr

/-- The wording of a failure. -/
def LoweringError.message : LoweringError → String
  | missingType id name => s!"Node {id} ({name}) has no type tag"
  | emptyRoot id => s!"Root node {id} produced no widget"

/-- The switches of lowering. -/
structure LoweringOptions where
  /-- Look for no icons; images are looked for in any case. -/
  skipIconDetection : Bool := false
  /-- Read no flags. -/
  skipFlags : Bool := false
  /-- Record no components in keys. -/
  skipComponents : Bool := false
  /-- A mask gives its outline and is not painted itself. -/
  hideMaskShapes : Bool := true
  /-- The nodes whose flags are not read. -/
  ignoresFlags : Option (Node → Bool) := none
  /-- What takes the place of the finished widget of a node at a depth. -/
  wrap : Option (Widget → Node → Nat → Widget) := none
  imageDetector : ImageDetector := {}
  iconDetector : IconDetector := {}
  /-- What finds out whether a node is an image: the detector above, unless another is put in. -/
  detectImage : Node → Option ImageMatch := imageDetector.detect
  /-- What finds out whether a node is an icon: the detector above, unless another is put in. -/
  detectIcon : Node → Option IconMatch := iconDetector.detect

namespace LoweringOptions

/-- Whether the flags of a node are read. -/
def readsFlags (o : LoweringOptions) (n : Node) : Bool :=
  !o.skipFlags && !o.ignoresFlags.any (· n)

/-- The key of the widget of a layer. -/
def key (o : LoweringOptions) (l : Layer) : WidgetKey :=
  ⟨l.id, l.name, if o.skipComponents then none else l.component⟩

end LoweringOptions

end DesignCompiler
