import DesignCompiler.Asset.Table
import DesignCompiler.Code.Scaffold
import DesignCompiler.Framework
import DesignCompiler.Lowering.Tree
/-!
# From a design to code

`designToCode` is the whole way: the design is lowered to widgets, the widgets are written as a
module for a framework with a scaffold around it, and the images are put in. `emitCode` is the part
of it that starts from widgets.

The framework is looked at first, so an unsupported one is the failure whatever the design is.
-/

namespace DesignCompiler

/-- The switches of one run. -/
structure BuildOptions where
  /-- Name nothing after components. -/
  skipComponents : Bool := false
  /-- Look for no icons. -/
  skipIconDetection : Bool := false
  /-- Read no flags. -/
  skipFlags : Bool := false
  /-- Keep the root at the size that it has in the design, and cut off what lies outside. -/
  fixRootSize : Bool := false
deriving DecidableEq, Repr

/-- A widget in a box of the size of its node that cuts off what lies outside. -/
def fixSize (w : Widget) (n : Node) : Widget :=
  let key := w.key.derived "fixed"
  (w.wrapped (key.derived "overflow") .overflowBox).wrapped key
    (.sizedBox n.layer.width n.layer.height)

/-- What is put around the widget of a root, and around no other. -/
def fixRoot (w : Widget) (n : Node) (depth : Nat) : Widget := if depth = 0 then fixSize w n else w

namespace BuildOptions

/-- The options of lowering in a run. -/
def lowering (b : BuildOptions) : LoweringOptions where
  skipIconDetection := b.skipIconDetection
  skipFlags := b.skipFlags
  skipComponents := b.skipComponents
  wrap := if b.fixRootSize then some fixRoot else none

/-- The names of the switches, in order. -/
def names : List String :=
  ["disable_components", "disable_detection", "disable_flags_support",
    "force_root_widget_fixed_size_no_scroll"]

/-- **Reads the switches.** -/
def ofJson? (j : Json) : Option BuildOptions := do
  let members ← j.record? names
  let switch (name : String) : Option Bool := Json.optionOr (·.bool?) false members name
  return {
    skipComponents := ← switch "disable_components"
    skipIconDetection := ← switch "disable_detection"
    skipFlags := ← switch "disable_flags_support"
    fixRootSize := ← switch "force_root_widget_fixed_size_no_scroll" }

end BuildOptions

/-- Why there is no code for a design. -/
inductive BuildError where
  | unsupported (framework : String)
  | lowering (error : LoweringError)
deriving DecidableEq, Repr

/-- The wording of a failure. -/
def BuildError.message : BuildError → String
  | unsupported framework => s!"Framework '{framework}' is not supported"
  | lowering error => error.message

/-- Code for one widget tree and one framework. -/
structure CodeOutput where
  /-- The id of the widget that the code is for. -/
  id : String
  /-- The name of the component. -/
  name : String
  framework : String
  code : String
  /-- The least program that shows the component. -/
  scaffold : String
  /-- The packages that the code needs. -/
  dependencies : List String
deriving DecidableEq, Repr

namespace CodeOutput

/-- The output as JSON. -/
def toJson (o : CodeOutput) : Json :=
  .object [
    ("id", .string o.id),
    ("name", .string o.name),
    ("framework", .string o.framework),
    ("code", .object [("raw", .string o.code)]),
    ("scaffold", .object [("raw", .string o.scaffold)]),
    ("dependencies", .array (o.dependencies.map .string))]

/-- The output with images of a source in the place of reserved references. -/
def finalize (o : CodeOutput) (source : Option AssetSource) : CodeOutput :=
  let table := resolveAssets source (allReservedKeys [o.code, o.scaffold])
  { o with code := substitute table o.code, scaffold := substitute table o.scaffold }

end CodeOutput

/-- The emitter of a framework, or the failure for one without. -/
def emitterFor (f : Framework) : Except BuildError (Widget → Module) :=
  match f.emit? with
  | some emit => .ok emit
  | none => .error (.unsupported f.name)

/-- The code of a module for a widget tree. -/
def moduleOutput (f : Framework) (w : Widget) (m : Module) : CodeOutput where
  id := w.unwrapped.id
  name := m.name
  framework := f.name
  code := m.source
  scaffold := m.scaffold
  dependencies := m.dependencies

/-- **The code for a widget tree.** -/
def emitCode (w : Widget) (f : Framework) : Except BuildError CodeOutput := do
  let emit ← emitterFor f
  return moduleOutput f w (emit w)

/-- The code for a widget tree and each of several frameworks; one that is unsupported fails alone. -/
def emitAll (w : Widget) (frameworks : List Framework) : List (Except BuildError CodeOutput) :=
  frameworks.map (emitCode w)

/-- Code with the widget tree that it is for. -/
structure BuildResult where
  output : CodeOutput
  widget : Widget

/-- How images are put in. -/
structure AssetOptions where
  source : Option AssetSource := none
  /-- Leave the reserved references as they are. -/
  skip : Bool := false

/-- **The code for a design.** -/
def designToCode (root : Node) (f : Framework) (build : BuildOptions) (assets : AssetOptions) :
    Except BuildError BuildResult := do
  let emit ← emitterFor f
  match build.lowering.lower root with
  | .error e => .error (.lowering e)
  | .ok w =>
    let output := moduleOutput f w (emit w)
    return ⟨if assets.skip then output else output.finalize assets.source, w⟩

end DesignCompiler
