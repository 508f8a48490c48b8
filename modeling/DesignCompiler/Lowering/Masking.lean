import DesignCompiler.Lowering.Decorate
import DesignCompiler.Lowering.Options
import DesignCompiler.Lowering.Shape
/-!
# Masks

A mask clips every sibling painted after it, up to the next mask. In the widget tree each mask is a
clipping container that holds those siblings, placed relative to the mask.

`partitionMasks` cuts a list of lowered children at the masks, and `LoweringOptions.maskedWidget`
builds the container from the parts.
-/

namespace DesignCompiler

/-- A child with its widget, if it has one; a mask has none of its own. -/
structure LoweredChild where
  layer : Layer
  widget : Option Widget

/-- A child that has a widget. -/
structure Survivor where
  layer : Layer
  widget : Widget

/-- The child placed relative to a point. -/
def Survivor.relativeTo (s : Survivor) (origin : Float × Float) : Placed Widget :=
  ⟨s.layer.x - origin.1, s.layer.y - origin.2, s.widget⟩

/-- A mask with the children that it clips. -/
structure MaskRun where
  mask : Layer
  clipped : List Survivor

/-- The children that have a widget. -/
def survivors (children : List LoweredChild) : List Survivor :=
  children.filterMap fun c => c.widget.map fun w => ⟨c.layer, w⟩

/-- **Cuts at the masks:** the surviving children before the first mask, then each mask with the
surviving children between it and the next one. -/
def partitionMasks : List LoweredChild → List Survivor × List MaskRun
  | [] => ([], [])
  | c :: rest =>
    let (before, runs) := partitionMasks rest
    -- From the back: what has come so far is what this mask clips.
    if c.layer.isMask then ([], ⟨c.layer, before⟩ :: runs)
    else ((c.widget.map (Survivor.mk c.layer)).toList ++ before, runs)

/-- **The point that the children of a layer are placed from.** Those of a group share the
coordinates of the frame around it; those of any other node are relative to the node. -/
def Layer.origin (l : Layer) : Float × Float :=
  match l.kind with
  | some .group => (l.x, l.y)
  | _ => (0, 0)

/-- The outline of a mask. -/
def Layer.maskShape (l : Layer) : BoxShape :=
  match l.kind with
  | some (.ellipse _) => .circle
  | _ => .rectangle

namespace LoweringOptions

/-- The style of a mask: its outline, and its look unless masks are hidden. -/
def maskStyle (o : LoweringOptions) (mask : Layer) : Style :=
  let style := if o.hideMaskShapes then mask.sizedStyle else mask.boxStyle
  if mask.corners.isZero then style else { style with borderRadius := some mask.corners }

/-- The clipping container of a mask, placed relative to a point. -/
def clip (o : LoweringOptions) (origin : Float × Float) (run : MaskRun) : Placed Widget :=
  let inside := run.clipped.map (·.relativeTo (run.mask.x, run.mask.y))
  let container :=
    Widget.box (o.key run.mask) (o.maskStyle run.mask) (.container run.mask.maskShape true) inside
  ⟨run.mask.x - origin.1, run.mask.y - origin.2, run.mask.decorate container⟩

/-- The widget of a layer with masks among its children. -/
def maskedWidget (o : LoweringOptions) (l : Layer) (children : List LoweredChild) : Widget :=
  let (before, runs) := partitionMasks children
  .box (o.key l) l.boxStyle (.container .rectangle false)
    (before.map (·.relativeTo l.origin) ++ runs.map (o.clip l.origin))

end LoweringOptions

@[simp] theorem partitionMasks_nil : partitionMasks [] = ([], []) := rfl

/-- Where there is no mask, all survivors come before the first one. -/
theorem partitionMasks_of_no_mask {children : List LoweredChild}
    (h : ∀ c ∈ children, c.layer.isMask = false) :
    partitionMasks children = (survivors children, []) := by
  induction children with
  | nil => rfl
  | cons c rest ih =>
    have hc := h c (List.mem_cons_self ..)
    have hr := ih fun d hd => h d (List.mem_cons_of_mem _ hd)
    cases hw : c.widget <;> simp [partitionMasks, survivors, hr, hc, hw]

end DesignCompiler
