import DesignCompiler.Design.Node
import DesignCompiler.Number.Rounding
import DesignCompiler.Widget.Basic
/-!
# Wrappers around a lowered node

What a layer asks for besides its own look is put around its widget, one wrapper for each effect.
The order is fixed, since another one would be drawn differently; from the outside in it is

`rotation`, `blurred` (one for each blur, the last one outermost), `opacity`, `expanded`,
`stretched`.

`Layer.wrappers` is this list, and `Layer.decorate` the only place where it is applied.
-/

namespace DesignCompiler

namespace Layer

/-- The axis along which a layer fills its parent: across the line that it is in, or the axes along
which it is pinned to both edges. -/
def stretchAxis? (l : Layer) : Option StretchAxis :=
  if l.layout.align = .stretch then some .cross
  else
    match l.layout.horizontal == .stretch, l.layout.vertical == .stretch with
    | true, true => some .both
    | true, false => some .horizontal
    | false, true => some .vertical
    | false, false => none

/-- The share of the free space that a layer takes, at least one. -/
def flexShare (l : Layer) : UInt32 :=
  (max 1 (Float.toNatSaturating 0xFFFFFFFF (Float.round l.layout.grow))).toUInt32

end Layer

/-- Degrees clockwise as radians counterclockwise. -/
def rotationAngle (degrees : Float) : Float :=
  degrees * (-(Float.ofBits 0x400921fb54442d18) / 180)

namespace Layer

/-- The effects of a layer, innermost first, each with the suffix of its key. -/
def effectWrappers (l : Layer) : List (String × Wrapper) :=
  (match l.stretchAxis? with
    | some axis => [("stretched", .stretched axis)]
    | none => []) ++
  (if l.layout.grow > 0 then [("expanded", .expanded l.flexShare)] else []) ++
  (if l.opacity != 1 then [("opacity", .opacity l.opacity)] else []) ++
  (l.blurs.mapIdx fun i blur => (s!"blur-{i}", Wrapper.blurred blur)) ++
  (if Float.round l.rotation != 0 then [("rotation", .rotation (rotationAngle l.rotation))] else [])

/-- The key of a layer, without the component that it is an instance of. -/
def plainKey (l : Layer) : WidgetKey := ⟨l.id, l.name, none⟩

/-- **Puts the wrappers of a layer around a widget.** -/
def decorate (l : Layer) (w : Widget) : Widget :=
  -- The first effect goes on first and ends up innermost.
  l.effectWrappers.foldl (fun inner e => inner.wrapped (l.plainKey.derived e.1) e.2) w

/-- The wrappers of a layer, outermost first. -/
def wrappers (l : Layer) : List Wrapper := (l.effectWrappers.map (·.2)).reverse

/-- Effects are wrapped around a widget and leave it inside. -/
theorem unwrapped_foldl (k : WidgetKey) (effects : List (String × Wrapper)) (w : Widget) :
    (effects.foldl (fun inner e => inner.wrapped (k.derived e.1) e.2) w).unwrapped =
      w.unwrapped := by
  induction effects generalizing w with
  | nil => rfl
  | cons e rest ih => simp [ih]

/-- The last effect is the outermost wrapper. -/
theorem wrappers_foldl (k : WidgetKey) (effects : List (String × Wrapper)) (w : Widget) :
    (effects.foldl (fun inner e => inner.wrapped (k.derived e.1) e.2) w).wrappers =
      (effects.map (·.2)).reverse ++ w.wrappers := by
  induction effects generalizing w with
  | nil => rfl
  | cons e rest ih =>
    rw [List.foldl_cons, ih, List.map_cons, List.reverse_cons, List.append_assoc]
    rfl

/-- The wrappers of a layer go outside those that the widget has. -/
@[simp] theorem wrappers_decorate (l : Layer) (w : Widget) :
    (l.decorate w).wrappers = l.wrappers ++ w.wrappers :=
  wrappers_foldl _ _ w

@[simp] theorem unwrapped_decorate (l : Layer) (w : Widget) :
    (l.decorate w).unwrapped = w.unwrapped :=
  unwrapped_foldl _ _ w

end Layer

end DesignCompiler
