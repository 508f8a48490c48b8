import DesignCompiler.Paint.Color
/-!
# Shadows and blurs

An effect of a node is a shadow or a blur; `Effect.shadow?` and `Effect.blur?` tell which.
-/

namespace DesignCompiler

/-- A shadow, outside the shape or (`inset`) inside it. -/
structure Shadow where
  x : Float
  y : Float
  blur : Float
  spread : Float
  color : Color
  inset : Bool

/-- What a blur applies to: the layer itself, or what is painted behind it. -/
inductive BlurKind where
  | layer
  | background
deriving DecidableEq, Repr

/-- A blur of a radius. -/
structure Blur where
  kind : BlurKind
  radius : Float

/-- An effect of a node. -/
inductive Effect where
  | dropShadow (shadow : Shadow)
  | innerShadow (shadow : Shadow)
  | layerBlur (radius : Float)
  | backgroundBlur (radius : Float)

namespace Effect

/-- The effect as a blur, if it is one. -/
def blur? : Effect → Option Blur
  | layerBlur radius => some ⟨.layer, radius⟩
  | backgroundBlur radius => some ⟨.background, radius⟩
  | dropShadow _ | innerShadow _ => none

/-- The effect as a shadow, if it is one. -/
def shadow? : Effect → Option Shadow
  | dropShadow s | innerShadow s => some s
  | layerBlur _ | backgroundBlur _ => none

end Effect

end DesignCompiler
