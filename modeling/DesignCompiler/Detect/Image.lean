import DesignCompiler.Design.Node
import DesignCompiler.Widget.Basic
/-!
# Images among design nodes

A node is shown as one image when it is a box painted with nothing but an image, or when it is an
illustration: a frame or group of some size that is made of many vector shapes and nothing else
that would have to be kept apart.
-/

namespace DesignCompiler

/-- The image that a node is to be shown as. -/
structure ImageMatch where
  src : ImageRef
  fit : BoxFit
  /-- The node as a whole is drawn as the image. -/
  illustration : Bool

/-- What counts as an illustration. -/
structure ImageDetector where
  /-- The least number of vector shapes. -/
  minVectors : Nat := 8
  /-- The least length of the longer side. -/
  minSize : Float := 96

/-- How an image fills its box under a scale mode. -/
def ScaleMode.boxFit : ScaleMode → BoxFit
  | fit => .contain
  | fill | crop | tile => .cover

namespace Node

/-- A rectangle, or a frame with nothing in it. -/
def isPlainBox (n : Node) : Bool :=
  match n.layer.kind with
  | some .rectangle => true
  | some .frame => n.children.isEmpty
  | _ => false

/-- Whether an outline is drawn. -/
def hasVisibleStroke (n : Node) : Bool :=
  n.layer.strokeWeight > 0 && (primaryPaint? n.layer.strokes).isSome

/-- The image of a plain box without an outline whose only visible fill is an image. -/
def imageBox? (n : Node) : Option ImageMatch :=
  if !n.isPlainBox || n.hasVisibleStroke then none
  else if (n.layer.fills.filter (·.visible)).length ≠ 1 then none
  else
    match primaryPaint? n.layer.fills with
    | some ⟨.image imageRef scale, _, _⟩ => some ⟨.ofPaint imageRef, scale.boxFit, false⟩
    | _ => none

end Node

/-- What a part of an illustration adds to the count of shapes, if it may be a part at all: a shape
counts, a box is allowed, everything else and any image fill is not. -/
def Layer.shapeCount? (l : Layer) : Option Nat :=
  if l.hasImageFill then none
  else
    match l.kind with
    | some (.vector _) | some (.boolean _) | some (.ellipse _) => some 1
    | some .group | some .frame | some .rectangle => some 0
    | _ => none

/-- The number of shapes among some nodes, all of which may be parts of an illustration. -/
def countShapes? : List Node → Option Nat
  | [] => some 0
  | n :: rest => do
    let here ← n.layer.shapeCount?
    let others ← countShapes? rest
    return here + others

namespace ImageDetector

/-- A frame or group that is an illustration. -/
def illustration? (d : ImageDetector) (n : Node) : Option ImageMatch :=
  let large := !(n.layer.longestSide < d.minSize)
  match n.layer.kind with
  | some .frame | some .group =>
    if large && (countShapes? n.properDescendants).any (d.minVectors ≤ ·) then
      some ⟨.reserved n.layer.id, .cover, true⟩
    else none
  | _ => none

/-- The image that a node is to be shown as, if any. -/
def detect (d : ImageDetector) (n : Node) : Option ImageMatch := n.imageBox? <|> d.illustration? n

end ImageDetector

end DesignCompiler
