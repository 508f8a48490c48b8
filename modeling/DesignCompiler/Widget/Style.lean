import DesignCompiler.Geometry
import DesignCompiler.Paint.Effect
import DesignCompiler.Paint.Gradient
/-!
# Style of a widget

What a widget looks like, apart from what it holds: `Style` is free of any output language. Images
are named by an `ImageRef`, which is either a plain address or a reserved key; `ImageRef.source` is
the text that stands for it in generated code. Reserved keys are written behind
`reservationPrefix`, and are replaced by the images themselves after the code has been written.
-/

namespace DesignCompiler

/-- What stands in front of a reserved key in generated code. -/
def reservationPrefix : String := "weft://assets-reservation/images/"

/-- The image shown for an image paint without a reference. -/
def placeholderUrl : String := "https://static.weft.dev/placeholders/image-512.png"

/-- What stands in for an image that cannot be had: one transparent pixel. -/
def fallbackSource : String :=
  "data:image/gif;base64,R0lGODlhAQABAIAAAAAAAP///yH5BAEAAAAALAAAAAABAAEAAAIBRAA7"

/-- An image, by a key to be replaced later or by its address. -/
inductive ImageRef where
  | reserved (key : String)
  | static (url : String)
deriving DecidableEq, Repr

namespace ImageRef

/-- The address of the placeholder. -/
def placeholder : ImageRef := .static placeholderUrl

/-- The image of a paint: its reference as a key, or the placeholder where there is none. -/
def ofPaint (imageRef : String) : ImageRef :=
  if imageRef.isEmpty then placeholder else .reserved imageRef

/-- The text of the reference in generated code. -/
def source : ImageRef → String
  | reserved key => reservationPrefix ++ key
  | static url => url

end ImageRef

/-- What a box is filled with. -/
inductive Background where
  | color (color : Color)
  | gradient (gradient : Gradient)
  | image (ref : ImageRef)

/-- A solid line around a shape. -/
structure Border where
  width : Float
  color : Color

/-- The look of a widget; what is absent is left to the output. -/
structure Style where
  width : Option Float := none
  height : Option Float := none
  minWidth : Option Float := none
  maxWidth : Option Float := none
  background : Option Background := none
  border : Option Border := none
  borderRadius : Option Corners := none
  shadows : List Shadow := []
  padding : Option Insets := none

/-- A style that has a size and nothing else. -/
def Style.sized (width height : Float) : Style := { width := some width, height := some height }

end DesignCompiler
