/-!
# Typography

The style of a run of text, and the heading or paragraph tag that a text can be given.
-/

namespace DesignCompiler

/-- Where the lines of a text stand in its box. -/
inductive TextAlign where
  | left
  | center
  | right
  | justified
deriving DecidableEq, Repr, Inhabited

/-- A line under or through a text. -/
inductive TextDecoration where
  | none
  | underline
  | strikethrough
deriving DecidableEq, Repr, Inhabited

/-- The style of a run of text; an absent measure is left to the renderer. -/
structure TextStyle where
  fontFamily : String := "Roboto"
  fontSize : Float := 14
  fontWeight : UInt16 := 400
  lineHeight : Option Float := none
  letterSpacing : Option Float := none
  align : TextAlign := .left
  decoration : TextDecoration := .none

/-- The tags that a text may be given in place of the default one. -/
inductive TextTag where
  | h1
  | h2
  | h3
  | h4
  | h5
  | h6
  | p
  | span
deriving DecidableEq, Repr

/-- The name of a tag in markup. -/
def TextTag.html : TextTag → String
  | h1 => "h1"
  | h2 => "h2"
  | h3 => "h3"
  | h4 => "h4"
  | h5 => "h5"
  | h6 => "h6"
  | p => "p"
  | span => "span"

/-- Every tag. -/
def TextTag.all : List TextTag := [.h1, .h2, .h3, .h4, .h5, .h6, .p, .span]

end DesignCompiler
