import DesignCompiler.Design.Node
import DesignCompiler.Text.Blank
import DesignCompiler.Text.Search
import DesignCompiler.Text.Words
import DesignCompiler.Widget.Basic
/-!
# Icons among design nodes

A small node is an icon when its name says so, or when it is nearly square and made of vector shapes
only. `glyphName?` reads the glyph of a stock set from names such as `icon/arrow-back` or `ic_menu`.
-/

namespace DesignCompiler

/-- The icon that a node is to be shown as. -/
structure IconMatch where
  glyph : Option String
  size : Float
  color : Option Color
  src : ImageRef

/-- What counts as an icon. -/
structure IconDetector where
  /-- The greatest length of either side. -/
  maxSize : Float := 64

/-! ### Names -/

/-- The parts of a name that mark an icon. -/
def iconKeywords : List String := ["icon", "ic_", "ico-", "glyph", "symbol"]

/-- Whether a name contains a keyword, in upper or lower case. -/
def isNamedLikeIcon (name : String) : Bool :=
  iconKeywords.any fun keyword => occursIn keyword.toList (lowerText name.toList)

/-- Whether a character is a letter of a word regardless of case; the long `ſ` is an `s` too. -/
def sameLetter (letter c : Char) : Bool := c.toLower == letter || (letter == 's' && c == 'ſ')

/-- The rest of a text after a word, regardless of case. -/
def dropWord? : List Char → List Char → Option (List Char)
  | [], text => some text
  | letter :: word, c :: text => if sameLetter letter c then dropWord? word text else none
  | _ :: _, [] => none

/-- The characters that may stand between the word for an icon and the name of the glyph. -/
def isGlyphSeparator (c : Char) : Bool := c == '/' || c == '_' || c == ':' || c == '-'

/-- **What follows the word for an icon:** a separator or at least one blank, with blanks around,
then the rest. A separator with a blank before it and nothing at all after it is the rest itself,
since the blank can serve as the separator. -/
def afterSeparator? (text : List Char) : Option (List Char) :=
  let rest := text.dropWhile isBlank
  let spaced := rest.length < text.length
  match rest with
  | c :: more =>
    if isGlyphSeparator c && !(spaced && more.isEmpty) then some more
    else if spaced then some rest
    else none
  | [] => none

/-- The part of a name after its icon word, on one line and without blanks around it. -/
def glyphText? (name : List Char) : Option (List Char) := do
  let start := name.dropWhile isBlank
  let afterWord ← ["icons", "icon", "ic"].findSome? fun word => dropWord? word.toList start
  let rest := trimStart (← afterSeparator? afterWord)
  if rest.contains '\n' then none else some (trimEnd rest)

/-- **The glyph that a name asks for:** the last two parts between slashes, in snake case. -/
def glyphName? (name : String) : Option String := do
  let text ← glyphText? name.toList
  let parts := (splitOnChar '/' text).filter (!·.isEmpty)
  let glyph := snakeCase (String.ofList (joinTokens (parts.drop (parts.length - 2))))
  if glyph.isEmpty then none else some glyph

/-! ### Shapes -/

/-- What a part of an icon adds to the count of vectors, if it may be a part at all. -/
def Layer.vectorCount? (l : Layer) : Option Nat :=
  if l.hasImageFill then none
  else
    match l.kind with
    | some (.vector _) | some (.boolean _) => some 1
    | some .frame | some .group | some (.ellipse _) => some 0
    | _ => none

/-- The number of vectors among some nodes, all of which may be parts of an icon. -/
def countVectors? : List Node → Option Nat
  | [] => some 0
  | n :: rest => do
    let here ← n.layer.vectorCount?
    let others ← countVectors? rest
    return here + others

/-- Whether the sides of a layer differ little. -/
def Layer.isSquarish (l : Layer) : Bool :=
  let ratio := l.width / l.height
  0.75 ≤ ratio && ratio ≤ 1.34

/-- Nearly square, and made of vector shapes with at least one of them. -/
def Node.isShapedLikeIcon (n : Node) : Bool :=
  n.layer.isSquarish && (countVectors? n.descendants).any (0 < ·)

/-- The first solid color among the topmost fills of a node and those beneath it. -/
def Node.firstFillColor? (n : Node) : Option Color :=
  n.descendants.findSome? fun m => m.layer.fillColor?

namespace IconDetector

/-- Whether both sides are positive and within the limit. -/
def sizeFits (d : IconDetector) (l : Layer) : Bool :=
  !(l.width ≤ 0 || l.height ≤ 0) && !(l.width > d.maxSize || l.height > d.maxSize)

/-- The icon that a node is to be shown as, if any; a text or a node without a type is none. -/
def detect (d : IconDetector) (n : Node) : Option IconMatch :=
  let typed := n.layer.kind.any (!·.isText)
  if typed && d.sizeFits n.layer && (isNamedLikeIcon n.layer.name || n.isShapedLikeIcon) then
    some ⟨glyphName? n.layer.name, n.layer.longestSide, n.firstFillColor?, .reserved n.layer.id⟩
  else none

end IconDetector

end DesignCompiler
