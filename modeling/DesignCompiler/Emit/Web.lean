import DesignCompiler.Code.Module
import DesignCompiler.Style.Sheet
/-!
# Widgets as markup

On the web, every widget becomes an element, with the elements of its children in it; wrappers have
no elements of their own. How styles are bound to the elements is up to a `StyleBinding`.
-/

namespace DesignCompiler

/-- How attributes and styles are written in an output. -/
structure StyleBinding where
  /-- A fixed attribute of an element as the output writes it. -/
  convert : Attribute → Attribute
  /-- The attributes that bind the style of an element to it. -/
  bind : StyleEntry → List Attribute

/-- An attribute with its inline style, if it is one, as text. -/
def Attribute.plain (a : Attribute) : Attribute :=
  ⟨a.name,
    match a.value with
    | .text value => .text value
    | .record entries => .text (Css.inlinePairs entries)⟩

namespace StyleBinding

/-- The start tag of an element as its entry in the style sheet has it; without an entry the tag is
the one that belongs to the widget. -/
def startTag (b : StyleBinding) (sheet : StyleSheet) (id : String) (own : StartTag) : StartTag :=
  match sheet.entry? id with
  | some entry => ⟨entry.tag, entry.attributes.map b.convert ++ b.bind entry⟩
  | none => ⟨own.name, own.attributes.map b.convert⟩

/-- A shape inside a drawing. -/
def shape (b : StyleBinding) (tag : StartTag) : Markup :=
  .element ⟨tag.name, tag.attributes.map b.convert⟩ []

/-- What is inside an element before the elements of the children. -/
def content (b : StyleBinding) (e : OwnElement) : List Markup :=
  (e.text.map Markup.text).toList ++ e.shapes.map b.shape

mutual

/-- **The element of a widget** with the elements of its children. -/
def markup (b : StyleBinding) (sheet : StyleSheet) : Widget → Markup
  | .wrap _ _ _ child => markup b sheet child
  | .leaf key _ leaf =>
    let own := leaf.element key.originName
    .element (b.startTag sheet key.id own.start) (b.content own)
  | .box key _ _ children =>
    .element (b.startTag sheet key.id { name := "div" }) (markupAll b sheet children)

/-- The elements of some children. -/
def markupAll (b : StyleBinding) (sheet : StyleSheet) : List (Placed Widget) → List Markup
  | [] => []
  | ⟨_, _, w⟩ :: rest => markup b sheet w :: markupAll b sheet rest

end

/-- Attributes that bind a style by an attribute of its own, where the style says anything and the
element does not have the attribute already. -/
def styleAttribute (value : Css → AttributeValue) (entry : StyleEntry) : List Attribute :=
  match entry.styling with
  | some styling =>
    if styling.style.isEmpty || entry.attributes.any (·.name == "style") then []
    else [⟨"style", value styling.style⟩]
  | none => []

end StyleBinding

/-- The name of the component for a widget tree, with the namer that gave it. -/
def Widget.componentName (w : Widget) (words : ReservedWords) : String × Namer :=
  Namer.nameIt ⟨w.id, words, [], .empty⟩ w.unwrapped.key.name

end DesignCompiler
