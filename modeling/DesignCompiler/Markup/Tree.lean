/-!
# Markup

Trees of elements and texts, as web pages and script components are made of. An element begins with
a `StartTag`, whose attributes are texts or records (inline styles).
-/

namespace DesignCompiler

/-- What an attribute is set to. -/
inductive AttributeValue where
  | text (value : String)
  /-- An inline style, as names and values. -/
  | record (entries : List (String × String))
deriving DecidableEq, Repr

/-- An attribute of an element. -/
structure Attribute where
  name : String
  value : AttributeValue
deriving DecidableEq, Repr

/-- An attribute that is a text. -/
def Attribute.ofText (name value : String) : Attribute := ⟨name, .text value⟩

/-- The name of an element with its attributes. -/
structure StartTag where
  name : String
  attributes : List Attribute := []
deriving DecidableEq, Repr

/-- Whether an attribute of a name is present. -/
def StartTag.has (t : StartTag) (name : String) : Bool := t.attributes.any (·.name == name)

/-- A text, or an element with what is in it. -/
inductive Markup where
  | text (data : String)
  | element (start : StartTag) (children : List Markup)
deriving Repr

instance : Inhabited Markup := ⟨.text ""⟩

namespace Markup

mutual

/-- An element with all elements in it, parents first. -/
def elements : Markup → List Markup
  | text _ => []
  | element start children => element start children :: elementsAll children

/-- The elements in several nodes, node by node. -/
def elementsAll : List Markup → List Markup
  | [] => []
  | m :: rest => m.elements ++ elementsAll rest

end

end Markup

end DesignCompiler
