import DesignCompiler.Emit.Web
/-!
# Plain page output

A widget tree becomes the markup of a page. Styles are either rules of a style sheet, one class for
each distinct style, or texts in the `style` attribute of each element.
-/

namespace DesignCompiler

/-- How elements are styled. -/
inductive PageStyling where
  | classes
  | inlineCss
deriving DecidableEq, Repr, Inhabited

/-- What page output is configured by. -/
structure PageOptions where
  styling : PageStyling := .classes
deriving DecidableEq, Repr

namespace Page

/-- The class of a declared style. -/
def className (declaration : String) : String := kebabCase declaration

/-- Each styled element has the class of its declaration. -/
def classBinding : StyleBinding :=
  ⟨Attribute.plain, fun entry =>
    match entry.styling with
    | some styling => [.ofText "class" (className styling.declaration.name)]
    | none => []⟩

/-- Each element has its style as text. -/
def inlineBinding : StyleBinding :=
  ⟨Attribute.plain, StyleBinding.styleAttribute fun css => .text css.inline⟩

/-- A declared style as the rule for its class. -/
def classRule (d : StyleDeclaration) : Declaration := .cssRule ("." ++ className d.name) d.style

/-- **The module of a widget tree.** -/
def emit (o : PageOptions) (w : Widget) : Module :=
  let (name, namer) := w.componentName .none
  let m : Module := { name := name, language := .html }
  let m := m.withExport name
  match o.styling with
  | .classes =>
    let sheet := StyleSheet.ofMap (namer.styleMap ⟨false, true⟩ w).1 true
    { m with declarations := sheet.uniques.map classRule }
      |>.withReturn (.markup (classBinding.markup sheet w))
  | .inlineCss =>
    let sheet := StyleSheet.ofMap (namer.styleMap {} w).1 false
    m.withReturn (.markup (inlineBinding.markup sheet w))

end Page

end DesignCompiler
