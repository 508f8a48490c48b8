import DesignCompiler.Emit.Web
/-!
# React output

A widget tree becomes a function component. Styles are either objects in the `style` attribute of
each element, or styled components, one for each distinct style, whose names are used as tags.
-/

namespace DesignCompiler

/-- The package that styled components come from. -/
inductive StyledPackage where
  | emotion
  | styledComponents
deriving DecidableEq, Repr, Inhabited

/-- The name of a package. -/
def StyledPackage.name : StyledPackage → String
  | emotion => "@emotion/styled"
  | styledComponents => "styled-components"

/-- How elements are styled. -/
inductive ReactStyling where
  | inlineCss
  | styledComponents (package : StyledPackage)
deriving DecidableEq, Repr

/-- Where styled components come from, if they are used. -/
def ReactStyling.package? : ReactStyling → Option StyledPackage
  | inlineCss => none
  | styledComponents package => some package

/-- What React output is configured by. -/
structure ReactOptions where
  /-- Whether types may be written. -/
  typed : Bool := true
  styling : ReactStyling := .styledComponents .emotion
  exporting : ExportStyle := .default
deriving DecidableEq, Repr

namespace React

/-- The name of an attribute in script markup: two have names of their own, and one with a hyphen is
in camel case unless it belongs to a family that keeps its hyphens. -/
def attributeName (name : String) : String :=
  if name == "class" then "className"
  else if name == "for" then "htmlFor"
  else if "data-".toList.isPrefixOf name.toList || "aria-".toList.isPrefixOf name.toList then name
  else if name.toList.contains '-' then camelCase name
  else name

/-- An attribute in script markup. -/
def scriptAttribute (a : Attribute) : Attribute :=
  ⟨attributeName a.name,
    match a.value with
    | .text value => .text value
    | .record entries => .record (Css.camelCasePairs entries)⟩

/-- Each element has its style as an object. -/
def inlineBinding : StyleBinding :=
  ⟨scriptAttribute, StyleBinding.styleAttribute fun css => .record css.camelCased⟩

/-- Elements are styled by their tags. -/
def sharedBinding : StyleBinding := ⟨scriptAttribute, fun _ => []⟩

/-- A declared style as a styled component. -/
def styledComponent (d : StyleDeclaration) : Declaration :=
  .styledComponent d.name d.htmlTag d.style

/-- The module before its body is known. -/
def emptyModule (o : ReactOptions) (name : String) : Module :=
  let m : Module :=
    { name := name, language := if o.typed then .tsx else .jsx, exportStyle := o.exporting }
  ((m.withExport name).withImport { source := "react", defaultName := some "React" })
    |>.withDependency "react"

/-- **The module of a widget tree.** -/
def emit (o : ReactOptions) (w : Widget) : Module :=
  let (name, namer) := w.componentName .react
  let m := emptyModule o name
  match o.styling.package? with
  | none =>
    let sheet := StyleSheet.ofMap (namer.styleMap {} w).1 false
    m.withReturn (.markup (inlineBinding.markup sheet w))
  | some package =>
    let sheet := StyleSheet.ofMap (namer.styleMap ⟨true, true⟩ w).1 true
    let m := (m.withImport { source := package.name, defaultName := some "styled" })
      |>.withDependency package.name
    { m with declarations := sheet.uniques.map styledComponent }
      |>.withReturn (.markup (sharedBinding.markup sheet w))

end React

end DesignCompiler
