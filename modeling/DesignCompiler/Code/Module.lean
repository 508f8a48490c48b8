import DesignCompiler.Markup.Tree
import DesignCompiler.Style.Css
/-!
# Modules of generated code

A `Module` is one source file before it is written out: its imports, the styles that it declares,
and the expressions that its component returns. The expressions are markup or calls; a `Module` is
the same for all output languages.
-/

namespace DesignCompiler

/-- The languages in which modules are written. -/
inductive Language where
  | tsx
  | jsx
  | dart
  | html
deriving DecidableEq, Repr, Inhabited

namespace Language

/-- The extension of a file. -/
def fileExtension : Language → String
  | tsx => "tsx"
  | jsx => "jsx"
  | dart => "dart"
  | html => "html"

/-- Whether markup is written inside a script. -/
def isScript : Language → Bool
  | tsx | jsx => true
  | dart | html => false

end Language

/-- What a module takes from elsewhere. -/
structure Import where
  source : String
  defaultName : Option String := none
  named : List String := []
  /-- The name for all of it. -/
  qualifier : Option String := none
deriving DecidableEq, Repr

/-- A style that a module declares. -/
inductive Declaration where
  /-- An element of a tag with a style, under a name. -/
  | styledComponent (name tag : String) (style : Css)
  /-- A rule for the elements that a selector picks. -/
  | cssRule (selector : String) (style : Css)

/-- The style of a declaration. -/
def Declaration.style : Declaration → Css
  | styledComponent _ _ style | cssRule _ style => style

/-- An argument of a call, with its label if it has one. -/
structure Argument (α : Type) where
  label : Option String
  value : α

/-- An expression that a component returns. -/
inductive Expr where
  | markup (tree : Markup)
  | call (callee : String) (arguments : List (Argument Expr))
  /-- Source text as it stands. -/
  | literal (text : String)
  | list (items : List Expr)

instance : Inhabited Expr := ⟨.literal ""⟩

namespace Expr

/-- A text, or a call without arguments. -/
def isSimple : Expr → Bool
  | literal _ => true
  | call _ arguments => arguments.isEmpty
  | markup _ | list _ => false

mutual

/-- An expression with all expressions in it, outer ones first. -/
def subterms : Expr → List Expr
  | markup tree => [markup tree]
  | literal text => [literal text]
  | call callee arguments => call callee arguments :: subtermsArguments arguments
  | list items => list items :: subtermsAll items

/-- The expressions in some arguments. -/
def subtermsArguments : List (Argument Expr) → List Expr
  | [] => []
  | ⟨_, value⟩ :: rest => value.subterms ++ subtermsArguments rest

/-- The expressions in some items. -/
def subtermsAll : List Expr → List Expr
  | [] => []
  | item :: rest => item.subterms ++ subtermsAll rest

end

/-- The function called, if the expression is a call. -/
def callee? : Expr → Option String
  | call callee _ => some callee
  | markup _ | literal _ | list _ => none

/-- The functions called anywhere in an expression, in the order of the calls. -/
def callees (e : Expr) : List String := e.subterms.filterMap (·.callee?)

end Expr

/-- How the component of a script is exported. -/
inductive ExportStyle where
  | default
  | named
deriving DecidableEq, Repr, Inhabited

/-- One source file. -/
structure Module where
  /-- The name of the component. -/
  name : String
  language : Language
  imports : List Import := []
  declarations : List Declaration := []
  /-- What the component returns. -/
  body : List Expr := []
  exportStyle : ExportStyle := .default
  /-- The names that can be seen from outside. -/
  exports : List String := []
  /-- The packages that the code needs. -/
  dependencies : List String := []

/-- Puts an item at the end of a list, unless one that is the same is there. -/
def addNew {α : Type} (same : α → α → Bool) (items : List α) (item : α) : List α :=
  if items.any (same item) then items else items ++ [item]

namespace Module

/-- Adds an import, unless there is one from the same source. -/
def withImport (m : Module) (i : Import) : Module :=
  { m with imports := addNew (fun a b => a.source == b.source) m.imports i }

/-- Exports a name. -/
def withExport (m : Module) (name : String) : Module :=
  { m with exports := addNew (· == ·) m.exports name }

/-- Adds a package that the code needs. -/
def withDependency (m : Module) (package : String) : Module :=
  { m with dependencies := addNew (· == ·) m.dependencies package }

/-- Adds a returned expression. -/
def withReturn (m : Module) (e : Expr) : Module := { m with body := m.body ++ [e] }

/-- Adds a declared style. -/
def withDeclaration (m : Module) (d : Declaration) : Module :=
  { m with declarations := m.declarations ++ [d] }

end Module

end DesignCompiler
