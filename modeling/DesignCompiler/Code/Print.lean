import DesignCompiler.Markup.Print
import DesignCompiler.Text.Blank
/-!
# Modules as text

`Module.source` writes a module in its language. Calls are written as Dart writes them: a call whose
arguments are all simple stays on one line if it has at most 72 bytes there, and any other call is
broken over lines, with a comma after each argument.
-/

namespace DesignCompiler

/-! ### Expressions -/

/-- The most bytes of a call on one line. -/
def lineLimit : Nat := 72

/-- An argument with its label. -/
def labelled (label : Option String) (value : String) : String :=
  match label with
  | some name => name ++ ": " ++ value
  | none => value

namespace Expr

mutual

/-- **Writes an expression that stands at a depth;** the first line has no space in front. -/
def write (depth : Nat) : Expr → String
  | literal text => text
  | markup tree => String.ofList (trimEnd (tree.write .html 0).toList)
  | list [] => "[]"
  | list (item :: items) =>
    "[\n" ++ (indentation (depth + 1) ++ item.write (depth + 1) ++ ",\n" ++
      writeItems (depth + 1) items) ++ indentation depth ++ "]"
  | call callee arguments =>
    let broken := callee ++ "(\n" ++ writeArgumentLines (depth + 1) arguments ++
      indentation depth ++ ")"
    -- A short call stays on one line unless an argument has arguments or items of its own.
    if arguments.all (·.value.isSimple) then
      let oneLine := callee ++ "(" ++ ", ".intercalate (writeArguments depth arguments) ++ ")"
      if oneLine.utf8ByteSize ≤ lineLimit then oneLine else broken
    else broken

/-- Writes items, one a line. -/
def writeItems (depth : Nat) : List Expr → String
  | [] => ""
  | item :: rest => indentation depth ++ item.write depth ++ ",\n" ++ writeItems depth rest

/-- Writes arguments for one line. -/
def writeArguments (depth : Nat) : List (Argument Expr) → List String
  | [] => []
  | ⟨label, value⟩ :: rest => labelled label (value.write depth) :: writeArguments depth rest

/-- Writes arguments, one a line. -/
def writeArgumentLines (depth : Nat) : List (Argument Expr) → String
  | [] => ""
  | ⟨label, value⟩ :: rest =>
    indentation depth ++ labelled label (value.write depth) ++ ",\n" ++
      writeArgumentLines depth rest

end

/-- Writes an expression on lines of its own. -/
def writeLines (language : Language) (depth : Nat) : Expr → String
  | markup tree => tree.write language depth
  | e => indentation depth ++ e.write depth ++ "\n"

end Expr

/-! ### Imports and declarations -/

/-- An import in Dart. -/
def Import.dart (i : Import) : String :=
  match i.qualifier with
  | some name => "import '" ++ i.source ++ "' as " ++ name ++ ";"
  | none => "import '" ++ i.source ++ "';"

/-- The names that an import of a script binds. -/
def Import.bindings (i : Import) : List String :=
  (i.qualifier.map ("* as " ++ ·)).toList ++ i.defaultName.toList ++
    if i.named.isEmpty then [] else [inBraces (" " ++ ", ".intercalate i.named ++ " ")]

/-- An import in a script. -/
def Import.script (i : Import) : String :=
  if i.bindings.isEmpty then "import " ++ inQuotes i.source ++ ";"
  else "import " ++ ", ".intercalate i.bindings ++ " from " ++ inQuotes i.source ++ ";"

/-- An import in a language. -/
def Import.write (language : Language) (i : Import) : String :=
  if language = .dart then i.dart else i.script

/-- A declared style. -/
def Declaration.write : Declaration → String
  | styledComponent name tag style =>
    let body := if style.isEmpty then "" else "\n" ++ style.block 2
    "const " ++ name ++ " = styled." ++ tag ++ "\x60" ++ body ++ "\x60;\n"
  | cssRule selector style => selector ++ " \x7b\n" ++ style.block 2 ++ "\x7d\n"

/-! ### Modules -/

namespace Module

/-- The imports, one a line. -/
def importLines (m : Module) : String :=
  String.join (m.imports.map fun i => i.write m.language ++ "\n")

/-- The declared styles with a blank line between two of them. -/
def stylesheet (m : Module) : String := "\n".intercalate (m.declarations.map (·.write))

/-- What is returned, as markup. -/
def markup (m : Module) : String := String.join (m.body.map (·.writeLines .html 0))

/-- The words in front of the component of a script. -/
def functionKeyword (m : Module) : String :=
  if !m.exports.contains m.name then "function"
  else
    match m.exportStyle with
    | .default => "export default function"
    | .named => "export function"

/-- A script: the component, the declared styles, and the other names that it exports. -/
def script (m : Module) : String :=
  let returns := m.body.map fun e => "  return (\n" ++ e.writeLines m.language 2 ++ "  );\n"
  let members := m.exports.filter (· != m.name)
  m.functionKeyword ++ " " ++ m.name ++ "() \x7b\n" ++ String.join returns ++ "\x7d\n" ++
    String.join (m.declarations.map fun d => "\n" ++ d.write) ++
    if members.isEmpty then ""
    else "\nexport " ++ inBraces (" " ++ ", ".intercalate members ++ " ") ++ ";\n"

/-- A class in Dart. -/
def dartClass (m : Module) : String :=
  let returns := m.body.map fun e => "    return " ++ e.write 2 ++ ";\n"
  "class " ++ m.name ++ " extends StatelessWidget \x7b\n" ++
    "  const " ++ m.name ++ "(\x7bKey? key\x7d) : super(key: key);\n" ++
    "\n" ++
    "  @override\n" ++
    "  Widget build(BuildContext context) \x7b\n" ++ String.join returns ++ "  \x7d\n" ++
    "\x7d\n"

/-- A line of a style sheet inside a page. -/
def styleLine (line : String) : String := if line.isEmpty then "\n" else "  " ++ line ++ "\n"

/-- A part of a page: the style sheet, if there is one, and the markup. -/
def page (m : Module) : String :=
  (if m.stylesheet.isEmpty then ""
    else
      "<style>\n" ++ String.join ((String.textLines m.stylesheet).map styleLine) ++ "</style>\n") ++
    m.markup

/-- The module without its imports. -/
def code (m : Module) : String :=
  match m.language with
  | .tsx | .jsx => m.script
  | .dart => m.dartClass
  | .html => m.page

/-- **The source text of a module.** -/
def source (m : Module) : String :=
  if m.importLines.isEmpty then m.code else m.importLines ++ "\n" ++ m.code

end Module

end DesignCompiler
