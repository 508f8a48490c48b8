import DesignCompiler.Code.Print
import DesignCompiler.Text.Search
/-!
# Scaffolds

A scaffold is the least program around a module that shows its component: a script that renders it
into a page, a Flutter program with it as the home screen, or a whole page.
-/

namespace DesignCompiler

/-- A line behind some spaces; a blank line becomes empty. -/
def indentLine (spaces : Nat) (line : List Char) : List Char :=
  if line.all isBlank then [] else List.replicate spaces ' ' ++ line

/-- A text with its lines behind some spaces. -/
def indentText (spaces : Nat) (text : String) : String :=
  String.ofList (['\n'].intercalate ((lines text.toList).map (indentLine spaces)))

namespace Module

/-- A script that shows the component. -/
def scriptScaffold (m : Module) : String :=
  "import ReactDOM from \"react-dom\";\n" ++ m.source ++
    "\nReactDOM.render(<" ++ m.name ++ " />, document.getElementById(\"root\"));\n"

/-- The package that a scaffold in Dart imports by itself. -/
def materialPackage : String := "package:flutter/material.dart"

/-- The imports that a scaffold in Dart does not have. -/
def extraImports (m : Module) : String :=
  String.join (((lines m.importLines.toList).filter (!occursIn materialPackage.toList ·)).map
    fun line => String.ofList line ++ "\n")

/-- A Flutter program that shows the component. -/
def dartScaffold (m : Module) : String :=
  "import 'package:flutter/material.dart';\n" ++ m.extraImports ++
    "\nvoid main() \x7b\n" ++
    "  runApp(const App());\n" ++
    "\x7d\n" ++
    "\n" ++
    "class App extends StatelessWidget \x7b\n" ++
    "  const App(\x7bKey? key\x7d) : super(key: key);\n" ++
    "\n" ++
    "  @override\n" ++
    "  Widget build(BuildContext context) \x7b\n" ++
    "    return MaterialApp(\n" ++
    "      title: '" ++ m.name ++ "',\n" ++
    "      debugShowCheckedModeBanner: false,\n" ++
    "      home: Scaffold(\n" ++
    "        body: Builder(\n" ++
    "          builder: (context) => const " ++ m.name ++ "(),\n" ++
    "        ),\n" ++
    "      ),\n" ++
    "    );\n" ++
    "  \x7d\n" ++
    "\x7d\n" ++
    "\n" ++ m.code

/-- A page that shows the component. -/
def pageScaffold (m : Module) : String :=
  "<!DOCTYPE html>\n" ++
    "<html lang=\"en\">\n" ++
    "  <head>\n" ++
    "    <meta charset=\"utf-8\" />\n" ++
    "    <meta name=\"viewport\" content=\"width=device-width, initial-scale=1\" />\n" ++
    "    <title>" ++ m.name ++ "</title>\n" ++
    "    <style>\n" ++
    "      body \x7b margin: 0; \x7d\n" ++ indentText 6 m.stylesheet ++
    "\n    </style>\n" ++
    "  </head>\n" ++
    "  <body id=\"" ++ kebabCase m.name ++ "\">\n" ++ indentText 4 m.markup ++
    "\n  </body>\n" ++
    "</html>\n"

/-- **The scaffold of a module,** by its language. -/
def scaffold (m : Module) : String :=
  match m.language with
  | .tsx | .jsx => m.scriptScaffold
  | .dart => m.dartScaffold
  | .html => m.pageScaffold

end Module

end DesignCompiler
