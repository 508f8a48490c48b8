import DesignCompiler.Emit.Flutter
import DesignCompiler.Emit.Page
import DesignCompiler.Emit.React
import DesignCompiler.Json
/-!
# Frameworks

A `Framework` is what code is generated for, with its options. Two of them are known by name only
and have no output (`Framework.emit?`). Frameworks and their options are read from JSON and written
to it: an option that is missing has its default, one that is there must be well formed, and
members that mean nothing are passed over.
-/

namespace DesignCompiler

/-- A target with its options. -/
inductive Framework where
  | react (options : ReactOptions)
  | flutter
  | vanilla (options : PageOptions)
  | reactNative
  | vue
deriving DecidableEq, Repr

namespace Framework

/-- The name of a framework. -/
def name : Framework → String
  | react _ => "react"
  | flutter => "flutter"
  | vanilla _ => "vanilla"
  | reactNative => "react-native"
  | vue => "vue"

/-- The function that generates the module of a widget tree, if there is output for the
framework. -/
def emit? : Framework → Option (Widget → Module)
  | react options => some (React.emit options)
  | flutter => some Flutter.emit
  | vanilla options => some (Page.emit options)
  | reactNative | vue => none

end Framework

/-! ### Reading -/

namespace Json

/-- **The members of a record.** It is an object, or a list of the first few members in the order of
their names; a list that is too long is no record. -/
def record? (names : List String) : Json → Option (List (String × Json))
  | object members => some members
  | array items => if items.length ≤ names.length then some (names.zip items) else none
  | _ => none

/-- One of some named choices: its name, or an object whose only member it is, with nothing in
it. -/
def choice? {α : Type} (choices : List (String × α)) : Json → Option α
  | string text => choices.lookup text
  | object [(text, null)] | object [(text, object [])] => choices.lookup text
  | _ => none

/-- A member of a record, or a default where it is missing. -/
def optionOr {α : Type} (read : Json → Option α) (default : α) (members : List (String × Json))
    (name : String) : Option α :=
  match members.lookup name with
  | some value => read value
  | none => some default

end Json

/-- Whether types may be written. -/
def readScriptTyped? : Json → Option Bool := Json.choice? [("tsx", true), ("jsx", false)]

/-- The way in which a component is exported. -/
def readExportStyle? : Json → Option ExportStyle :=
  Json.choice? [("default", .default), ("named", .named)]

/-- The package of styled components. -/
def readStyledPackage? : Json → Option StyledPackage :=
  Json.choice? [(StyledPackage.emotion.name, .emotion),
    (StyledPackage.styledComponents.name, .styledComponents)]

/-- The kind of a React styling, by name or by number. -/
def readStylingKind? : Json → Option String
  | .string "inline-css" | .integer 0 => some "inline-css"
  | .string "styled-components" | .integer 1 => some "styled-components"
  | _ => none

/-- The styling of a React component: an object with a kind, or a list that begins with it. -/
def readReactStyling? (j : Json) : Option ReactStyling := do
  let members ← j.record? ["type", "module"]
  let kind ← readStylingKind? (← members.lookup "type")
  if kind == "inline-css" then
    match j with
    | .array items => if items.length = 1 then some .inlineCss else none
    | _ => some .inlineCss
  else
    return .styledComponents (← Json.optionOr readStyledPackage? .emotion members "module")

/-- The options of React output. -/
def readReactOptions? (members : List (String × Json)) : Option ReactOptions := do
  let standard : ReactOptions := {}
  return {
    typed := ← Json.optionOr readScriptTyped? standard.typed members "language"
    styling := ← Json.optionOr readReactStyling? standard.styling members "styling"
    exporting := ← Json.optionOr readExportStyle? standard.exporting members "exporting" }

/-- The options of page output. -/
def readPageOptions? (members : List (String × Json)) : Option PageOptions := do
  let read := Json.choice? [("css", PageStyling.classes), ("inline-css", .inlineCss)]
  return { styling := ← Json.optionOr read .classes members "styling" }

/-- The name of a framework and the rest of what is said about it, where `names` are the options of
each framework in order. -/
def splitFramework? (names : String → List String) : Json → Option (String × List (String × Json))
  | .object members => do
    let name ← (← members.lookup "framework").string?
    return (name, members)
  | .array (.string name :: items) => do
    let members ← (Json.array items).record? (names name)
    return (name, members)
  | _ => none

/-- The options of the frameworks, in order. -/
def Framework.optionNames (name : String) : List String :=
  if name == "react" then ["language", "styling", "exporting"]
  else if name == "flutter" then ["language"]
  else if name == "vanilla" then ["styling"]
  else []

/-- **Reads a framework.** -/
def Framework.ofJson? (j : Json) : Option Framework := do
  let (name, members) ← splitFramework? optionNames j
  match name with
  | "react" => return .react (← readReactOptions? members)
  | "flutter" => do
    let () ← Json.optionOr (Json.choice? [("dart", ())]) () members "language"
    return .flutter
  | "vanilla" => return .vanilla (← readPageOptions? members)
  | "react-native" => return .reactNative
  | "vue" => return .vue
  | _ => none

/-! ### Writing -/

/-- The styling of a React component as JSON. -/
def ReactStyling.toJson : ReactStyling → Json
  | inlineCss => .object [("type", .string "inline-css")]
  | styledComponents package =>
    .object [("type", .string "styled-components"), ("module", .string package.name)]

/-- **Writes a framework** with all its options. -/
def Framework.toJson (f : Framework) : Json :=
  let options : List (String × Json) :=
    match f with
    | .react o =>
      [("language", .string (if o.typed then "tsx" else "jsx")), ("styling", o.styling.toJson),
        ("exporting", .string (match o.exporting with | .default => "default" | .named => "named"))]
    | .flutter => [("language", .string "dart")]
    | .vanilla o =>
      [("styling", .string (match o.styling with | .classes => "css" | .inlineCss => "inline-css"))]
    | .reactNative | .vue => []
  .object (("framework", .string f.name) :: options)

end DesignCompiler
