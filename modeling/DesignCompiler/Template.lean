import DesignCompiler.Record
import DesignCompiler.Template.Helper
import DesignCompiler.Template.Piece
/-!
# Text templates

A template is filled in with data. Values are put in as they are: strings unchanged, numbers and
truth values as written, and nothing for null or a value that is not there.

* `Template.render` fills a template in. It fails at arguments for a name that is no helper's, and
  where a path enters a list by a name that is no number;
* `TemplateSet` holds templates under names.
-/

namespace DesignCompiler

/-- Why a template gives no text. -/
inductive TemplateError where
  | notFound (name : String)
  | invalid
  | failed
deriving DecidableEq, Repr

/-! ### Values -/

mutual

/-- A value as text. -/
def Json.text : Json → String
  | .null => ""
  | .bool value => if value then "true" else "false"
  | .integer value => toString value
  | .decimal value => Json.decimalText value
  | .string text => text
  | .array items => "[" ++ ", ".intercalate (Json.texts items) ++ "]"
  | .object _ => "[object]"

/-- Values as texts. -/
def Json.texts : List Json → List String
  | [] => []
  | item :: rest => item.text :: Json.texts rest

end

mutual

/-- **The value of a term.** Every argument and option of a helper has to have a value. -/
def TemplateTerm.value? (data : Json) : TemplateTerm → Option Json
  | .constant value => some value
  | .path way => way.follow? data
  | .apply helper arguments options => do
    let values ← TemplateTerm.values? data arguments
    let _ ← TemplateTerm.values? data options
    (← TemplateHelper.named? helper).evaluate? values

/-- The values of terms. -/
def TemplateTerm.values? (data : Json) : List TemplateTerm → Option (List Json)
  | [] => some []
  | term :: rest => do return (← term.value? data) :: (← TemplateTerm.values? data rest)

end

/-- What a term is called where it stands by itself: a path by its spelling, and a helper by the
text that it makes. -/
def TemplateTerm.calledName? (data : Json) : TemplateTerm → Option String
  | .path way => some way.spelling
  | term => (term.value? data).map (·.text)

namespace Template

/-- **The text of a piece.** A term by itself that is called like a helper is that helper, without
arguments. -/
def pieceText? (data : Json) : TemplatePiece → Option String
  | .literal text => some text
  | .applied term => (term.value? data).map (·.text)
  | .plain term => do
    match TemplateHelper.named? (← term.calledName? data) with
    | some helper => (helper.evaluate? []).map (·.text)
    | none => (term.value? data).map (·.text)

/-- **The text of a template for some data.** -/
def render (data : Json) (t : Template) : Except TemplateError String :=
  match t.mapM (pieceText? data) with
  | some texts => .ok (String.join texts)
  | none => .error .failed

/-- Reads and renders a template at once. -/
def renderText (text : String) (data : Json) : Except TemplateError String :=
  match parse? text with
  | some t => t.render data
  | none => .error .failed

end Template

/-- Templates under names. -/
abbrev TemplateSet := Record Template

namespace TemplateSet

/-- Reads a template and keeps it under a name. -/
def register (s : TemplateSet) (name text : String) : Except TemplateError TemplateSet :=
  match Template.parse? text with
  | some t => .ok (s.put name t)
  | none => .error .invalid

/-- Renders the template under a name. -/
def render (s : TemplateSet) (name : String) (data : Json) : Except TemplateError String :=
  match s.get? name with
  | some t => t.render data
  | none => .error (.notFound name)

end TemplateSet

/-- The wording of a failure, where it has one of its own. -/
def TemplateError.message? : TemplateError → Option String
  | notFound name => some s!"Template not found: {name}"
  | invalid | failed => none

end DesignCompiler
