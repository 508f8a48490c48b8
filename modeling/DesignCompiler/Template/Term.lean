import DesignCompiler.Json.Read
import DesignCompiler.Template.Path
/-!
# Terms in the tags of a template

A term is a constant, a path, or a helper with arguments in parentheses. Constants are written as in
JSON, and strings between single quotes as well. The shape of a constant decides that it is one, so
`04` and `2.` are malformed constants and no paths, while `4x` is a path. The words `as` and `else`
begin no argument, unless a name follows.

* `TemplateTerm.application` reads a helper with its arguments, as a tag has them;
* `TemplateTerm.argument` reads one argument, with parentheses at most so many levels deep.
-/

namespace DesignCompiler

/-- A term. A helper has arguments by position, and options by name, of which only the values are
kept. -/
inductive TemplateTerm where
  | constant (value : Json)
  | path (path : TemplatePath)
  | apply (helper : String) (arguments options : List TemplateTerm)

namespace TemplateTerm

open TextReader TemplatePath

/-! ### Constants -/

/-- The characters that may be escaped between such quotes. -/
def isEscapable (quote c : Char) : Bool := c == quote || "\\/bfnrt".toList.contains c

/-- Four hexadecimal digits after `\u`. -/
def codeShape : TextReader Unit := JsonReader.codeUnit *> pure ()

/-- The shape of a character between such quotes; a line may end inside them here. -/
def charShape (quote : Char) : TextReader Unit :=
  (char (fun c => c != quote && c != '\\') *> pure ()) <|>
    (word "\\" *> char (isEscapable quote) *> pure ()) <|> codeShape

/-- The shape of a string between such quotes. -/
def stringShape (quote : Char) : TextReader Unit := do
  let _ ← char (· == quote)
  let _ ← many (charShape quote)
  let _ ← char (· == quote)

/-- The shape of an exponent: a capital `E`, an optional minus, digits. -/
def exponentShape : TextReader Unit := do
  word "E"
  let _ ← attempt (word "-")
  let _ ← run1 isDecimalDigit

/-- The end of a word. -/
def wordEnd : TextReader Unit := notNext (char isNameChar)

/-- The shape of a number. It is wider than that of JSON: zeros may stand in front, and nothing has
to follow a point. -/
def numberShape : TextReader Unit := do
  let _ ← attempt (word "-")
  let _ ← run1 isDecimalDigit
  let _ ← attempt (word ".")
  let _ ← run isDecimalDigit
  let _ ← attempt exponentShape
  wordEnd

/-- The shape of a constant without parts. -/
def plainShape : TextReader Unit :=
  stringShape '"' <|> stringShape '\x27' <|> numberShape <|> (word "null" *> wordEnd) <|>
    (word "true" *> wordEnd) <|> (word "false" *> wordEnd)

/-- The shape of a list between brackets, where the first item may be left out. -/
def listShape (opening closing : String) (item : TextReader Unit) : TextReader Unit := do
  word opening
  let _ ← attempt (spacing *> item)
  let _ ← many (spacing *> word "," *> spacing *> item)
  spacing
  word closing

/-- The shape of a member: a string, a colon and a constant. -/
def memberShape (value : TextReader Unit) : TextReader Unit :=
  (stringShape '"' <|> stringShape '\x27') *> spacing *> word ":" *> spacing *> value

/-- The shape of a constant with at most so many levels. -/
def constantShape : Nat → TextReader Unit
  | 0 => plainShape
  | levels + 1 =>
    plainShape <|> listShape "[" "]" (constantShape levels) <|>
      listShape "\x7b" "\x7d" (memberShape (constantShape levels))

/-- What stands between single quotes, as it stands between double ones. -/
def requoted : List Char → List Char
  | [] => []
  | '\\' :: '\x27' :: rest => '\x27' :: requoted rest
  | '\\' :: c :: rest => '\\' :: c :: requoted rest
  | '"' :: rest => '\\' :: '"' :: requoted rest
  | c :: rest => c :: requoted rest

/-- The value of a constant, if it is well formed. -/
def constantValue? (spelling : List Char) : Option Json :=
  match spelling with
  | '\x27' :: rest => Json.parse? (inQuotes (String.ofList (requoted rest.dropLast)))
  | _ => Json.parse? (String.ofList spelling)

/-! ### Helpers with arguments -/

/-- The name of a helper or an option. -/
def identifier : TextReader String := do
  let first ← char isNameChar
  let rest ← run fun c => isNameChar c || c == '/'
  return String.ofList (first :: rest)

/-- An argument by position or by name. -/
inductive Place where
  | positional
  | option
deriving DecidableEq

/-- An argument with its place; an option has a name and an equals sign in front. -/
def placed (argument : TextReader TemplateTerm) : TextReader (Place × TemplateTerm) :=
  (do
    let _ ← identifier
    spacing
    word "="
    spacing
    return (.option, ← argument)) <|>
  (do return (.positional, ← argument))

/-- **A helper with at least one argument or option.** -/
def application (argument : TextReader TemplateTerm) : TextReader TemplateTerm := do
  let helper ← identifier
  let terms ← many1 (spacing *> placed argument)
  return .apply helper ((terms.filter (·.1 == .positional)).map (·.2))
    ((terms.filter (·.1 == .option)).map (·.2))

/-- A helper with or without arguments, in parentheses. -/
def inParentheses (argument : TextReader TemplateTerm) : TextReader TemplateTerm := do
  word "("
  spacing
  let term ← application argument <|> (do return .apply (← TemplatePath.reader).spelling [] [])
  spacing
  word ")"
  return term

/-- A word that begins no argument: `as` or `else` when no name follows, even after spacing. -/
def keyword : TextReader Unit := (word "as" <|> word "else") *> spacing *> wordEnd

/-- **An argument,** with parentheses at most so many levels deep. -/
def argument : Nat → TextReader TemplateTerm
  | 0 => failure
  | levels + 1 => do
    notNext keyword
    match ← attempt (spelled (constantShape levels)) with
    | some spelling =>
      match constantValue? spelling with
      | some value => return .constant value
      | none => failure
    | none => (.path <$> TemplatePath.reader) <|> inParentheses (argument levels)

end TemplateTerm

end DesignCompiler
