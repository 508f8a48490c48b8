import DesignCompiler.Json.Read
import DesignCompiler.Text.Blank
import Mathlib.Data.List.DropRight
/-!
# Reading markup in a script

Markup in a script holds texts in two notations. Whatever is in braces is an expression, and only
those are read here that are a string of the script language, with its escapes
(`ScriptReader.stringText`). What is not in braces is plain text, and has rules of its own
(`ScriptRules`):

* a character reference stands for its character, in a text and in a quoted value, and a backslash
  is a backslash;
* a text on one line is kept as it is. One that goes over several lines is trimmed at each end of a
  line that is not an end of the text, and what is left of the lines is put on one line, with a
  space between two of them;
* a bracket or a brace cannot be part of it, and a quoted value ends at its quote.

Which names there are for references, and what is trimmed as a blank, is left open: `named` and
`isSpace` are given from outside.
-/

namespace DesignCompiler

/-- Whether a character ends a line in a script. -/
def isLineEnd (c : Char) : Bool :=
  c == '\n' || c == '\r' || c.toNat == 0x2028 || c.toNat == 0x2029

/-- The character of a code, with a stand-in where there is none. -/
def codePoint (n : Nat) : Char := if n.isValidChar then Char.ofNat n else Char.ofNat 0xFFFD

/-- The number that a list of hexadecimal digits writes. -/
def hexValue (digits : List Char) : Nat :=
  digits.foldl (fun n c => 16 * n + JsonReader.hexDigitValue c) 0

/-! ### Strings -/

namespace ScriptReader

open TextReader JsonReader

/-- The letters that stand for another character behind a backslash. -/
def letterEscapes : List (Char × Char) :=
  [('b', '\x08'), ('t', '\t'), ('n', '\n'), ('v', '\x0b'), ('f', '\x0c'), ('r', '\r')]

/-- A code in braces. -/
def bracedChar : TextReader Char := do
  word "\x7b"
  let code := hexValue (← run1 isHexDigit)
  word "\x7d"
  if code.isValidChar then return Char.ofNat code else failure

/-- A code of two digits. -/
def byteChar : TextReader Char := do
  let high ← char isHexDigit
  let low ← char isHexDigit
  return Char.ofNat (hexValue [high, low])

/-- **What a backslash and what is behind it stand for.** The end of a line that is escaped is
nothing, a letter may have a meaning, and any other character but a digit stands for itself. -/
def escaped : TextReader (List Char) := do
  word "\\"
  let c ← char fun _ => true
  if c == 'u' then return [← bracedChar]
  else if c == 'x' then return [← byteChar]
  else if c == '\r' then
    let _ ← attempt (word "\n")
    return []
  else if isLineEnd c then return []
  else if c == '0' then
    notNext (char isDecimalDigit)
    return ['\x00']
  else if isDecimalDigit c then failure
  else return [(letterEscapes.lookup c).getD c]

/-- A character of a string between quotes. -/
def stringChar (quote : Char) : TextReader (List Char) :=
  List.singleton <$> char (fun c => c != quote && c != '\\' && c != '\n' && c != '\r') <|>
    List.singleton <$> codedChar <|> escaped

/-- A string between quotes. -/
def stringIn (quote : Char) : TextReader (List Char) := do
  let _ ← char (· == quote)
  let text ← many (stringChar quote)
  let _ ← char (· == quote)
  return text.flatten

/-- **A string of a script.** -/
def stringText : TextReader (List Char) := stringIn '"' <|> stringIn '\''

/-- A string in braces. -/
def container : TextReader (List Char) := do
  word "\x7b"
  spacing
  let text ← stringText
  spacing
  word "\x7d"
  return text

end ScriptReader

/-! ### Plain text -/

/-- **What plain text in a script is read by:** the characters that have a name, and what is
trimmed. -/
structure ScriptRules where
  named : List Char → Option Char
  isSpace : Char → Bool

namespace ScriptRules

open TextReader

/-- Whether a character can be in the name of a reference. -/
def isReferenceChar (c : Char) : Bool := c.isAlphanum || c == '_'

variable (r : ScriptRules)

/-- The character that a reference stands for, by what is between its ampersand and its
semicolon. -/
def reference? : List Char → Option Char
  | '#' :: 'x' :: digits =>
    if !digits.isEmpty && digits.all JsonReader.isHexDigit then some (codePoint (hexValue digits))
    else none
  | '#' :: digits =>
    if !digits.isEmpty && digits.all isDecimalDigit then some (codePoint (decimalValue digits))
    else none
  | name => if name.all isReferenceChar then r.named name else none

/-- The reference that a text behind an ampersand begins with, and what is behind it. -/
def takeReference? (text : List Char) : Option (Char × List Char) :=
  match text.dropWhile (· != ';') with
  | [] => none
  | _ :: rest => (r.reference? (text.takeWhile (· != ';'))).map fun c => (c, rest)

/-- A text behind an ampersand, with the ampersand. -/
def decodedPiece (piece : List Char) : List Char :=
  match r.takeReference? piece with
  | some (c, rest) => c :: rest
  | none => '&' :: piece

/-- **A text with the characters that its references stand for.** -/
def decoded (text : List Char) : List Char :=
  match splitOnChar '&' text with
  | [] => []
  | first :: pieces => first ++ pieces.flatMap r.decodedPiece

/-- The lines of a text behind the first one, trimmed but at the end of the text. -/
def trimmedLines : List (List Char) → List (List Char)
  | [] => []
  | [last] => [last.dropWhile r.isSpace]
  | line :: rest => (line.dropWhile r.isSpace).rdropWhile r.isSpace :: trimmedLines rest

/-- The lines of a text of which something is left when they are trimmed; a text on one line is kept
as it is. -/
def keptLines (text : List Char) : List (List Char) :=
  match text.splitOnP isLineEnd with
  | [] => []
  | [line] => [line]
  | first :: rest => (first.rdropWhile r.isSpace :: r.trimmedLines rest).filter (!·.isEmpty)

/-- **A text on one line,** with a space between two of its lines. -/
def onOneLine (text : List Char) : List Char := [' '].intercalate (r.keptLines text)

/-- Whether a character can be part of a plain text. -/
def isPlainChar (c : Char) : Bool := !"\x7b\x7d<>".toList.contains c

/-- A plain text. -/
def plainText : TextReader (List Char) := do return r.decoded (r.onOneLine (← run1 isPlainChar))

/-- **What is between two tags,** if it is texts only. -/
def content : TextReader (List Char) := do
  return (← many (ScriptReader.container <|> r.plainText)).flatten

/-- A value between quotes. -/
def quotedValue : TextReader (List Char) := do
  word "\""
  let text ← run (· != '"')
  word "\""
  return r.decoded text

/-- **The value of an attribute** of a name. -/
def attributeOf (name : String) : TextReader (List Char) := do
  word name
  word "="
  ScriptReader.container <|> r.quotedValue

/-- The text that stands between two tags. -/
def contentOf? (written : String) : Option String :=
  (readAll? r.content written.toList).map String.ofList

/-- The value that an attribute is written with. -/
def valueOf? (name written : String) : Option String :=
  (readAll? (r.attributeOf name) written.toList).map String.ofList

/-- The five names that markup has in any case; blanks are trimmed. -/
def basic : ScriptRules where
  named name := [("amp".toList, '&'), ("lt".toList, '<'), ("gt".toList, '>'), ("quot".toList, '"'),
    ("apos".toList, '\'')].lookup name
  isSpace := isBlank

/-- A reference stands for its character, and an escape does so only in a string. -/
example : basic.contentOf? "a &amp; b\\n &#x41;&; \x7b \"c\\n&amp;\" \x7d" =
    some "a & b\\n A&; c\n&amp;" := by decide +kernel

/-- Several lines are put on one. -/
example : basic.contentOf? " a \n  b\t\n \n c " = some " a b c " := by decide +kernel

end ScriptRules

end DesignCompiler
