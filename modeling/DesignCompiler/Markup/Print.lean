import DesignCompiler.Code.Module
import DesignCompiler.Text.Quote
/-!
# Markup as text

`Markup.write` writes a tree with two spaces for each level. In a script, texts and attributes that
the notation cannot hold are put in braces as strings; elsewhere they are escaped. An element whose
only content is a text stays on one line.
-/

namespace DesignCompiler

/-- The space in front of a line at a depth. -/
def indentation (depth : Nat) : String := "".pushn ' ' (2 * depth)

/-- A text in braces. -/
def inBraces (text : String) : String := "\x7b" ++ text ++ "\x7d"

/-- The elements that are written without an end tag. -/
def emptyElements : List String := ["img", "path", "br", "hr", "input", "meta"]

/-- A style object of names and values. -/
def styleObject (entries : List (String × String)) : String :=
  if entries.isEmpty then inBraces ""
  else
    inBraces (" " ++ ", ".intercalate (entries.map fun (k, v) => k ++ ": " ++ scriptQuoted v) ++ " ")

/-- An attribute. In a script a value that has a quote in it is written as a string in braces. -/
def Attribute.write (language : Language) (a : Attribute) : String :=
  a.name ++ "=" ++
  match a.value with
  | .text value =>
    if language.isScript then
      if value.toList.contains '"' then inBraces (scriptQuoted value) else inQuotes value
    else inQuotes (markupEscaped value)
  | .record entries => inBraces (styleObject entries)

/-- Whether a character cannot stand in the text of a script element. -/
def breaksScriptText (c : Char) : Bool :=
  c == '\x7b' || c == '\x7d' || c == '<' || c == '>' || c == '\n'

/-- The text of an element. -/
def writeText (language : Language) (text : String) : String :=
  if language.isScript then
    if text.toList.any breaksScriptText then inBraces (scriptQuoted text) else text
  else markupEscaped text

namespace StartTag

/-- A start tag without its brackets. -/
def write (language : Language) (t : StartTag) : String :=
  t.name ++ String.join (t.attributes.map fun a => " " ++ a.write language)

/-- An element with nothing in it, on a line. -/
def writeEmpty (language : Language) (t : StartTag) : String :=
  if language.isScript || emptyElements.contains t.name then "<" ++ t.write language ++ " />"
  else "<" ++ t.write language ++ "></" ++ t.name ++ ">"

end StartTag

namespace Markup

mutual

/-- **Writes a tree at a depth,** as lines that each end in a line feed. -/
def write (language : Language) (depth : Nat) : Markup → String
  | text data => indentation depth ++ writeText language data ++ "\n"
  | element start [] => indentation depth ++ start.writeEmpty language ++ "\n"
  | element start [text data] =>
    indentation depth ++ "<" ++ start.write language ++ ">" ++ writeText language data ++ "</" ++
      start.name ++ ">\n"
  | element start (child :: children) =>
    indentation depth ++ "<" ++ start.write language ++ ">\n" ++
      (child.write language (depth + 1) ++ writeAll language (depth + 1) children) ++
      indentation depth ++ "</" ++ start.name ++ ">\n"

/-- Writes several trees at a depth. -/
def writeAll (language : Language) (depth : Nat) : List Markup → String
  | [] => ""
  | m :: rest => m.write language depth ++ writeAll language depth rest

end

end Markup

end DesignCompiler
