/-!
# Quoted text

How free text is written inside generated code, character by character: as a script or JSON string
(`scriptQuoted`), as a Dart string (`dartQuoted`), and as the text of markup (`markupEscaped`).
-/

namespace DesignCompiler

/-- Two lower-case hexadecimal digits of a number below 256. -/
def hexPair (n : Nat) : List Char := [Nat.digitChar (n / 16), Nat.digitChar (n % 16)]

/-- A character inside a script string: quotes, backslashes and control characters are escaped. -/
def scriptEscape (c : Char) : List Char :=
  if c == '"' then ['\\', '"']
  else if c == '\\' then ['\\', '\\']
  else if c.toNat = 8 then ['\\', 'b']
  else if c.toNat = 9 then ['\\', 't']
  else if c.toNat = 10 then ['\\', 'n']
  else if c.toNat = 12 then ['\\', 'f']
  else if c.toNat = 13 then ['\\', 'r']
  else if c.toNat < 32 then ['\\', 'u', '0', '0'] ++ hexPair c.toNat
  else [c]

/-- A character inside a Dart string: what would end it, escape, interpolate or break the line. -/
def dartEscape (c : Char) : List Char :=
  if c == '\\' then ['\\', '\\']
  else if c == '"' then ['\\', '"']
  else if c == '$' then ['\\', '$']
  else if c == '\n' then ['\\', 'n']
  else [c]

/-- A character in markup: what would begin a reference or a tag, or end a quoted value. -/
def markupEscape (c : Char) : List Char :=
  if c == '&' then ['&', 'a', 'm', 'p', ';']
  else if c == '<' then ['&', 'l', 't', ';']
  else if c == '>' then ['&', 'g', 't', ';']
  else if c == '"' then ['&', 'q', 'u', 'o', 't', ';']
  else [c]

/-- A text with every character escaped in some way. -/
def escapeWith (escape : Char → List Char) (text : String) : String :=
  String.ofList (text.toList.flatMap escape)

/-- A text between double quotes. -/
def inQuotes (text : String) : String := "\"" ++ text ++ "\""

/-- A script string. -/
def scriptQuoted (text : String) : String := inQuotes (escapeWith scriptEscape text)

/-- A Dart string. -/
def dartQuoted (text : String) : String := inQuotes (escapeWith dartEscape text)

/-- The text of markup. -/
def markupEscaped (text : String) : String := escapeWith markupEscape text

@[simp] theorem toList_escapeWith (escape : Char → List Char) (text : String) :
    (escapeWith escape text).toList = text.toList.flatMap escape := by
  simp [escapeWith]

end DesignCompiler
