import DesignCompiler.Json
import DesignCompiler.Text.Reader
/-!
# Reading JSON

`Json.parse?` reads a JSON text. Control characters have to be escaped in strings, and the two
halves of a surrogate pair come together. A number without a point and an exponent that fits in 64
bits is whole; any other is a decimal, and one beyond the largest float is refused. Values lie at
most 127 levels deep; of two members of one name the later one counts.
-/

namespace DesignCompiler

namespace JsonReader

open TextReader

/-! ### Strings -/

/-- The value of a hexadecimal digit. -/
def hexDigitValue (c : Char) : Nat :=
  if isDecimalDigit c then c.toNat - '0'.toNat else c.toLower.toNat - 'a'.toNat + 10

/-- Whether a character is a hexadecimal digit. -/
def isHexDigit (c : Char) : Bool :=
  isDecimalDigit c || ('a' ≤ c && c ≤ 'f') || ('A' ≤ c && c ≤ 'F')

/-- Four hexadecimal digits after `\u`. -/
def codeUnit : TextReader Nat := do
  word "\\u"
  let a ← char isHexDigit
  let b ← char isHexDigit
  let c ← char isHexDigit
  let d ← char isHexDigit
  return [a, b, c, d].foldl (fun n digit => 16 * n + hexDigitValue digit) 0

/-- **A character by its code.** The first half of a surrogate pair needs the second one after it,
and the second one does not stand alone. -/
def codedChar : TextReader Char := do
  let unit ← codeUnit
  if 0xD800 ≤ unit && unit < 0xDC00 then
    let low ← codeUnit
    if 0xDC00 ≤ low && low < 0xE000 then
      return Char.ofNat (0x10000 + (unit - 0xD800) * 0x400 + (low - 0xDC00))
    else failure
  else if 0xDC00 ≤ unit && unit < 0xE000 then failure
  else return Char.ofNat unit

/-- The characters that are escaped by a letter or by themselves. -/
def shortEscapes : List (Char × Char) :=
  [('"', '"'), ('\\', '\\'), ('/', '/'), ('b', '\x08'), ('f', '\x0c'), ('n', '\n'), ('r', '\r'),
   ('t', '\t')]

/-- A character after a backslash. -/
def escapedChar : TextReader Char := do
  word "\\"
  match shortEscapes.lookup (← char fun _ => true) with
  | some c => return c
  | none => failure

/-- A character of a string. -/
def stringChar : TextReader Char :=
  char (fun c => c != '"' && c != '\\' && 32 ≤ c.toNat) <|> codedChar <|> escapedChar

/-- A string between double quotes. -/
def stringText : TextReader String := do
  word "\""
  let text ← many stringChar
  word "\""
  return String.ofList text

/-! ### Numbers -/

/-- Whether a whole number is kept as such; one beyond 64 bits is a decimal. -/
def fitsInteger (value : Int) : Bool :=
  -0x8000000000000000 ≤ value && value < 0x10000000000000000

/-- An exponent: `e`, an optional sign, digits. -/
def exponent : TextReader Int := do
  let _ ← char fun c => c == 'e' || c == 'E'
  let sign ← attempt (char fun c => c == '-' || c == '+')
  let size : Int := decimalValue (← run1 isDecimalDigit)
  return if sign == some '-' then -size else size

/-- The digits before the point: a zero, or digits that do not begin with one. -/
def wholeDigits : TextReader (List Char) := do
  let digits ← run1 isDecimalDigit
  if digits.length ≠ 1 && digits.head? == some '0' then failure else return digits

/-- The digits after a point. -/
def fractionDigits : TextReader (List Char) := do
  word "."
  run1 isDecimalDigit

/-- **A number.** A zero with a minus is a decimal, since no whole number has a sign there. -/
def number : TextReader Json := do
  let negative := (← attempt (word "-")).isSome
  let whole ← wholeDigits
  let fraction ← attempt fractionDigits
  let power ← attempt exponent
  let size : Int := decimalValue whole
  let value := if negative then -size else size
  -- A whole number outside of 64 bits is read as a decimal.
  if fraction.isNone && power.isNone && fitsInteger value && !(negative && size == 0) then
    return .integer value
  else
    let places := fraction.getD []
    let x := Float.ofDecimal negative (decimalValue (whole ++ places))
      (power.getD 0 - places.length)
    if x.isFinite then return .decimal x else failure

/-! ### Values -/

/-- A value that contains no others. -/
def scalar : TextReader Json :=
  (.string <$> stringText) <|> number <|> (word "null" *> pure .null) <|>
    (word "true" *> pure (.bool true)) <|> (word "false" *> pure (.bool false))

/-- Items with commas between them and spacing around them. -/
def separated {α : Type} (item : TextReader α) : TextReader (List α) := do
  match ← attempt item with
  | none => return []
  | some first =>
    let others ← many do
      spacing
      word ","
      spacing
      item
    return first :: others

/-- A list of values. -/
def arrayOf (value : TextReader Json) : TextReader Json := do
  word "["
  spacing
  let items ← separated value
  spacing
  word "]"
  return .array items

/-- A name, a colon and a value. -/
def member (value : TextReader Json) : TextReader (String × Json) := do
  let name ← stringText
  spacing
  word ":"
  spacing
  return (name, ← value)

/-- Puts a member behind others, in place of one of its name. -/
def putMember (members : List (String × Json)) (m : String × Json) : List (String × Json) :=
  members.filter (·.1 != m.1) ++ [m]

/-- A list of members. -/
def objectOf (value : TextReader Json) : TextReader Json := do
  word "\x7b"
  spacing
  let members ← separated (member value)
  spacing
  word "\x7d"
  return .object (members.foldl putMember [])

/-- A value with at most so many levels. -/
def value : Nat → TextReader Json
  | 0 => scalar
  | levels + 1 => scalar <|> arrayOf (value levels) <|> objectOf (value levels)

/-- A value with spacing around it. -/
def document : TextReader Json := do
  spacing
  let j ← value 127
  spacing
  return j

end JsonReader

/-- **Reads a JSON text.** -/
def Json.parse? (text : String) : Option Json :=
  TextReader.readAll? JsonReader.document text.toList

end DesignCompiler
