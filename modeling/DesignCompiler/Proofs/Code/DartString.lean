import DesignCompiler.Proofs.Markup.ScriptReader
import DesignCompiler.Proofs.Text.Reader
import DesignCompiler.Proofs.Text.Replaced
import DesignCompiler.Text.Quote
/-!
# Strings of Dart

A string of Dart stands between double quotes on one line (`DartReader.lineString`), or between three
single quotes on any number of lines (`DartReader.blockString`). In both a backslash begins an escape,
and a dollar sign begins an expression whose value is put in; such a string is no plain text, so it is
refused here. The two differ in what ends them, and in what the end of a line is: it cannot be in a
string on one line, and is a line feed in one on several lines, however it is written.

What is written for a text is a string on one line, and it is read back as the text unless there is a
carriage return in it, which is the one character that would have to be escaped and is not
(`DartReader.lineString_dartQuoted`). Each character is escaped by itself, which is the same as four
replacements in the text as long as the one for the backslash is the first
(`DartReader.flatMap_dartEscape`).
-/

namespace DesignCompiler

namespace DartReader

open TextReader JsonReader

/-- Whether a character ends a line in Dart. -/
def isLineBreak (c : Char) : Bool := c == '\n' || c == '\r'

/-- A code of one to six digits in braces. -/
def bracedChar : TextReader Char := do
  word "\\u\x7b"
  let digits ← run1 isHexDigit
  word "\x7d"
  if digits.length ≤ 6 && (hexValue digits).isValidChar then return Char.ofNat (hexValue digits)
  else failure

/-- A code of two digits. -/
def byteChar : TextReader Char := do
  word "\\x"
  let high ← char isHexDigit
  let low ← char isHexDigit
  return Char.ofNat (hexValue [high, low])

/-- A character behind a backslash, which has a meaning or stands for itself. -/
def escapedChar : TextReader Char := do
  word "\\"
  let c ← char fun c => !isLineBreak c && c != 'x' && c != 'u'
  return (ScriptReader.letterEscapes.lookup c).getD c

/-- **What a backslash begins:** a code, in which the two halves of a surrogate pair come together, or
a character. -/
def escape : TextReader Char := bracedChar <|> codedChar <|> byteChar <|> escapedChar

/-! ### Strings on one line -/

/-- A character of a string on one line. -/
def lineChar : TextReader Char :=
  char (fun c => c != '"' && c != '\\' && c != '$' && !isLineBreak c) <|> escape

/-- **A string on one line.** -/
def lineString : TextReader (List Char) := do
  word "\""
  let text ← many lineChar
  word "\""
  return text

/-! ### Strings on several lines -/

/-- The end of a line, which counts as a line feed. -/
def lineBreak : TextReader Char := do
  word "\r"
  let _ ← attempt (word "\n")
  return '\n'

/-- A character of a string on several lines. -/
def blockChar : TextReader Char := do
  notNext (word "'''")
  char (fun c => c != '\\' && c != '$' && c != '\r') <|> lineBreak <|> escape

/-- **A string on several lines.** A first line that is blank would be left out; none of the strings
that are read here begins with a blank. -/
def blockString : TextReader (List Char) := do
  word "'''"
  let text ← many blockChar
  word "'''"
  return text

/-! ### What is written -/

/-- The replacements that make a text fit for a string of Dart. The backslash goes first, so none of
the others is escaped again. -/
def replacements : List (Char × List Char) :=
  [('\\', ['\\', '\\']), ('"', ['\\', '"']), ('$', ['\\', '$']), ('\n', ['\\', 'n'])]

/-- **Escaping is four replacements one after the other.** -/
theorem flatMap_dartEscape (text : List Char) :
    text.flatMap dartEscape = replacedAll replacements text := by
  refine flatMap_eq_replacedAll (fun c => ?_) text
  -- It is enough to look at one character at a time; each of the four is replaced once and stays
  -- so.
  unfold dartEscape
  simp only [beq_iff_eq]
  split_ifs with hbackslash hquote hdollar hfeed
  · rw [hbackslash]
    rfl
  · rw [hquote]
    rfl
  · rw [hdollar]
    rfl
  · rw [hfeed]
    rfl
  · simp [replacedAll, replacements, replaced, hbackslash, hquote, hdollar, hfeed]

/-! ### What is written is read -/

/-- **A character is read off what is written for it,** whatever comes behind it. -/
theorem lineChar_escape {c : Char} (h : c ≠ '\r') (rest : List Char) :
    lineChar (dartEscape c ++ rest) = some (c, rest) := by
  unfold dartEscape
  split
  · next hc =>
    rw [beq_iff_eq.mp hc]
    rfl
  next hbackslash =>
  split
  · next hc =>
    rw [beq_iff_eq.mp hc]
    rfl
  next hquote =>
  split
  · next hc =>
    rw [beq_iff_eq.mp hc]
    rfl
  next hdollar =>
  split
  · next hc =>
    rw [beq_iff_eq.mp hc]
    rfl
  next hfeed =>
  -- What is left is written as it is, and a carriage return is not among it.
  have hplain : (c != '"' && c != '\\' && c != '$' && !isLineBreak c) = true := by
    rw [beq_iff_eq] at hbackslash hquote hdollar hfeed
    simp [isLineBreak, hbackslash, hquote, hdollar, hfeed, h]
  exact orElse_of_eq (char_of_pos hplain rest)

/-- Every character is written as something. -/
theorem dartEscape_ne_nil (c : Char) : dartEscape c ≠ [] := by
  unfold dartEscape
  repeat' split
  all_goals exact List.cons_ne_nil _ _

/-- Characters that are no carriage return are read off what is written for them, up to something
that is no character of the string. -/
theorem many_lineChar {text rest : List Char} (h : '\r' ∉ text) (hrest : lineChar rest = none) :
    many lineChar (text.flatMap dartEscape ++ rest) = some (text, rest) := by
  have hread : many lineChar (text.flatMap dartEscape ++ rest) = some (text.map id, rest) :=
    many_flatMap (fun c hc more => lineChar_escape (fun heq => h (heq ▸ hc)) more)
      (fun c _ => dartEscape_ne_nil c) hrest
  rwa [List.map_id] at hread

/-- **What is written for a text is one string on one line,** and the string is the text, unless there
is a carriage return in the text: then it is no string. -/
theorem lineString_dartQuoted (text : String) :
    readAll? lineString (dartQuoted text).toList =
      if '\r' ∈ text.toList then none else some text.toList := by
  have hwritten : (dartQuoted text).toList =
      "\"".toList ++ (text.toList.flatMap dartEscape ++ ['"']) := by
    simp [dartQuoted, inQuotes]
  split
  · next hmem =>
    -- The string is read up to the first carriage return, where there is no quote.
    obtain ⟨before, after, htext, hbefore⟩ := List.eq_append_cons_of_mem hmem
    have hread : many lineChar (text.toList.flatMap dartEscape ++ ['"']) =
        some (before, '\r' :: (after.flatMap dartEscape ++ ['"'])) := by
      have hreturn : lineChar ('\r' :: (after.flatMap dartEscape ++ ['"'])) = none := rfl
      rw [htext, List.flatMap_append, List.append_assoc, List.flatMap_cons]
      exact many_lineChar hbefore hreturn
    have hrefused : lineString (dartQuoted text).toList = none := by
      rw [hwritten, lineString, bind_of_eq (word_append "\"" _), bind_of_eq hread]
      rfl
    rw [readAll?, hrefused]
  · next hnone =>
    have hquote : lineChar ['"'] = none := rfl
    rw [readAll?_eq_some_iff, hwritten, lineString, bind_of_eq (word_append "\"" _),
      bind_of_eq (many_lineChar hnone hquote)]
    rfl

/-- A dollar sign that is not escaped begins an expression. -/
example : readAll? lineString "\"a$b\"".toList = none := by decide +kernel

/-- The two halves of a pair are one character. -/
example : readAll? lineString "\"\\uD83D\\uDE00\\$\"".toList = some "😀$".toList := by
  decide +kernel

/-- **A carriage return is written as it is,** so the line of the string ends there. -/
theorem lineString_return : readAll? lineString (dartQuoted "a\rb").toList = none := by
  decide +kernel

end DartReader

end DesignCompiler
