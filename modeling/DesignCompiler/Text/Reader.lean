/-!
# Reading text from the front

A `TextReader` takes a value off the front of a text, or refuses it. Readers follow one another, and
`<|>` asks the second one, from the same place, where the first one refuses; a choice that has been
made stays made. `many` is bounded by the length of the text, since a reader worth repeating takes
at least one character.

* `TextReader.readAll?` runs a reader and requires that nothing is left;
* `TextReader.spelled` gives the characters that a reader takes;
* `TextReader.notNext` looks ahead without taking anything.
-/

namespace DesignCompiler

/-- Takes a value off the front of a text and says what is left, or refuses. -/
abbrev TextReader := StateT (List Char) Option

namespace TextReader

variable {α : Type}

/-- A character of a class. -/
def char (allowed : Char → Bool) : TextReader Char := fun text =>
  match text with
  | [] => none
  | c :: rest => if allowed c then some (c, rest) else none

/-- A given text. -/
def word (expected : String) : TextReader Unit := fun text =>
  if expected.toList.isPrefixOf text then some ((), text.drop expected.length) else none

/-- The characters of a class that come next, if any. -/
def run (allowed : Char → Bool) : TextReader (List Char) := fun text =>
  some (text.takeWhile allowed, text.dropWhile allowed)

/-- At least one character of a class. -/
def run1 (allowed : Char → Bool) : TextReader (List Char) := do
  return (← char allowed) :: (← run allowed)

/-- Whether a character is a space, a tab, a line feed or a carriage return. -/
def isSpacing (c : Char) : Bool := c == ' ' || c == '\t' || c == '\n' || c == '\r'

/-- The spacing that comes next, if any. -/
def spacing : TextReader Unit := fun text => some ((), text.dropWhile isSpacing)

/-- What a reader gives, or nothing where it refuses. -/
def attempt (reader : TextReader α) : TextReader (Option α) := (some <$> reader) <|> pure none

/-- Refuses where a reader would not; takes nothing. -/
def notNext (reader : TextReader α) : TextReader Unit := fun text =>
  if (reader text).isSome then none else some ((), text)

/-- What a reader gives, as often as it does, at most so many times. -/
def upTo (reader : TextReader α) : Nat → TextReader (List α)
  | 0 => pure []
  | times + 1 => do
    match ← attempt reader with
    | some first => return first :: (← upTo reader times)
    | none => return []

/-- What a reader gives, as often as it does. -/
def many (reader : TextReader α) : TextReader (List α) := fun text =>
  upTo reader text.length text

/-- What a reader gives, at least once. -/
def many1 (reader : TextReader α) : TextReader (List α) := do
  return (← reader) :: (← many reader)

/-- The characters that a reader takes. -/
def spelled (reader : TextReader α) : TextReader (List Char) := fun text =>
  (reader text).map fun (_, rest) => (text.take (text.length - rest.length), rest)

/-- What a reader makes of a text when it takes all of it. -/
def readAll? (reader : TextReader α) (text : List Char) : Option α :=
  match reader text with
  | some (value, []) => some value
  | _ => none

/-- All of a text is read when nothing is left. -/
theorem readAll?_eq_some_iff {reader : TextReader α} {text : List Char} {value : α} :
    readAll? reader text = some value ↔ reader text = some (value, []) := by
  rw [readAll?]
  split
  · next found h => simp [h]
  · next h => simpa using fun found => h value found

end TextReader

end DesignCompiler
