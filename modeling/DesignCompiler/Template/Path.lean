import DesignCompiler.Json
import DesignCompiler.Text.Reader
/-!
# Paths into the data of a template

A path is names with points or slashes between them, such as `page.title`; a name with other
characters stands in brackets. In front there may be `this`, `./`, `@root` or steps `../`, which all
lead to the data itself, since a template is filled in from one place. After an `@` a path names a
variable of a loop, and there is none.

* `TemplatePath.reader` reads a path as it is spelled;
* `TemplatePath.follow?` goes along a path; only a step into a list can fail.
-/

namespace DesignCompiler

/-- A path as it is spelled, the names to go along, and whether it names a variable of a loop. -/
structure TemplatePath where
  spelling : String
  names : List String
  isVariable : Bool

namespace TemplatePath

open TextReader

/-! ### Spelling -/

/-- Whether a character can be part of a name. -/
def isNameChar (c : Char) : Bool :=
  c.isAlphanum || c == '_' || c == '-' || c == '$' || 128 ≤ c.toNat

/-- What stands between two steps. -/
def separator : TextReader Unit := word "." <|> word "/"

/-- A name, in brackets or not. -/
def name : TextReader (List Char) :=
  run1 isNameChar <|> (word "[" *> run (· != ']') <* word "]")

/-- The names of a path, and whether it names a variable. A `this` leads nowhere else, so it is no
step; an `@` counts only where a name is left after it and the data is not named in front. -/
def steps : TextReader (List String × Bool) := do
  let _ ← attempt ((word "this" *> separator) <|> word "./")
  let root ← attempt (word "@root" *> separator)
  let mark ← attempt (word "@")
  let _ ← many (word ".." *> separator)
  let first ← name
  let others ← many (separator *> name)
  let names := ((first :: others).map String.ofList).filter (· != "this")
  return (names, mark.isSome && root.isNone && !names.isEmpty)

/-- A path. -/
def reader : TextReader TemplatePath := fun text => do
  let ((names, isVariable), rest) ← steps text
  let spelling := text.take (text.length - rest.length)
  return (⟨String.ofList spelling, names, isVariable⟩, rest)

/-! ### Values -/

/-- The number of an item: digits, with or without a plus sign, that fit in 64 bits. -/
def itemNumber? (name : List Char) : Option Nat :=
  let digits := if name.head? == some '+' then name.drop 1 else name
  if !digits.isEmpty && digits.all isDecimalDigit && decimalValue digits < 0x10000000000000000 then
    some (decimalValue digits)
  else none

/-- **One step into a value.** A member that is not there is null, and so is every step into a value
without members. An item is named by its number; a list has no place for any other name. -/
def step? (name : String) : Json → Option Json
  | .object members => some ((members.lookup name).getD .null)
  | .array items => (itemNumber? name.toList).map fun i => (items[i]?).getD .null
  | _ => some .null

/-- The value at the end of a path. -/
def follow? (path : TemplatePath) (data : Json) : Option Json :=
  if path.isVariable then some .null
  else path.names.foldlM (fun j name => step? name j) data

end TemplatePath

end DesignCompiler
