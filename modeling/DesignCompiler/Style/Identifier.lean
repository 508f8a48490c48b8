import DesignCompiler.Record
import DesignCompiler.Text.Words
/-!
# Identifiers for generated declarations

`legalIdentifier` turns any name into an identifier of ASCII letters and digits that starts with a
capital. A `Namer` hands such identifiers out, each one once: where the wanted one is reserved or
taken, a number is put behind it, and the count for each wanted identifier goes on from call to
call.
-/

namespace DesignCompiler

/-- The words that generated code cannot use as names. -/
inductive ReservedWords where
  | react
  | dart
  | none
deriving DecidableEq, Repr

/-- The words of a set. -/
def ReservedWords.words : ReservedWords → List String
  | react =>
    ["React", "Fragment", "Component", "styled", "css", "default", "export", "import", "function",
      "return", "class", "const", "let", "var", "new", "this", "super", "null", "undefined", "true",
      "false", "Object", "Array", "String", "Number", "Image", "Text", "Node", "Element", "Window",
      "Document"]
  | dart =>
    ["Widget", "Container", "Text", "Image", "Icon", "Row", "Column", "Stack", "Positioned",
      "Opacity", "Expanded", "SizedBox", "Padding", "Center", "class", "const", "final", "var",
      "new", "return", "this", "super", "null", "true", "false", "void", "dynamic", "Object",
      "String", "Function"]
  | none => []

/-- Whether a character is an ASCII letter or digit. -/
def isIdentifierChar (c : Char) : Bool := c.isAlphanum

/-- **An identifier for a name.** All but ASCII letters and digits separates words, the words are
capitalized and joined, an `N` goes before a digit, and a name without words is `Wrapper`. -/
def legalIdentifier (name : String) : String :=
  let cleaned := name.toList.map fun c => if isIdentifierChar c then c else ' '
  let identifier := pascalCase (String.ofList cleaned)
  -- Characters that are no letters or digits may leave no word at all.
  match identifier.toList with
  | [] => "Wrapper"
  | c :: _ => if c.isDigit then "N" ++ identifier else identifier

/-- A source of distinct identifiers within a scope. -/
structure Namer where
  scope : String
  reserved : ReservedWords
  taken : List String := []
  /-- How far the numbers behind each wanted identifier have gone. -/
  counters : Record Nat := {}

namespace Namer

/-- Whether an identifier may be handed out. -/
def isFree (n : Namer) (identifier : String) : Bool :=
  !n.reserved.words.contains identifier && !n.taken.contains identifier

/-- The first number after `count` that makes a free identifier, among the next `tries`. -/
def nextCount (n : Namer) (base : String) : Nat → Nat → Nat
  | 0, count => count
  | tries + 1, count =>
    if n.isFree (base ++ toString (count + 1)) then count + 1
    else nextCount n base tries (count + 1)

/-- As many tries as there are names in the way, and one more, are sure to meet a free one. -/
def enoughTries (n : Namer) : Nat := n.reserved.words.length + n.taken.length + 1

/-- **Hands out an identifier for a name.** -/
def nameIt (n : Namer) (name : String) : String × Namer :=
  let base := legalIdentifier name
  if n.isFree base then (base, { n with taken := base :: n.taken })
  else
    let count := n.nextCount base n.enoughTries ((n.counters.get? base).getD 0)
    let identifier := base ++ toString count
    (identifier, { n with
      taken := identifier :: n.taken
      counters := n.counters.put base count })

/-- Hands out identifiers for several names in order. -/
def nameAll (n : Namer) : List String → List String × Namer
  | [] => ([], n)
  | name :: rest =>
    let (identifier, n) := n.nameIt name
    let (identifiers, n) := n.nameAll rest
    (identifier :: identifiers, n)

end Namer

end DesignCompiler
