import DesignCompiler.Record
import DesignCompiler.Text.Blank
import DesignCompiler.Widget.Style
/-!
# Reserved references in text

Generated code refers to images by reserved references: the prefix and a key. A key is made of any
characters but blanks, quotes, brackets and backslashes, at least one of them, and goes on as far
as it can.

`references` cuts a text into its references and the characters between them, from left to right.
Both readings of a text are made from it: `reservedKeys` lists the keys, and `substitute` puts a
value in the place of each reference.
-/

namespace DesignCompiler

/-- Whether a character can be part of a key. -/
def isKeyChar (c : Char) : Bool := !isBlank c && !"\"'`<>()\\".toList.contains c

/-- A piece of a text: a character as it stands, or a reference with its key. -/
inductive ReferencePiece where
  | char (c : Char)
  | reference (key : List Char)
deriving DecidableEq, Repr

namespace ReferencePiece

/-- The key of a reference. -/
def key? : ReferencePiece → Option String
  | char _ => none
  | reference key => some (String.ofList key)

end ReferencePiece

/-- The key of the reference that a text begins with, if it does. -/
def leadingKey? (text : List Char) : Option (List Char) :=
  if reservationPrefix.toList.isPrefixOf text then
    let key := (text.drop reservationPrefix.length).takeWhile isKeyChar
    if key.isEmpty then none else some key
  else none

/-- **Cuts a text at its references.** The first `skip` characters belong to a reference that has
been found already, and are passed over. -/
def referencesFrom (skip : Nat) : List Char → List ReferencePiece
  | [] => []
  | c :: rest =>
    match skip with
    | skip + 1 => referencesFrom skip rest
    | 0 =>
      match leadingKey? (c :: rest) with
      | some key =>
        .reference key :: referencesFrom (reservationPrefix.length + key.length - 1) rest
      | none => .char c :: referencesFrom 0 rest

/-- The references of a text and the characters between them. -/
def references (text : String) : List ReferencePiece := referencesFrom 0 text.toList

/-- The keys in a text, each one once, in the order in which they first appear. -/
def reservedKeys (text : String) : List String :=
  ((references text).filterMap (·.key?)).eraseDups

/-- The value of a key in a table; one that the table does not have is the fallback. -/
def assetValue (table : Record String) (key : String) : String :=
  (table.get? key).getD fallbackSource

/-- What takes the place of a piece. -/
def ReferencePiece.replace (value : String → String) : ReferencePiece → List Char
  | char c => [c]
  | reference key => (value (String.ofList key)).toList

/-- **Puts the values of a table in the place of the references of a text.** -/
def substitute (table : Record String) (text : String) : String :=
  String.ofList ((references text).flatMap (·.replace (assetValue table)))

end DesignCompiler
