import DesignCompiler.Number.Decimal
import DesignCompiler.Text.Quote
/-!
# JSON values

Configurations and the data of templates come as JSON values, and results can be handed out as
such. Whole numbers and decimals are told apart, as their notations are.

`Json.pretty` writes a value over several lines, two spaces for each level; a list or an object
without members stays on one line.
-/

namespace DesignCompiler

/-- A JSON value; the members of an object keep their order. -/
inductive Json where
  | null
  | bool (value : Bool)
  | integer (value : Int)
  | decimal (value : Float)
  | string (text : String)
  | array (items : List Json)
  | object (members : List (String × Json))

instance : Inhabited Json := ⟨.null⟩

namespace Json

/-- The member of an object under a name. -/
def member? (name : String) : Json → Option Json
  | object members => members.lookup name
  | _ => none

/-- The text of a string. -/
def string? : Json → Option String
  | string text => some text
  | _ => none

/-- The value of a truth value. -/
def bool? : Json → Option Bool
  | bool value => some value
  | _ => none

/-- A whole number that is not negative. -/
def nat? : Json → Option Nat
  | integer value => value.toNat?
  | _ => none

/-- **A decimal in JSON:** the fewest digits that read back, with at least one place; an exponent
with its sign where the point would lie more than sixteen digits to the right or five to the
left. -/
def decimalText (x : Float) : String :=
  match Float.parts x with
  | .finite negative m q =>
    signText negative ++
    if m = 0 then "0.0"
    else
      let (digits, e) := shortestDigits .binary64 m q
      let point := digits.length + e
      if 0 ≤ e ∧ point ≤ 16 then positional digits e ++ ".0"
      else if -5 < point ∧ point ≤ 16 then positional digits e
      else
        let fraction := String.ofList (digits.drop 1)
        String.ofList (digits.take 1) ++ (if fraction.isEmpty then "" else "." ++ fraction) ++
          "e" ++ (if 0 < point then "+" else "") ++ toString (point - 1)
  | .nan | .infinite _ => "null"

/-- The space in front of a line at a depth. -/
def margin (depth : Nat) : String := "".pushn ' ' (2 * depth)

mutual

/-- Writes a value that begins at a depth. -/
def write (depth : Nat) : Json → String
  | null => "null"
  | bool true => "true"
  | bool false => "false"
  | integer value => toString value
  | decimal value => decimalText value
  | string text => scriptQuoted text
  | array [] => "[]"
  | array (item :: items) =>
    "[\n" ++ margin (depth + 1) ++ item.write (depth + 1) ++ writeItems (depth + 1) items ++ "\n" ++
      margin depth ++ "]"
  | object [] => "\x7b\x7d"
  | object ((name, value) :: members) =>
    "\x7b\n" ++ margin (depth + 1) ++ scriptQuoted name ++ ": " ++ value.write (depth + 1) ++
      writeMembers (depth + 1) members ++ "\n" ++ margin depth ++ "\x7d"

/-- Writes the items after the first one. -/
def writeItems (depth : Nat) : List Json → String
  | [] => ""
  | item :: rest => ",\n" ++ margin depth ++ item.write depth ++ writeItems depth rest

/-- Writes the members after the first one. -/
def writeMembers (depth : Nat) : List (String × Json) → String
  | [] => ""
  | (name, value) :: rest =>
    ",\n" ++ margin depth ++ scriptQuoted name ++ ": " ++ value.write depth ++
      writeMembers depth rest

end

/-- A value over several lines. -/
def pretty (j : Json) : String := j.write 0

end Json

end DesignCompiler
