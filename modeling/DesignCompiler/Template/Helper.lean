import DesignCompiler.Code.Scaffold
import DesignCompiler.Json
/-!
# Helpers of templates

A helper makes one value of its arguments. `indent` and `kebab_case` make text; the others are those
that every template knows: the ones for blocks, which give nothing outside of a block, a look-up,
comparisons, and connectives.

* `TemplateHelper.named?` finds a helper by its name;
* `TemplateHelper.evaluate?` applies one, and fails where it lacks an argument or compares what has no
  order.
-/

namespace DesignCompiler

/-- The helpers. -/
inductive TemplateHelper where
  | indent
  | kebabCase
  /-- Begins a block; gives nothing by itself. -/
  | block
  /-- Gives nothing and needs no argument. -/
  | silent
  | lookup
  | equal
  | unequal
  | greater (orEqual : Bool)
  | less (orEqual : Bool)
  | both
  | either
  | opposite
  | size
deriving DecidableEq, Repr

namespace Json

mutual

/-- Whether two values are the same. Whole numbers and decimals differ, and the members of an object
have no order. -/
def same : Json → Json → Bool
  | null, null => true
  | bool a, bool b => a == b
  | integer a, integer b => a == b
  | decimal a, decimal b => a == b
  | string a, string b => a == b
  | array a, array b => sameItems a b
  | object a, object b => a.length == b.length && sameMembers a b
  | _, _ => false

/-- Whether two lists have the same items. -/
def sameItems : List Json → List Json → Bool
  | [], [] => true
  | a :: as, b :: bs => same a b && sameItems as bs
  | _, _ => false

/-- Whether members are among others. -/
def sameMembers : List (String × Json) → List (String × Json) → Bool
  | [], _ => true
  | (name, a) :: rest, others =>
    (match others.lookup name with
      | some b => same a b
      | none => false) && sameMembers rest others

end

/-- Whether a value counts as true: neither null nor empty, and of numbers the normal ones. -/
def isTruthy : Json → Bool
  | null => false
  | bool value => value
  | integer value => value != 0
  | decimal value =>
    match Float.parts value with
    | .finite _ m _ => 0x10000000000000 ≤ m
    | _ => false
  | string text => text != ""
  | array items => !items.isEmpty
  | object members => !members.isEmpty

/-- How many items or members a value has, or how many bytes a text; zero for other values. -/
def size : Json → Nat
  | string text => text.utf8ByteSize
  | array items => items.length
  | object members => members.length
  | _ => 0

/-- A whole number of 64 bits with a sign. -/
def int? : Json → Option Int
  | integer value => if value < 0x8000000000000000 then some value else none
  | _ => none

/-- The item of a list by its number or the member of an object by its name; otherwise null. -/
def pick (key : Json) : Json → Json
  | array items => (key.nat?.bind fun i => items[i]?).getD .null
  | object members => (key.string?.bind fun name => members.lookup name).getD .null
  | _ => .null

end Json

namespace TemplateHelper

/-- The helpers by name. -/
def names : List (String × TemplateHelper) :=
  [("indent", indent), ("kebab_case", kebabCase), ("if", block), ("unless", block),
   ("each", block), ("with", block), ("raw", silent), ("log", silent), ("lookup", lookup),
   ("eq", equal), ("ne", unequal), ("gt", greater false), ("gte", greater true),
   ("lt", less false), ("lte", less true), ("and", both), ("or", either), ("not", opposite),
   ("len", size)]

/-- The helper of a name. -/
def named? (name : String) : Option TemplateHelper := names.lookup name

/-- Compares the first two of some values as whole numbers. -/
def compareFirst? (accepts : Int → Int → Bool) (values : List Json) : Option Json := do
  let a ← (← values[0]?).int?
  let b ← (← values[1]?).int?
  return .bool (accepts a b)

/-- **What a helper makes of its arguments.** `indent` puts spaces in front of the lines of a text,
two unless a number is given, and `kebab_case` writes a name in lower case with hyphens; what is not
a text counts as an empty one. -/
def evaluate? (helper : TemplateHelper) (values : List Json) : Option Json :=
  let text := (values.head?.bind (·.string?)).getD ""
  match helper with
  | indent => some (.string (indentText ((values[1]?.bind (·.nat?)).getD 2) text))
  | kebabCase => some (.string (DesignCompiler.kebabCase text))
  | block => values.head?.map fun _ => .string ""
  | silent => some (.string "")
  | lookup => do return Json.pick (← values[1]?) (← values[0]?)
  | equal => do return .bool (Json.same (← values[0]?) (← values[1]?))
  | unequal => do return .bool (!Json.same (← values[0]?) (← values[1]?))
  | greater orEqual => compareFirst? (fun a b => b < a || (orEqual && a == b)) values
  | less orEqual => compareFirst? (fun a b => a < b || (orEqual && a == b)) values
  | both => do return .bool ((← values[0]?).isTruthy && (← values[1]?).isTruthy)
  | either => do return .bool ((← values[0]?).isTruthy || (← values[1]?).isTruthy)
  | opposite => do return .bool (!(← values[0]?).isTruthy)
  | size => do return .integer (← values[0]?).size

end TemplateHelper

end DesignCompiler
