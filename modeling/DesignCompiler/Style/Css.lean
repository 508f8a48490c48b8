import DesignCompiler.Record
import DesignCompiler.Text.Words
/-!
# Records of CSS declarations

The style of an element is a `Css`, a record from property names to values in the order in which
they were first set. It is written as a block (`Css.block`) or on one line (`Css.inline`).

`Css.canonicalKey` is a text that does not depend on the order, and is what two styles are compared
by when equal ones are to be shared.
-/

namespace DesignCompiler

/-- Property names and values, in order. -/
abbrev Css := Record String

namespace Css

/-- One declaration on a line. -/
def declaration (property value : String) : String := property ++ ": " ++ value ++ ";"

/-- The declarations, one a line, each behind some spaces. -/
def block (indent : Nat) (css : Css) : String :=
  String.join (css.toList.map fun (k, v) => "".pushn ' ' indent ++ declaration k v ++ "\n")

/-- Declarations on one line. -/
def inlinePairs (pairs : List (String × String)) : String :=
  " ".intercalate (pairs.map fun (k, v) => declaration k v)

/-- The declarations of a record on one line. -/
def inline (css : Css) : String := inlinePairs css.toList

/-- Pairs with names as the fields of a style object have them. -/
def camelCasePairs (pairs : List (String × String)) : List (String × String) :=
  pairs.map fun (k, v) => (camelCase k, v)

/-- The declarations of a record with names as the fields of a style object have them. -/
def camelCased (css : Css) : List (String × String) := camelCasePairs css.toList

/-- The order of pairs by name, then by value, both by code points. -/
def pairLe (p q : String × String) : Bool := p.1 < q.1 || (p.1 == q.1 && p.2 ≤ q.2)

/-- The pairs of a record in an order of their own. -/
def sortedPairs (css : Css) : List (String × String) := css.toList.mergeSort pairLe

/-- **A text for a record regardless of the order of its pairs.** -/
def canonicalKey (css : Css) : String :=
  ";".intercalate (css.sortedPairs.map fun (k, v) => k ++ ":" ++ v)

/-- Sets several properties, one after the other. -/
def setAll (css : Css) (pairs : List (String × String)) : Css :=
  pairs.foldl (fun c p => c.put p.1 p.2) css

@[simp] theorem setAll_nil (css : Css) : setAll css [] = css := rfl

@[simp] theorem setAll_cons (css : Css) (p : String × String) (pairs : List (String × String)) :
    setAll css (p :: pairs) = setAll (css.put p.1 p.2) pairs := rfl

theorem setAll_append (css : Css) (ps qs : List (String × String)) :
    setAll css (ps ++ qs) = setAll (setAll css ps) qs := by
  simp [setAll]

end Css

end DesignCompiler
